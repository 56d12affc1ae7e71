import Highlighter.Line.TreePaint
import Highlighter.Proofs.Neighbours
import Highlighter.Proofs.View
import Highlighter.Proofs.Words

/-!
# Where the lexemes of a line are looked for

A tree is painted by looking for its parts in the text of a line. On a line of a readable document,
`Legible`, every lexeme is among the places where the part that it is will be looked for: keys
(`mem_bare_keys`), scalars (`mem_scalar_ranges`), delimiters (`mem_code_occurrences`) and the equals
sign after a key (`find_equals`), while such a character is found in no other place
(`lexeme_of_mem_code_occurrences`).
-/

namespace Highlighter

open Lexeme

/-- `Legible number line lexemes` says that a line with the given number has the given lexemes, all
of them tokens and every two neighbours fit to stand side by side. -/
structure Legible (number : Nat) (line : Text) (lexemes : List Lexeme) : Prop where
  scans : Scans ⟨number, 1⟩ line lexemes
  feedless : '\n' ∉ line
  matched : ∀ lexeme ∈ lexemes, lexeme.token ≠ none
  spaced : Spaced lexemes

/-- The occurrences of a character in code are in order. -/
theorem code_occurrences_sorted (line : Text) (c : Char) :
    ((LineView.ofText line).codeOccurrences c).Pairwise (·.start < ·.start) :=
  (Text.find_all_sorted line).filter _

/-- Of ranges in order, the first that is wanted is the one that starts first. -/
theorem find_first_of_sorted {ranges : List Range} {own : Range} {wanted : Range → Bool}
    (hsorted : ranges.Pairwise (·.start < ·.start)) (hmem : own ∈ ranges)
    (hown : wanted own = true)
    (hleast : ∀ range ∈ ranges, wanted range = true → own.start ≤ range.start) :
    ranges.find? wanted = some own := by
  obtain ⟨first, rest, rfl⟩ := List.append_of_mem hmem
  refine List.find?_eq_some_iff_append.2 ⟨hown, first, rest, rfl, fun range hrange => ?_⟩
  have hlt := (List.pairwise_append.1 hsorted).2.2 range hrange own List.mem_cons_self
  by_contra hwanted
  have hle := hleast range (List.mem_append_left _ hrange) (by simpa using hwanted)
  omega

/-- An occurrence of a character in code is one of the character in the text. -/
theorem exists_of_mem_code_occurrences {line : Text} {c : Char} {range : Range}
    (hrange : range ∈ (LineView.ofText line).codeOccurrences c) :
    ∃ before after, line = before ++ c :: after ∧ range.start = before.byteLength ∧
      range.length = c.utf8Size ∧ (LineView.ofText line).inCode before.byteLength = true := by
  obtain ⟨hmem, hcode⟩ := List.mem_filter.1 hrange
  obtain ⟨before, rest, count, hline, hrest, hmatch, rfl⟩ := Text.exists_of_mem_find_all hmem
  split at hmatch
  · next hstarts =>
      obtain rfl : count = 0 := by simpa using hmatch
      obtain ⟨d, after, rfl⟩ := List.exists_cons_of_ne_nil hrest
      obtain rfl : c = d := by simpa using hstarts
      exact ⟨before, after, hline, rfl, by simp [Range.length], hcode⟩
  · cases hmatch

namespace Legible

variable {number : Nat} {line : Text} {lexemes : List Lexeme} (h : Legible number line lexemes)

include h

/-- The lexemes of a line have bytes, all of them on the line. -/
theorem bounds {lexeme : Lexeme} (hlexeme : lexeme ∈ lexemes) :
    (lexeme.rangeIn line).start < (lexeme.rangeIn line).stop ∧
      (lexeme.rangeIn line).stop ≤ line.byteLength :=
  (range_bounds (List.nil_append line) h.feedless h.scans hlexeme).2

/-- The ranges of lexemes are in order and apart. -/
theorem sorted :
    lexemes.Pairwise fun first second => (first.rangeIn line).stop ≤ (second.rangeIn line).start :=
  ranges_sorted (List.nil_append line) h.feedless h.scans

/-- No byte belongs to two lexemes. -/
theorem unique (offset : Nat) {first second : Lexeme} (hfirst : first ∈ lexemes)
    (hsecond : second ∈ lexemes) (hoffset : (first.rangeIn line).contains offset = true)
    (hoffset' : (second.rangeIn line).contains offset = true) : first = second :=
  range_unique (List.nil_append line) h.feedless h.scans hfirst hsecond hoffset hoffset'

/-- The lexemes of a line have its number. -/
theorem line_of_mem {lexeme : Lexeme} (hlexeme : lexeme ∈ lexemes) : lexeme.pos.line = number := by
  rw [scans_iff.1 h.scans] at hlexeme
  exact line_of_mem_scan h.feedless hlexeme

/-- No two lexemes stand at one place. -/
theorem eq_of_pos {first second : Lexeme} (hfirst : first ∈ lexemes) (hsecond : second ∈ lexemes)
    (hpos : first.pos = second.pos) : first = second := by
  have hbounds := h.bounds hfirst
  have hbounds' := h.bounds hsecond
  have hstart : (first.rangeIn line).start = (second.rangeIn line).start := by
    simp only [rangeIn, hpos]
  refine h.unique (first.rangeIn line).start hfirst hsecond ?_ ?_ <;>
    simp only [Range.contains, Bool.and_eq_true, decide_eq_true_eq] <;> omega

/-- No two lexemes take the same bytes. -/
theorem eq_of_range {first second : Lexeme} (hfirst : first ∈ lexemes) (hsecond : second ∈ lexemes)
    (hrange : first.rangeIn line = second.rangeIn line) : first = second := by
  have hbounds := h.bounds hsecond
  have hcontains : (second.rangeIn line).contains (second.rangeIn line).start = true := by
    simp [Range.contains, hbounds]
  exact h.unique _ hfirst hsecond (hrange ▸ hcontains) hcontains

/-- A lexeme is a token of its shape. -/
theorem token_of_mem {lexeme : Lexeme} (hlexeme : lexeme ∈ lexemes) :
    ∃ token, lexeme.token = some token :=
  Option.ne_none_iff_exists'.1 (h.matched lexeme hlexeme)

/-- Every quote is closed. -/
theorem closed : QuotesClosed lexemes :=
  fun lexeme hlexeme hnone => absurd hnone (h.matched lexeme hlexeme)

/-- A lexeme stands where its range says. -/
theorem place {lexeme : Lexeme} (hlexeme : lexeme ∈ lexemes) :
    ∃ before after, line = before ++ lexeme.text ++ after ∧
      Munched lexeme.token lexeme.text after ∧
      lexeme.rangeIn line = ⟨before.byteLength, (before ++ lexeme.text).byteLength⟩ :=
  place_of_mem h.scans h.feedless hlexeme

/-- No lexeme of a line is a line feed. -/
theorem token_ne_newline {lexeme : Lexeme} (hlexeme : lexeme ∈ lexemes) :
    lexeme.token ≠ some .newline := by
  intro htoken
  obtain ⟨before, after, hline, hshape, -⟩ := h.place hlexeme
  rw [htoken] at hshape
  refine h.feedless ?_
  rw [hline, text_of_char_token (rfl : charToken? '\n' = some .newline) hshape]
  simp

/-- A lexeme has characters. -/
theorem text_ne_nil {lexeme : Lexeme} (hlexeme : lexeme ∈ lexemes) : lexeme.text ≠ [] := by
  obtain ⟨_, _, _, hshape, _⟩ := h.place hlexeme
  exact hshape.ne_nil

/-- A comment ends its line. -/
theorem comment_place {lexeme : Lexeme} (hlexeme : lexeme ∈ lexemes)
    (htoken : lexeme.token = some .comment) :
    ∃ before, line = before ++ lexeme.text ∧
      lexeme.rangeIn line = ⟨before.byteLength, line.byteLength⟩ :=
  comment_place_of_mem h.scans h.feedless hlexeme htoken

/-- The range of a comment ends with its line. -/
theorem comment_stop {lexeme : Lexeme} (hlexeme : lexeme ∈ lexemes)
    (htoken : lexeme.token = some .comment) :
    (lexeme.rangeIn line).stop = line.byteLength := by
  obtain ⟨before, -, hrange⟩ := h.comment_place hlexeme htoken
  rw [hrange]

/-- What stands just before a word ends with a character apart. -/
theorem apart_before {first rest : List Lexeme} {lexeme previous : Lexeme}
    (hsplit : lexemes = first ++ lexeme :: rest) (hword : lexeme.isWord = true)
    (hprevious : previous ∈ first.getLast?) : ∀ c ∈ previous.text.getLast?, isApart c = true := by
  subst hsplit
  have hmem : previous ∈ first := List.mem_of_getLast? hprevious
  have hlexeme : lexeme ∈ first ++ lexeme :: rest := by simp
  obtain ⟨token, htoken⟩ := h.token_of_mem (List.mem_append_left _ hmem)
  obtain ⟨_, after, -, hshape, -⟩ := h.place (List.mem_append_left _ hmem)
  rw [htoken] at hshape
  refine apart_of_getLast hshape ?_ ?_
  · have hadjoins := (adjoins_previous h.spaced).words_apart
    rw [Option.mem_def.1 hprevious] at hadjoins
    simpa [edge, htoken, show lexeme.token.any Token.isWord = true from hword] using hadjoins
  · rintro rfl
    have hstop := h.comment_stop (List.mem_append_left _ hmem) htoken
    have horder := (List.pairwise_append.1 h.sorted).2.2 previous hmem lexeme (by simp)
    have hbounds := h.bounds hlexeme
    omega

/-- What stands just after a word starts with a character apart. -/
theorem apart_after {first rest : List Lexeme} {lexeme next : Lexeme}
    (hsplit : lexemes = first ++ lexeme :: rest) (hword : lexeme.isWord = true)
    (hnext : next ∈ rest.head?) : ∀ c ∈ next.text.head?, isApart c = true := by
  subst hsplit
  have hmem : next ∈ first ++ lexeme :: rest := by simp [List.mem_of_head? hnext]
  obtain ⟨token, htoken⟩ := h.token_of_mem hmem
  obtain ⟨_, after, -, hshape, -⟩ := h.place hmem
  rw [htoken] at hshape
  refine apart_of_head hshape ?_
  have hadjoins := (adjoins_next h.spaced).words_apart
  rw [Option.mem_def.1 hnext] at hadjoins
  simpa [edge, htoken, show lexeme.token.any Token.isWord = true from hword] using hadjoins

/-- A word stands where its range says, with characters apart on both sides. -/
theorem word_place {lexeme : Lexeme} (hlexeme : lexeme ∈ lexemes) (hword : lexeme.isWord = true) :
    ∃ before after, line = before ++ lexeme.text ++ after ∧
      Munched lexeme.token lexeme.text after ∧
      lexeme.rangeIn line = ⟨before.byteLength, (before ++ lexeme.text).byteLength⟩ ∧
      (∀ c ∈ before.getLast?, isApart c = true) ∧ ∀ c ∈ after.head?, isApart c = true := by
  obtain ⟨first, rest, hsplit⟩ := List.append_of_mem hlexeme
  have hscans := h.scans
  rw [hsplit] at hscans
  obtain ⟨done, last, hline, hlast, hnone, hdone⟩ := scans_append hscans
  obtain ⟨gap, after, rfl, hgap, hpos, hshape, hafter⟩ := scans_cons hlast
  rw [← Position.advance_append] at hpos
  have hwhole : done ++ gap ++ (lexeme.text ++ after) = line := by simp [hline]
  have hrange := range_in_of_pos hwhole h.feedless hpos
  refine ⟨done ++ gap, after, by simp [hline], hshape,
    by rw [hrange, Text.byte_length_append _ lexeme.text], ?_, ?_⟩
  · -- Before the word stands a blank, or else the lexeme before it.
    intro c hc
    rw [List.getLast?_append, Option.mem_def, Option.or_eq_some_iff] at hc
    obtain hc | ⟨-, hc⟩ := hc
    · simp [isApart, hgap c (List.mem_of_getLast? hc)]
    · cases hprevious : first.getLast? with
      | none =>
          rw [hnone (List.getLast?_eq_none_iff.1 hprevious)] at hc
          cases hc
      | some previous =>
          obtain ⟨start, rfl, -⟩ := hdone previous hprevious
          have htext := h.text_ne_nil (hsplit ▸
            List.mem_append_left _ (List.mem_of_getLast? hprevious))
          rw [List.getLast?_append_of_ne_nil _ htext] at hc
          exact h.apart_before hsplit hword hprevious c hc
  · -- After the word stands a blank, or else the lexeme after it.
    cases rest with
    | nil =>
        intro c hc
        simp [isApart, blank_of_scans_nil hafter c (List.mem_of_head? hc)]
    | cons next others =>
        obtain ⟨space, tail, rfl, hspace, -, hnext, -⟩ := scans_cons hafter
        cases space with
        | nil =>
            intro c hc
            rw [List.nil_append, List.head?_append_of_ne_nil _ hnext.ne_nil] at hc
            exact h.apart_after hsplit hword rfl c hc
        | cons d ds =>
            rintro c ⟨⟩
            simp [isApart, hspace d List.mem_cons_self]

/-- A comment is the first one of its line. -/
theorem find_comment {comment : Lexeme} (hcomment : comment ∈ lexemes)
    (htoken : comment.token = some .comment) : lexemes.find? isComment = some comment := by
  have hmem : comment ∈ lexemes.filter isComment :=
    List.mem_filter.2 ⟨hcomment, by simpa [isComment] using htoken⟩
  rw [comments_eq h.scans h.feedless] at hmem
  exact Option.mem_toList.1 hmem

/-- The code of a line ends where its comment starts. -/
theorem code_end_of_comment {comment : Lexeme} (hcomment : comment ∈ lexemes)
    (htoken : comment.token = some .comment) :
    (LineView.ofText line).codeEnd = (comment.rangeIn line).start := by
  rw [code_end_eq h.scans h.feedless h.closed, h.find_comment hcomment htoken, Option.elim_some]

/-- The span of the comment of a line is that of its comment lexeme. -/
theorem comment_span_eq {comment : Lexeme} (hcomment : comment ∈ lexemes)
    (htoken : comment.token = some .comment) :
    commentSpan? line = some (Span.ofRange (comment.rangeIn line)
      (CommentKind.ofText comment.text).category) := by
  have hstop := h.comment_stop hcomment htoken
  rw [commentSpan?, find_comment_eq h.scans h.feedless h.closed, h.find_comment hcomment htoken]
  simp [Span.ofRange, Range.length, hstop]

/-- A line without a comment lexeme has no span of a comment. -/
theorem comment_span_of_none (hnone : ¬ ∃ comment ∈ lexemes, comment.token = some .comment) :
    commentSpan? line = none := by
  have hfind : lexemes.find? isComment = none := by
    simpa [List.find?_eq_none, isComment] using hnone
  rw [commentSpan?, find_comment_eq h.scans h.feedless h.closed, hfind]
  rfl

/-- A lexeme that is no comment starts before the comment. -/
theorem start_lt_code_end {lexeme : Lexeme} (hlexeme : lexeme ∈ lexemes)
    (hcomment : lexeme.token ≠ some .comment) :
    (lexeme.rangeIn line).start < (LineView.ofText line).codeEnd := by
  have hbounds := h.bounds hlexeme
  by_cases hexists : ∃ comment ∈ lexemes, comment.token = some .comment
  · obtain ⟨comment, hmem, htoken⟩ := hexists
    have hstop := h.comment_stop hmem htoken
    rw [h.code_end_of_comment hmem htoken]
    by_contra hlate
    -- The lexeme would start in the comment.
    have hsame : lexeme = comment := by
      refine h.unique (lexeme.rangeIn line).start hlexeme hmem ?_ ?_ <;>
        simp only [Range.contains, Bool.and_eq_true, decide_eq_true_eq] <;> omega
    exact hcomment (hsame ▸ htoken)
  · have hfind : lexemes.find? isComment = none := by
      simpa [List.find?_eq_none, isComment] using hexists
    rw [code_end_eq h.scans h.feedless h.closed, hfind, Option.elim_none]
    omega

/-- A lexeme that is neither a string nor a comment starts in code. -/
theorem in_code {lexeme : Lexeme} (hlexeme : lexeme ∈ lexemes)
    (hstring : lexeme.token ≠ some .string) (hcomment : lexeme.token ≠ some .comment) :
    (LineView.ofText line).inCode (lexeme.rangeIn line).start = true := by
  have hbounds := h.bounds hlexeme
  simp only [LineView.inCode, Bool.and_eq_true, decide_eq_true_eq, Bool.not_eq_true']
  refine ⟨h.start_lt_code_end hlexeme hcomment, ?_⟩
  rw [literals_eq h.scans h.feedless h.closed, List.any_eq_false]
  intro range hrange hcontains
  obtain ⟨other, hother, rfl⟩ := List.mem_map.1 hrange
  obtain ⟨hmem, htoken⟩ := List.mem_filter.1 hother
  have hsame : lexeme = other := by
    refine h.unique _ hlexeme hmem ?_ hcontains
    simp only [Range.contains, Bool.and_eq_true, decide_eq_true_eq]
    omega
  exact hstring (hsame ▸ by simpa [isString] using htoken)

/-- A character belongs to a lexeme, or is blank. -/
theorem exists_of_char {before after : Text} {c : Char} (hline : line = before ++ c :: after)
    (hc : isBlank c = false) :
    ∃ lexeme ∈ lexemes, c ∈ lexeme.text ∧
      (lexeme.rangeIn line).contains before.byteLength = true := by
  have hscans := h.scans
  rw [hline] at hscans
  obtain ⟨lexeme, hlexeme, start, first, second, last, rfl, htext, rfl, hpos⟩ :=
    scans_cover hscans hc
  have hplace : start ++ (lexeme.text ++ last) = line := by simp [hline, htext]
  have hrange := range_in_of_pos hplace h.feedless hpos
  have hsize := c.utf8Size_pos
  refine ⟨lexeme, hlexeme, by simp [htext], ?_⟩
  simp only [hrange, htext, Range.contains, Text.byte_length_append, Text.byte_length_cons,
    Bool.and_eq_true, decide_eq_true_eq]
  omega

/-- A character in code belongs to a lexeme that is neither a string nor a comment, or is blank. -/
theorem exists_of_in_code {before after : Text} {c : Char} (hline : line = before ++ c :: after)
    (hc : isBlank c = false) (hcode : (LineView.ofText line).inCode before.byteLength = true) :
    ∃ lexeme ∈ lexemes, c ∈ lexeme.text ∧ lexeme.token ≠ some .string ∧
      lexeme.token ≠ some .comment ∧ (lexeme.rangeIn line).contains before.byteLength = true := by
  obtain ⟨lexeme, hlexeme, hmem, hcontains⟩ := h.exists_of_char hline hc
  simp only [LineView.inCode, Bool.and_eq_true, decide_eq_true_eq, Bool.not_eq_true'] at hcode
  refine ⟨lexeme, hlexeme, hmem, ?_, ?_, hcontains⟩
  · intro htoken
    rw [literals_eq h.scans h.feedless h.closed, List.any_eq_false] at hcode
    have hstring : lexeme ∈ lexemes.filter isString :=
      List.mem_filter.2 ⟨hlexeme, by simpa [isString] using htoken⟩
    exact hcode.2 _ (List.mem_map_of_mem hstring)
      hcontains
  · intro htoken
    rw [h.code_end_of_comment hlexeme htoken] at hcode
    simp only [Range.contains, Bool.and_eq_true, decide_eq_true_eq] at hcontains
    omega

/-- A word that is no number is spelled in identifier characters. -/
theorem ident_chars {lexeme : Lexeme} {token : Token} (hlexeme : lexeme ∈ lexemes)
    (htoken : lexeme.token = some token) (hword : token.isWord = true) (hnumber : token ≠ .number) :
    wordToken lexeme.text = token ∧ ∀ c ∈ lexeme.text, Text.isIdentChar c = true := by
  obtain ⟨_, after, -, hshape, -⟩ := h.place hlexeme
  rw [htoken] at hshape
  exact word_of_munched hshape hword hnumber

/-- An identifier is one of the places where its key may stand. -/
theorem mem_bare_keys {lexeme : Lexeme} (hlexeme : lexeme ∈ lexemes)
    (htoken : lexeme.token = some .ident) :
    lexeme.rangeIn line ∈ (Canvas.ofText number line).bareKeys lexeme.text := by
  have hword : lexeme.isWord = true := by simp [Lexeme.isWord, htoken, Token.isWord]
  obtain ⟨-, hident⟩ := h.ident_chars hlexeme htoken rfl (by simp)
  have hcode := h.in_code hlexeme (by simp [htoken]) (by simp [htoken])
  obtain ⟨before, after, hline, hshape, hrange, hbefore, hafter⟩ := h.word_place hlexeme hword
  rw [hrange] at hcode ⊢
  refine List.mem_filter.2 ⟨?_, ?_⟩
  · show _ ∈ line.occurrences lexeme.text
    rw [hline]
    refine Text.mem_find_all hshape.ne_nil (if_pos (by simp)) (not_straddles _ hbefore ?_)
    intro previous text count hmatch c hc
    split at hmatch
    · next hstarts =>
        cases hmatch
        rw [take_of_isPrefixOf hstarts] at hc
        exact not_apart_of_ident (hident c hc)
    · cases hmatch
  · have hwhole := Text.is_whole_word_iff before lexeme.text after
    rw [← hline, not_ident_of_apart hbefore, not_ident_of_apart hafter] at hwhole
    show ((line.isWholeWord? _ _).getD false && (LineView.ofText line).inCode _) = true
    rw [hwhole, hcode]
    rfl

/-- A word that is no number is matched whole where it stands, and no match of identifier characters
reaches over its start. -/
theorem whole_word_at {lexeme : Lexeme} {token : Token} (hlexeme : lexeme ∈ lexemes)
    (htoken : lexeme.token = some token) (hword : token.isWord = true) (hnumber : token ≠ .number) :
    ∃ before after, line = before ++ lexeme.text ++ after ∧
      lexeme.rangeIn line = ⟨before.byteLength, (before ++ lexeme.text).byteLength⟩ ∧
      (∀ c ∈ before.getLast?, isApart c = true) ∧
      Text.wholeWord lexeme.text before.getLast? (lexeme.text ++ after) =
        some lexeme.text.length := by
  obtain ⟨-, hident⟩ := h.ident_chars hlexeme htoken hword hnumber
  obtain ⟨before, after, hline, hshape, hrange, hbefore, hafter⟩ :=
    h.word_place hlexeme (by simp [Lexeme.isWord, htoken, hword])
  have hedge : ∀ c ∈ lexeme.text, isWordChar c = true :=
    fun c hc => word_char_of_ident (hident c hc)
  have hfirst : (lexeme.text ++ after).head?.any isWordChar = true := by
    rw [List.head?_append_of_ne_nil _ hshape.ne_nil, List.head?_eq_some_head hshape.ne_nil]
    exact hedge _ (List.head_mem _)
  have hlast : lexeme.text.getLast?.any isWordChar = true := by
    rw [List.getLast?_eq_some_getLast hshape.ne_nil]
    exact hedge _ (List.getLast_mem _)
  refine ⟨before, after, hline, hrange, hbefore, if_pos ?_⟩
  rw [List.drop_left, isWordBoundary, isWordBoundary, not_word_of_apart hbefore,
    not_word_of_apart hafter, hfirst, hlast]
  simp

/-- A word that is no number is found by a pattern that matches its spelling as a whole word and
else identifier characters only. -/
theorem mem_word_matches {pattern : Pattern} {lexeme : Lexeme} {token : Token}
    (hlexeme : lexeme ∈ lexemes) (htoken : lexeme.token = some token) (hword : token.isWord = true)
    (hnumber : token ≠ .number)
    (hmatch : ∀ previous text, Text.wholeWord lexeme.text previous text =
      some lexeme.text.length → pattern previous text = some lexeme.text.length)
    (hident : ∀ previous text count, pattern previous text = some count →
      ∀ c ∈ text.take count, Text.isIdentChar c = true) :
    lexeme.rangeIn line ∈ line.findAll pattern := by
  obtain ⟨before, after, hline, hrange, hbefore, hwhole⟩ :=
    h.whole_word_at hlexeme htoken hword hnumber
  rw [hrange, hline]
  exact Text.mem_find_all (h.text_ne_nil hlexeme) (hmatch _ _ hwhole)
    (not_straddles _ hbefore fun previous text count hfound c hc =>
      not_apart_of_ident (hident previous text count hfound c hc))

/-- A word that is no number is among the whole words of its spelling. -/
theorem mem_whole_words {lexeme : Lexeme} {token : Token} (hlexeme : lexeme ∈ lexemes)
    (htoken : lexeme.token = some token) (hword : token.isWord = true) (hnumber : token ≠ .number) :
    lexeme.rangeIn line ∈ line.findAll (Text.wholeWord lexeme.text) := by
  obtain ⟨-, hident⟩ := h.ident_chars hlexeme htoken hword hnumber
  refine h.mem_word_matches hlexeme htoken hword hnumber (fun _ _ hwhole => hwhole) ?_
  intro previous text count hmatch c hc
  rw [take_of_whole_word hmatch] at hc
  exact hident c hc

/-- A number is among the matched numbers. -/
theorem mem_numbers {lexeme : Lexeme} (hlexeme : lexeme ∈ lexemes)
    (htoken : lexeme.token = some .number) :
    lexeme.rangeIn line ∈ line.findAll numberWord := by
  obtain ⟨before, after, hline, hshape, hrange, hbefore, hafter⟩ :=
    h.word_place hlexeme (by simp [Lexeme.isWord, htoken, Token.isWord])
  rw [htoken] at hshape
  rw [hrange, hline]
  refine Text.mem_find_all hshape.ne_nil (number_word_eq hshape hbefore hafter)
    (not_straddles _ hbefore ?_)
  intro previous text count hmatch c hc
  exact not_apart_of_part (part_of_number_word hmatch c hc)

/-- A scalar is one of the places where it may stand. -/
theorem mem_scalar_ranges {lexeme : Lexeme} {value : Scalar} (hlexeme : lexeme ∈ lexemes)
    (hscalar : Reader.scalarOf? lexeme = some value) :
    lexeme.rangeIn line ∈ (Canvas.ofText number line).scalarRanges value := by
  unfold Reader.scalarOf? at hscalar
  split at hscalar
  · next htoken =>
      cases hscalar
      show _ ∈ (LineView.ofText line).literals
      rw [literals_eq h.scans h.feedless h.closed]
      exact List.mem_map_of_mem (List.mem_filter.2 ⟨hlexeme, by simpa [isString] using htoken⟩)
  · next htoken =>
      cases hscalar
      have hstart := h.start_lt_code_end hlexeme (by simp [htoken])
      have hcode := h.in_code hlexeme (by simp [htoken]) (by simp [htoken])
      exact List.mem_filter.2 ⟨List.mem_filter.2 ⟨h.mem_numbers hlexeme htoken,
        decide_eq_true hstart⟩, hcode⟩
  · next flag htoken =>
      cases hscalar
      have hstart := h.start_lt_code_end hlexeme (by simp [htoken])
      have hmem := h.mem_whole_words hlexeme htoken rfl (by simp)
      have hspelled := text_of_word_token (h.ident_chars hlexeme htoken rfl (by simp)).1
      cases flag with
      | true =>
          rw [hspelled.1 rfl] at hmem
          exact List.mem_filter.2 ⟨hmem, decide_eq_true hstart⟩
      | false =>
          rw [hspelled.2.1 rfl] at hmem
          exact List.mem_filter.2 ⟨hmem, decide_eq_true hstart⟩
  · next htoken =>
      cases hscalar
      have hstart := h.start_lt_code_end hlexeme (by simp [htoken])
      have hmem := h.mem_whole_words hlexeme htoken rfl (by simp)
      have hspelled := text_of_word_token (h.ident_chars hlexeme htoken rfl (by simp)).1
      rw [hspelled.2.2 rfl] at hmem
      exact List.mem_filter.2 ⟨hmem, decide_eq_true hstart⟩
  · cases hscalar

/-- A token that is a character is among the occurrences of the character in code. -/
theorem mem_code_occurrences {lexeme : Lexeme} {c : Char} {token : Token}
    (hlexeme : lexeme ∈ lexemes) (htoken : lexeme.token = some token)
    (hc : charToken? c = some token) :
    lexeme.rangeIn line ∈ (LineView.ofText line).codeOccurrences c := by
  obtain ⟨-, hstring, hcomment⟩ := char_token_ne hc
  have hcode := h.in_code hlexeme (by simpa [htoken] using hstring)
    (by simpa [htoken] using hcomment)
  refine List.mem_filter.2 ⟨?_, hcode⟩
  obtain ⟨before, after, hline, hshape, hrange⟩ := h.place hlexeme
  rw [htoken] at hshape
  have htext := text_of_char_token hc hshape
  show _ ∈ line.occurrencesOf c
  rw [hrange, hline, htext]
  refine Text.mem_find_all (by simp) (if_pos (by simp)) ?_
  rintro ⟨outer, inner, count, -, hinner, hmatch, hlong⟩
  have hpos := List.length_pos_iff.2 hinner
  simp only [List.length_singleton, Option.ite_none_right_eq_some, Option.some.injEq] at hmatch
  omega

/-- A character in code that is a token is the lexeme that it is. -/
theorem lexeme_of_mem_code_occurrences {c : Char} {token : Token} {range : Range}
    (hc : charToken? c = some token)
    (hrange : range ∈ (LineView.ofText line).codeOccurrences c) :
    ∃ lexeme ∈ lexemes, lexeme.token = some token ∧ range = lexeme.rangeIn line := by
  obtain ⟨hblank, hident, hpart, hsize⟩ := char_token_plain hc
  obtain ⟨before, after, hline, hstart, hlength, hcode⟩ := exists_of_mem_code_occurrences hrange
  obtain ⟨lexeme, hlexeme, hmem, hstring, hcomment, hcontains⟩ :=
    h.exists_of_in_code hline hblank hcode
  obtain ⟨other, htoken⟩ := h.token_of_mem hlexeme
  obtain ⟨_, last, -, hshape, hplace⟩ := h.place hlexeme
  rw [htoken] at hshape hstring hcomment
  have hsame : charToken? c = some other := by
    obtain hkind | hkind | hkind | hkind | hkind := char_of_munched hshape hmem
    · exact absurd (congrArg some hkind) hstring
    · exact absurd (congrArg some hkind) hcomment
    · exact hkind
    · simp [hident] at hkind
    · simp [hpart] at hkind
  refine ⟨lexeme, hlexeme, htoken.trans (hsame.symm.trans hc), ?_⟩
  -- Both ranges have one byte.
  rw [text_of_char_token hsame hshape] at hplace
  simp only [Range.contains, hplace, Text.byte_length_append, Text.byte_length_cons,
    Text.byte_length_nil, Bool.and_eq_true, decide_eq_true_eq] at hcontains
  cases range
  simp only [Range.length] at hstart hlength
  simp only [hplace, Text.byte_length_append, Text.byte_length_cons, Text.byte_length_nil,
    Range.mk.injEq]
  omega

/-- The first equals sign in code after a key is the lexeme after it. -/
theorem find_equals {first rest : List Lexeme} {key equals : Lexeme}
    (hsplit : lexemes = first ++ key :: equals :: rest) (htoken : equals.token = some .equals) :
    ((LineView.ofText line).codeOccurrences '=').find? ((key.rangeIn line).stop ≤ ·.start) =
      some (equals.rangeIn line) := by
  have hkey : key ∈ lexemes := by simp [hsplit]
  have hequals : equals ∈ lexemes := by simp [hsplit]
  have hsorted := h.sorted
  rw [hsplit, List.pairwise_append, List.pairwise_cons, List.pairwise_cons] at hsorted
  obtain ⟨-, ⟨hafter, hlater, -⟩, hbefore⟩ := hsorted
  refine find_first_of_sorted (code_occurrences_sorted line '=')
    (h.mem_code_occurrences hequals htoken rfl) ?_ ?_
  · exact decide_eq_true (hafter equals List.mem_cons_self)
  · intro range hrange hstop
    obtain ⟨lexeme, hlexeme, -, rfl⟩ := h.lexeme_of_mem_code_occurrences rfl hrange
    have hstop : (key.rangeIn line).stop ≤ (lexeme.rangeIn line).start := of_decide_eq_true hstop
    have hbounds := h.bounds hlexeme
    have hkeybounds := h.bounds hkey
    rw [hsplit, List.mem_append, List.mem_cons, List.mem_cons] at hlexeme
    obtain hlexeme | rfl | rfl | hlexeme := hlexeme
    · have := hbefore lexeme hlexeme key List.mem_cons_self
      omega
    · omega
    · exact Nat.le_refl _
    · have := hlater lexeme hlexeme
      have := h.bounds hequals
      omega

/-- A lexeme stands once among the lexemes of its line. -/
theorem not_mem_of_split {lexeme : Lexeme} {before after : List Lexeme}
    (hsplit : lexemes = before ++ lexeme :: after) : lexeme ∉ before ∧ lexeme ∉ after := by
  have hbounds := h.bounds (show lexeme ∈ lexemes by simp [hsplit])
  have hsorted := h.sorted
  rw [hsplit, List.pairwise_append, List.pairwise_cons] at hsorted
  constructor
  · intro hmem
    have := hsorted.2.2 lexeme hmem lexeme List.mem_cons_self
    omega
  · intro hmem
    have := hsorted.2.1.1 lexeme hmem
    omega

/-- The lexemes of a line can be split at a lexeme in one way only. -/
theorem split_unique {lexeme : Lexeme} {before after first rest : List Lexeme}
    (hsplit : lexemes = before ++ lexeme :: after) (hother : lexemes = first ++ lexeme :: rest) :
    before = first ∧ after = rest := by
  obtain ⟨hbefore, hafter⟩ := h.not_mem_of_split hsplit
  obtain ⟨hfirst, -, hrest⟩ :=
    (List.append_cons_inj_of_notMem hbefore hafter).1 (hsplit.symm.trans hother)
  exact ⟨hfirst, hrest⟩

end Legible

/-- Whether a lexeme is a key among others: an equals sign follows it. -/
def Lexeme.isKeyIn (lexemes : List Lexeme) (lexeme : Lexeme) : Bool :=
  startsWithEquals (lexemes.dropWhile (· ≠ lexeme)).tail

namespace Legible

variable {number : Nat} {line : Text} {lexemes : List Lexeme} (h : Legible number line lexemes)

include h

/-- A lexeme is a key if an equals sign stands right after it. -/
theorem is_key_of_split {lexeme : Lexeme} {before after : List Lexeme}
    (hsplit : lexemes = before ++ lexeme :: after) :
    lexeme.isKeyIn lexemes = startsWithEquals after := by
  have hbefore := (h.not_mem_of_split hsplit).1
  have hdrop : lexemes.dropWhile (· ≠ lexeme) = lexeme :: after := by
    rw [hsplit, List.dropWhile_append_of_pos, List.dropWhile_cons_of_neg (by simp)]
    intro other hother
    exact decide_eq_true fun hsame => hbefore (hsame ▸ hother)
  rw [isKeyIn, hdrop, List.tail_cons]

/-- The equals sign after a key. -/
theorem equals_of_is_key {lexeme : Lexeme} (hlexeme : lexeme ∈ lexemes)
    (hkey : lexeme.isKeyIn lexemes = true) :
    ∃ first equals rest, lexemes = first ++ lexeme :: equals :: rest ∧
      equals.token = some .equals := by
  obtain ⟨first, after, hsplit⟩ := List.append_of_mem hlexeme
  rw [h.is_key_of_split hsplit, starts_with_equals_iff] at hkey
  obtain ⟨equals, rest, rfl, hequals⟩ := hkey
  exact ⟨first, equals, rest, hsplit, hequals⟩

/-- An identifier is a key. -/
theorem is_key_of_ident {lexeme : Lexeme} (hlexeme : lexeme ∈ lexemes)
    (htoken : lexeme.token = some .ident) : lexeme.isKeyIn lexemes = true := by
  obtain ⟨first, after, hsplit⟩ := List.append_of_mem hlexeme
  rw [h.is_key_of_split hsplit, starts_with_equals_iff]
  exact equals_of_ident (hsplit ▸ h.spaced) htoken

/-- A key is an identifier or a string. -/
theorem token_of_is_key {lexeme : Lexeme} (hlexeme : lexeme ∈ lexemes)
    (hkey : lexeme.isKeyIn lexemes = true) :
    lexeme.token = some .ident ∨ lexeme.token = some .string := by
  obtain ⟨first, equals, rest, hsplit, hequals⟩ := h.equals_of_is_key hlexeme hkey
  have hspaced := h.spaced
  rw [hsplit] at hspaced
  exact (adjoins_next hspaced).key_of_equals hequals

/-- A part of the line is what one of its lexemes is there. -/
theorem mem_items_iff {item : Item} :
    item ∈ Lexeme.items lexemes ↔
      ∃ lexeme ∈ lexemes, lexeme.item? (lexeme.isKeyIn lexemes) = some item := by
  rw [Lexeme.mem_items_iff]
  constructor
  · rintro ⟨first, lexeme, rest, hsplit, hitem⟩
    rw [← h.is_key_of_split hsplit] at hitem
    exact ⟨lexeme, by simp [hsplit], hitem⟩
  · rintro ⟨lexeme, hlexeme, hitem⟩
    obtain ⟨first, rest, hsplit⟩ := List.append_of_mem hlexeme
    rw [h.is_key_of_split hsplit] at hitem
    exact ⟨first, lexeme, rest, hsplit, hitem⟩

end Legible

end Highlighter
