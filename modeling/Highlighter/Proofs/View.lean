import Highlighter.Proofs.Lines

/-!
# Comments and literals of a line as lexemes

A line is looked at in three ways: it is scanned for lexemes, walked over for its comment, and
searched for its literals. They agree on every line all of whose quotes are closed
(`line_scanners_agree`): the comment is the comment lexeme (`comment_start_eq`) and the literals are
the string lexemes (`literals_eq`).

A lexeme stands on its line at the byte range `Lexeme.rangeIn`, which spells it (`place_of_mem`).
The ranges of lexemes are in order and apart (`ranges_sorted`).
-/

namespace Highlighter

/-- The bytes of a line that a lexeme on it takes. -/
def Lexeme.rangeIn (line : Text) (lexeme : Lexeme) : Range :=
  let start := line.charOffset (lexeme.pos.column - 1)
  ⟨start, start + lexeme.text.byteLength⟩

namespace Lexeme

section

variable {number : Nat} {done text line : Text} {lexemes : List Lexeme} {lexeme : Lexeme}
  (hline : done ++ text = line) (hfeed : '\n' ∉ line)

include hline hfeed

/-- A lexeme takes its bytes after those before it. -/
theorem range_in_of_pos (hpos : lexeme.pos = Position.advance ⟨number, 1⟩ done) :
    lexeme.rangeIn line = ⟨done.byteLength, done.byteLength + lexeme.text.byteLength⟩ := by
  have hdone : '\n' ∉ done := fun hmem => hfeed (hline ▸ List.mem_append_left _ hmem)
  have hcolumn : lexeme.pos.column - 1 = done.length := by
    rw [hpos, Position.advance_in_line _ hdone]
    simp
  rw [rangeIn, hcolumn, ← hline, Text.char_offset_append]

/-- Lexemes lie between the place where the scan starts and the end of the line, and have bytes. -/
theorem range_bounds (h : Scans (Position.advance ⟨number, 1⟩ done) text lexemes)
    (hlexeme : lexeme ∈ lexemes) :
    done.byteLength ≤ (lexeme.rangeIn line).start ∧
      (lexeme.rangeIn line).start < (lexeme.rangeIn line).stop ∧
      (lexeme.rangeIn line).stop ≤ line.byteLength := by
  obtain ⟨before, after, rfl, hpos, hshape⟩ := exists_of_mem_scans h hlexeme
  rw [← Position.advance_append] at hpos
  have hwhole : done ++ before ++ (lexeme.text ++ after) = line := by simpa using hline
  have hbytes := Text.byte_length_pos hshape.ne_nil
  rw [range_in_of_pos hwhole hfeed hpos, ← hwhole]
  simp only [Text.byte_length_append]
  omega

/-- The ranges of lexemes are in order and apart. -/
theorem ranges_sorted (h : Scans (Position.advance ⟨number, 1⟩ done) text lexemes) :
    lexemes.Pairwise fun first second =>
      (first.rangeIn line).stop ≤ (second.rangeIn line).start := by
  refine (scans_apart h).imp ?_
  rintro first second ⟨before, between, after, rfl, hfirst, hsecond⟩
  rw [← Position.advance_append] at hfirst hsecond
  have hplace : done ++ before ++ (first.text ++ between ++ second.text ++ after) = line := by
    simpa using hline
  have hnext : done ++ (before ++ first.text ++ between) ++ (second.text ++ after) = line := by
    simpa using hline
  rw [range_in_of_pos hplace hfeed hfirst, range_in_of_pos hnext hfeed hsecond]
  simp only [Text.byte_length_append]
  omega

/-- No byte belongs to two lexemes. -/
theorem range_unique (h : Scans (Position.advance ⟨number, 1⟩ done) text lexemes)
    {first second : Lexeme} {offset : Nat} (hfirst : first ∈ lexemes) (hsecond : second ∈ lexemes)
    (hoffset : (first.rangeIn line).contains offset = true)
    (hoffset' : (second.rangeIn line).contains offset = true) : first = second := by
  have hsorted := List.pairwise_iff_getElem.1 (ranges_sorted hline hfeed h)
  obtain ⟨i, hi, rfl⟩ := List.getElem_of_mem hfirst
  obtain ⟨j, hj, rfl⟩ := List.getElem_of_mem hsecond
  simp only [Range.contains, Bool.and_eq_true, decide_eq_true_eq] at hoffset hoffset'
  obtain hij | rfl | hij := Nat.lt_trichotomy i j
  · have := hsorted i j hi hj hij
    omega
  · rfl
  · have := hsorted j i hj hi hij
    omega

end

/-- Whether every quote that opens a literal is closed. -/
def QuotesClosed (lexemes : List Lexeme) : Prop :=
  ∀ lexeme ∈ lexemes, lexeme.token = none → lexeme.text.head?.any isQuote = false

/-- Blanks are neither quotes nor slashes. -/
theorem plain_of_blank {c : Char} (h : isBlank c = true) : isQuote c = false ∧ c ≠ '/' := by
  obtain ((rfl | rfl) | rfl) | rfl : ((c = ' ' ∨ c = '\t') ∨ c = '\r') ∨ c = '\x0c' := by
    simpa [isBlank] using h
  all_goals decide

/-- There is no quote and no slash in a token other than a string or a comment. -/
theorem plain_of_munched {token : Token} {word rest : Text} (h : Munched (some token) word rest)
    (hstring : token ≠ .string) (hcomment : token ≠ .comment) :
    ∀ c ∈ word, isQuote c = false ∧ c ≠ '/' := by
  intro c hc
  have hkind := char_of_munched h hc
  by_cases hplain : c = '"' ∨ c = '\'' ∨ c = '/'
  · obtain rfl | rfl | rfl := hplain <;>
      simp [hstring, hcomment, charToken?, Text.isIdentChar, Number.isPart] at hkind
  · simp only [not_or] at hplain
    simpa [isQuote] using ⟨⟨hplain.1, hplain.2.1⟩, hplain.2.2⟩

end Lexeme

open Lexeme

/-- The walk passes over characters that are neither quotes nor slashes. -/
theorem walk_plain (offset : Nat) {word : Text} (rest : Text)
    (h : ∀ c ∈ word, isQuote c = false ∧ c ≠ '/') :
    LineScan.ofText offset none (word ++ rest) =
      LineScan.ofText (offset + word.byteLength) none rest := by
  induction word generalizing offset with
  | nil => rfl
  | cons c cs ih =>
      obtain ⟨⟨hquote, hslash⟩, hcs⟩ := List.forall_mem_cons.1 h
      rw [List.cons_append, LineScan.ofText.eq_def]
      simp [hquote, hslash, ih _ hcs, Nat.add_assoc]

/-- The walk passes over a closed literal. -/
theorem walk_literal (offset opened : Nat) {quote : Char} {body : Text} (rest : Text)
    (hquote : isQuote quote = true) (h : Literal quote body) :
    LineScan.ofText offset (some (quote, opened)) (body ++ rest) =
      LineScan.ofText (offset + body.byteLength) none rest := by
  have hslash : quote ≠ '\\' := by
    rintro rfl
    cases hquote
  induction h generalizing offset with
  | close =>
      rw [List.cons_append, LineScan.ofText.eq_def]
      simp [hslash]
  | escape c body hc hbody ih =>
      rw [List.cons_append, LineScan.ofText.eq_def]
      simp [ih, Nat.add_assoc]
  | other c body hne hback hfeed hbody ih =>
      rw [List.cons_append, LineScan.ofText.eq_def]
      simp [hne, hback, ih, Nat.add_assoc]

/-- The walk passes over every lexeme but a comment and an open quote. -/
theorem walk_lexeme (offset : Nat) {token : Option Token} {word rest : Text}
    (h : Munched token word rest) (hcomment : token ≠ some .comment)
    (hclosed : token = none → word.head?.any isQuote = false) :
    LineScan.ofText offset none (word ++ rest) =
      LineScan.ofText (offset + word.byteLength) none rest := by
  cases token with
  | none =>
      cases h with
      | openQuote quote body _ hquote hlength => simp [hquote] at hclosed
      | stray c _ hquote hslashes =>
          rw [List.cons_append, LineScan.ofText.eq_def]
          simp [hquote, hslashes]
  | some token =>
      by_cases hstring : token = .string
      · subst hstring
        obtain ⟨quote, body, rfl, hquote, hliteral⟩ := literal_of_munched h
        rw [List.cons_append, LineScan.ofText.eq_def]
        simp [hquote, walk_literal _ _ _ hquote hliteral, Nat.add_assoc]
      · exact walk_plain offset rest (plain_of_munched h hstring (by simpa using hcomment))

/-- The walk ends at a comment. -/
theorem walk_comment (offset : Nat) {word rest : Text} (h : Munched (some .comment) word rest) :
    LineScan.ofText offset none (word ++ rest) = .marker offset := by
  obtain ⟨tail, rfl, hhead, -⟩ := slashes_of_munched h
  have hslash : (tail ++ rest).head? = some '/' := by cases tail <;> simp_all
  rw [List.cons_append, LineScan.ofText.eq_def]
  simp [hslash, isQuote]

/-- Whether a lexeme is a comment. -/
def Lexeme.isComment (lexeme : Lexeme) : Bool :=
  lexeme.token = some .comment

/-- Whether a lexeme is a string. -/
def Lexeme.isString (lexeme : Lexeme) : Bool :=
  lexeme.token = some .string

/-- A closed literal is measured. -/
theorem literal_length_of_literal {quote : Char} {body : Text} (hquote : isQuote quote = true)
    (h : Literal quote body) (rest : Text) :
    literalLength? quote (body ++ rest) = some body.length := by
  have hslash : '\\' ≠ quote := by
    rintro rfl
    cases hquote
  induction h with
  | close => simp [literalLength?.eq_def]
  | escape c body hc hbody ih => simp [literalLength?.eq_def _ ('\\' :: _), hslash, hc, ih]
  | other c body hne hback hfeed hbody ih =>
      simp [literalLength?.eq_def _ (c :: _), hne, hback, ih]

/-- No literal starts at a character other than a quote. -/
theorem quoted_literal_plain {c : Char} (h : isQuote c = false) (before : Option Char) (cs : Text) :
    quotedLiteral before (c :: cs) = none := by
  simp [quotedLiteral, h]

/-- A string lexeme is a match. -/
theorem quoted_literal_of_munched {word rest : Text} (h : Munched (some .string) word rest)
    (before : Option Char) : quotedLiteral before (word ++ rest) = some word.length := by
  obtain ⟨quote, body, rfl, hquote, hliteral⟩ := literal_of_munched h
  simp [quotedLiteral, hquote, literal_length_of_literal hquote hliteral]

/-- There is no quote in a lexeme other than a string, a comment and an open quote. -/
theorem quoteless_of_munched {token : Option Token} {word rest : Text}
    (h : Munched token word rest) (hstring : token ≠ some .string)
    (hcomment : token ≠ some .comment) (hclosed : token = none → word.head?.any isQuote = false) :
    ∀ c ∈ word, isQuote c = false := by
  cases token with
  | none =>
      cases h with
      | openQuote quote body _ hquote hlength => simp [hquote] at hclosed
      | stray c _ hquote hslashes => simpa using hquote
  | some token =>
      intro c hc
      exact (plain_of_munched h (by simpa using hstring) (by simpa using hcomment) c hc).1

section

variable {number : Nat} {done text line : Text} {lexemes : List Lexeme}
  (hline : done ++ text = line) (hfeed : '\n' ∉ line)
  (h : Scans (Position.advance ⟨number, 1⟩ done) text lexemes) (hclosed : QuotesClosed lexemes)

include hline hfeed h hclosed

/-- The walk over a line ends at its comment lexeme. -/
theorem line_scan_eq :
    LineScan.ofText done.byteLength none text =
      (lexemes.find? Lexeme.isComment).elim .clear
        fun comment => .marker (comment.rangeIn line).start := by
  induction lexemes generalizing done text with
  | nil =>
      have hwalk := walk_plain done.byteLength []
        (fun c hc => plain_of_blank (blank_of_scans_nil h c hc))
      rw [List.append_nil] at hwalk
      rw [hwalk]
      rfl
  | cons lexeme rest ih =>
      obtain ⟨hlexeme, hrest⟩ := List.forall_mem_cons.1 hclosed
      obtain ⟨gap, after, rfl, hgap, hpos, hshape, hafter⟩ := scans_cons h
      rw [← Position.advance_append] at hpos hafter
      have hplace : done ++ gap ++ (lexeme.text ++ after) = line := by simpa using hline
      have hnext : done ++ (gap ++ lexeme.text) ++ after = line := by simpa using hline
      rw [List.append_assoc, walk_plain _ _ (fun c hc => plain_of_blank (hgap c hc)),
        ← Text.byte_length_append]
      by_cases hcomment : lexeme.token = some .comment
      · rw [hcomment] at hshape
        rw [walk_comment _ hshape, List.find?_cons_of_pos (by simpa [isComment] using hcomment),
          Option.elim_some, range_in_of_pos hplace hfeed hpos]
      · rw [walk_lexeme _ hshape hcomment hlexeme,
          List.find?_cons_of_neg (by simpa [isComment] using hcomment),
          ← Text.byte_length_append, List.append_assoc]
        exact ih hnext hafter hrest

omit hclosed in
/-- The code of a line does not end before the lexemes that are scanned next. -/
theorem le_code_end {codeEnd : Nat}
    (hend : codeEnd = (lexemes.find? Lexeme.isComment).elim line.byteLength
      fun comment => (comment.rangeIn line).start) : done.byteLength ≤ codeEnd := by
  cases hfind : lexemes.find? isComment with
  | none =>
      rw [hend, hfind, Option.elim_none, ← hline, Text.byte_length_append]
      omega
  | some comment =>
      rw [hend, hfind, Option.elim_some]
      exact (range_bounds hline hfeed h (List.mem_of_find?_eq_some hfind)).1

/-- The matches before the comment of a line are its string lexemes. -/
theorem literals_from_eq (before : Option Char) {codeEnd : Nat}
    (hend : codeEnd = (lexemes.find? Lexeme.isComment).elim line.byteLength
      fun comment => (comment.rangeIn line).start) :
    (Text.matchesFrom quotedLiteral done.byteLength before 0 text).filter (·.start < codeEnd) =
      (lexemes.filter Lexeme.isString).map (·.rangeIn line) := by
  induction lexemes generalizing done text before with
  | nil =>
      have hpass := Text.matches_from_pass done.byteLength before []
        (fun c hc => quoted_literal_plain (plain_of_blank (blank_of_scans_nil h c hc)).1)
      rw [List.append_nil] at hpass
      rw [hpass]
      rfl
  | cons lexeme rest ih =>
      obtain ⟨hlexeme, hrest⟩ := List.forall_mem_cons.1 hclosed
      obtain ⟨gap, after, rfl, hgap, hpos, hshape, hafter⟩ := scans_cons h
      rw [← Position.advance_append] at hpos hafter
      have hplace : done ++ gap ++ (lexeme.text ++ after) = line := by simpa using hline
      have hnext : done ++ (gap ++ lexeme.text) ++ after = line := by simpa using hline
      have hrange := range_in_of_pos hplace hfeed hpos
      rw [List.append_assoc gap, Text.matches_from_pass _ _ _
        (fun c hc => quoted_literal_plain (plain_of_blank (hgap c hc)).1),
        ← Text.byte_length_append]
      by_cases hcomment : lexeme.token = some .comment
      · -- No match in the comment starts before it, and nothing follows it.
        rw [hcomment] at hshape
        obtain rfl := eq_nil_of_comment hshape
          (fun hmem => hfeed (hnext ▸ List.mem_append_right _ hmem))
        cases hafter
        rw [List.find?_cons_of_pos (by simpa [isComment] using hcomment), Option.elim_some,
          hrange] at hend
        rw [List.filter_cons_of_neg (by simp [isString, hcomment]), List.filter_nil, List.map_nil,
          List.filter_eq_nil_iff]
        intro range hmatch
        have hlow := (Text.matches_from_sorted _ _ _ _).1 range hmatch
        simpa [hend] using hlow
      · rw [List.find?_cons_of_neg (by simpa [isComment] using hcomment)] at hend
        by_cases hstring : lexeme.token = some .string
        · have hbound : (done ++ gap).byteLength < codeEnd := by
            have hbytes := Text.byte_length_pos hshape.ne_nil
            have hlow := le_code_end hnext hfeed hafter hend
            simp only [Text.byte_length_append] at hlow ⊢
            omega
          rw [hstring] at hshape
          rw [Text.matches_from_match _ hshape.ne_nil (quoted_literal_of_munched hshape _),
            List.filter_cons_of_pos (by simpa using hbound),
            List.filter_cons_of_pos (by simpa [isString] using hstring), List.map_cons, hrange,
            ← Text.byte_length_append, List.append_assoc]
          exact congrArg _ (ih hnext hafter hrest _ hend)
        · rw [Text.matches_from_pass _ _ _ (fun c hc => quoted_literal_plain
            (quoteless_of_munched hshape hstring hcomment hlexeme c hc)),
            List.filter_cons_of_neg (by simpa [isString] using hstring),
            ← Text.byte_length_append, List.append_assoc]
          exact ih hnext hafter hrest _ hend

end

/-- A line has one comment at most. -/
theorem comments_eq {pos : Position} {text : Text} {lexemes : List Lexeme}
    (h : Scans pos text lexemes) (hfeed : '\n' ∉ text) :
    lexemes.filter isComment = (lexemes.find? isComment).toList := by
  induction lexemes generalizing pos text with
  | nil => rfl
  | cons lexeme rest ih =>
      obtain ⟨gap, after, rfl, -, -, hshape, hafter⟩ := scans_cons h
      have hrest : '\n' ∉ after := fun hmem => hfeed (List.mem_append_right _ hmem)
      by_cases hcomment : lexeme.token = some .comment
      · rw [hcomment] at hshape
        obtain rfl := eq_nil_of_comment hshape hrest
        cases hafter
        simp [isComment, hcomment]
      · have hother : ¬ isComment lexeme = true := by simpa [isComment] using hcomment
        rw [List.filter_cons_of_neg hother, List.find?_cons_of_neg hother]
        exact ih hafter hrest

section

variable {number : Nat} {line : Text} {lexemes : List Lexeme}
  (h : Scans ⟨number, 1⟩ line lexemes) (hfeed : '\n' ∉ line)

include h hfeed

/-- A lexeme stands where its range says. -/
theorem place_of_mem {lexeme : Lexeme} (hlexeme : lexeme ∈ lexemes) :
    ∃ before after, line = before ++ lexeme.text ++ after ∧
      Munched lexeme.token lexeme.text after ∧
      lexeme.rangeIn line = ⟨before.byteLength, (before ++ lexeme.text).byteLength⟩ := by
  obtain ⟨before, after, hline, hpos, hshape⟩ := exists_of_mem_scans h hlexeme
  have hrange := range_in_of_pos (hline.trans (List.append_assoc _ _ _)).symm hfeed hpos
  exact ⟨before, after, hline, hshape, by rw [hrange, Text.byte_length_append]⟩

/-- A comment ends its line. -/
theorem comment_place_of_mem {lexeme : Lexeme} (hlexeme : lexeme ∈ lexemes)
    (htoken : lexeme.token = some .comment) :
    ∃ before, line = before ++ lexeme.text ∧
      lexeme.rangeIn line = ⟨before.byteLength, line.byteLength⟩ := by
  obtain ⟨before, after, hline, hshape, hrange⟩ := place_of_mem h hfeed hlexeme
  rw [htoken] at hshape
  rw [hline] at hfeed
  obtain rfl := eq_nil_of_comment hshape (fun hmem => hfeed (List.mem_append_right _ hmem))
  rw [List.append_nil] at hline
  exact ⟨before, hline, by rw [hrange, ← hline]⟩

end

section

variable {number : Nat} {line : Text} {lexemes : List Lexeme}
  (h : Scans ⟨number, 1⟩ line lexemes) (hfeed : '\n' ∉ line) (hclosed : QuotesClosed lexemes)

include h hfeed hclosed

/-- The comment of a line is its comment lexeme. -/
theorem comment_start_eq :
    commentStart? line =
      (lexemes.find? Lexeme.isComment).map fun comment => (comment.rangeIn line).start := by
  have hscan := line_scan_eq (List.nil_append line) hfeed h hclosed
  rw [Text.byte_length_nil] at hscan
  rw [commentStart?, hscan]
  cases lexemes.find? Lexeme.isComment <;> rfl

/-- The comment of a line starts where its comment lexeme does and is of the kind of its text. -/
theorem find_comment_eq :
    findComment? line = (lexemes.find? isComment).map fun comment =>
      ((comment.rangeIn line).start, CommentKind.ofText comment.text) := by
  simp only [findComment?, comment_start_eq h hfeed hclosed]
  cases hfind : lexemes.find? isComment with
  | none => rfl
  | some comment =>
      have htoken : comment.token = some .comment := by
        simpa [isComment] using List.find?_some hfind
      obtain ⟨before, hline, hrange⟩ :=
        comment_place_of_mem h hfeed (List.mem_of_find?_eq_some hfind) htoken
      have hsplit : line.splitAt? before.byteLength = some (before, comment.text) := by
        rw [hline, Text.split_at_byte_length]
      simp [hrange, hsplit]

/-- The code of a line ends at its comment lexeme. -/
theorem code_end_eq :
    (LineView.ofText line).codeEnd = (lexemes.find? Lexeme.isComment).elim line.byteLength
      fun comment => (comment.rangeIn line).start := by
  simp only [LineView.ofText, comment_start_eq h hfeed hclosed]
  cases lexemes.find? Lexeme.isComment <;> rfl

/-- The literals of a line are its string lexemes. -/
theorem literals_eq :
    (LineView.ofText line).literals = (lexemes.filter Lexeme.isString).map (·.rangeIn line) :=
  literals_from_eq (List.nil_append line) hfeed h hclosed none (code_end_eq h hfeed hclosed)

end

/-- On a line all of whose quotes are closed, the literals are the string lexemes, and the comment
is the one comment lexeme, if there is one. The range of a lexeme spells it. -/
theorem line_scanners_agree (line : Text) (hfeed : '\n' ∉ line)
    (hclosed : QuotesClosed (tokenize line)) :
    (LineView.ofText line).literals = ((tokenize line).filter isString).map (·.rangeIn line) ∧
      (findComment? line).toList = ((tokenize line).filter isComment).map (fun comment =>
        ((comment.rangeIn line).start, CommentKind.ofText comment.text)) ∧
      ∀ lexeme ∈ tokenize line,
        line.slice? (lexeme.rangeIn line).start (lexeme.rangeIn line).stop = some lexeme.text := by
  have hscans : Scans ⟨1, 1⟩ line (tokenize line) := scans_scan Position.start line
  refine ⟨literals_eq hscans hfeed hclosed, ?_, fun lexeme hlexeme => ?_⟩
  · rw [find_comment_eq hscans hfeed hclosed, comments_eq hscans hfeed]
    cases (tokenize line).find? isComment <;> rfl
  · obtain ⟨before, after, hline, -, hrange⟩ := place_of_mem hscans hfeed hlexeme
    rw [hrange]
    conv_lhs => rw [hline]
    exact Text.slice_append before lexeme.text after

/-- Both kinds of quotes, an escape before a character of two bytes, a marker in a literal, and
quotes in the comment. -/
theorem line_scanners_agree_mixed :
    let line := "'\"' = \"\\é//'\" //! it's \"x".toList
    '\n' ∉ line ∧ QuotesClosed (tokenize line) ∧
      (LineView.ofText line).literals = [⟨0, 3⟩, ⟨6, 14⟩] ∧
      (findComment? line).toList = [(15, .innerDoc)] := by
  intro line
  have hfeed : '\n' ∉ line := by decide
  have hclosed : QuotesClosed (tokenize line) := by
    unfold QuotesClosed
    decide +kernel
  obtain ⟨hliterals, hcomment, -⟩ := line_scanners_agree line hfeed hclosed
  exact ⟨hfeed, hclosed, hliterals.trans (by decide +kernel), hcomment.trans (by decide +kernel)⟩

end Highlighter
