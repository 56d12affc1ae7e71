import Highlighter.Proofs.Highlighting

/-!
# Painting a legible line by patterns

The rules by patterns know nothing of lexemes, and a match may stand inside a string, a comment or a
key. Such a match is harmless once the lexeme around it is shown, as the claim for it is refused. So
a rule for a category adds the lexemes that look like it to those shown before (`painted_rule`), if
each of its ranges belongs to one of them or reaches into a lexeme shown before. No two matches of a
pattern share a byte, so for a pattern that finds these lexemes it is enough to know which lexemes a
match can start in (`painted_matches`).
-/

namespace Highlighter

open Lexeme

/-- Buffers that show the same lexemes are the same. -/
theorem Painted.unique {line : Text} {lexemes : List Lexeme} {shown : Lexeme → Prop}
    {first second : Buffer} (hfirst : Painted line lexemes shown first)
    (hsecond : Painted line lexemes shown second) : first = second := by
  have hclaimed : ∀ offset, first.claimedAt offset = second.claimedAt offset := by
    intro offset
    ext category
    rw [hfirst.claimed, hsecond.claimed]
  have hlength : first.cells.length = second.cells.length :=
    hfirst.length.trans hsecond.length.symm
  have hcells : first.cells = second.cells := by
    refine List.ext_getElem hlength fun offset hlow hhigh => ?_
    have hsame := hclaimed offset
    rw [Buffer.claimedAt, Buffer.claimedAt, List.getElem?_eq_getElem hlow,
      List.getElem?_eq_getElem hhigh] at hsame
    exact hsame
  have hoverlays : first.overlays = second.overlays := hfirst.overlays.trans hsecond.overlays.symm
  cases first
  cases second
  rw [Buffer.mk.injEq]
  exact ⟨hcells, hoverlays⟩

/-- What a category tells about the token of a lexeme that has it. Symbols have several tokens. -/
def Category.Tells (token : Option Token) : Category → Prop
  | .key => token = some .ident
  | .operator => token = some .equals
  | .string => token = some .string
  | .number => token = some .number
  | .boolean => ∃ flag, token = some (.bool flag)
  | .null => token = some .null
  | .symbol => True
  | .comment => token = some .comment
  | .docComment => token = some .comment
  | .error => False

/-- The category of a lexeme tells its token. -/
theorem tells_token {lexeme : Lexeme} {category : Category}
    (h : lexeme.category? true = some category) : category.Tells lexeme.token := by
  cases htoken : lexeme.token with
  | none => simp [Lexeme.category?, htoken] at h
  | some token =>
      cases token with
      | newline => simp [Lexeme.category?, htoken] at h
      | comment =>
          obtain rfl : (CommentKind.ofText lexeme.text).category = category := by
            simpa [Lexeme.category?, htoken] using h
          cases CommentKind.ofText lexeme.text with
          | _ => rfl
      | bool flag =>
          obtain rfl : .boolean = category := by simpa [Lexeme.category?, htoken] using h
          exact ⟨flag, rfl⟩
      | _ =>
          simp only [Lexeme.category?, htoken, if_true, Option.some.injEq] at h
          subst h
          trivial

/-- A whole word starts with its first character. -/
theorem head_of_whole_word {first : Char} {word text : Text} {previous : Option Char} {count : Nat}
    (h : Text.wholeWord (first :: word) previous text = some count) :
    text.head? = some first := by
  rw [← List.take_append_drop count text, take_of_whole_word h]
  rfl

/-- A boolean is one of two words. -/
theorem boolean_word_cases {previous : Option Char} {text : Text} {count : Nat}
    (h : booleanWord previous text = some count) :
    Text.wholeWord "true".toList previous text = some count ∨
      Text.wholeWord "false".toList previous text = some count := by
  rw [booleanWord, Option.orElse_eq_orElse, Option.orElse_eq_or, Option.or_eq_some_iff] at h
  exact h.imp_right And.right

/-- Whether a lexeme looks like one of the given categories. -/
def Lexeme.Shaded (lexemes : List Lexeme) (done : List Category) (lexeme : Lexeme) : Prop :=
  ∃ category ∈ done, lexeme.shadeIn lexemes = some category

/-- A lexeme that looks like one of some categories looks like one of more. -/
theorem Lexeme.Shaded.mono {lexemes : List Lexeme} {done more : List Category} {lexeme : Lexeme}
    (h : lexeme.Shaded lexemes done) (hmore : done ⊆ more) : lexeme.Shaded lexemes more := by
  obtain ⟨category, hdone, hshade⟩ := h
  exact ⟨category, hmore hdone, hshade⟩

/-- A lexeme that looks like one of some categories looks like the first or like one of the rest. -/
theorem shaded_cons {lexemes : List Lexeme} {category : Category} {done : List Category}
    {lexeme : Lexeme} :
    lexeme.Shaded lexemes (category :: done) ↔
      lexeme.shadeIn lexemes = some category ∨ lexeme.Shaded lexemes done := by
  simp [Lexeme.Shaded]

/-- A comment looks like one of two kinds. -/
theorem shaded_of_comment (lexemes : List Lexeme) {lexeme : Lexeme}
    (htoken : lexeme.token = some .comment) : lexeme.Shaded lexemes [.comment, .docComment] := by
  refine ⟨_, ?_, shade_of_comment lexemes htoken⟩
  cases CommentKind.ofText lexeme.text with
  | _ => decide

namespace Legible

variable {number : Nat} {line : Text} {lexemes : List Lexeme} (h : Legible number line lexemes)
  {done : List Category} {category : Category} {buffer : Buffer}

include h

/-- A rule shows the lexemes that look like its category, if it claims their ranges and every other
range reaches into a lexeme that is shown. -/
theorem painted_rule {ranges : List Range}
    (hpainted : Painted line lexemes (Shaded lexemes done) buffer)
    (hown : ∀ lexeme ∈ lexemes, lexeme.shadeIn lexemes = some category →
      lexeme.rangeIn line ∈ ranges)
    (hranges : ∀ range ∈ ranges, ∃ lexeme ∈ lexemes,
      lexeme.shadeIn lexemes = some category ∧ range = lexeme.rangeIn line ∨
        lexeme.Shaded lexemes done ∧ ∃ offset, (lexeme.rangeIn line).contains offset = true ∧
          range.contains offset = true) :
    Painted line lexemes (Shaded lexemes (category :: done))
      (buffer.claimAll (ranges.map (Span.ofRange · category))) := by
  refine (painted_ranges h hpainted hranges).congr fun lexeme hlexeme => ?_
  rw [shaded_cons]
  constructor
  · intro hshown
    obtain hdone | hrange := hshown
    · exact .inr hdone
    · obtain ⟨found, hfound, ⟨hshade, hsame⟩ | ⟨hdone, offset, hoffset, hreach⟩⟩ :=
        hranges _ hrange
      · obtain rfl := h.eq_of_range hlexeme hfound hsame
        exact .inl hshade
      · obtain rfl := h.unique offset hlexeme hfound hreach hoffset
        exact .inr hdone
  · intro hshown
    obtain hshade | hdone := hshown
    · exact .inr (hown lexeme hlexeme hshade)
    · exact .inl hdone

/-- A claim for the only lexeme that looks like a category. -/
theorem painted_only {lexeme : Lexeme}
    (hpainted : Painted line lexemes (Shaded lexemes done) buffer) (hlexeme : lexeme ∈ lexemes)
    (hshade : lexeme.shadeIn lexemes = some category)
    (honly : ∀ other ∈ lexemes, other.shadeIn lexemes = some category → other = lexeme) :
    Painted line lexemes (Shaded lexemes (category :: done))
      (buffer.claim (Span.ofRange (lexeme.rangeIn line) category)) := by
  show Painted line lexemes _
    (buffer.claimAll ([lexeme.rangeIn line].map (Span.ofRange · category)))
  refine h.painted_rule hpainted (fun other hother hsame => ?_) fun range hrange => ?_
  · rw [honly other hother hsame]
    exact List.mem_singleton_self _
  · exact ⟨lexeme, hlexeme, .inl ⟨hshade, List.mem_singleton.1 hrange⟩⟩

/-- A match of a pattern that starts with no blank starts in a lexeme. -/
theorem exists_of_match {pattern : Pattern} {starts : Char → Prop} {range : Range}
    (hstarts : ∀ previous c cs count, pattern previous (c :: cs) = some (count + 1) → starts c)
    (hblank : ∀ c, starts c → isBlank c = false) (hrange : range ∈ line.findAll pattern) :
    ∃ lexeme ∈ lexemes, (∃ c ∈ lexeme.text, starts c) ∧
      (lexeme.rangeIn line).contains range.start = true ∧ range.contains range.start = true := by
  obtain ⟨before, rest, count, hline, hrest, hmatch, rfl⟩ := Text.exists_of_mem_find_all hrange
  obtain ⟨c, cs, rfl⟩ := List.exists_cons_of_ne_nil hrest
  have hc := hstarts _ _ _ _ hmatch
  obtain ⟨lexeme, hlexeme, hmem, hcontains⟩ := h.exists_of_char hline (hblank c hc)
  refine ⟨lexeme, hlexeme, ⟨c, hmem, hc⟩, hcontains, ?_⟩
  have hsize := c.utf8Size_pos
  simp only [Range.contains, Bool.and_eq_true, decide_eq_true_eq]
  rw [List.take_succ_cons, Text.byte_length_cons]
  omega

/-- A rule by a pattern shows the lexemes that look like its category, if it finds them and a match
starts in no other lexeme that is not shown. -/
theorem painted_matches {pattern : Pattern} (starts : Char → Prop)
    (hpainted : Painted line lexemes (Shaded lexemes done) buffer)
    (hown : ∀ lexeme ∈ lexemes, lexeme.shadeIn lexemes = some category →
      lexeme.rangeIn line ∈ line.findAll pattern)
    (hstarts : ∀ previous c cs count, pattern previous (c :: cs) = some (count + 1) → starts c)
    (hblank : ∀ c, starts c → isBlank c = false)
    (hothers : ∀ lexeme ∈ lexemes, (∃ c ∈ lexeme.text, starts c) →
      lexeme.Shaded lexemes (category :: done)) :
    Painted line lexemes (Shaded lexemes (category :: done))
      (buffer.claimAll ((line.findAll pattern).map (Span.ofRange · category))) := by
  refine h.painted_rule hpainted hown fun range hrange => ?_
  obtain ⟨lexeme, hlexeme, hstart, hcontains, hreach⟩ := h.exists_of_match hstarts hblank hrange
  obtain hshade | hdone := shaded_cons.1 (hothers lexeme hlexeme hstart)
  · -- The lexeme is a match too, and no byte belongs to two matches.
    have hsame := Text.find_all_unique range.start hrange (hown lexeme hlexeme hshade) hreach
      hcontains
    exact ⟨lexeme, hlexeme, .inl ⟨hshade, hsame⟩⟩
  · exact ⟨lexeme, hlexeme, .inr ⟨hdone, range.start, hcontains, hreach⟩⟩

/-- A number is spelled in parts of numbers. -/
theorem number_chars {lexeme : Lexeme} (hlexeme : lexeme ∈ lexemes)
    (htoken : lexeme.token = some .number) :
    ∀ c ∈ lexeme.text, Number.isPart Char.isDigit c = true := by
  obtain ⟨_, _, -, hshape, -⟩ := h.place hlexeme
  rw [htoken] at hshape
  exact part_of_munched hshape

/-- A null is spelled in one way. -/
theorem null_text {lexeme : Lexeme} (hlexeme : lexeme ∈ lexemes)
    (htoken : lexeme.token = some .null) : lexeme.text = "null".toList :=
  (text_of_word_token (h.ident_chars hlexeme htoken rfl (by simp)).1).2.2 rfl

/-- A boolean is found by its pattern. -/
theorem mem_booleans {lexeme : Lexeme} {flag : Bool} (hlexeme : lexeme ∈ lexemes)
    (htoken : lexeme.token = some (.bool flag)) :
    lexeme.rangeIn line ∈ line.findAll booleanWord := by
  have hspelled := text_of_word_token (h.ident_chars hlexeme htoken rfl (by simp)).1
  refine h.mem_word_matches hlexeme htoken rfl (by simp) ?_ ?_
  · intro previous text hwhole
    cases flag with
    | true =>
        rw [hspelled.1 rfl] at hwhole ⊢
        rw [booleanWord, hwhole]
        rfl
    | false =>
        rw [hspelled.2.1 rfl] at hwhole ⊢
        cases htrue : Text.wholeWord "true".toList previous text with
        | none =>
            rw [booleanWord, htrue, hwhole]
            rfl
        | some count =>
            -- The two words start with different characters.
            have hsame := (head_of_whole_word htrue).symm.trans (head_of_whole_word hwhole)
            cases hsame
  · intro previous text count hmatch
    obtain hwhole | hwhole := boolean_word_cases hmatch
    · rw [take_of_whole_word hwhole]
      exact List.all_eq_true.1 (by decide)
    · rw [take_of_whole_word hwhole]
      exact List.all_eq_true.1 (by decide)

/-- The comment of a line that is shown is not claimed again. -/
theorem painted_comment_again {shown : Lexeme → Prop} (hpainted : Painted line lexemes shown buffer)
    (hshown : ∀ lexeme ∈ lexemes, lexeme.token = some .comment → shown lexeme) :
    Painted line lexemes shown (buffer.claimAll (commentSpan? line).toList) := by
  by_cases hexists : ∃ comment ∈ lexemes, comment.token = some .comment
  · obtain ⟨comment, hcomment, htoken⟩ := hexists
    have hcategory := shade_of_comment lexemes htoken
    rw [h.comment_span_eq hcomment htoken]
    refine (painted_claim h hpainted hcomment hcategory).congr fun lexeme _ => ?_
    refine or_iff_left_of_imp fun hsame => ?_
    exact hsame ▸ hshown comment hcomment htoken
  · rw [h.comment_span_of_none hexists]
    exact hpainted

end Legible

end Highlighter
