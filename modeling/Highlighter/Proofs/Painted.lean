import Highlighter.Proofs.Buffer
import Highlighter.Proofs.Candidates

/-!
# Buffers that show lexemes

`Painted line lexemes shown buffer` says that a buffer shows some of the lexemes of a line and
nothing else: every byte of a shown lexeme has its category, which for a string is that of keys if
an equals sign follows (`Lexeme.shadeIn`), and no other byte is claimed. A claim for the range of a
lexeme shows that lexeme (`painted_claim`), and one that reaches into a lexeme already shown is
refused, so claims of both kinds may be mixed (`painted_ranges`). A lexeme that is looked for from
its own column is found at its own place, since the places before it are not looked at first and its
bytes are free (`painted_near`).
-/

namespace Highlighter

open Lexeme

/-- What a lexeme is painted as, and nothing for separators; commas are painted if asked for. -/
def Lexeme.category? (commas : Bool) (lexeme : Lexeme) : Option Category :=
  match lexeme.token with
  | some .ident => some .key
  | some .equals => some .operator
  | some .string => some .string
  | some .number => some .number
  | some (.bool _) => some .boolean
  | some .null => some .null
  | some .openBrace => some .symbol
  | some .closeBrace => some .symbol
  | some .openBracket => some .symbol
  | some .closeBracket => some .symbol
  | some .comment => some (CommentKind.ofText lexeme.text).category
  | some .comma => if commas then some .symbol else none
  | some .newline => none
  | none => none

/-- What a lexeme looks like among those of its line: a key in quotes looks like a key. -/
def Lexeme.shadeIn (lexemes : List Lexeme) (lexeme : Lexeme) : Option Category :=
  if lexeme.isString && lexeme.isKeyIn lexemes then some .key else lexeme.category? true

/-- A lexeme that is no string looks the same everywhere. -/
theorem shade_in_eq (lexemes : List Lexeme) {lexeme : Lexeme}
    (hstring : lexeme.token ≠ some .string) :
    lexeme.shadeIn lexemes = lexeme.category? true := by
  simp [Lexeme.shadeIn, isString, hstring]

/-- A comment looks like one of its kind. -/
theorem shade_of_comment (lexemes : List Lexeme) {lexeme : Lexeme}
    (htoken : lexeme.token = some .comment) :
    lexeme.shadeIn lexemes = some (CommentKind.ofText lexeme.text).category := by
  rw [shade_in_eq lexemes (by simp [htoken])]
  simp [Lexeme.category?, htoken]

/-- `Painted line lexemes shown buffer` says that a buffer shows just the given ones of the lexemes
of a line. -/
structure Painted (line : Text) (lexemes : List Lexeme) (shown : Lexeme → Prop) (buffer : Buffer) :
    Prop where
  length : buffer.length = line.byteLength
  overlays : buffer.overlays = []
  claimed : ∀ offset category, buffer.claimedAt offset = some category ↔
    ∃ lexeme ∈ lexemes, shown lexeme ∧ (lexeme.rangeIn line).contains offset = true ∧
      lexeme.shadeIn lexemes = some category

/-- No lexeme is painted as an error. -/
theorem category_ne_error {commas : Bool} {lexeme : Lexeme} {category : Category}
    (h : lexeme.category? commas = some category) : category ≠ .error := by
  rintro rfl
  unfold Lexeme.category? at h
  split at h <;> try cases h
  · next htoken =>
      unfold CommentKind.category at h
      split at h <;> cases h
  · split at h <;> cases h

/-- No lexeme looks like an error. -/
theorem shade_ne_error {lexemes : List Lexeme} {lexeme : Lexeme} {category : Category}
    (h : lexeme.shadeIn lexemes = some category) : category ≠ .error := by
  unfold Lexeme.shadeIn at h
  split at h
  · cases h
    simp
  · exact category_ne_error h

/-- A lexeme of a line looks like something. -/
theorem Legible.shade_of_mem {number : Nat} {line : Text} {lexemes : List Lexeme}
    (h : Legible number line lexemes) {lexeme : Lexeme} (hlexeme : lexeme ∈ lexemes) :
    ∃ category, lexeme.shadeIn lexemes = some category := by
  obtain ⟨token, htoken⟩ := h.token_of_mem hlexeme
  unfold Lexeme.shadeIn
  split
  · exact ⟨_, rfl⟩
  · cases token with
    | newline => exact absurd htoken (h.token_ne_newline hlexeme)
    | _ => simp [Lexeme.category?, htoken]

section

variable {number : Nat} {line : Text} {lexemes : List Lexeme} {shown : Lexeme → Prop}
  {buffer : Buffer}

/-- What is shown matters on the lexemes of the line only. -/
theorem Painted.congr {other : Lexeme → Prop} (hpainted : Painted line lexemes shown buffer)
    (hsame : ∀ lexeme ∈ lexemes, shown lexeme ↔ other lexeme) :
    Painted line lexemes other buffer := by
  refine ⟨hpainted.length, hpainted.overlays, fun offset category => ?_⟩
  rw [hpainted.claimed]
  refine exists_congr fun lexeme => and_congr_right fun hlexeme => ?_
  rw [hsame lexeme hlexeme]

/-- An empty buffer shows nothing. -/
theorem painted_empty (line : Text) (lexemes : List Lexeme) :
    Painted line lexemes (fun _ => False) (Buffer.ofText line) := by
  refine ⟨by simp [Buffer.ofText, Buffer.length], rfl, fun offset category => ?_⟩
  simp [Buffer.claimed_at_of_text]

/-- The spans of a buffer that shows lexemes have the categories that were claimed. -/
theorem category_in_spans (hpainted : Painted line lexemes shown buffer) (offset : Nat) :
    LineHighlight.categoryIn offset buffer.spans = buffer.claimedAt offset := by
  refine Buffer.category_in_eq_claimed (fun offset herror => ?_)
    (by simp [hpainted.overlays]) offset
  obtain ⟨lexeme, -, -, -, hcategory⟩ := (hpainted.claimed offset .error).1 herror
  exact shade_ne_error hcategory rfl

/-- A claim for a lexeme that is shown is refused. -/
theorem claim_of_shown {lexeme : Lexeme} {category : Category} {start len : Nat}
    (hpainted : Painted line lexemes shown buffer) (hlexeme : lexeme ∈ lexemes)
    (hshown : shown lexeme) (hcategory : lexeme.shadeIn lexemes ≠ none) (offset : Nat)
    (hoffset : (lexeme.rangeIn line).contains offset = true) (hstart : start ≤ offset)
    (hstop : offset < start + len) : buffer.claim? start len category = none := by
  obtain ⟨found, hfound⟩ := Option.ne_none_iff_exists'.1 hcategory
  refine Buffer.claim_of_claimed hstart hstop ?_
  rw [(hpainted.claimed offset found).2 ⟨lexeme, hlexeme, hshown, hoffset, hfound⟩]
  simp

variable (h : Legible number line lexemes) {lexeme : Lexeme} {category : Category}

include h

/-- A lexeme that is not shown is free. -/
theorem free_of_not_shown (hpainted : Painted line lexemes shown buffer)
    (hlexeme : lexeme ∈ lexemes) (hnew : ¬ shown lexeme) :
    buffer.isFree (lexeme.rangeIn line) = true := by
  refine Buffer.is_free_iff.2 ⟨hpainted.length ▸ (h.bounds hlexeme).2, fun offset hoffset => ?_⟩
  cases hclaimed : buffer.claimedAt offset with
  | none => rfl
  | some category =>
      obtain ⟨other, hother, hshown, hcontains, -⟩ := (hpainted.claimed offset category).1 hclaimed
      exact absurd (h.unique offset hother hlexeme hcontains hoffset ▸ hshown) hnew

/-- A claim for a lexeme that is not shown is granted, and then the lexeme is shown. -/
theorem painted_claim_new (hpainted : Painted line lexemes shown buffer)
    (hlexeme : lexeme ∈ lexemes) (hnew : ¬ shown lexeme)
    (hcategory : lexeme.shadeIn lexemes = some category) :
    ∃ claimed,
      buffer.claim? (lexeme.rangeIn line).start (lexeme.rangeIn line).length category =
        some claimed ∧
      Painted line lexemes (fun other => shown other ∨ other = lexeme) claimed := by
  have hbounds := h.bounds hlexeme
  have hstop : (lexeme.rangeIn line).start + (lexeme.rangeIn line).length =
      (lexeme.rangeIn line).stop := by
    simp only [Range.length]
    omega
  have hlen : (lexeme.rangeIn line).length ≠ 0 := by omega
  have hfree : buffer.isFree ⟨(lexeme.rangeIn line).start,
      (lexeme.rangeIn line).start + (lexeme.rangeIn line).length⟩ = true := by
    rw [hstop]
    exact free_of_not_shown h hpainted hlexeme hnew
  obtain ⟨claimed, hclaim⟩ := Buffer.claim_of_free hlen (shade_ne_error hcategory) hfree
  refine ⟨claimed, hclaim, (Buffer.claim_length hclaim).trans hpainted.length,
    (Buffer.claim_overlays hclaim).trans hpainted.overlays, fun offset found => ?_⟩
  rw [Buffer.claimed_at_claim hclaim, hstop]
  by_cases hinside : (lexeme.rangeIn line).contains offset = true
  · rw [if_pos (by simpa [Range.contains] using hinside)]
    constructor
    · rintro ⟨⟩
      exact ⟨lexeme, hlexeme, .inr rfl, hinside, hcategory⟩
    · rintro ⟨other, hother, -, hcontains, hfound⟩
      obtain rfl := h.unique offset hother hlexeme hcontains hinside
      rw [← hcategory, hfound]
  · rw [if_neg (by simpa [Range.contains] using hinside), hpainted.claimed]
    refine exists_congr fun other => and_congr_right fun hother => ?_
    constructor
    · rintro ⟨hshown, hrest⟩
      exact ⟨.inl hshown, hrest⟩
    · rintro ⟨hshown | rfl, hcontains, hfound⟩
      · exact ⟨hshown, hcontains, hfound⟩
      · exact absurd hcontains hinside

/-- After a claim for a lexeme it is shown, whether it was before or not. -/
theorem painted_claim (hpainted : Painted line lexemes shown buffer) (hlexeme : lexeme ∈ lexemes)
    (hcategory : lexeme.shadeIn lexemes = some category) :
    Painted line lexemes (fun other => shown other ∨ other = lexeme)
      (buffer.claim (Span.ofRange (lexeme.rangeIn line) category)) := by
  by_cases hshown : shown lexeme
  · have hbounds := h.bounds hlexeme
    have hrefused : buffer.claim? (lexeme.rangeIn line).start (lexeme.rangeIn line).length
        category = none := by
      refine claim_of_shown hpainted hlexeme hshown (by simp [hcategory])
        (lexeme.rangeIn line).start ?_ (Nat.le_refl _) ?_
      · simp [Range.contains, hbounds]
      · simp only [Range.length]
        omega
    simp only [Buffer.claim, Span.ofRange, hrefused, Option.getD_none]
    refine hpainted.congr fun other _ => ⟨.inl, ?_⟩
    rintro (hother | rfl)
    · exact hother
    · exact hshown
  · obtain ⟨claimed, hclaim, hclaimed⟩ := painted_claim_new h hpainted hlexeme hshown hcategory
    simpa only [Buffer.claim, Span.ofRange, hclaim, Option.getD_some] using hclaimed

/-- A claim for a range that reaches into a lexeme that is shown changes nothing. -/
theorem claim_of_reach {range : Range} (hpainted : Painted line lexemes shown buffer)
    (hlexeme : lexeme ∈ lexemes) (hshown : shown lexeme) {offset : Nat}
    (hoffset : (lexeme.rangeIn line).contains offset = true)
    (hreach : range.contains offset = true) :
    buffer.claim (Span.ofRange range category) = buffer := by
  obtain ⟨found, hfound⟩ := h.shade_of_mem hlexeme
  simp only [Range.contains, Bool.and_eq_true, decide_eq_true_eq] at hreach
  have hrefused : buffer.claim? range.start range.length category = none := by
    refine claim_of_shown hpainted hlexeme hshown (by simp [hfound]) offset hoffset hreach.1 ?_
    simp only [Range.length]
    omega
  simp only [Buffer.claim, Span.ofRange, hrefused, Option.getD_none]

/-- Claims for ranges show the lexemes with these ranges, if each range is that of a lexeme with the
category or reaches into a lexeme that is shown. -/
theorem painted_ranges {ranges : List Range} (hpainted : Painted line lexemes shown buffer)
    (hranges : ∀ range ∈ ranges, ∃ lexeme ∈ lexemes,
      lexeme.shadeIn lexemes = some category ∧ range = lexeme.rangeIn line ∨
        shown lexeme ∧ ∃ offset, (lexeme.rangeIn line).contains offset = true ∧
          range.contains offset = true) :
    Painted line lexemes (fun lexeme => shown lexeme ∨ lexeme.rangeIn line ∈ ranges)
      (buffer.claimAll (ranges.map (Span.ofRange · category))) := by
  induction ranges generalizing shown buffer with
  | nil => simpa [Buffer.claimAll] using hpainted
  | cons range rest ih =>
      obtain ⟨⟨lexeme, hlexeme, hrange⟩, hrest⟩ := List.forall_mem_cons.1 hranges
      have hstep : Painted line lexemes (fun other => shown other ∨ other.rangeIn line = range)
          (buffer.claim (Span.ofRange range category)) := by
        obtain ⟨hshade, rfl⟩ | ⟨hshown, offset, hoffset, hreach⟩ := hrange
        · refine (painted_claim h hpainted hlexeme hshade).congr fun other hother => ?_
          exact or_congr_right ⟨fun hsame => hsame ▸ rfl, h.eq_of_range hother hlexeme⟩
        · rw [claim_of_reach h hpainted hlexeme hshown hoffset hreach]
          refine hpainted.congr fun other hother => ⟨.inl, ?_⟩
          rintro (hother | rfl)
          · exact hother
          · exact h.unique offset hlexeme hother hoffset hreach ▸ hshown
      refine (ih hstep fun other hother => ?_).congr fun other _ => ?_
      · obtain ⟨found, hfound, hown | ⟨hshown, hreach⟩⟩ := hrest other hother
        · exact ⟨found, hfound, .inl hown⟩
        · exact ⟨found, hfound, .inr ⟨.inl hshown, hreach⟩⟩
      · rw [List.mem_cons, or_assoc]

end

/-- Of ranges in order, those from a range on start with it. -/
theorem filter_of_sorted {ranges : List Range} {own : Range}
    (hsorted : ranges.Pairwise (·.start < ·.start)) (hmem : own ∈ ranges) :
    ∃ rest, ranges.filter (own.start ≤ ·.start) = own :: rest := by
  obtain ⟨first, rest, rfl⟩ := List.append_of_mem hmem
  have hfirst : first.filter (own.start ≤ ·.start) = [] := by
    rw [List.filter_eq_nil_iff]
    intro range hrange
    have hlt := (List.pairwise_append.1 hsorted).2.2 range hrange own List.mem_cons_self
    simpa using hlt
  exact ⟨rest.filter (own.start ≤ ·.start), by simp [hfirst]⟩

/-- A range of a list in order that is looked for from its own start is claimed if it is free. -/
theorem claim_near_own {ranges : List Range} {own : Range} {buffer claimed : Buffer}
    {category : Category} (hsorted : ranges.Pairwise (·.start < ·.start)) (hmem : own ∈ ranges)
    (hclaim : buffer.claim? own.start own.length category = some claimed) :
    Canvas.claimNear own.start category ranges buffer = some (own, claimed) := by
  obtain ⟨rest, hrest⟩ := filter_of_sorted hsorted hmem
  simp [Canvas.claimNear, Buffer.claimFirst?, hrest, hclaim]

/-- A lexeme that is not shown and is looked for from its own place is shown after that. -/
theorem painted_near {number : Nat} {line : Text} {lexemes : List Lexeme} {shown : Lexeme → Prop}
    {buffer : Buffer} {lexeme : Lexeme} {category : Category} {ranges : List Range}
    (h : Legible number line lexemes) (hpainted : Painted line lexemes shown buffer)
    (hlexeme : lexeme ∈ lexemes) (hnew : ¬ shown lexeme)
    (hcategory : lexeme.shadeIn lexemes = some category)
    (hsorted : ranges.Pairwise (·.start < ·.start)) (hmem : lexeme.rangeIn line ∈ ranges) :
    ∃ claimed,
      Canvas.claimNear (lexeme.rangeIn line).start category ranges buffer =
        some (lexeme.rangeIn line, claimed) ∧
      Painted line lexemes (fun other => shown other ∨ other = lexeme) claimed := by
  obtain ⟨claimed, hclaim, hclaimed⟩ := painted_claim_new h hpainted hlexeme hnew hcategory
  exact ⟨claimed, claim_near_own hsorted hmem hclaim, hclaimed⟩

end Highlighter
