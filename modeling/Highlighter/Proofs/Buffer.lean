import Highlighter.Span.Buffer
import Mathlib.Data.List.Basic

/-!
# What a claim does to a buffer

A claim that is granted gives its bytes to its category and leaves the others alone
(`claimed_at_claim`); it is granted if it has bytes, is not for errors and all its bytes are free
(`claim_of_free`). The spans of a buffer show what has been claimed: the category at an offset is
the one that has claimed the byte (`category_in_runs`), whatever errors lie over it
(`category_in_eq_claimed`).
-/

namespace Highlighter.Buffer

variable {buffer claimed : Buffer} {start len : Nat} {category : Category}

/-- At first nothing is claimed. -/
theorem claimed_at_of_text (line : Text) (offset : Nat) :
    (Buffer.ofText line).claimedAt offset = none := by
  rw [claimedAt, Buffer.ofText, List.getElem?_replicate]
  split
  · rfl
  · rfl

/-- A range is free if it lies in the line and none of its bytes is claimed. -/
theorem is_free_iff {range : Range} :
    buffer.isFree range = true ↔ range.stop ≤ buffer.length ∧
      ∀ offset, range.contains offset = true → buffer.claimedAt offset = none := by
  simp only [isFree, Bool.and_eq_true, decide_eq_true_eq, List.all_eq_true, Range.contains,
    Range.length, claimedAt, Option.isNone_iff_eq_none]
  refine and_congr_right fun hstop => ⟨fun hfree offset hoffset => ?_, fun hfree cell hcell => ?_⟩
  · cases hcell : buffer.cells[offset]? with
    | none => rfl
    | some cell =>
        refine hfree cell (List.mem_iff_getElem?.2 ⟨offset - range.start, ?_⟩)
        rw [List.getElem?_take_of_lt (by omega), List.getElem?_drop, ← hcell]
        congr 1
        omega
  · obtain ⟨index, hindex⟩ := List.mem_iff_getElem?.1 hcell
    rw [List.getElem?_take, List.getElem?_drop, Option.ite_none_right_eq_some] at hindex
    have hnone := hfree (range.start + index) (by omega)
    rwa [hindex.2] at hnone

/-- A claim is granted if it has bytes, is not for errors and all its bytes are free. -/
theorem claim_of_free (hlen : len ≠ 0) (hcategory : category ≠ .error)
    (hfree : buffer.isFree ⟨start, start + len⟩ = true) :
    ∃ claimed, buffer.claim? start len category = some claimed := by
  simp [claim?, hlen, hcategory, hfree]

/-- A claim is refused if one of its bytes is claimed. -/
theorem claim_of_claimed {offset : Nat} (hstart : start ≤ offset) (hstop : offset < start + len)
    (hclaimed : buffer.claimedAt offset ≠ none) : buffer.claim? start len category = none := by
  have hfree : buffer.isFree ⟨start, start + len⟩ = false := by
    rw [Bool.eq_false_iff, Ne, is_free_iff]
    intro hfree
    exact hclaimed (hfree.2 offset (by simp [Range.contains, hstart, hstop]))
  simp [claim?, hfree]

/-- A claim for bytes of the line is refused only if one of them is claimed. -/
theorem claim_eq_none_iff (hlen : len ≠ 0) (hcategory : category ≠ .error)
    (hstop : start + len ≤ buffer.length) :
    buffer.claim? start len category = none ↔
      ∃ offset, start ≤ offset ∧ offset < start + len ∧ buffer.claimedAt offset ≠ none := by
  constructor
  · intro hrefused
    by_contra hnone
    have hfree : buffer.isFree ⟨start, start + len⟩ = true := by
      refine is_free_iff.2 ⟨hstop, fun offset hoffset => ?_⟩
      simp only [Range.contains, Bool.and_eq_true, decide_eq_true_eq] at hoffset
      by_contra hclaimed
      exact hnone ⟨offset, hoffset.1, hoffset.2, hclaimed⟩
    obtain ⟨claimed, hgranted⟩ := claim_of_free hlen hcategory hfree
    rw [hrefused] at hgranted
    cases hgranted
  · intro hclaimed
    obtain ⟨offset, hlow, hhigh, hoffset⟩ := hclaimed
    exact claim_of_claimed hlow hhigh hoffset

/-- A granted claim was for bytes of the line. -/
theorem claim_bounds (h : buffer.claim? start len category = some claimed) :
    start + len ≤ buffer.length := by
  unfold claim? at h
  split at h
  · cases h
  · next hgranted =>
      simp only [Bool.or_eq_true, not_or, Bool.not_eq_true', Bool.not_eq_false] at hgranted
      exact (is_free_iff.1 hgranted.2).1

/-- A claim keeps the number of bytes. -/
theorem claim_length (h : buffer.claim? start len category = some claimed) :
    claimed.length = buffer.length := by
  have hbounds := claim_bounds h
  unfold claim? at h
  split at h
  · cases h
  · cases h
    simp only [length, List.length_append, List.length_take, List.length_replicate,
      List.length_drop] at hbounds ⊢
    omega

/-- A claim lays no errors. -/
theorem claim_overlays (h : buffer.claim? start len category = some claimed) :
    claimed.overlays = buffer.overlays := by
  unfold claim? at h
  split at h
  · cases h
  · cases h
    rfl

/-- A granted claim gives its bytes to its category and leaves the others alone. -/
theorem claimed_at_claim (h : buffer.claim? start len category = some claimed) (offset : Nat) :
    claimed.claimedAt offset =
      if start ≤ offset ∧ offset < start + len then some category else buffer.claimedAt offset := by
  have hbounds := claim_bounds h
  unfold claim? at h
  split at h
  · cases h
  · cases h
    simp only [claimedAt, length] at hbounds ⊢
    have hbefore : (buffer.cells.take start).length = start :=
      List.length_take_of_le (by omega)
    rw [List.append_assoc]
    obtain hlow | hlow := Nat.lt_or_ge offset start
    · rw [List.getElem?_append_left (by omega), List.getElem?_take_of_lt hlow, if_neg (by omega)]
    · rw [List.getElem?_append_right (by omega), hbefore]
      obtain hhigh | hhigh := Nat.lt_or_ge offset (start + len)
      · rw [List.getElem?_append_left (by simp only [List.length_replicate]; omega),
          List.getElem?_replicate_of_lt (by omega), if_pos ⟨hlow, hhigh⟩]
        rfl
      · rw [List.getElem?_append_right (by simp only [List.length_replicate]; omega),
          List.length_replicate, List.getElem?_drop, if_neg (by omega),
          show start + len + (offset - start - len) = offset by omega]

/-- There is no token before the first span. -/
theorem category_in_before {offset : Nat} {spans : List Span}
    (h : ∀ span ∈ spans.head?, offset < span.start ∧ span.category ≠ .error) :
    LineHighlight.categoryIn offset spans = none := by
  cases spans with
  | nil => rfl
  | cons span rest =>
      obtain ⟨hstart, hcategory⟩ := h span rfl
      have hcovers : span.covers offset = false := by
        simp only [Span.covers, Bool.and_eq_false_iff, decide_eq_false_iff_not]
        omega
      simp [LineHighlight.categoryIn, hcategory, hcovers, hstart]

/-- A token that ends before an offset says nothing about it. -/
theorem category_in_skip {offset : Nat} {span : Span} {rest : List Span}
    (hcategory : span.category ≠ .error) (hstop : span.stop ≤ offset) :
    LineHighlight.categoryIn offset (span :: rest) = LineHighlight.categoryIn offset rest := by
  have hcovers : span.covers offset = false := by
    simp only [Span.covers, Bool.and_eq_false_iff, decide_eq_false_iff_not]
    omega
  have hstart : ¬ offset < span.start := by
    simp only [Span.stop] at hstop
    omega
  simp [LineHighlight.categoryIn, hcategory, hcovers, hstart]

/-- A claimed cell starts a run, which changes nothing at the cells after it. -/
theorem runs_claimed (offset : Nat) {category : Category} (hcategory : category ≠ .error)
    (cells : List (Option Category)) :
    ∃ len spans, runs offset (some category :: cells) = ⟨offset, len + 1, category⟩ :: spans ∧
      ∀ index, LineHighlight.categoryIn (offset + 1 + index)
          (runs offset (some category :: cells)) =
        LineHighlight.categoryIn (offset + 1 + index) (runs (offset + 1) cells) := by
  simp only [runs]
  split
  · next hnone =>
      refine ⟨0, [], rfl, fun index => ?_⟩
      rw [hnone, category_in_skip hcategory (by simp only [Span.stop]; omega)]
  · next following spans hnext =>
      split
      · next hjoined =>
          -- The run goes on with the one that follows.
          obtain ⟨hstart, hsame⟩ :
              following.start = offset + 1 ∧ following.category = category := by
            simpa using hjoined
          refine ⟨following.len, spans, rfl, fun index => ?_⟩
          have hcovers : Span.covers ⟨offset, following.len + 1, category⟩ (offset + 1 + index) =
              following.covers (offset + 1 + index) := by
            unfold Span.covers Span.stop
            rw [Bool.eq_iff_iff]
            simp only [hstart, Bool.and_eq_true, decide_eq_true_eq]
            omega
          simp only [hnext, LineHighlight.categoryIn, hsame, hcovers, hstart]
          rw [if_neg (show ¬ offset + 1 + index < offset by omega),
            if_neg (show ¬ offset + 1 + index < offset + 1 by omega)]
      · refine ⟨0, following :: spans, rfl, fun index => ?_⟩
        rw [hnext, category_in_skip hcategory (by simp only [Span.stop]; omega)]

/-- The first run starts no earlier than the cells, and is not for errors. -/
theorem runs_head (offset : Nat) {cells : List (Option Category)} (hcells : some .error ∉ cells) :
    ∀ span ∈ (runs offset cells).head?, offset ≤ span.start ∧ span.category ≠ .error := by
  induction cells generalizing offset with
  | nil => simp [runs]
  | cons cell cells ih =>
      obtain ⟨hcell, hothers⟩ := List.ne_and_not_mem_of_not_mem_cons hcells
      cases cell with
      | none =>
          intro span hspan
          obtain ⟨hstart, hcategory⟩ := ih (offset + 1) hothers span hspan
          exact ⟨by omega, hcategory⟩
      | some category =>
          have hcategory : category ≠ .error := by simpa [eq_comm] using hcell
          obtain ⟨len, spans, hruns, -⟩ := runs_claimed offset hcategory cells
          rw [hruns]
          rintro span ⟨⟩
          exact ⟨Nat.le_refl _, hcategory⟩

/-- The category at an offset is the one that has claimed the byte. -/
theorem category_in_runs {cells : List (Option Category)} (hcells : some .error ∉ cells)
    (first index : Nat) :
    LineHighlight.categoryIn (first + index) (runs first cells) = (cells[index]?).join := by
  induction cells generalizing first index with
  | nil => rfl
  | cons cell cells ih =>
      obtain ⟨hcell, hothers⟩ := List.ne_and_not_mem_of_not_mem_cons hcells
      have hlater := ih hothers (first + 1)
      cases cell with
      | none =>
          cases index with
          | zero =>
              refine category_in_before fun span hspan => ?_
              obtain ⟨hstart, hcategory⟩ := runs_head (first + 1) hothers span hspan
              exact ⟨by omega, hcategory⟩
          | succ index =>
              rw [List.getElem?_cons_succ, ← hlater, Nat.add_right_comm]
              rfl
      | some category =>
          have hcategory : category ≠ .error := by simpa [eq_comm] using hcell
          obtain ⟨len, spans, hruns, hrest⟩ := runs_claimed first hcategory cells
          cases index with
          | zero =>
              have hcovers : (⟨first, len + 1, category⟩ : Span).covers (first + 0) = true := by
                simp [Span.covers, Span.stop]
              rw [hruns, LineHighlight.categoryIn, if_neg hcategory, if_pos hcovers]
              rfl
          | succ index =>
              rw [List.getElem?_cons_succ, ← hlater, ← hrest, Nat.add_right_comm]
              rfl

/-- Errors after other spans say nothing about the token at an offset. -/
theorem category_in_append {spans errors : List Span} (offset : Nat)
    (herrors : ∀ span ∈ errors, span.category = .error) :
    LineHighlight.categoryIn offset (spans ++ errors) = LineHighlight.categoryIn offset spans := by
  induction spans with
  | nil =>
      induction errors with
      | nil => rfl
      | cons span rest ih =>
          obtain ⟨hspan, hrest⟩ := List.forall_mem_cons.1 herrors
          simp only [List.nil_append, LineHighlight.categoryIn, if_pos hspan]
          exact ih hrest
  | cons span rest ih =>
      rw [List.cons_append, LineHighlight.categoryIn, LineHighlight.categoryIn, ih]

/-- The category at an offset of the spans of a buffer is the one that has claimed the byte, if only
overlays are for errors. -/
theorem category_in_eq_claimed (htokens : ∀ offset, buffer.claimedAt offset ≠ some .error)
    (hoverlays : ∀ span ∈ buffer.overlays, span.category = .error) (offset : Nat) :
    LineHighlight.categoryIn offset buffer.spans = buffer.claimedAt offset := by
  have hcells : some .error ∉ buffer.cells := by
    intro hmem
    obtain ⟨index, hindex⟩ := List.getElem?_of_mem hmem
    exact htokens index (by rw [claimedAt, hindex, Option.join_some])
  rw [spans, category_in_append offset hoverlays, ← Nat.zero_add offset,
    category_in_runs hcells, Nat.zero_add, claimedAt]

end Highlighter.Buffer
