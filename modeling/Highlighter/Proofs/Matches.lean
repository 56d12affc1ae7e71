import Highlighter.Text.Matching
import Mathlib.Data.List.Basic

/-!
# Offsets and matches in a text

Byte offsets are the lengths of first parts, so cutting a text at one gives that part back
(`split_at_byte_length`). The matches of a pattern come in order (`find_all_sorted`), no two share a
byte (`find_all_unique`) and each is a match where it starts (`exists_of_mem_find_all`). The other
way round a match may be hidden by an earlier one that reaches over its start; `mem_find_all` says
that nothing else hides it.
-/

namespace Highlighter.Text

/-- The bytes of joined texts are those of both. -/
@[simp] theorem byte_length_append (first second : Text) :
    byteLength (first ++ second) = byteLength first + byteLength second := by
  induction first with
  | nil => simp [byteLength]
  | cons c cs ih => simp [byteLength, ih, Nat.add_assoc]

@[simp] theorem byte_length_nil : byteLength [] = 0 := rfl

@[simp] theorem byte_length_cons (c : Char) (cs : Text) :
    byteLength (c :: cs) = c.utf8Size + byteLength cs := rfl

/-- A text has bytes if it has characters. -/
theorem byte_length_pos {text : Text} (h : text ≠ []) : 0 < text.byteLength := by
  cases text with
  | nil => exact absurd rfl h
  | cons c cs =>
      have := c.utf8Size_pos
      simp only [byte_length_cons]
      omega

/-- The offset of the character after a first part is the length of that part. -/
theorem char_offset_append (before after : Text) :
    charOffset before.length (before ++ after) = before.byteLength := by
  simp [charOffset]

/-- Cutting a text at the length of a first part gives that part and the rest. -/
theorem split_at_byte_length (before after : Text) :
    splitAt? before.byteLength (before ++ after) = some (before, after) := by
  induction before with
  | nil => cases after <;> rfl
  | cons c cs ih =>
      have hsize := c.utf8Size_pos
      obtain ⟨n, hn⟩ : ∃ n, c.utf8Size + byteLength cs = n + 1 :=
        ⟨c.utf8Size + byteLength cs - 1, by omega⟩
      simp only [byte_length_cons, hn, List.cons_append, splitAt?]
      rw [if_pos (by omega), show n + 1 - c.utf8Size = byteLength cs by omega, ih]
      rfl

/-- The part between a first part and a last part of a text. -/
theorem slice_append (before inside after : Text) :
    slice? before.byteLength (before ++ inside).byteLength (before ++ inside ++ after) =
      some inside := by
  have hstart : splitAt? before.byteLength (before ++ inside ++ after) =
      some (before, inside ++ after) := by
    rw [List.append_assoc]
    exact split_at_byte_length _ _
  have hlength : (before ++ inside).byteLength - before.byteLength = inside.byteLength := by
    rw [byte_length_append]
    omega
  have hle : before.byteLength ≤ (before ++ inside).byteLength := by
    rw [byte_length_append]
    omega
  simp only [slice?, hstart, hlength]
  show (if before.byteLength ≤ (before ++ inside).byteLength then _ else none) = _
  rw [if_pos hle, split_at_byte_length]
  rfl

/-- A part of a text is a whole word if no identifier character touches it. -/
theorem is_whole_word_iff (before word after : Text) :
    isWholeWord? before.byteLength (before ++ word).byteLength (before ++ word ++ after) =
      some (!before.getLast?.any isIdentChar && !after.head?.any isIdentChar) := by
  have hstart : splitAt? before.byteLength (before ++ word ++ after) =
      some (before, word ++ after) := by
    rw [List.append_assoc]
    exact split_at_byte_length _ _
  simp only [isWholeWord?, hstart, split_at_byte_length (before ++ word) after]
  rfl

variable {pattern : Pattern}

/-- Characters of an earlier match are passed over. -/
theorem matches_from_skip (pattern : Pattern) (offset : Nat) (before : Option Char)
    (first second : Text) :
    matchesFrom pattern offset before first.length (first ++ second) =
      matchesFrom pattern (offset + first.byteLength) (first.getLast?.or before) 0 second := by
  induction first generalizing offset before with
  | nil => simp
  | cons c cs ih =>
      simp only [List.length_cons, List.cons_append, matchesFrom, ih, byte_length_cons,
        Nat.add_assoc]
      cases cs <;> simp [List.getLast?_cons]

/-- Characters at which no match starts are passed over. -/
theorem matches_from_pass (offset : Nat) (before : Option Char) {first : Text} (second : Text)
    (hnone : ∀ c ∈ first, ∀ before cs, pattern before (c :: cs) = none) :
    matchesFrom pattern offset before 0 (first ++ second) =
      matchesFrom pattern (offset + first.byteLength) (first.getLast?.or before) 0 second := by
  induction first generalizing offset before with
  | nil => simp
  | cons c cs ih =>
      obtain ⟨hc, hcs⟩ := List.forall_mem_cons.1 hnone
      simp only [List.cons_append, matchesFrom, hc, ih _ _ hcs, byte_length_cons, Nat.add_assoc]
      cases cs <;> simp [List.getLast?_cons]

/-- A match at the front is found, and then those after it. -/
theorem matches_from_match (offset : Nat) {before : Option Char} {first second : Text}
    (hfirst : first ≠ []) (hmatch : pattern before (first ++ second) = some first.length) :
    matchesFrom pattern offset before 0 (first ++ second) =
      ⟨offset, offset + first.byteLength⟩ ::
        matchesFrom pattern (offset + first.byteLength) (first.getLast?.or before) 0 second := by
  obtain ⟨c, cs, rfl⟩ := List.exists_cons_of_ne_nil hfirst
  have hskip := matches_from_skip pattern (offset + c.utf8Size) (some c) cs second
  simp only [List.cons_append, List.length_cons] at hmatch
  simp only [List.cons_append, matchesFrom, hmatch, hskip, byte_length_cons, Nat.add_assoc]
  cases cs <;> simp [List.getLast?_cons]

/-- Matches start in order, none before the place where the search starts. -/
theorem matches_from_sorted (offset : Nat) (before : Option Char) (skip : Nat) (text : Text) :
    (∀ range ∈ matchesFrom pattern offset before skip text, offset ≤ range.start) ∧
      (matchesFrom pattern offset before skip text).Pairwise (·.start < ·.start) := by
  induction text generalizing offset before skip with
  | nil => simp [matchesFrom]
  | cons c cs ih =>
      have hsize := c.utf8Size_pos
      unfold matchesFrom
      split
      · next skip =>
          obtain ⟨hlow, hsorted⟩ := ih (offset + c.utf8Size) (some c) skip
          exact ⟨fun range h => by have := hlow range h; omega, hsorted⟩
      · split
        · next count _ =>
            obtain ⟨hlow, hsorted⟩ := ih (offset + c.utf8Size) (some c) count
            refine ⟨?_, List.pairwise_cons.2 ⟨fun range h => ?_, hsorted⟩⟩
            · rintro range (_ | ⟨_, h⟩)
              · exact Nat.le_refl _
              · have := hlow range h
                omega
            · have := hlow range h
              simp only
              omega
        · obtain ⟨hlow, hsorted⟩ := ih (offset + c.utf8Size) (some c) 0
          exact ⟨fun range h => by have := hlow range h; omega, hsorted⟩

/-- The matches of a pattern are in order. -/
theorem find_all_sorted (text : Text) : (findAll pattern text).Pairwise (·.start < ·.start) :=
  (matches_from_sorted 0 none 0 text).2

/-- Matches come after the characters that are passed over, and each ends before the next one
starts. -/
theorem matches_from_apart (offset : Nat) (before : Option Char) (skip : Nat) (text : Text) :
    (∀ range ∈ matchesFrom pattern offset before skip text,
      offset + byteLength (text.take skip) ≤ range.start) ∧
    (matchesFrom pattern offset before skip text).Pairwise (·.stop ≤ ·.start) := by
  induction text generalizing offset before skip with
  | nil => simp [matchesFrom]
  | cons c cs ih =>
      unfold matchesFrom
      split
      · next skip =>
          obtain ⟨hlow, hapart⟩ := ih (offset + c.utf8Size) (some c) skip
          refine ⟨fun range hrange => ?_, hapart⟩
          rw [List.take_succ_cons, byte_length_cons, ← Nat.add_assoc]
          exact hlow range hrange
      · split
        · next count _ =>
            obtain ⟨hlow, hapart⟩ := ih (offset + c.utf8Size) (some c) count
            rw [List.take_succ_cons, byte_length_cons, ← Nat.add_assoc]
            refine ⟨List.forall_mem_cons.2 ⟨Nat.le_refl _, fun range hrange => ?_⟩,
              List.pairwise_cons.2 ⟨hlow, hapart⟩⟩
            have := hlow range hrange
            simp only [List.take_zero, byte_length_nil]
            omega
        · obtain ⟨hlow, hapart⟩ := ih (offset + c.utf8Size) (some c) 0
          refine ⟨fun range hrange => ?_, hapart⟩
          have := hlow range hrange
          simp only [List.take_zero, byte_length_nil] at this ⊢
          omega

/-- A range that is found is a match where it starts. -/
theorem exists_of_mem_matches_from {offset : Nat} {before : Option Char} {skip : Nat} {text : Text}
    {range : Range} (h : range ∈ matchesFrom pattern offset before skip text) :
    ∃ (first rest : Text) (count : Nat), text = first ++ rest ∧ rest ≠ [] ∧
      pattern (first.getLast?.or before) rest = some (count + 1) ∧
      range = ⟨offset + first.byteLength,
        offset + first.byteLength + byteLength (rest.take (count + 1))⟩ := by
  induction text generalizing offset before skip with
  | nil => cases h
  | cons c cs ih =>
      -- A match further on is one of the rest, where `c` stands before.
      have hlater : ∀ {skip}, range ∈ matchesFrom pattern (offset + c.utf8Size) (some c) skip cs →
          ∃ (first rest : Text) (count : Nat), c :: cs = first ++ rest ∧ rest ≠ [] ∧
            pattern (first.getLast?.or before) rest = some (count + 1) ∧
            range = ⟨offset + first.byteLength,
              offset + first.byteLength + byteLength (rest.take (count + 1))⟩ := by
        intro skip h
        obtain ⟨first, rest, count, rfl, hrest, hmatch, rfl⟩ := ih h
        refine ⟨c :: first, rest, count, rfl, hrest, ?_, by simp [Nat.add_assoc]⟩
        cases first <;> simpa [List.getLast?_cons] using hmatch
      unfold matchesFrom at h
      split at h
      · exact hlater h
      · split at h
        · next count hmatch =>
            obtain rfl | h := List.mem_cons.1 h
            · exact ⟨[], c :: cs, count, rfl, by simp, by simpa using hmatch, by simp⟩
            · exact hlater h
        · exact hlater h

/-- A range that is found is a match where it starts. -/
theorem exists_of_mem_find_all {text : Text} {range : Range} (h : range ∈ findAll pattern text) :
    ∃ (first rest : Text) (count : Nat), text = first ++ rest ∧ rest ≠ [] ∧
      pattern first.getLast? rest = some (count + 1) ∧
      range = ⟨first.byteLength, first.byteLength + byteLength (rest.take (count + 1))⟩ := by
  simpa using exists_of_mem_matches_from h

/-- No byte belongs to two matches of a pattern. -/
theorem find_all_unique {text : Text} {first second : Range} (offset : Nat)
    (hfirst : first ∈ findAll pattern text) (hsecond : second ∈ findAll pattern text)
    (hoffset : first.contains offset = true) (hoffset' : second.contains offset = true) :
    first = second := by
  have hapart : (findAll pattern text).Pairwise (·.stop ≤ ·.start) :=
    (matches_from_apart 0 none 0 text).2
  simp only [Range.contains, Bool.and_eq_true, decide_eq_true_eq] at hoffset hoffset'
  obtain ⟨before, after, hsplit⟩ := List.append_of_mem hfirst
  rw [hsplit, List.pairwise_append, List.pairwise_cons] at hapart
  rw [hsplit, List.mem_append, List.mem_cons] at hsecond
  obtain hbefore | rfl | hafter := hsecond
  · have := hapart.2.2 second hbefore first List.mem_cons_self
    omega
  · rfl
  · have := hapart.2.1.1 second hafter
    omega

/-- `Straddles pattern before first rest` says that a match of the pattern starts in `first`, with
`before` before it, and ends in `rest`. -/
def Straddles (pattern : Pattern) (before : Option Char) (first rest : Text) : Prop :=
  ∃ outer inner count, first = outer ++ inner ∧ inner ≠ [] ∧
    pattern (outer.getLast?.or before) (inner ++ rest) = some count ∧ inner.length < count

/-- A match is found if none reaches over its start. -/
theorem mem_matches_from (offset skip : Nat) {before : Option Char} {count : Nat}
    {first rest : Text} (hskip : skip ≤ first.length) (hrest : rest ≠ [])
    (hmatch : pattern (first.getLast?.or before) rest = some (count + 1))
    (hfree : ¬ Straddles pattern before first rest) :
    ⟨offset + first.byteLength, offset + first.byteLength + byteLength (rest.take (count + 1))⟩ ∈
      matchesFrom pattern offset before skip (first ++ rest) := by
  induction first generalizing offset before skip with
  | nil =>
      obtain ⟨c, cs, rfl⟩ := List.exists_cons_of_ne_nil hrest
      obtain rfl : skip = 0 := by simpa using hskip
      have hmatch : pattern before (c :: cs) = some (count + 1) := by simpa using hmatch
      simp [matchesFrom, hmatch]
  | cons c cs ih =>
      have hmatch : pattern (cs.getLast?.or (some c)) rest = some (count + 1) := by
        cases cs <;> simpa [List.getLast?_cons] using hmatch
      have hlater : ¬ Straddles pattern (some c) cs rest := by
        rintro ⟨outer, inner, reach, rfl, hinner, hreach, hlong⟩
        refine hfree ⟨c :: outer, inner, reach, rfl, hinner, ?_, hlong⟩
        cases outer <;> simpa [List.getLast?_cons] using hreach
      have hmem : ∀ skip, skip ≤ cs.length → _ :=
        fun skip h => ih (offset + c.utf8Size) skip h hmatch hlater
      simp only [byte_length_cons, ← Nat.add_assoc, List.cons_append]
      unfold matchesFrom
      split
      · next skip => exact hmem _ (by simpa using hskip)
      · split
        · next reach hreach =>
            refine List.mem_cons_of_mem _ (hmem _ ?_)
            -- A match that starts at `c` ends before `rest`.
            by_contra hlong
            refine hfree ⟨[], c :: cs, reach + 1, rfl, by simp, by simpa using hreach, ?_⟩
            simp only [List.length_cons]
            omega
        · exact hmem _ (Nat.zero_le _)

/-- A match is found if none reaches over its start. -/
theorem mem_find_all {before word after : Text} (hword : word ≠ [])
    (hmatch : pattern before.getLast? (word ++ after) = some word.length)
    (hfree : ¬ Straddles pattern none before (word ++ after)) :
    ⟨before.byteLength, (before ++ word).byteLength⟩ ∈
      findAll pattern (before ++ word ++ after) := by
  obtain ⟨count, hcount⟩ : ∃ count, word.length = count + 1 :=
    ⟨word.length - 1, by have := List.length_pos_iff.2 hword; omega⟩
  rw [hcount] at hmatch
  have hmem := mem_matches_from 0 0 (Nat.zero_le _) (by simp [hword]) (by simpa using hmatch) hfree
  rwa [← hcount, List.take_left, Nat.zero_add, ← byte_length_append, ← List.append_assoc] at hmem

end Highlighter.Text
