import Highlighter.Proofs.Comments
import Highlighter.Proofs.TreePaint

/-!
# What a byte painted from a tree shows

The places in a tree need not fit the text: a column may be missing or wrong, and so may a key. Yet
what is painted is always found on the line. `Evidence` says for each category what stands at a byte
painted so. Each span that a tree offers has its evidence (`evidence_of_offer`), and what is claimed
was offered, so every byte of a line has the evidence of its category; the comment keeps its bytes,
and a line on which the tree has nothing is left alone (`painted_has_evidence`).
-/

namespace Highlighter

open Text

/-- A character stands at a byte offset of a line. -/
def Text.StandsAt (line : Text) (c : Char) (offset : Nat) : Prop :=
  ∃ before after, line = before ++ c :: after ∧ before.byteLength = offset

/-- A key stands in a range of a line, as a whole word in code or as the inside of a literal. -/
def LineView.ReadsKey (view : LineView) (key : Text) (range : Range) : Prop :=
  view.text.slice? range.start range.stop = some key ∧
      view.text.isWholeWord? range.start range.stop = some true ∧
      view.inCode range.start = true ∨
    range ∈ view.literals ∧ view.text.slice? (range.start + 1) (range.stop - 1) = some key

/-- What stands at a byte of a line that a tree is painted on, by the category of the byte. -/
def Evidence (tree : Body) (number : Nat) (line : Text) (offset : Nat) : Category → Prop
  | .key => ∃ key pos range, ⟨.key key, pos⟩ ∈ tree.items ∧ pos.line = number ∧
      (LineView.ofText line).ReadsKey key range ∧ range.contains offset = true
  | .operator => (LineView.ofText line).inCode offset = true ∧ line.StandsAt '=' offset
  | .symbol => (LineView.ofText line).inCode offset = true ∧
      ∃ c ∈ ['\x7b', '\x7d', '[', ']', ','], line.StandsAt c offset
  | .string => ∃ range ∈ (LineView.ofText line).literals, range.contains offset = true
  | .number => ∃ range ∈ line.findAll numberWord,
      (LineView.ofText line).inCode range.start = true ∧ range.contains offset = true
  | .boolean => ∃ word ∈ ["true", "false"], ∃ range ∈ line.findAll (wholeWord word.toList),
      range.start < (LineView.ofText line).codeEnd ∧ range.contains offset = true
  | .null => ∃ range ∈ line.findAll nullWord,
      range.start < (LineView.ofText line).codeEnd ∧ range.contains offset = true
  | .comment => True
  | .docComment => True
  | .error => False

/-- A byte that the span of a range covers lies in the range. -/
theorem contains_of_covers {range : Range} {category : Category} {offset : Nat}
    (h : (Span.ofRange range category).covers offset = true) : range.contains offset = true := by
  obtain ⟨hstart, hstop⟩ := Span.covers_iff.1 h
  simp only [Span.stop, Span.ofRange, Range.length] at hstart hstop
  simp only [Range.contains, Bool.and_eq_true, decide_eq_true_eq]
  omega

/-- Comments need no evidence. -/
theorem evidence_of_comment {tree : Body} {number offset : Nat} {line : Text} {category : Category}
    (h : category.isComment = true) : Evidence tree number line offset category := by
  cases category with
  | comment => trivial
  | docComment => trivial
  | _ => cases h

/-- An occurrence of a literal reads as the literal. -/
theorem slice_of_mem_occurrences {line literal : Text} {range : Range}
    (h : range ∈ line.occurrences literal) :
    line.slice? range.start range.stop = some literal := by
  obtain ⟨before, rest, count, rfl, -, hmatch, rfl⟩ := exists_of_mem_find_all h
  split at hmatch
  · next hstarts =>
      obtain ⟨after, rfl⟩ := List.isPrefixOf_iff_prefix.1 hstarts
      obtain hcount : literal.length = count + 1 := by simpa using hmatch
      rw [← hcount, List.take_left, ← byte_length_append, ← List.append_assoc]
      exact slice_append before literal after
  · cases hmatch

section

variable {number : Nat} {line key : Text} {range : Range}

/-- A bare place of a key reads as the key. -/
theorem reads_key_of_bare (h : range ∈ (Canvas.ofText number line).bareKeys key) :
    (LineView.ofText line).ReadsKey key range := by
  obtain ⟨hoccurs, hplace⟩ := List.mem_filter.1 h
  obtain ⟨hword, hcode⟩ := Bool.and_eq_true_iff.1 hplace
  refine .inl ⟨slice_of_mem_occurrences hoccurs, ?_, hcode⟩
  exact (Option.getD_eq_iff.1 hword).resolve_right fun hnone => absurd hnone.2 (by decide)

/-- A quoted place of a key reads as the key. -/
theorem reads_key_of_quoted (h : range ∈ (Canvas.ofText number line).quotedKeys key) :
    (LineView.ofText line).ReadsKey key range := by
  obtain ⟨hliteral, hinside⟩ := List.mem_filter.1 h
  exact .inr ⟨hliteral, beq_iff_eq.1 hinside⟩

end

variable {tree : Body} {number offset : Nat} {line : Text}

/-- A character in code stands where its occurrence starts, which is its only byte. -/
theorem stands_at_of_occurrence {c : Char} {range : Range} (hsize : c.utf8Size = 1)
    (hrange : range ∈ (LineView.ofText line).codeOccurrences c)
    (hcontains : range.contains offset = true) :
    (LineView.ofText line).inCode offset = true ∧ line.StandsAt c offset := by
  obtain ⟨before, after, hline, hstart, hlength, hcode⟩ := exists_of_mem_code_occurrences hrange
  have hoffset : before.byteLength = offset := by
    simp only [Range.contains, Bool.and_eq_true, decide_eq_true_eq] at hcontains
    simp only [Range.length] at hlength
    omega
  exact ⟨hoffset ▸ hcode, before, after, hline, hoffset⟩

/-- The places of a scalar are evidence for its category. -/
theorem evidence_of_scalar {value : Scalar} {range : Range}
    (hrange : range ∈ (Canvas.ofText number line).scalarRanges value)
    (hcontains : range.contains offset = true) :
    Evidence tree number line offset (Canvas.scalarCategory value) := by
  cases value with
  | string _ => exact ⟨range, hrange, hcontains⟩
  | bool value =>
      cases value with
      | true =>
          obtain ⟨hword, hstart⟩ := List.mem_filter.1 hrange
          exact ⟨"true", by simp, range, hword, of_decide_eq_true hstart, hcontains⟩
      | false =>
          obtain ⟨hword, hstart⟩ := List.mem_filter.1 hrange
          exact ⟨"false", by simp, range, hword, of_decide_eq_true hstart, hcontains⟩
  | null =>
      obtain ⟨hword, hstart⟩ := List.mem_filter.1 hrange
      exact ⟨range, hword, of_decide_eq_true hstart, hcontains⟩
  | number _ =>
      obtain ⟨hbefore, hcode⟩ := List.mem_filter.1 hrange
      exact ⟨range, List.mem_of_mem_filter hbefore, hcode, hcontains⟩

/-- What a tree offers has its evidence at every byte. -/
theorem evidence_of_offer {span : Span} (h : (Canvas.ofText number line).Offers tree.items span)
    (hcovers : span.covers offset = true) : Evidence tree number line offset span.category := by
  cases h with
  | @key key pos range hitem hhas hrange =>
      refine ⟨key, pos, range, hitem, (has_iff number line pos).1 hhas, ?_,
        contains_of_covers hcovers⟩
      obtain hbare | hquoted := hrange
      · exact reads_key_of_bare hbare
      · exact reads_key_of_quoted hquoted
  | @equals _ _ range _ _ hrange =>
      -- The span is that of the occurrence, which has one byte.
      obtain ⟨_, _, -, -, hlength, -⟩ := exists_of_mem_code_occurrences hrange
      have hspan : Span.ofRange range .operator = ⟨range.start, 1, .operator⟩ := by
        rw [Span.ofRange, hlength]
        rfl
      exact stands_at_of_occurrence rfl hrange (contains_of_covers (hspan ▸ hcovers))
  | scalar _ _ hrange => exact evidence_of_scalar hrange (contains_of_covers hcovers)
  | @symbol _ c _ _ _ hsymbol hrange =>
      have hsizes : Canvas.symbols.all (·.utf8Size == 1) = true := by decide
      have hsize : c.utf8Size = 1 := eq_of_beq (List.all_eq_true.1 hsizes c hsymbol)
      obtain ⟨hcode, hstands⟩ := stands_at_of_occurrence hsize hrange (contains_of_covers hcovers)
      exact ⟨hcode, c, hsymbol, hstands⟩
  | @comment comment _ _ _ _ =>
      refine evidence_of_comment ?_
      show comment.kind.category.isComment = true
      cases comment.kind with
      | _ => rfl

/-- A tree offers nothing on a line where no part of it is. -/
theorem not_offers {items : List Item} (hnone : ∀ item ∈ items, item.pos.line ≠ number)
    (span : Span) : ¬ (Canvas.ofText number line).Offers items span := by
  have habsent : ∀ {item : Item}, item ∈ items →
      ¬ (Canvas.ofText number line).has item.pos = true := fun hitem hhas =>
    hnone _ hitem ((has_iff number line _).1 hhas)
  intro h
  cases h with
  | key hitem hhas _ => exact habsent hitem hhas
  | equals hitem hhas _ => exact habsent hitem hhas
  | scalar hitem hhas _ => exact habsent hitem hhas
  | symbol hpos hhas _ _ =>
      obtain ⟨item, hitem, rfl⟩ := List.mem_map.1 hpos
      exact habsent hitem hhas
  | comment hitem hhas _ => exact habsent hitem hhas

/-- Whatever a tree says of its places, a line painted from it after its comment shows at each
claimed byte the evidence of the category. Every byte from the comment's marker on keeps the
category of the comment. A line on which no part of the tree is stays as it is. -/
theorem painted_has_evidence (tree : Body) (number : Nat) (line : Text) :
    let painted := ((Buffer.ofText line).paintComment line).paintTree tree number line
    (∀ offset category, painted.claimedAt offset = some category →
      Evidence tree number line offset category) ∧
    (∀ start kind, findComment? line = some (start, kind) →
      ∀ offset, start ≤ offset → offset < line.byteLength →
        painted.claimedAt offset = some kind.category) ∧
    ((∀ item ∈ tree.items, item.pos.line ≠ number) →
      ∀ buffer : Buffer, buffer.paintTree tree number line = buffer) := by
  intro painted
  have hclaims := Canvas.claims_tree tree number line
  refine ⟨fun offset category hclaimed => ?_, fun start kind hfind offset hlow hhigh => ?_,
    fun hnone buffer => (hclaims buffer).eq_of_none (not_offers hnone)⟩
  · obtain hbefore | ⟨span, hoffer, rfl, hcovers⟩ := (hclaims _).claimed_before hclaimed
    · -- Only the comment was claimed before.
      have hcomment : Buffer.Claims (fun span => commentSpan? line = some span)
          (Buffer.ofText line) ((Buffer.ofText line).paintComment line) :=
        Buffer.claims_claim_all fun span hspan => Option.mem_toList.1 hspan
      obtain hbare | ⟨span, hspan, rfl, -⟩ := hcomment.claimed_before hbefore
      · rw [Buffer.claimed_at_of_text] at hbare
        cases hbare
      · exact evidence_of_comment (comment_span_shape hspan).2.2
    · exact evidence_of_offer hoffer hcovers
  · have hspan : commentSpan? line = some ⟨start, line.byteLength - start, kind.category⟩ := by
      rw [commentSpan?, hfind]
      rfl
    refine (hclaims _).claimed_at ?_
    rw [Buffer.claimed_at_paint_comment hspan, if_pos ⟨hlow, hhigh⟩]

end Highlighter
