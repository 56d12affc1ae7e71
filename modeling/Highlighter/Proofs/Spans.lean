import Highlighter.Line.Pass
import Highlighter.Proofs.Claims
import Highlighter.Proofs.Underline

/-!
# The spans of a line

What a host may rely on when it paints a line. `Runs first cells spans` takes the cells of a buffer
apart into gaps and maximal runs, so the token spans are in order and apart, and two that touch
differ. A buffer is `Aligned` with its line if the category of its bytes changes only between
characters and its errors lie on parts of the line; every claim of a part and every underlined
record keeps it so. `highlight_line_spans` puts both together for any outcome, whether or not its
tree fits the line, and for the records of any failures. The category at a byte is what claimed it,
whatever errors lie over it (`category_at_claimed`).
-/

namespace Highlighter

namespace Buffer

/-- `Runs first cells spans` says that cells, the first of which has the given offset, consist of
gaps and of the given maximal runs. -/
inductive Runs : Nat → List (Option Category) → List Span → Prop where
  | nil (first : Nat) : Runs first [] []
  | gap {first : Nat} {cells : List (Option Category)} {spans : List Span}
      (hrest : Runs (first + 1) cells spans) : Runs first (none :: cells) spans
  | run {first len : Nat} {category : Category} {rest : List (Option Category)} {spans : List Span}
      (hstop : rest.head? ≠ some (some category)) (hrest : Runs (first + (len + 1)) rest spans) :
      Runs first (List.replicate (len + 1) (some category) ++ rest)
        (⟨first, len + 1, category⟩ :: spans)

section

variable {first : Nat} {cells : List (Option Category)} {spans : List Span} {span : Span}

/-- A run starts no earlier than the cells, ends no later, and has bytes. -/
theorem Runs.bounds (h : Runs first cells spans) :
    ∀ span ∈ spans, first ≤ span.start ∧ 0 < span.len ∧ span.stop ≤ first + cells.length := by
  induction h with
  | nil first => simp
  | gap hrest ih =>
      intro span hspan
      obtain ⟨hstart, hlen, hstop⟩ := ih span hspan
      rw [List.length_cons]
      omega
  | run hstop hrest ih =>
      intro span hspan
      rw [List.length_append, List.length_replicate]
      obtain rfl | hspan := List.mem_cons.1 hspan
      · simp only [Span.stop]
        omega
      · obtain ⟨hstart, hlen, hstop⟩ := ih span hspan
        omega

/-- A run has a category that was claimed. -/
theorem Runs.category_mem (h : Runs first cells spans) :
    ∀ span ∈ spans, some span.category ∈ cells := by
  induction h with
  | nil first => simp
  | gap hrest ih =>
      intro span hspan
      exact List.mem_cons_of_mem _ (ih span hspan)
  | run hstop hrest ih =>
      intro span hspan
      obtain rfl | hspan := List.mem_cons.1 hspan
      · exact List.mem_append_left _ (List.mem_replicate.2 ⟨Nat.succ_ne_zero _, rfl⟩)
      · exact List.mem_append_right _ (ih span hspan)

/-- A run that starts with the cells has the category of the first cell. -/
theorem Runs.category_of_start (h : Runs first cells spans) (hspan : span ∈ spans)
    (hstart : span.start = first) : cells.head? = some (some span.category) := by
  cases h with
  | nil => cases hspan
  | gap hrest =>
      obtain ⟨hlow, -, -⟩ := hrest.bounds span hspan
      omega
  | run hstop hrest =>
      obtain rfl | hspan := List.mem_cons.1 hspan
      · rfl
      · obtain ⟨hlow, -, -⟩ := hrest.bounds span hspan
        omega

/-- A claimed cell that the next one does not go on with is a run. -/
theorem Runs.single {category : Category} (hstop : cells.head? ≠ some (some category))
    (hrest : Runs (first + 1) cells spans) :
    Runs first (some category :: cells) (⟨first, 1, category⟩ :: spans) :=
  Runs.run hstop hrest

/-- Runs are in order and apart, and two that touch differ. -/
theorem Runs.pairwise (h : Runs first cells spans) :
    spans.Pairwise fun span next =>
      span.stop ≤ next.start ∧ (span.stop = next.start → span.category ≠ next.category) := by
  induction h with
  | nil first => exact List.Pairwise.nil
  | gap hrest ih => exact ih
  | run hstop hrest ih =>
      refine List.pairwise_cons.2 ⟨fun next hnext => ?_, ih⟩
      refine ⟨(hrest.bounds next hnext).1, fun htouch hsame => hstop ?_⟩
      have hhead := hrest.category_of_start hnext htouch.symm
      rwa [← hsame] at hhead

/-- If the category of the cells changes at marked offsets only, runs start and end at such. -/
theorem Runs.marked (marked : Nat → Prop) (h : Runs first cells spans)
    (hfirst : ∀ category, cells.head? = some (some category) → marked first)
    (hchange : ∀ index, (cells[index]?).join ≠ (cells[index + 1]?).join →
      marked (first + (index + 1))) :
    ∀ span ∈ spans, marked span.start ∧ marked span.stop := by
  induction h with
  | nil first => simp
  | gap hrest ih =>
      refine ih (fun category hhead => hchange 0 ?_) (fun index hindex => ?_)
      · rw [List.head?_eq_getElem?] at hhead
        simp [hhead]
      · rw [Nat.add_assoc, Nat.add_comm 1]
        exact hchange (index + 1) hindex
  | @run first len category rest spans hstop hrest ih =>
      have hcell : ∀ index, (List.replicate (len + 1) (some category) ++ rest)[len + 1 + index]? =
          rest[index]? := by
        intro index
        rw [List.getElem?_append_right (by simp), List.length_replicate, Nat.add_sub_cancel_left]
      -- The last cell of the run and the next one differ.
      have hend : marked (first + (len + 1)) := by
        refine hchange len ?_
        have hlast : (List.replicate (len + 1) (some category) ++ rest)[len]? =
            some (some category) := by
          rw [List.getElem?_append_left (by simp),
            List.getElem?_replicate_of_lt (Nat.lt_succ_self len)]
        rw [hlast, hcell 0, ← List.head?_eq_getElem?]
        intro hsame
        exact hstop (Option.join_eq_some_iff.1 hsame.symm)
      intro span hspan
      obtain rfl | hspan := List.mem_cons.1 hspan
      · exact ⟨hfirst category rfl, hend⟩
      · refine ih (fun category _ => hend) (fun index hindex => ?_) span hspan
        rw [Nat.add_assoc, ← Nat.add_assoc (len + 1)]
        refine hchange (len + 1 + index) ?_
        rwa [hcell, Nat.add_assoc (len + 1), hcell]

end

/-- The spans of cells are their maximal runs. -/
theorem runs_runs (first : Nat) (cells : List (Option Category)) :
    Runs first cells (runs first cells) := by
  induction cells generalizing first with
  | nil => exact .nil first
  | cons cell cells ih =>
      have hrest := ih (first + 1)
      cases cell with
      | none => exact .gap hrest
      | some category =>
          simp only [runs]
          generalize runs (first + 1) cells = spans at hrest ⊢
          cases hrest with
          | nil => exact Runs.single (by simp) (.nil _)
          | gap hrest =>
              -- The next run starts later, so it is not this one.
              cases spans with
              | nil => exact Runs.single (by simp) (.gap hrest)
              | cons next spans =>
                  obtain ⟨hlow, -, -⟩ := hrest.bounds next List.mem_cons_self
                  have hapart : next.start ≠ first + 1 := by omega
                  simp only [hapart, decide_false, Bool.false_and]
                  exact Runs.single (by simp) (.gap hrest)
          | @run _ len next rest spans hstop hrest =>
              by_cases hsame : next = category
              · subst hsame
                rw [Nat.add_assoc, Nat.add_comm 1] at hrest
                simp only [decide_true, Bool.and_self]
                exact Runs.run hstop hrest
              · have hstart : (List.replicate (len + 1) (some next) ++ rest).head? ≠
                    some (some category) := by
                  simpa [List.replicate_succ] using hsame
                simpa [hsame] using Runs.single hstart (.run hstop hrest)

/-- A granted claim is not for errors. -/
theorem claim_category {buffer claimed : Buffer} {start len : Nat} {category : Category}
    (h : buffer.claim? start len category = some claimed) : category ≠ .error := by
  intro herror
  simp [claim?, herror] at h

open Text

/-- `buffer.Aligned line` says that a buffer fits its line: it has a cell for each byte, no cell is
for errors, the category of the bytes changes only between characters, and the errors lie on parts
of the line. -/
structure Aligned (line : Text) (buffer : Buffer) : Prop where
  length : buffer.length = line.byteLength
  tokens : ∀ offset, buffer.claimedAt offset ≠ some .error
  whole : ∀ offset, buffer.claimedAt offset ≠ buffer.claimedAt (offset + 1) →
    line.isBoundary (offset + 1) = true
  overlays : ∀ span ∈ buffer.overlays,
    span.category = .error ∧ 0 < span.len ∧ IsPart line span.start span.stop

namespace Aligned

variable {line : Text} {buffer claimed : Buffer}

/-- A buffer with nothing claimed fits. -/
theorem of_text (line : Text) : (Buffer.ofText line).Aligned line := by
  have hnone := claimed_at_of_text line
  constructor
  · exact List.length_replicate
  · intro offset
    simp [hnone]
  · intro offset hchange
    exact absurd ((hnone offset).trans (hnone (offset + 1)).symm) hchange
  · intro span hspan
    cases hspan

/-- A granted claim of a part keeps a buffer fitting. -/
theorem claim {span : Span} (h : buffer.Aligned line) (hpart : IsPart line span.start span.stop)
    (hgranted : buffer.claim? span.start span.len span.category = some claimed) :
    claimed.Aligned line := by
  have hat := claimed_at_claim hgranted
  constructor
  · rw [claim_length hgranted, h.length]
  · intro offset
    rw [hat]
    split
    · intro herror
      exact claim_category hgranted (Option.some.inj herror)
    · exact h.tokens offset
  · intro offset hchange
    -- The category changes at an end of the part, or where it changed before.
    by_cases hstart : span.start = offset + 1
    · exact hstart ▸ hpart.starts
    by_cases hstop : span.stop = offset + 1
    · exact hstop ▸ hpart.stops
    rw [hat, hat] at hchange
    rw [Span.stop] at hstop
    by_cases hinside : span.start ≤ offset ∧ offset < span.start + span.len
    · rw [if_pos hinside, if_pos (by omega)] at hchange
      exact absurd rfl hchange
    · rw [if_neg hinside, if_neg (by omega)] at hchange
      exact h.whole offset hchange
  · rw [claim_overlays hgranted]
    exact h.overlays

/-- Granted claims of parts keep a buffer fitting. -/
theorem claims {offered : Span → Prop} (h : buffer.Aligned line)
    (hparts : ∀ span, offered span → IsPart line span.start span.stop)
    (hclaims : Claims offered buffer claimed) : claimed.Aligned line := by
  induction hclaims with
  | refl => exact h
  | claim hoffer hgranted _ ih => exact ih (h.claim (hparts _ hoffer) hgranted)

/-- An underlined record keeps a buffer fitting. -/
theorem overlay {record : ErrorRecord} {start len : Nat} (h : buffer.Aligned line)
    (htoken : record.token ≠ some []) (hresolve : record.resolve line = (start, len)) :
    (buffer.overlay start len).Aligned line := by
  unfold Buffer.overlay
  split
  · exact h
  · next hshown =>
      refine ⟨h.length, h.tokens, h.whole, ?_⟩
      intro span hspan
      obtain hold | hnew := List.mem_append.1 hspan
      · exact h.overlays span hold
      · have hlow : start < line.byteLength := by
          rw [← h.length]
          simp only [Bool.or_eq_true, decide_eq_true_eq, not_or] at hshown
          omega
        have hline : line ≠ [] := by
          rintro rfl
          exact absurd hlow (Nat.not_lt_zero start)
        obtain ⟨hpart, hlen⟩ := ErrorRecord.is_part_of_resolve htoken hline hresolve
        have hfits : min len (buffer.length - start) = len := by
          have hstop := hpart.stop_le
          rw [h.length]
          omega
        rw [List.mem_singleton.1 hnew, hfits]
        exact ⟨rfl, hlen, hpart⟩

/-- The tokens of a line fit it, whatever the outcome. -/
theorem paint_tokens (pass : Pass) (number : Nat) (line : Text) :
    (pass.paintTokens number line).Aligned line := by
  have hcomment : ((Buffer.ofText line).paintComment line).Aligned line :=
    (of_text line).claims (fun span hspan => is_part_of_comment_span hspan)
      (claims_claim_all fun span hspan => Option.mem_toList.1 hspan)
  have hpatterns : (((Buffer.ofText line).paintComment line).paintPatterns line).Aligned line :=
    hcomment.claims (fun span hspan => is_part_of_pattern_span hspan)
      (claims_claim_all fun span hspan => hspan)
  simp only [Pass.paintTokens]
  split
  · next tree _ =>
      split
      · exact hcomment.claims (fun span hspan => is_part_of_offer hspan)
          (Canvas.claims_tree tree number line _)
      · exact hpatterns
  · exact hpatterns

/-- Records whose tokens have characters keep a buffer fitting. -/
theorem records {records : List ErrorRecord} (h : buffer.Aligned line)
    (htokens : ∀ record ∈ records, record.token ≠ some []) :
    (records.foldl (fun buffer record =>
      buffer.overlay (record.resolve line).1 (record.resolve line).2) buffer).Aligned line := by
  induction records generalizing buffer with
  | nil => exact h
  | cons record rest ih =>
      obtain ⟨htoken, hrest⟩ := List.forall_mem_cons.1 htokens
      exact ih (h.overlay htoken rfl) hrest

/-- The errors of failures keep a buffer fitting. -/
theorem paint_errors {pass : Pass} {failures : List ParseError} (number : Nat)
    (herrors : pass.errors = failures.map ErrorRecord.locate) (h : buffer.Aligned line) :
    (pass.paintErrors number line buffer).Aligned line := by
  unfold Pass.paintErrors
  split
  · refine h.records fun record hrecord => ?_
    have hmem := List.mem_of_mem_filter hrecord
    rw [herrors] at hmem
    obtain ⟨failure, -, rfl⟩ := List.mem_map.1 hmem
    exact ErrorRecord.locate_token_ne_nil failure
  · exact h

/-- The runs of a fitting buffer start and end between characters. -/
theorem run_boundaries (h : buffer.Aligned line) :
    ∀ span ∈ runs 0 buffer.cells,
      line.isBoundary span.start = true ∧ line.isBoundary span.stop = true := by
  have hstart : line.isBoundary 0 = true := is_boundary_iff.2 ⟨[], line, rfl, rfl⟩
  refine (runs_runs 0 buffer.cells).marked (line.isBoundary · = true) (fun _ _ => hstart) ?_
  intro index hindex
  rw [Nat.zero_add]
  exact h.whole index hindex

/-- The runs of a fitting buffer are not for errors. -/
theorem run_category (h : buffer.Aligned line) :
    ∀ span ∈ runs 0 buffer.cells, span.category ≠ .error := by
  intro span hspan herror
  have hmem := (runs_runs 0 buffer.cells).category_mem span hspan
  rw [herror] at hmem
  obtain ⟨offset, hoffset⟩ := List.mem_iff_getElem?.1 hmem
  refine h.tokens offset ?_
  rw [claimedAt, hoffset]
  rfl

end Aligned

end Buffer

/-- Errors that are laid over a line leave its tokens as they are. -/
theorem Pass.paint_errors_cells (pass : Pass) (number : Nat) (line : Text) {buffer : Buffer}
    (hoverlays : ∀ span ∈ buffer.overlays, span.category = .error) :
    (pass.paintErrors number line buffer).cells = buffer.cells ∧
      ∀ span ∈ (pass.paintErrors number line buffer).overlays, span.category = .error := by
  unfold Pass.paintErrors
  split
  · induction pass.errors.filter (·.line = number) generalizing buffer with
    | nil => exact ⟨rfl, hoverlays⟩
    | cons record rest ih =>
        have hoverlay : ∀ start len, (buffer.overlay start len).cells = buffer.cells ∧
            ∀ span ∈ (buffer.overlay start len).overlays, span.category = .error := by
          intro start len
          unfold Buffer.overlay
          split
          · exact ⟨rfl, hoverlays⟩
          · refine ⟨rfl, fun span hspan => ?_⟩
            rcases List.mem_append.1 hspan with hold | hnew
            · exact hoverlays span hold
            · rw [List.mem_singleton.1 hnew]
        obtain ⟨hcells, herrors⟩ := hoverlay (record.resolve line).1 (record.resolve line).2
        obtain ⟨hrest, hall⟩ := ih herrors
        exact ⟨hrest.trans hcells, hall⟩
  · exact ⟨rfl, hoverlays⟩

/-- The category at a byte is what claimed it, whatever errors are shown. -/
theorem category_at_claimed (pass : Pass) (number : Nat) (line : Text) (offset : Nat) :
    (pass.highlightLine number line).categoryAt offset =
      (pass.paintTokens number line).claimedAt offset := by
  have haligned := Buffer.Aligned.paint_tokens pass number line
  obtain ⟨hcells, herrors⟩ := pass.paint_errors_cells number line
    fun span hspan => (haligned.overlays span hspan).1
  have hclaimed : ∀ offset, (pass.paintErrors number line (pass.paintTokens number line)).claimedAt
      offset = (pass.paintTokens number line).claimedAt offset := by
    intro offset
    rw [Buffer.claimedAt, hcells, Buffer.claimedAt]
  rw [← hclaimed]
  exact Buffer.category_in_eq_claimed (fun offset => hclaimed offset ▸ haligned.tokens offset)
    herrors offset

/-- The spans of a line are tokens and then errors. The tokens are in order and apart, and two that
touch differ in category; none is for errors. Every span has bytes, lies on the line, and starts and
ends between characters. -/
theorem highlight_line_spans (outcome : Outcome) (failures : List ParseError) (showErrors : Bool)
    (number : Nat) (line : Text) :
    let pass : Pass := ⟨outcome, failures.map ErrorRecord.locate, showErrors⟩
    ∃ tokens errors : List Span,
      (pass.highlightLine number line).spans = tokens ++ errors ∧
      (∀ span ∈ tokens, span.category ≠ .error) ∧
      tokens.Pairwise (fun span next => span.start < next.start ∧ span.stop ≤ next.start ∧
        (span.stop = next.start → span.category ≠ next.category)) ∧
      (∀ span ∈ errors, span.category = .error) ∧
      ∀ span ∈ tokens ++ errors, 0 < span.len ∧ span.stop ≤ line.byteLength ∧
        line.isBoundary span.start = true ∧ line.isBoundary span.stop = true := by
  intro pass
  let buffer := pass.paintErrors number line (pass.paintTokens number line)
  have haligned : buffer.Aligned line :=
    (Buffer.Aligned.paint_tokens pass number line).paint_errors number rfl
  have hruns := Buffer.runs_runs 0 buffer.cells
  refine ⟨Buffer.runs 0 buffer.cells, buffer.overlays, rfl, haligned.run_category, ?_,
    fun span hspan => (haligned.overlays span hspan).1, fun span hspan => ?_⟩
  · refine hruns.pairwise.imp_of_mem fun {span next} hspan _ hapart => ?_
    have hstart : span.start < next.start := by
      obtain ⟨-, hlen, -⟩ := hruns.bounds span hspan
      have hstop := hapart.1
      rw [Span.stop] at hstop
      omega
    exact ⟨hstart, hapart⟩
  · obtain htoken | herror := List.mem_append.1 hspan
    · obtain ⟨-, hlen, hstop⟩ := hruns.bounds span htoken
      rw [Nat.zero_add] at hstop
      exact ⟨hlen, haligned.length ▸ hstop, haligned.run_boundaries span htoken⟩
    · obtain ⟨-, hlen, hpart⟩ := haligned.overlays span herror
      exact ⟨hlen, hpart.stop_le, hpart.starts, hpart.stops⟩

end Highlighter
