import Highlighter.Proofs.Comments
import Highlighter.Proofs.ShownErrors

/-!
# Errors lie over the tokens

The errors of a line are laid over its tokens and change none of them. Every record underlines some
bytes of a line that has any, also one whose token is empty or whose column is past the end
(`resolve_bounds`), so each record of the line gives one error span (`paint_errors_eq`). Hiding the
errors takes these spans away and nothing else (`errors_overlay`).
-/

namespace Highlighter

open Text Buffer

namespace ErrorRecord

/-- The bytes of its line that a record underlines, cut off at the end of the line. -/
def underline (record : ErrorRecord) (line : Text) : Span :=
  let (start, len) := record.resolve line
  ⟨start, min len (line.byteLength - start), .error⟩

/-- A record underlines bytes of a line that has any. -/
theorem resolve_bounds (record : ErrorRecord) {line : Text} (hline : line ≠ []) :
    (record.resolve line).1 < line.byteLength ∧ 0 < (record.resolve line).2 := by
  by_cases htoken : record.token = some []
  · -- An empty token is found at the column.
    have hoffset : record.tokenOffset? line = some (line.charOffset (record.column - 1)) := by
      have hfound : Text.find? (line.drop (record.column - 1)) [] = some 0 := find_start [] _
      simp [tokenOffset?, htoken, hfound]
    obtain ⟨blanks, hblanks⟩ := trim_end_prefix line
    have hlength := congrArg byteLength hblanks
    rw [byte_length_append] at hlength
    simp only [resolve, hoffset]
    split
    · obtain ⟨hpart, hlen⟩ := is_part_of_last_visible hline (Prod.eta (lastVisible line)).symm
      have hstop := hpart.stop_le
      omega
    · exact ⟨by omega, by omega⟩
  · obtain ⟨hpart, hlen⟩ := is_part_of_resolve htoken hline (Prod.eta (record.resolve line)).symm
    have hstop := hpart.stop_le
    omega

end ErrorRecord

namespace Buffer

variable {buffer : Buffer}

/-- An error that starts on the line and has bytes is laid. -/
theorem overlay_of_bounds {start len : Nat} (hstart : start < buffer.length) (hlen : 0 < len) :
    buffer.overlay start len = { buffer with
      overlays := buffer.overlays ++ [⟨start, min len (buffer.length - start), .error⟩] } := by
  refine if_neg ?_
  simp only [Bool.or_eq_true, decide_eq_true_eq]
  omega

/-- Claims lay no errors. -/
theorem Claims.overlays {offered : Span → Prop} {after : Buffer} (h : Claims offered buffer after) :
    after.overlays = buffer.overlays := by
  induction h with
  | refl => rfl
  | claim _ hgranted _ ih => exact ih.trans (claim_overlays hgranted)

/-- Each record gives one error on a line that has bytes, and none on another. -/
theorem records_eq (records : List ErrorRecord) {line : Text}
    (hlength : buffer.length = line.byteLength) :
    records.foldl (fun buffer record =>
        buffer.overlay (record.resolve line).1 (record.resolve line).2) buffer =
      { buffer with overlays := buffer.overlays ++
          if line = [] then [] else records.map (·.underline line) } := by
  by_cases hline : line = []
  · subst hline
    have hnone : ∀ start len, buffer.overlay start len = buffer := fun start len =>
      if_pos (by simp [hlength, byteLength])
    induction records with
    | nil => simp
    | cons record rest ih => rw [List.foldl_cons, hnone, ih, if_pos rfl, if_pos rfl]
  · rw [if_neg hline]
    induction records generalizing buffer with
    | nil => simp
    | cons record rest ih =>
        obtain ⟨hstart, hlen⟩ := record.resolve_bounds hline
        have hlaid := overlay_of_bounds (hlength ▸ hstart) hlen
        have hcells : (buffer.overlay (record.resolve line).1 (record.resolve line).2).length =
            line.byteLength := by rw [hlaid]; exact hlength
        rw [List.foldl_cons, ih hcells, hlaid, hlength]
        simp [ErrorRecord.underline]

end Buffer

namespace Pass

/-- The error spans of a line: one for each of its records, if errors are shown and the line has
bytes. -/
def underlines (pass : Pass) (number : Nat) (line : Text) : List Span :=
  if pass.showErrors = false ∨ line = [] then []
  else (pass.errors.filter (·.line = number)).map (·.underline line)

variable (pass : Pass) (number : Nat) (line : Text)

/-- The errors of a line lie over its tokens, and nothing else does. -/
theorem paint_errors_eq :
    pass.paintErrors number line (pass.paintTokens number line) =
      { pass.paintTokens number line with overlays := pass.underlines number line } := by
  have hlength := (Aligned.paint_tokens pass number line).length
  have hcomment : Claims (fun _ => True) (Buffer.ofText line)
      ((Buffer.ofText line).paintComment line) := claims_claim_all fun _ _ => trivial
  have hbare : (pass.paintTokens number line).overlays = [] :=
    (pass.claims_tokens number line).overlays.trans hcomment.overlays
  unfold paintErrors underlines
  split
  · next hshow =>
      rw [records_eq _ hlength, hbare]
      simp [hshow]
  · next hhide =>
      rw [Bool.not_eq_true] at hhide
      simp [hhide, ← hbare]

/-- The spans of a line are its tokens and then its errors, and its state tells whether there are
errors. -/
theorem highlight_line_eq :
    pass.highlightLine number line =
      { spans := runs 0 (pass.paintTokens number line).cells ++ pass.underlines number line
        state := if pass.underlines number line = [] then .normal else .hasError } := by
  simp only [highlightLine, paint_errors_eq, Buffer.spans, hasErrors]
  cases pass.underlines number line with
  | nil => rfl
  | cons span rest => rfl

/-- Each error has bytes of the line, and is painted as one. -/
theorem underlines_bounds :
    ∀ span ∈ pass.underlines number line,
      span.category = .error ∧ 0 < span.len ∧ span.stop ≤ line.byteLength := by
  intro span hspan
  unfold underlines at hspan
  split at hspan
  · cases hspan
  · next hshown =>
      obtain ⟨record, -, rfl⟩ := List.mem_map.1 hspan
      obtain ⟨hstart, hlen⟩ := record.resolve_bounds fun hline => hshown (.inr hline)
      simp only [ErrorRecord.underline, Span.stop]
      exact ⟨trivial, by omega, by omega⟩

/-- The tokens of a line are the spans that are not errors. -/
theorem tokens_eq :
    (pass.highlightLine number line).spans.filter (·.category ≠ .error) =
      runs 0 (pass.paintTokens number line).cells := by
  have htokens := (Aligned.paint_tokens pass number line).run_category
  have herrors := pass.underlines_bounds number line
  rw [highlight_line_eq, List.filter_append, List.filter_eq_self.2 (by simpa using htokens),
    List.filter_eq_nil_iff.2 (fun span hspan => by simp [(herrors span hspan).1]), List.append_nil]

/-- The errors of a line are what its records underline. -/
theorem errors_eq :
    (pass.highlightLine number line).errors = pass.underlines number line := by
  have htokens := (Aligned.paint_tokens pass number line).run_category
  have herrors := pass.underlines_bounds number line
  rw [LineHighlight.errors, LineHighlight.spansOf, highlight_line_eq, List.filter_append,
    List.filter_eq_nil_iff.2 (fun span hspan => by simp [htokens span hspan]),
    List.filter_eq_self.2 (fun span hspan => by simp [(herrors span hspan).1]), List.nil_append]

end Pass

/-- Errors are a pure overlay. Hiding them leaves all other spans as they are, and a line that is
not normal is one with error spans. There is one for each record of a line that has bytes, in the
order of the records, over what the record underlines as far as that is on the line, and it has
bytes. -/
theorem errors_overlay (outcome : Outcome) (records : List ErrorRecord) (number : Nat)
    (line : Text) :
    let shown := (Pass.mk outcome records true).highlightLine number line
    let hidden := (Pass.mk outcome records false).highlightLine number line
    shown.spans.filter (·.category ≠ .error) = hidden.spans ∧
      shown.errors =
        (if line = [] then [] else (records.filter (·.line = number)).map (·.underline line)) ∧
      (∀ span ∈ shown.errors, 0 < span.len ∧ span.stop ≤ line.byteLength) ∧
      (shown.state = .hasError ↔ shown.errors ≠ []) ∧ hidden.state = .normal := by
  intro shown hidden
  let showing : Pass := ⟨outcome, records, true⟩
  have hhidden : hidden = { spans := runs 0 (showing.paintTokens number line).cells,
                            state := .normal } := by
    rw [← List.append_nil (runs 0 _)]
    exact Pass.highlight_line_eq ⟨outcome, records, false⟩ number line
  have herrors : shown.errors = showing.underlines number line := showing.errors_eq number line
  refine ⟨?_, ?_, ?_, ?_, by rw [hhidden]⟩
  · rw [hhidden]
    exact showing.tokens_eq number line
  · rw [herrors]
    simp [Pass.underlines, showing]
  · rw [herrors]
    exact fun span hspan => (showing.underlines_bounds number line span hspan).2
  · have hstate : shown.state =
        if showing.underlines number line = [] then .normal else .hasError :=
      congrArg LineHighlight.state (showing.highlight_line_eq number line)
    rw [hstate, herrors]
    split
    · next hnone => simp [hnone]
    · next hsome => simp [hsome]

end Highlighter
