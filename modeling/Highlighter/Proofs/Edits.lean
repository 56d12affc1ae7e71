import Highlighter.Proofs.Repaint

/-!
# What is reported of edits

Each change to a document is reported as an `Edit`: a place, a number of characters removed there
and a number of characters added. `Edited` says what a change does, in the terms of its report, and
holds of every change whatever indices it is given (`edited_change`).

Two facts about every run of changes and paints follow. Whoever knows the first text, the reports
and the characters that were typed can follow the document without looking at it: `Edit.replay`
takes as many of the typed characters for each report as it says, and ends with the document's text
(`replay_run`). And paint is recorded for no line that the document does not have
(`paint_in_lines_run`).
-/

namespace Highlighter

/-- The characters that a change brings in. -/
def Change.inserted : Change → Text
  | .insert _ added => added
  | .remove _ _ => []
  | .setText text => text

namespace Edit

/-- A text after an edit that brings in the given characters. -/
def apply (edit : Edit) (inserted text : Text) : Text :=
  text.take edit.position ++ inserted ++ text.drop (edit.position + edit.removed)

/-- A text after the edits that are reported. Each edit brings in as many of the typed characters as
it says that it added. -/
def replay (text typed : Text) : List Edit → Text
  | [] => text
  | edit :: rest =>
      replay (edit.apply (typed.take edit.added) text) (typed.drop edit.added) rest

end Edit

namespace Document

/-- `Edited doc inserted edit next` says that a document becomes another one by an edit that brings
in the given characters. The edit lies within the text, the revision counts it, and the paint of all
lines that the document then has stays while the paint of others is dropped. -/
structure Edited (doc : Document) (inserted : Text) (edit : Edit) (next : Document) : Prop where
  text : next.text = edit.apply inserted doc.text
  added : edit.added = inserted.length
  within : edit.position + edit.removed ≤ doc.text.length
  revision : next.revision.toNat = (doc.revision.toNat + 1) % UInt64.size
  highlight : ∀ line, next.highlight? line =
    if line ≤ next.lineCount then doc.highlight? line else none

/-- Paint that is kept by its line is found as before, and other paint is not found. -/
theorem lookup_filter (paint : List (Nat × LineHighlight)) (count line : Nat) :
    (paint.filter fun pair => pair.1 ≤ count).lookup line =
      if line ≤ count then paint.lookup line else none := by
  induction paint with
  | nil => simp
  | cons pair rest ih =>
      obtain ⟨first, highlight⟩ := pair
      rw [List.filter_cons, List.lookup_cons]
      by_cases hfirst : first ≤ count
      · rw [if_pos (by simpa using hfirst), List.lookup_cons, ih]
        by_cases hline : line = first
        · simp [hline, hfirst]
        · simp [beq_eq_false_iff_ne.2 hline]
      · rw [if_neg (by simpa using hfirst), ih]
        by_cases hline : line = first
        · simp [hline, hfirst]
        · simp [beq_eq_false_iff_ne.2 hline]

/-- A document with another text, as an edit of the old one. -/
theorem edited_retext (doc : Document) {inserted text : Text} {edit : Edit}
    (htext : text = edit.apply inserted doc.text) (hadded : edit.added = inserted.length)
    (hwithin : edit.position + edit.removed ≤ doc.text.length) :
    Edited doc inserted edit (doc.retext text) where
  text := htext
  added := hadded
  within := hwithin
  revision := UInt64.toNat_add doc.revision 1
  highlight := lookup_filter doc.paint text.brokenLines.length

/-- Every change is reported as the edit that it is. -/
theorem edited_change (doc : Document) (change : Change) :
    Edited doc change.inserted (doc.change change).2 (doc.change change).1 := by
  cases change with
  | insert index added => exact edited_retext doc rfl rfl (Nat.min_le_right _ _)
  | remove first last =>
      let start := min first doc.text.length
      let stop := max start (min last doc.text.length)
      have hstop : start + (stop - start) = stop := Nat.add_sub_cancel' (Nat.le_max_left _ _)
      have hlast : stop ≤ doc.text.length :=
        Nat.max_le.2 ⟨Nat.min_le_right _ _, Nat.min_le_right _ _⟩
      refine edited_retext doc ?_ rfl ?_
      · show doc.text.take start ++ doc.text.drop stop =
          doc.text.take start ++ [] ++ doc.text.drop (start + (stop - start))
        rw [hstop, List.append_nil]
      · show start + (stop - start) ≤ doc.text.length
        rw [hstop]
        exact hlast
  | setText text =>
      refine edited_retext doc ?_ rfl ?_
      · show text = doc.text.take 0 ++ text ++ doc.text.drop (0 + doc.text.length)
        simp
      · show 0 + doc.text.length ≤ doc.text.length
        omega

/-- What may happen to a document. -/
inductive Step where
  /-- It is edited. -/
  | change (change : Change)
  /-- Its lines are painted by an engine. -/
  | paint (engine : Engine)

/-- The characters that are typed in a step. -/
def Step.typed : Step → Text
  | .change made => made.inserted
  | .paint _ => []

/-- The document after a step, and the edits that are reported of it. -/
def step (doc : Document) : Step → Document × List Edit
  | .change made => ((doc.change made).1, [(doc.change made).2])
  | .paint engine => (doc.repaint engine doc.host, [])

/-- The document after steps in order, and the edits that are reported of them. -/
def run (doc : Document) : List Step → Document × List Edit
  | [] => (doc, [])
  | step :: rest =>
      let (next, edits) := doc.step step
      let (last, later) := next.run rest
      (last, edits ++ later)

/-- Whether the lines that have paint are lines of the document. -/
def PaintInLines (doc : Document) : Prop :=
  ∀ line, doc.highlight? line ≠ none → 1 ≤ line ∧ line ≤ doc.lineCount

/-- Painting changes neither the text of a document nor the number of its lines. -/
theorem text_repaint (doc : Document) (engine : Engine) :
    (doc.repaint engine doc.host).text = doc.text :=
  congrArg Host.text (host_apply_paint doc _)

theorem line_count_repaint (doc : Document) (engine : Engine) :
    (doc.repaint engine doc.host).lineCount = doc.lineCount :=
  congrArg Host.lineCount (host_apply_paint doc _)

/-- A line that has paint after lines were painted had some before or is one of them. -/
theorem painted_cases {doc : Document} {paint : List (Nat × LineHighlight)} {line : Nat}
    (h : (doc.applyPaint paint).highlight? line ≠ none) :
    doc.highlight? line ≠ none ∨ ∃ pair ∈ paint, pair.1 = line := by
  induction paint generalizing doc with
  | nil => exact .inl h
  | cons pair rest ih =>
      have hrest : ((doc.setHighlight pair.1 pair.2).applyPaint rest).highlight? line ≠ none := h
      rcases ih hrest with hset | ⟨later, hlater, hline⟩
      · by_cases hline : line = pair.1
        · exact .inr ⟨pair, List.mem_cons_self, hline.symm⟩
        · left
          change (setPaint pair.1 pair.2 doc.paint).lookup line ≠ none at hset
          rwa [lookup_set_paint, if_neg hline] at hset
      · exact .inr ⟨later, List.mem_cons_of_mem _ hlater, hline⟩

/-- No step leaves paint for a line that the document does not have. -/
theorem paint_in_lines_step {doc : Document} (step : Step) (h : doc.PaintInLines) :
    (doc.step step).1.PaintInLines := by
  cases step with
  | change change =>
      intro line hline
      change (doc.change change).1.highlight? line ≠ none at hline
      rw [(edited_change doc change).highlight] at hline
      split at hline
      · next hlast => exact ⟨(h line hline).1, hlast⟩
      · exact absurd rfl hline
  | paint engine =>
      intro line hline
      show 1 ≤ line ∧ line ≤ (doc.repaint engine doc.host).lineCount
      rw [line_count_repaint]
      obtain hold | ⟨pair, hpair, rfl⟩ := painted_cases hline
      · exact h line hold
      · exact (mem_paint.1 hpair).1

/-- No run leaves paint for a line that the document does not have. -/
theorem paint_in_lines_run {doc : Document} (steps : List Step) (h : doc.PaintInLines) :
    (doc.run steps).1.PaintInLines := by
  induction steps generalizing doc with
  | nil => exact h
  | cons step rest ih => exact ih (paint_in_lines_step step h)

/-- The reports of a run and the characters typed in it take the first text to the last one. -/
theorem replay_run (doc : Document) (steps : List Step) :
    Edit.replay doc.text (steps.flatMap Step.typed) (doc.run steps).2 = (doc.run steps).1.text := by
  induction steps generalizing doc with
  | nil => rfl
  | cons step rest ih =>
      rw [List.flatMap_cons]
      cases step with
      | change change =>
          have hedited := edited_change doc change
          have hnext := ih (doc.change change).1
          rw [hedited.text] at hnext
          show Edit.replay (Edit.apply _ (List.take _ (change.inserted ++ _)) _)
            (List.drop _ (change.inserted ++ _)) _ = _
          rw [List.take_left' hedited.added.symm, List.drop_left' hedited.added.symm]
          exact hnext
      | paint engine =>
          have hnext := ih (doc.repaint engine doc.host)
          rw [text_repaint] at hnext
          exact hnext

/-- Every change is reported exactly: the new text is the old one with the reported number of
characters taken out at the reported place and the inserted ones, as many as reported, put in there;
the revision goes up by one and starts over at its end; and the paint of the lines that are left is
kept while no other is. So after every run of changes and paints, replaying the reports gives the
document's text, and if the lines with paint were lines of the document at first, they still are. -/
theorem edits_reported (doc : Document) :
    (∀ change, Edited doc change.inserted (doc.change change).2 (doc.change change).1) ∧
    ∀ steps,
      Edit.replay doc.text (steps.flatMap Step.typed) (doc.run steps).2 = (doc.run steps).1.text ∧
      (doc.PaintInLines → (doc.run steps).1.PaintInLines) :=
  ⟨edited_change doc, fun steps => ⟨replay_run doc steps, paint_in_lines_run steps⟩⟩

/-- Three painted lines at the last revision, cut to one by a range that reaches past the end, and a
character put in past the end. The reports say where this happened, the revision has started over,
and the second line, which had paint, has none. -/
theorem edits_reported_past_end :
    let doc : Document := { text := "a\nb\nc".toList, revision := 18446744073709551615 }
    let steps : List Step :=
      [.paint (.ofSettings {}), .change (.remove 1 9), .change (.insert 7 "é".toList)]
    let last := doc.run steps
    doc.PaintInLines ∧ ((doc.run (steps.take 1)).1.highlight? 2).isSome ∧
      last.2 = [⟨1, 4, 0⟩, ⟨1, 0, 1⟩] ∧ last.1.revision = 1 ∧
      Edit.replay doc.text "é".toList last.2 = last.1.text ∧ last.1.PaintInLines ∧
      last.1.highlight? 2 = none := by
  intro doc steps last
  have hpaint : doc.PaintInLines := fun line hline => absurd rfl hline
  obtain ⟨hreplay, hlast⟩ := (edits_reported doc).2 steps
  refine ⟨hpaint, by decide +kernel, by decide +kernel, by decide +kernel, hreplay, hlast hpaint,
    ?_⟩
  by_contra hsecond
  exact absurd (hlast hpaint 2 hsecond).2 (by decide +kernel)

end Document

end Highlighter
