import Highlighter.Proofs.Reports
import Highlighter.Proofs.Session

/-!
# Recorded paint

A document keeps the paint that its lines were given last. `Document.UpToDate` says that this is the
paint that an engine would give them now: true after they were painted (`up_to_date_repaint`), and
then painting them again changes nothing (`repaint_of_up_to_date`). A call to the engine that does
not ask for the lines to be painted changes nothing that they are painted from (`pass_of_call`).

A `Screen` is an engine with the document that it paints, where each command that asks for the lines
to be painted is obeyed. Unless the document was edited since, its recorded paint is therefore up to
date (`paint_never_stale`).
-/

namespace Highlighter

namespace Document

/-- New paint for a line is what is found for it, and other lines keep theirs. -/
theorem lookup_set_paint (line other : Nat) (highlight : LineHighlight)
    (paint : List (Nat × LineHighlight)) :
    (setPaint line highlight paint).lookup other =
      if other = line then some highlight else paint.lookup other := by
  induction paint with
  | nil =>
      show [(line, highlight)].lookup other = if other = line then some highlight else none
      by_cases hother : other = line
      · simp [hother]
      · simp [List.lookup_cons, hother, beq_eq_false_iff_ne.2 hother]
  | cons pair rest ih =>
      obtain ⟨first, old⟩ := pair
      unfold setPaint
      by_cases hfirst : first = line
      · rw [if_pos hfirst, List.lookup_cons, List.lookup_cons, hfirst]
        by_cases hother : other = line
        · simp [hother]
        · simp [hother, beq_eq_false_iff_ne.2 hother]
      · rw [if_neg hfirst, List.lookup_cons, List.lookup_cons, ih]
        by_cases hother : other = first
        · have hne : other ≠ line := fun heq => hfirst (hother.symm.trans heq)
          simp [hother, hother ▸ hne]
        · simp [beq_eq_false_iff_ne.2 hother]

/-- Paint that a line has already changes nothing. -/
theorem set_paint_of_lookup {line : Nat} {highlight : LineHighlight}
    {paint : List (Nat × LineHighlight)} (h : paint.lookup line = some highlight) :
    setPaint line highlight paint = paint := by
  induction paint with
  | nil => cases h
  | cons pair rest ih =>
      obtain ⟨first, old⟩ := pair
      unfold setPaint
      rw [List.lookup_cons] at h
      by_cases hfirst : first = line
      · have hold : old = highlight := by simpa [hfirst] using h
        rw [if_pos hfirst, hfirst, hold]
      · have hne : (line == first) = false := beq_eq_false_iff_ne.2 (Ne.symm hfirst)
        rw [hne] at h
        rw [if_neg hfirst, ih h]

/-- The paint of a line stays what it is if all that is given to the line is the same. -/
theorem highlight_apply_paint_of_same {doc : Document} {line : Nat} {highlight : LineHighlight}
    {paint : List (Nat × LineHighlight)} (h : doc.highlight? line = some highlight)
    (hsame : ∀ pair ∈ paint, pair.1 = line → pair.2 = highlight) :
    (doc.applyPaint paint).highlight? line = some highlight := by
  induction paint generalizing doc with
  | nil => exact h
  | cons pair rest ih =>
      obtain ⟨hpair, hrest⟩ := List.forall_mem_cons.1 hsame
      refine ih ?_ hrest
      show (setPaint pair.1 pair.2 doc.paint).lookup line = some highlight
      rw [lookup_set_paint]
      split
      · next hline => rw [hpair hline.symm]
      · exact h

/-- Painted lines have the paint they were given, if no line was given two kinds of paint. -/
theorem highlight_apply_paint (doc : Document) {line : Nat} {highlight : LineHighlight}
    {paint : List (Nat × LineHighlight)} (hmem : (line, highlight) ∈ paint)
    (hsame : ∀ pair ∈ paint, pair.1 = line → pair.2 = highlight) :
    (doc.applyPaint paint).highlight? line = some highlight := by
  obtain ⟨first, rest, rfl⟩ := List.append_of_mem hmem
  have hsplit : doc.applyPaint (first ++ (line, highlight) :: rest) =
      ((doc.applyPaint first).setHighlight line highlight).applyPaint rest := by
    show List.foldl _ _ _ = _
    rw [List.foldl_append, List.foldl_cons]
    rfl
  rw [hsplit]
  refine highlight_apply_paint_of_same ?_ fun pair hpair => hsame pair (by simp [hpair])
  show (setPaint line highlight (doc.applyPaint first).paint).lookup line = some highlight
  rw [lookup_set_paint, if_pos rfl]

/-- Paint that its lines have already does not change a document. -/
theorem apply_paint_of_highlight {doc : Document} {paint : List (Nat × LineHighlight)}
    (h : ∀ pair ∈ paint, doc.highlight? pair.1 = some pair.2) : doc.applyPaint paint = doc := by
  induction paint with
  | nil => rfl
  | cons pair rest ih =>
      obtain ⟨hpair, hrest⟩ := List.forall_mem_cons.1 h
      have hset : doc.setHighlight pair.1 pair.2 = doc := by
        show { doc with paint := setPaint pair.1 pair.2 doc.paint } = doc
        rw [set_paint_of_lookup hpair]
      show (doc.setHighlight pair.1 pair.2).applyPaint rest = doc
      rw [hset]
      exact ih hrest

/-- Paint changes nothing that a host shows of a document. -/
theorem host_apply_paint (doc : Document) (paint : List (Nat × LineHighlight)) :
    (doc.applyPaint paint).host = doc.host := by
  induction paint generalizing doc with
  | nil => rfl
  | cons pair rest ih => exact ih (doc.setHighlight pair.1 pair.2)

/-- A document has as many lines as it counts. -/
theorem line_of_le {doc : Document} {number : Nat} (hfirst : 1 ≤ number)
    (hlast : number ≤ doc.lineCount) : ∃ text, doc.line? number = some text := by
  have hlength : number - 1 < doc.lines.length := by
    rw [lines, List.length_map]
    show number - 1 < doc.lineCount
    omega
  refine ⟨doc.lines[number - 1], ?_⟩
  rw [line?, if_neg (by omega), lineAt?, List.getElem?_eq_getElem hlength]

/-- Whether the recorded paint of a document is what an engine paints now. -/
def UpToDate (doc : Document) (engine : Engine) : Prop :=
  ∀ pair ∈ engine.paint doc.host, doc.highlight? pair.1 = some pair.2

/-- An engine paints each line by its number and text. -/
theorem mem_paint {engine : Engine} {host : Host} {pair : Nat × LineHighlight} :
    pair ∈ engine.paint host ↔ (1 ≤ pair.1 ∧ pair.1 ≤ host.lineCount) ∧
      ∃ text, host.line? pair.1 = some text ∧ engine.highlightLine pair.1 text = pair.2 := by
  unfold Engine.paint
  rw [List.mem_filterMap]
  constructor
  · rintro ⟨number, hnumber, hpair⟩
    obtain ⟨text, htext, rfl⟩ := Option.map_eq_some_iff.1 hpair
    rw [List.mem_range'_1] at hnumber
    exact ⟨⟨hnumber.1, by omega⟩, text, htext, rfl⟩
  · rintro ⟨hnumber, text, htext, hpair⟩
    refine ⟨pair.1, ?_, ?_⟩
    · rw [List.mem_range'_1]
      omega
    · rw [htext, Option.map_some, hpair]

/-- After the lines were painted their paint is up to date. -/
theorem up_to_date_repaint (doc : Document) (engine : Engine) :
    (doc.repaint engine doc.host).UpToDate engine := by
  intro pair hpair
  rw [repaint, host_apply_paint] at hpair
  refine highlight_apply_paint doc hpair fun other hother hline => ?_
  obtain ⟨-, text, htext, hhighlight⟩ := mem_paint.1 hpair
  obtain ⟨-, found, hfound, hsame⟩ := mem_paint.1 hother
  rw [hline, htext] at hfound
  rw [← hsame, ← hhighlight, hline, Option.some.inj hfound]

/-- Painting lines whose paint is up to date changes nothing. -/
theorem repaint_of_up_to_date {doc : Document} {engine : Engine} (h : doc.UpToDate engine) :
    doc.repaint engine doc.host = doc :=
  apply_paint_of_highlight h

/-- Each line of a document that is up to date has the paint that the engine gives it. -/
theorem UpToDate.highlight {doc : Document} {engine : Engine} (h : doc.UpToDate engine)
    {number : Nat} (hfirst : 1 ≤ number) (hlast : number ≤ doc.lineCount) :
    ∃ text, doc.line? number = some text ∧
      doc.highlight? number = some (engine.highlightLine number text) := by
  obtain ⟨text, htext⟩ := line_of_le hfirst hlast
  refine ⟨text, htext, h (number, engine.highlightLine number text) ?_⟩
  exact mem_paint.2 ⟨⟨hfirst, hlast⟩, text, htext, rfl⟩

end Document

namespace Engine

/-- Showing or hiding errors asks for the lines to be painted. -/
theorem toggle_command_needs_rehighlight (on : Bool) (errors : List ErrorRecord) :
    (toggleCommand on errors).needsRehighlight = true := by
  cases on <;> rfl

/-- A call that does not ask for the lines to be painted keeps what they are painted from. -/
theorem pass_of_call {parser : Parser} {engine : Engine} {call : Call}
    (h : (engine.call parser call).2.needsRehighlight = false) :
    (engine.call parser call).1.pass = engine.pass := by
  have hanswers := answers_call parser engine call
  generalize engine.call parser call = result at h hanswers
  cases hanswers with
  | quiet _ timers hparses => rfl
  | parsed _ timers host kind hparses =>
      rw [parse_now_needs_rehighlight] at h
      cases h
  | toggled host now on hon =>
      rw [toggle_command_needs_rehighlight] at h
      cases h

/-- What a document is up to date with is what an engine paints from. -/
theorem up_to_date_of_pass {doc : Document} {engine next : Engine} (hpass : next.pass = engine.pass)
    (h : doc.UpToDate engine) : doc.UpToDate next := by
  have hpaint : next.paint doc.host = engine.paint doc.host := by
    unfold paint highlightLine
    rw [hpass]
  intro pair hpair
  rw [hpaint] at hpair
  exact h pair hpair

end Engine

/-- An engine and the document that it paints. `fresh` says that the lines were painted at least
once and the document was not edited since. -/
structure Screen where
  engine : Engine
  doc : Document
  fresh : Bool := false

namespace Screen

/-- What may happen to a screen. -/
inductive Step where
  /-- The document is edited. The engine is told only if that is sent to it too. -/
  | change (change : Change)
  /-- The engine is told of an event. -/
  | send (event : Event) (now : Nat)
  /-- The document is parsed at once. -/
  | parse (kind : ParseKind)
  /-- The lines are painted, though nothing asks for it. -/
  | paint

/-- The screen after its lines were painted. -/
def repaint (screen : Screen) : Screen :=
  { screen with doc := screen.doc.repaint screen.engine screen.doc.host, fresh := true }

/-- The screen after an answer of the engine, whose command is obeyed. -/
def obey (screen : Screen) (answer : Engine × Command) : Screen :=
  let next := { screen with engine := answer.1 }
  if answer.2.needsRehighlight then next.repaint else next

/-- The screen after a step. -/
def step (parser : Parser) (screen : Screen) : Step → Screen
  | .change change => { screen with doc := (screen.doc.change change).1, fresh := false }
  | .send event now => screen.obey (screen.engine.update parser screen.doc.host event now)
  | .parse kind => screen.obey (screen.engine.parseNow parser screen.doc.host kind)
  | .paint => screen.repaint

/-- The screen after steps in order. -/
def run (parser : Parser) (screen : Screen) : List Step → Screen
  | [] => screen
  | step :: rest => (screen.step parser step).run parser rest

/-- What holds of every screen: its paint is up to date unless the document was edited since. -/
def Sound (screen : Screen) : Prop :=
  screen.fresh = true → screen.doc.UpToDate screen.engine

variable {parser : Parser} {screen : Screen}

/-- A screen is sound once its lines were painted. -/
theorem sound_repaint (screen : Screen) : screen.repaint.Sound :=
  fun _ => Document.up_to_date_repaint screen.doc screen.engine

/-- A screen on which the commands are obeyed stays sound. -/
theorem sound_obey (call : Call) (h : screen.Sound) :
    (screen.obey (screen.engine.call parser call)).Sound := by
  unfold obey
  cases hneeds : (screen.engine.call parser call).2.needsRehighlight with
  | true => exact sound_repaint _
  | false => exact fun hfresh => Engine.up_to_date_of_pass (Engine.pass_of_call hneeds) (h hfresh)

/-- Every step keeps a screen sound. -/
theorem sound_step (step : Step) (h : screen.Sound) : (screen.step parser step).Sound := by
  cases step with
  | change change => exact fun hfresh => nomatch hfresh
  | send event now => exact sound_obey (.update screen.doc.host event now) h
  | parse kind => exact sound_obey (.parse screen.doc.host kind) h
  | paint => exact sound_repaint screen

/-- Every run keeps a screen sound. -/
theorem sound_run (steps : List Step) (h : screen.Sound) : (screen.run parser steps).Sound := by
  induction steps generalizing screen with
  | nil => exact h
  | cons step rest ih => exact ih (sound_step step h)

/-- An event whose command does not ask for the lines to be painted changes the paint of no line.
Along every run in which the commands are obeyed, a document whose lines were painted and that was
not edited since has for each line the paint that the engine gives it, and painting the lines again
leaves the document as it is. -/
theorem paint_never_stale (parser : Parser) :
    (∀ (engine : Engine) (host : Host) (event : Event) (now : Nat),
      (engine.update parser host event now).2.needsRehighlight = false →
        ∀ number text, (engine.update parser host event now).1.highlightLine number text =
          engine.highlightLine number text) ∧
    ∀ (engine : Engine) (doc : Document) (steps : List Step),
      let screen := (Screen.mk engine doc false).run parser steps
      screen.fresh = true →
        (∀ number, 1 ≤ number → number ≤ screen.doc.lineCount →
          ∃ text, screen.doc.line? number = some text ∧
            screen.doc.highlight? number = some (screen.engine.highlightLine number text)) ∧
        screen.doc.repaint screen.engine screen.doc.host = screen.doc := by
  constructor
  · intro engine host event now hneeds number text
    have hpass : (engine.call parser (.update host event now)).1.pass = engine.pass :=
      Engine.pass_of_call hneeds
    exact congrArg (fun pass : Pass => pass.highlightLine number text) hpass
  · intro engine doc steps screen hfresh
    have hcurrent : screen.doc.UpToDate screen.engine :=
      sound_run steps (fun hnever => nomatch hnever) hfresh
    exact ⟨fun _ hfirst hlast => hcurrent.highlight hfirst hlast,
      Document.repaint_of_up_to_date hcurrent⟩

/-- Errors that are hidden after the first paint, and a parse delay that is set after that: the
second line has lost its underline, and painting the lines again would change nothing. -/
theorem paint_never_stale_hidden :
    let screen := (Screen.mk (.ofSettings {}) (.ofText "a = 1\nb = !".toList) false).run
      documentParser [.send .attached 0, .send .tick 100, .send (.showErrors false) 120,
        .send (.parseDelay 200) 130]
    screen.fresh = true ∧ screen.doc.lineCount = 2 ∧
      (∃ text, screen.doc.line? 2 = some text ∧
        screen.doc.highlight? 2 = some (screen.engine.highlightLine 2 text)) ∧
      screen.doc.repaint screen.engine screen.doc.host = screen.doc :=
  have hfresh : _ := by decide +kernel
  have hcount : _ := by decide +kernel
  have hcurrent := (paint_never_stale documentParser).2 (.ofSettings {}) _ _ hfresh
  ⟨hfresh, hcount, hcurrent.1 2 (by decide) (Nat.le_of_eq hcount.symm), hcurrent.2⟩

end Screen

end Highlighter
