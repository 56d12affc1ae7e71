import Highlighter.Proofs.Session
import Mathlib.Data.List.Chain

/-!
# A burst of edits is parsed once

While automatic parsing is on and no first paint is to come, edits that follow one another faster
than the parse delay are parsed together. A `Burst` is such edits with any ticks among and after
them. `Waits` is what holds after an edit: a full parse of the document as it is, and nothing else,
is pending. Ticks before its time change nothing (`run_of_waits`), the first one after that parses
the document (`tick_of_waits_due`), and then nothing is pending and further ticks change nothing
(`rests_run`). Each tick of a burst is one of these, by its time and by those of the ticks before it
(`debounced`).
-/

namespace Highlighter

/-- Whether an action edits the document. -/
def Action.isEdit : Action → Bool
  | .edit _ => true
  | _ => false

/-- The times of the edits among actions. -/
def editTimes (actions : List (Action × Nat)) : List Nat :=
  (actions.filter (·.1.isEdit)).map Prod.snd

/-- Ticks at the given times. -/
def ticksAt (times : List Nat) : List (Action × Nat) :=
  times.map fun now => (.send .tick, now)

/-- `Burst delay last actions` says that actions are a burst: edits, each less than the delay after
the one before and the last at the given time, with ticks among and after them. -/
structure Burst (delay last : Nat) (actions : List (Action × Nat)) : Prop where
  kinds : ∀ timed ∈ actions, timed.1.isEdit = true ∨ timed.1 = .send .tick
  start : actions.head?.any (·.1.isEdit) = true
  sorted : actions.Pairwise fun first second => first.2 ≤ second.2
  gaps : (editTimes actions).IsChain fun first second => second < first + delay
  last : (editTimes actions).getLast? = some last

/-- A task that is due and is all that the timers are armed for leaves nothing. -/
theorem Timers.left_of_task {timers : Timers} {task : Task} {now : Nat}
    (hfirst : timers.firstPaint = none) (htask : timers.pending = some task)
    (hdue : task.due ≤ now) : timers.left now = { timers with pending := none } := by
  obtain ⟨delay, auto, firstPaint, pending⟩ := timers
  subst hfirst htask
  show Timers.mk delay auto none ((some task).filter (now < ·.due)) = _
  rw [Option.filter_some_neg (by simpa using hdue)]

namespace Session

variable {parser : Parser} {session : Session} {delay due now : Nat}

/-- Actions are taken one after the other. -/
theorem run_append (parser : Parser) (session : Session) (first rest : List (Action × Nat)) :
    session.run parser (first ++ rest) = (session.run parser first).run parser rest := by
  induction first generalizing session with
  | nil => rfl
  | cons timed first ih => exact ih (session.act parser timed.1 timed.2)

/-- What edits and ticks keep: automatic parsing is on, no first paint is to come, and the parse
delay is the same. -/
structure Debounces (delay : Nat) (session : Session) : Prop where
  auto : session.auto = true
  firstPaint : session.engine.timers.firstPaint = none
  delay : session.engine.timers.delay = delay

/-- A full parse of the document as it is, and nothing else, is due at the given time. -/
structure Waits (due : Nat) (session : Session) : Prop where
  firstPaint : session.engine.timers.firstPaint = none
  pending : session.engine.timers.pending = some ⟨.diagnostics, session.doc.revision, due⟩

/-- Nothing is due at any time. -/
structure Rests (session : Session) : Prop where
  firstPaint : session.engine.timers.firstPaint = none
  pending : session.engine.timers.pending = none

/-- An edit arms a full parse after the delay. -/
theorem waits_edit (h : session.Debounces delay) (change : Change) (now : Nat) :
    (session.act parser (.edit change) now).Waits (now + delay) := by
  refine ⟨h.firstPaint, ?_⟩
  show (if session.auto then some (Task.mk .diagnostics _ (now + session.engine.timers.delay))
    else _) = _
  rw [h.auto, h.delay]
  rfl

/-- A tick before the parse is due changes nothing. -/
theorem tick_of_waits (h : session.Waits due) (hnow : now < due) :
    session.engine.tick parser session.doc.host now = (session.engine, .none) := by
  refine Engine.tick_of_idle (by simp [Timers.paintsAt, h.firstPaint]) ?_
  rw [h.pending]
  rintro task ⟨⟩
  exact hnow

/-- A tick when the parse is due parses the document and leaves nothing pending. -/
theorem tick_of_waits_due (h : session.Waits due) (hnow : due ≤ now) :
    session.engine.tick parser session.doc.host now =
      Engine.parseNow parser
        { session.engine with timers := { session.engine.timers with pending := none } }
        session.doc.host .diagnostics := by
  have hkind : session.engine.timers.sharedKind now ⟨.diagnostics, session.doc.revision, due⟩ =
      .diagnostics := by simp [Timers.sharedKind, ParseKind.updatesErrors]
  rw [Engine.tick_of_task h.pending hnow rfl, hkind,
    Timers.left_of_task h.firstPaint h.pending hnow]

/-- A tick when nothing is due changes nothing. -/
theorem tick_of_rests (h : session.Rests) (now : Nat) :
    session.engine.tick parser session.doc.host now = (session.engine, .none) :=
  Engine.tick_of_idle (by simp [Timers.paintsAt, h.firstPaint]) (by simp [h.pending])

/-- A tick that changes nothing in the engine changes nothing in the session. -/
theorem act_of_tick
    (h : session.engine.tick parser session.doc.host now = (session.engine, .none)) :
    session.act parser (.send .tick) now = session := by
  show session.send parser .tick now = session
  unfold send
  rw [show session.engine.update parser session.doc.host .tick now = (session.engine, .none) from h]
  rfl

/-- Once the parse is done nothing is due. -/
theorem rests_of_due (h : session.Waits due) (hnow : due ≤ now) :
    (session.act parser (.send .tick) now).Rests := by
  have htimers : (session.act parser (.send .tick) now).engine.timers =
      { session.engine.timers with pending := none } := by
    show (session.engine.tick parser session.doc.host now).1.timers = _
    rw [tick_of_waits_due h hnow, Engine.parse_now_timers]
  constructor
  · rw [htimers]
    exact h.firstPaint
  · rw [htimers]

/-- A tick keeps what it needs. -/
theorem debounces_tick (h : session.Debounces delay) (now : Nat) :
    (session.act parser (.send .tick) now).Debounces delay := by
  suffices hsuffices : ∀ result, session.engine.Ticks parser session.doc.host now result →
      result.1.timers.auto = true ∧ result.1.timers.firstPaint = none ∧
        result.1.timers.delay = delay by
    obtain ⟨hauto, hfirst, hdelay⟩ := hsuffices _ (Engine.ticks_tick parser _ _ now)
    exact ⟨hauto, hfirst, hdelay⟩
  intro result hticks
  have hleft : (session.engine.timers.left now).firstPaint = none := by simp [h.firstPaint]
  cases hticks with
  | idle _ _ => exact ⟨h.auto, h.firstPaint, h.delay⟩
  | firstPaint hfirst _ => simp [Timers.paintsAt, h.firstPaint] at hfirst
  | task _ _ _ _ =>
      rw [Engine.parse_now_timers]
      exact ⟨h.auto, hleft, h.delay⟩
  | stale _ _ _ _ => exact ⟨h.auto, hleft, h.delay⟩

/-- Edits and ticks keep what they need. -/
theorem debounces_run {actions : List (Action × Nat)} (h : session.Debounces delay)
    (hkinds : ∀ timed ∈ actions, timed.1.isEdit = true ∨ timed.1 = .send .tick) :
    (session.run parser actions).Debounces delay := by
  induction actions generalizing session with
  | nil => exact h
  | cons timed rest ih =>
      obtain ⟨action, now⟩ := timed
      obtain ⟨hkind, hrest⟩ := List.forall_mem_cons.1 hkinds
      refine ih ?_ hrest
      rcases hkind with hedit | htick
      · cases action with
        | edit change => exact ⟨h.auto, h.firstPaint, h.delay⟩
        | send event => cases hedit
        | parse kind => cases hedit
      · obtain rfl : action = .send .tick := htick
        exact debounces_tick h now

/-- Ticks that change nothing one by one change nothing together. -/
theorem run_of_idle {times : List Nat} (h : ∀ now ∈ times,
      session.engine.tick parser session.doc.host now = (session.engine, .none)) :
    session.run parser (ticksAt times) = session := by
  induction times with
  | nil => rfl
  | cons now rest ih =>
      obtain ⟨hnow, hrest⟩ := List.forall_mem_cons.1 h
      rw [ticksAt, List.map_cons, run, act_of_tick hnow]
      exact ih hrest

/-- Ticks before the parse is due change nothing. -/
theorem run_of_waits {times : List Nat} (h : session.Waits due)
    (htimes : ∀ now ∈ times, now < due) : session.run parser (ticksAt times) = session :=
  run_of_idle fun now hnow => tick_of_waits h (htimes now hnow)

/-- Ticks when nothing is due change nothing. -/
theorem run_of_rests (h : session.Rests) (times : List Nat) :
    session.run parser (ticksAt times) = session :=
  run_of_idle fun now _ => tick_of_rests h now

/-- After ticks of which one was due, nothing is due. -/
theorem rests_run {times : List Nat} {late : Nat} (h : session.Waits due) (hlate : late ∈ times)
    (hdue : due ≤ late) : (session.run parser (ticksAt times)).Rests := by
  induction times with
  | nil => cases hlate
  | cons now rest ih =>
      rw [ticksAt, List.map_cons, run]
      by_cases hnow : due ≤ now
      · have hdone : (session.act parser (.send .tick) now).Rests := rests_of_due h hnow
        rw [← ticksAt, run_of_rests hdone]
        exact hdone
      · rw [act_of_tick (tick_of_waits h (Nat.not_le.1 hnow))]
        obtain rfl | hlate := List.mem_cons.1 hlate
        · exact absurd hdue hnow
        · exact ih hlate

/-- Ticks keep the document. -/
theorem doc_run_ticks (parser : Parser) (session : Session) (times : List Nat) :
    (session.run parser (ticksAt times)).doc = session.doc := by
  induction times generalizing session with
  | nil => rfl
  | cons now rest ih => exact ih _

/-- A tick after others does nothing if the parse is not due yet or is done, and commits it if it is
the first one when the parse is due. -/
theorem tick_after_ticks (parser : Parser) {times : List Nat} (h : session.Waits due)
    (htimes : ∀ earlier ∈ times, earlier ≤ now) :
    let reached := session.run parser (ticksAt times)
    (now < due ∨ (∃ late ∈ times, due ≤ late) →
      reached.engine.tick parser reached.doc.host now = (reached.engine, .none)) ∧
    (due ≤ now → (∀ early ∈ times, early < due) →
      Engine.Commits parser
        { reached.engine with timers := { reached.engine.timers with pending := none } }
        reached.doc.host .diagnostics (reached.engine.tick parser reached.doc.host now)) := by
  intro reached
  have hreached (hearly : ∀ early ∈ times, early < due) : reached = session :=
    run_of_waits h hearly
  refine ⟨fun hidle => ?_, fun hnow hearly => ?_⟩
  · by_cases hlate : ∃ late ∈ times, due ≤ late
    · obtain ⟨late, hlate, hdue⟩ := hlate
      exact tick_of_rests (rests_run h hlate hdue) now
    · have hnow : now < due := hidle.resolve_right hlate
      rw [hreached fun early hearly => (htimes early hearly).trans_lt hnow]
      exact tick_of_waits h hnow
  · rw [hreached hearly, tick_of_waits_due h hnow]
    exact Engine.commits_parse_now .diagnostics

end Session

/-- The times of the edits among joined actions are those among both. -/
theorem edit_times_append (first rest : List (Action × Nat)) :
    editTimes (first ++ rest) = editTimes first ++ editTimes rest := by
  simp [editTimes]

/-- There are no edits among ticks. -/
@[simp] theorem edit_times_ticks (times : List Nat) : editTimes (ticksAt times) = [] := by
  simp [editTimes, ticksAt, Action.isEdit]

/-- An edit is among the edits. -/
theorem mem_edit_times {actions : List (Action × Nat)} {timed : Action × Nat}
    (htimed : timed ∈ actions) (hedit : timed.1.isEdit = true) : timed.2 ∈ editTimes actions :=
  List.mem_map_of_mem (List.mem_filter.2 ⟨htimed, hedit⟩)

/-- Edits and ticks without an edit are ticks. -/
theorem exists_ticks_at {actions : List (Action × Nat)}
    (hkinds : ∀ timed ∈ actions, timed.1.isEdit = true ∨ timed.1 = .send .tick)
    (hnone : editTimes actions = []) : ∃ times, actions = ticksAt times := by
  refine ⟨actions.map Prod.snd, ?_⟩
  rw [ticksAt, List.map_map]
  refine ((List.map_congr_left fun timed htimed => ?_).trans (List.map_id _)).symm
  rcases hkinds timed htimed with hedit | htick
  · have hmem := mem_edit_times htimed hedit
    rw [hnone] at hmem
    cases hmem
  · exact Prod.ext htick.symm rfl

/-- Edits and ticks with an edit end with an edit and ticks after it. -/
theorem exists_last_edit {actions : List (Action × Nat)}
    (hkinds : ∀ timed ∈ actions, timed.1.isEdit = true ∨ timed.1 = .send .tick)
    (hedits : editTimes actions ≠ []) :
    ∃ first change edited times, actions = first ++ (.edit change, edited) :: ticksAt times := by
  induction actions with
  | nil => exact absurd rfl hedits
  | cons timed rest ih =>
      obtain ⟨hkind, hrest⟩ := List.forall_mem_cons.1 hkinds
      by_cases hlater : editTimes rest = []
      · obtain ⟨times, rfl⟩ := exists_ticks_at hrest hlater
        obtain ⟨action, now⟩ := timed
        cases action with
        | edit change => exact ⟨[], change, now, times, rfl⟩
        | send event => exact absurd hlater hedits
        | parse kind => exact absurd hlater hedits
      · obtain ⟨first, change, edited, times, rfl⟩ := ih hrest hlater
        exact ⟨timed :: first, change, edited, times, rfl⟩

/-- Before a tick of a burst stands an edit with only ticks after it. Either the tick is too early
for the parse of that edit, or that edit is the last one. -/
theorem Burst.cut {delay last now : Nat} {before after : List (Action × Nat)}
    (h : Burst delay last (before ++ (.send .tick, now) :: after)) :
    ∃ first change edited times, before = first ++ (.edit change, edited) :: ticksAt times ∧
      (∀ earlier ∈ times, earlier ≤ now) ∧
      (now < edited + delay ∧ edited ≤ last ∨
        edited = last ∧ ∃ later, after = ticksAt later) := by
  have hedits : editTimes before ≠ [] := by
    cases before with
    | nil => cases h.start
    | cons timed rest => exact List.ne_nil_of_mem (mem_edit_times List.mem_cons_self h.start)
  obtain ⟨first, change, edited, times, rfl⟩ :=
    exists_last_edit (fun timed htimed => h.kinds timed (List.mem_append_left _ htimed)) hedits
  have htimes : editTimes (first ++ (.edit change, edited) :: ticksAt times ++
      (.send .tick, now) :: after) = editTimes first ++ edited :: editTimes after := by
    rw [edit_times_append, edit_times_append]
    show editTimes first ++ edited :: editTimes (ticksAt times) ++ editTimes after = _
    rw [edit_times_ticks, List.append_assoc, List.singleton_append]
  obtain ⟨hbefore, hafter, hcross⟩ := List.pairwise_append.1 h.sorted
  refine ⟨first, change, edited, times, rfl, fun earlier hearlier => ?_, ?_⟩
  · exact hcross (.send .tick, earlier) (by simp [ticksAt, hearlier]) _ List.mem_cons_self
  have hgaps := h.gaps
  have hlast := h.last
  rw [htimes] at hgaps hlast
  cases hlater : editTimes after with
  | nil =>
      -- No edit follows the tick, so the edit before it is the last one.
      rw [hlater, List.getLast?_concat] at hlast
      have hkinds timed (htimed : timed ∈ after) :=
        h.kinds timed (List.mem_append_right _ (List.mem_cons_of_mem _ htimed))
      exact .inr ⟨Option.some.inj hlast, exists_ticks_at hkinds hlater⟩
  | cons next more =>
      -- The next edit comes after the tick and within the delay.
      rw [hlater] at hgaps hlast
      have hgap : next < edited + delay := (List.isChain_cons_cons.1 hgaps.right_of_append).1
      have htime time (htime : time ∈ editTimes after) : now ≤ time := by
        obtain ⟨timed, htimed, rfl⟩ := List.mem_map.1 htime
        exact (List.pairwise_cons.1 hafter).1 _ (List.mem_filter.1 htimed).1
      have hnext : now ≤ next := htime next (by simp [hlater])
      have hlate : now ≤ last := by
        refine htime last ?_
        rw [hlater]
        refine List.mem_of_getLast? ?_
        simpa using hlast
      have hedited : edited ≤ now := hcross (.edit change, edited) (by simp) _ List.mem_cons_self
      exact .inl ⟨by omega, by omega⟩

/-- A tick of a burst with an edit after it is before the parse of the last edit is due. -/
theorem Burst.early_of_edit {delay last now : Nat} {before after : List (Action × Nat)}
    {change : Change} {edited : Nat} (h : Burst delay last (before ++ (.send .tick, now) :: after))
    (hedit : (.edit change, edited) ∈ after) : now < last + delay := by
  obtain ⟨_, _, earlier, _, _, _, ⟨hnow, hlast⟩ | ⟨_, later, rfl⟩⟩ := h.cut
  · omega
  · simp [ticksAt] at hedit

namespace Session

/-- While automatic parsing is on and no first paint is to come, a tick of a burst of edits does
nothing if it comes before the last edit's parse is due or if an earlier tick has done that parse.
The first tick when it is due commits one full parse, of the document as the last edit left it, and
leaves nothing pending. -/
theorem debounced (parser : Parser) (session : Session) (last now : Nat)
    (before after : List (Action × Nat)) (hauto : session.auto = true)
    (hfirst : session.engine.timers.firstPaint = none)
    (hburst : Burst session.engine.timers.delay last (before ++ (.send .tick, now) :: after)) :
    let reached := session.run parser before
    let due := last + session.engine.timers.delay
    let result := reached.engine.update parser reached.doc.host .tick now
    (now < due ∨ (∃ late, (.send .tick, late) ∈ before ∧ due ≤ late) →
      result = (reached.engine, .none)) ∧
    (due ≤ now → (∀ early, (.send .tick, early) ∈ before → early < due) →
      reached.doc = (session.run parser (before ++ (.send .tick, now) :: after)).doc ∧
      Engine.Commits parser
        { reached.engine with timers := { reached.engine.timers with pending := none } }
        reached.doc.host .diagnostics result) := by
  obtain ⟨first, change, edited, times, rfl, htimes, hcase⟩ := hburst.cut
  intro reached due result
  have hkinds timed (htimed : timed ∈ first) := hburst.kinds timed (by simp [htimed])
  have hwaits : ((session.run parser first).act parser (.edit change) edited).Waits
      (edited + session.engine.timers.delay) :=
    waits_edit (debounces_run ⟨hauto, hfirst, rfl⟩ hkinds) change edited
  have hreached : reached =
      ((session.run parser first).act parser (.edit change) edited).run parser (ticksAt times) :=
    run_append parser session first _
  obtain ⟨hidle, hparse⟩ := tick_after_ticks parser hwaits htimes
  rw [← hreached] at hidle hparse
  rcases hcase with ⟨hnow, hlast⟩ | ⟨rfl, later, rfl⟩
  · -- The next edit is still to come, and the parse that is pending is not due.
    exact ⟨fun _ => hidle (.inl hnow), fun hdue _ => by omega⟩
  · refine ⟨fun hcase => hidle (hcase.imp_right ?_), fun hdue hearly => ⟨?_, hparse hdue ?_⟩⟩
    · rintro ⟨late, hmem, hlate⟩
      rcases List.mem_append.1 hmem with hmem | hmem
      · -- A tick before the last edit is not late.
        obtain ⟨start, rest, rfl⟩ := List.append_of_mem hmem
        simp only [List.append_assoc, List.cons_append] at hburst
        have hearly : late < edited + session.engine.timers.delay :=
          hburst.early_of_edit (List.mem_append_right _ List.mem_cons_self)
        omega
      · exact ⟨late, by simpa [ticksAt] using hmem, hlate⟩
    · rw [run_append]
      exact (doc_run_ticks parser _ (now :: later)).symm
    · intro early hmem
      exact hearly early (by simp [ticksAt, hmem])

/-- Two edits 400 apart: the tick at 899 is too early, and the tick at 900 parses both. -/
theorem debounced_two_edits :
    let session : Session := .start {} { text := "a = 1".toList, revision := 3 }
    let first : Action × Nat := (.edit (.insert 5 ['2']), 0)
    let second : Action × Nat := (.edit (.insert 6 ['b']), 400)
    let before := [first, (.send .tick, 30), second]
    let tooEarly : Action × Nat := (.send .tick, 899)
    let reached := session.run documentParser before
    let later := session.run documentParser (before ++ [tooEarly])
    let result := later.engine.update documentParser later.doc.host .tick 900
    reached.engine.update documentParser reached.doc.host .tick 899 = (reached.engine, .none) ∧
      later.doc.text = "a = 12b".toList ∧
      Engine.Commits documentParser
        { later.engine with timers := { later.engine.timers with pending := none } }
        later.doc.host .diagnostics result ∧
      result.1.snapshot.revision = 5 ∧ result.1.snapshot.errors.map (·.column) = [7] ∧
      result.1.parseCount = 1 ∧ result.2.needsRehighlight = true := by
  intro session first second before tooEarly reached later result
  have hburst : Burst 500 400 (before ++ [tooEarly, (.send .tick, 900)]) :=
    ⟨by decide, rfl, by decide, by decide, rfl⟩
  refine ⟨(debounced documentParser session 400 899 before _ rfl rfl hburst).1 (.inl (by decide)),
    by decide, ?_, by decide +kernel⟩
  refine ((debounced documentParser session 400 900 (before ++ [tooEarly]) [] rfl rfl hburst).2
    (by decide) fun early hearly => ?_).2
  have htimes : early = 30 ∨ early = 899 := by
    simpa [before, first, second, tooEarly] using hearly
  show early < 400 + 500
  omega

end Session

end Highlighter
