import Highlighter.Proofs.Ticks

/-!
# The engine comes to rest

A host that no longer changes sends its ticks at the engine's deadlines, and soon there is no
deadline left. `Timers.load` is what the timers still ask for: one tick for the first paint, one for
a task that is for the host's revision, and two for any other task, since that is armed anew before
it is parsed. Each tick at a deadline lowers it, and the one after which nothing is left has parsed
the host (`Ticks.load_lt`). So after at most three ticks the engine is at rest, and its snapshot is
that of the host (`settles`).
-/

namespace Highlighter

namespace Timers

/-- The number of ticks that the first paint asks for. -/
def paintLoad (firstPaint : Option Nat) : Nat :=
  firstPaint.elim 0 fun _ => 1

/-- The number of ticks that the pending task asks of a host with the given revision. -/
def taskLoad (revision : UInt64) (pending : Option Task) : Nat :=
  pending.elim 0 fun task => if task.revision = revision then 1 else 2

/-- The number of ticks that the timers ask of a host with the given revision. -/
def load (revision : UInt64) (timers : Timers) : Nat :=
  paintLoad timers.firstPaint + taskLoad revision timers.pending

variable {timers : Timers} {task : Task} {revision : UInt64} {now due : Nat}

theorem load_le (revision : UInt64) (timers : Timers) : timers.load revision ≤ 3 := by
  have hpaint : paintLoad timers.firstPaint ≤ 1 := by
    cases timers.firstPaint <;> simp [paintLoad]
  have htask : taskLoad revision timers.pending ≤ 2 := by
    cases timers.pending with
    | none => simp [taskLoad]
    | some task => by_cases hstamp : task.revision = revision <;> simp [taskLoad, hstamp]
  unfold load
  omega

theorem task_load_pos (revision : UInt64) (task : Task) : 0 < taskLoad revision (some task) := by
  by_cases hstamp : task.revision = revision <;> simp [taskLoad, hstamp]

/-- Timers have no deadline if none of them is armed. -/
theorem next_deadline_eq_none_iff :
    timers.nextDeadline = none ↔ timers.firstPaint = none ∧ timers.pending = none := by
  obtain ⟨delay, auto, firstPaint, pending⟩ := timers
  cases firstPaint <;> cases pending <;> simp [nextDeadline]

/-- Timers ask for ticks as long as they have a deadline. -/
theorem load_eq_zero_iff : timers.load revision = 0 ↔ timers.nextDeadline = none := by
  rw [next_deadline_eq_none_iff, load, Nat.add_eq_zero_iff]
  refine and_congr ?_ ?_
  · cases timers.firstPaint <;> simp [paintLoad]
  · cases timers.pending with
    | none => simp [taskLoad]
    | some task => simp [Nat.ne_of_gt (task_load_pos revision task)]

/-- At the deadline the first paint or the task is due. -/
theorem due_at_deadline (h : timers.nextDeadline = some due) :
    timers.paintsAt due = true ∨ ∃ task ∈ timers.pending, task.due ≤ due := by
  obtain ⟨delay, auto, firstPaint, pending⟩ := timers
  cases firstPaint with
  | none =>
      cases pending with
      | none => cases h
      | some task =>
          cases h
          exact .inr ⟨task, rfl, Nat.le_refl _⟩
  | some first =>
      cases pending with
      | none =>
          cases h
          simp [paintsAt]
      | some task =>
          cases h
          rcases Nat.le_total first task.due with hfirst | htask
          · simp [paintsAt, hfirst]
          · exact .inr ⟨task, rfl, by omega⟩

/-- Taking what is due takes the tick of a first paint that is. -/
theorem paint_load_left (timers : Timers) (now : Nat) :
    paintLoad (timers.left now).firstPaint + (if timers.paintsAt now then 1 else 0) =
      paintLoad timers.firstPaint := by
  obtain ⟨delay, auto, firstPaint, pending⟩ := timers
  show paintLoad (firstPaint.filter (now < ·)) + (if firstPaint.any (· ≤ now) then 1 else 0) =
    paintLoad firstPaint
  cases firstPaint with
  | none => rfl
  | some first =>
      by_cases hdue : first ≤ now
      · simp [paintLoad, Option.filter, hdue, Nat.not_lt.2 hdue]
      · simp [paintLoad, Option.filter, hdue, Nat.not_le.1 hdue]

/-- The first paint that is taken alone was one of the ticks. -/
theorem load_left_of_paint (hfirst : timers.paintsAt now = true)
    (hpending : ∀ task ∈ timers.pending, now < task.due) :
    (timers.left now).load revision < timers.load revision := by
  have hkept : (timers.left now).pending = timers.pending := by
    show timers.pending.filter (now < ·.due) = timers.pending
    cases htask : timers.pending with
    | none => rfl
    | some task => simpa using hpending task htask
  have hpaint := timers.paint_load_left now
  rw [hfirst, if_pos rfl] at hpaint
  rw [load, load, hkept]
  omega

/-- A task that is taken was one of the ticks, or two. -/
theorem load_left_of_task (htask : timers.pending = some task) (hdue : task.due ≤ now) :
    (timers.left now).load revision < timers.load revision := by
  have hnone : taskLoad revision (timers.left now).pending = 0 := by
    have hleft : timers.pending.filter (now < ·.due) = none := by simpa [htask] using hdue
    rw [show (timers.left now).pending = none from hleft]
    rfl
  have htaken := task_load_pos revision task
  have hpaint := timers.paint_load_left now
  rw [load, load, hnone, htask]
  omega

/-- A task for another revision that is armed anew asks for one tick instead of two. -/
theorem load_rearmed (now : Nat) (htask : timers.pending = some task)
    (hstamp : task.revision ≠ revision) :
    ((timers.left now).edit revision now).load revision < timers.load revision ∧
      ((timers.left now).edit revision now).load revision ≠ 0 := by
  have harmed : taskLoad revision ((timers.left now).edit revision now).pending = 1 := by
    cases hauto : timers.auto <;> simp [edit, taskLoad, hauto]
  have htaken : taskLoad revision timers.pending = 2 := by simp [htask, taskLoad, hstamp]
  have hkept : paintLoad ((timers.left now).edit revision now).firstPaint ≤
      paintLoad timers.firstPaint := Nat.le.intro (timers.paint_load_left now)
  rw [load, load, harmed, htaken]
  omega

end Timers

namespace Engine

/-- The engine after a tick at its deadline, if it has one. -/
def tickAtDeadline? (parser : Parser) (host : Host) (engine : Engine) : Option Engine :=
  engine.timers.nextDeadline.map fun due => (engine.update parser host .tick due).1

/-- The engine after a number of ticks, each at the deadline that it has by then. There is none if
it comes to rest before. -/
def ticks? (parser : Parser) (host : Host) : Nat → Engine → Option Engine
  | 0, engine => some engine
  | count + 1, engine => (engine.tickAtDeadline? parser host).bind (ticks? parser host count)

variable {parser : Parser} {engine : Engine} {host : Host} {due : Nat}

/-- A tick at the deadline lowers what the timers ask for, and if it leaves nothing, it has parsed
the host. -/
theorem Ticks.load_lt {result : Engine × Command} (hticks : Ticks parser engine host due result)
    (h : engine.timers.nextDeadline = some due) :
    result.1.timers.load host.revision < engine.timers.load host.revision ∧
      (result.1.timers.load host.revision = 0 → result.1.snapshot.revision = host.revision ∧
        result.1.snapshot.outcome = Recovery.parse parser host.text) := by
  cases hticks with
  | idle hfirst hpending =>
      obtain hdue | ⟨task, htask, hdue⟩ := Timers.due_at_deadline h
      · rw [hfirst] at hdue
        cases hdue
      · exact absurd hdue (Nat.not_le.2 (hpending task htask))
  | firstPaint hfirst hpending =>
      rw [parse_now_timers, parse_now_snapshot]
      exact ⟨Timers.load_left_of_paint hfirst hpending, fun _ => ⟨rfl, rfl⟩⟩
  | task task htask hdue hstamp =>
      rw [parse_now_timers, parse_now_snapshot]
      exact ⟨Timers.load_left_of_task htask hdue, fun _ => ⟨rfl, rfl⟩⟩
  | stale task htask hdue hstamp =>
      obtain ⟨hless, harmed⟩ := Timers.load_rearmed due htask hstamp
      exact ⟨hless, fun hnone => absurd hnone harmed⟩

/-- An engine that has a deadline comes to rest within as many ticks as its timers ask for. -/
theorem exists_ticks (count : Nat) (hload : engine.timers.load host.revision ≤ count)
    (harmed : engine.timers.nextDeadline ≠ none) :
    ∃ n ≤ count, ∃ settled, ticks? parser host n engine = some settled ∧
      settled.timers.nextDeadline = none ∧ settled.snapshot.revision = host.revision ∧
      settled.snapshot.outcome = Recovery.parse parser host.text := by
  induction count generalizing engine with
  | zero => exact absurd (Timers.load_eq_zero_iff.1 (Nat.le_zero.1 hload)) harmed
  | succ count ih =>
      obtain ⟨due, hdue⟩ := Option.ne_none_iff_exists'.1 harmed
      let next := (engine.tick parser host due).1
      obtain ⟨hless, hparsed⟩ := (ticks_tick parser engine host due).load_lt hdue
      have hticks : ∀ n, ticks? parser host (n + 1) engine = ticks? parser host n next := by
        intro n
        rw [ticks?, tickAtDeadline?, hdue]
        rfl
      by_cases hrest : next.timers.nextDeadline = none
      · exact ⟨1, by omega, next, hticks 0, hrest, hparsed (Timers.load_eq_zero_iff.2 hrest)⟩
      · have hleft : next.timers.load host.revision ≤ count :=
          Nat.le_of_lt_succ (Nat.lt_of_lt_of_le hless hload)
        obtain ⟨n, hn, settled, hsettled⟩ := ih hleft hrest
        exact ⟨n + 1, by omega, settled, hticks n ▸ hsettled⟩

/-- An engine with a timer armed, whatever it was armed for, comes to rest when its host no longer
changes: after at most three ticks, each at the deadline, there is no deadline left, and the
snapshot is that of the host's revision and text. -/
theorem settles (parser : Parser) (engine : Engine) (host : Host)
    (harmed : engine.timers.firstPaint ≠ none ∨ engine.timers.pending ≠ none) :
    ∃ n ≤ 3, ∃ settled, ticks? parser host n engine = some settled ∧
      settled.timers.nextDeadline = none ∧ settled.snapshot.revision = host.revision ∧
      settled.snapshot.outcome = Recovery.parse parser host.text := by
  refine exists_ticks 3 (engine.timers.load_le host.revision) fun hnone => ?_
  obtain ⟨hfirst, hpending⟩ := Timers.next_deadline_eq_none_iff.1 hnone
  exact harmed.elim (absurd hfirst) (absurd hpending)

/-- A task for an earlier revision that is due before the first paint: it is armed anew, and three
ticks are needed. -/
theorem settles_stale :
    let doc : Document := { text := "a = !".toList, revision := 9 }
    let timers : Timers :=
      { delay := 500, auto := true, firstPaint := some 100, pending := some ⟨.syntaxOnly, 4, 30⟩ }
    let engine : Engine := { timers, showErrors := true }
    ((ticks? documentParser doc.host 2 engine).map (·.timers.nextDeadline)) = some (some 530) ∧
      ∃ n ≤ 3, ∃ settled, ticks? documentParser doc.host n engine = some settled ∧
        settled.timers.nextDeadline = none ∧ settled.snapshot.revision = 9 ∧
        settled.snapshot.outcome = Recovery.parse documentParser "a = !".toList :=
  ⟨by decide, settles documentParser _ _ (.inl nofun)⟩

end Engine

end Highlighter
