import Highlighter.Engine.Basic
import Highlighter.Tree.Reader
import Mathlib.Data.Option.Basic

/-!
# What a tick does

A tick does one of four things, which `Ticks` lists: no timer has run out and nothing happens; the
first paint alone is due; a task is due and was armed for the revision that the host has; or a task
is due that was armed for another revision, and then it is armed anew and nothing is parsed. Every
tick is one of these (`ticks_tick`). `Commits` says what a parse leaves (`commits_parse_now`): the
snapshot of the host's text and revision, and the command to paint the lines again.

The first paint has a timer of its own, but it shares its parse with a task that is due at the same
tick, and with it the task's stamp. `first_paint_iff` says what comes of that: the first paint
happens unless such a task was armed for another revision than the host's, and its timer has run out
either way.
-/

namespace Highlighter

namespace Timers

/-- The timers after those that have run out were taken. -/
def left (timers : Timers) (now : Nat) : Timers :=
  (timers.takeDue now).1

@[simp] theorem left_auto (timers : Timers) (now : Nat) : (timers.left now).auto = timers.auto :=
  rfl

@[simp] theorem left_first_paint (timers : Timers) (now : Nat) :
    (timers.left now).firstPaint = timers.firstPaint.filter (now < ·) :=
  rfl

/-- Whether the first paint is due. -/
def paintsAt (timers : Timers) (now : Nat) : Bool :=
  timers.firstPaint.any (· ≤ now)

/-- What a parse is for that a task shares with the first paint if that is due too. -/
def sharedKind (timers : Timers) (now : Nat) (task : Task) : ParseKind :=
  if timers.paintsAt now && !task.kind.updatesErrors then .initial else task.kind

/-- Timers of which none has run out are left as they are. -/
theorem left_of_idle {timers : Timers} {now : Nat} (hfirst : timers.paintsAt now = false)
    (hpending : ∀ task ∈ timers.pending, now < task.due) : timers.left now = timers := by
  obtain ⟨delay, auto, firstPaint, pending⟩ := timers
  have hfirst : firstPaint.filter (now < ·) = firstPaint := by
    cases firstPaint with
    | none => rfl
    | some due => simpa [paintsAt] using hfirst
  have hpending : pending.filter (now < ·.due) = pending := by
    cases pending with
    | none => rfl
    | some task => simpa using hpending
  show Timers.mk delay auto (firstPaint.filter (now < ·)) (pending.filter (now < ·.due)) = _
  rw [hfirst, hpending]

/-- Without a task that is due, the first paint is taken if it is. -/
theorem due_of_no_task {timers : Timers} {now : Nat}
    (hpending : ∀ task ∈ timers.pending, now < task.due) :
    (timers.takeDue now).2 = if timers.paintsAt now then some ⟨.initial, none⟩ else none := by
  obtain ⟨delay, auto, firstPaint, pending⟩ := timers
  have hnone : pending.filter (·.due ≤ now) = none := by
    rw [Option.filter_eq_none_iff]
    intro task htask
    simpa using hpending task htask
  simp only [takeDue, paintsAt, hnone]
  cases firstPaint with
  | none => rfl
  | some due => by_cases hdue : due ≤ now <;> simp [Option.filter, hdue]

/-- A task that is due is taken with its stamp. -/
theorem due_of_task {timers : Timers} {task : Task} {now : Nat}
    (htask : timers.pending = some task) (hdue : task.due ≤ now) :
    (timers.takeDue now).2 = some ⟨timers.sharedKind now task, some task.revision⟩ := by
  obtain ⟨delay, auto, firstPaint, pending⟩ := timers
  subst htask
  have hsome : (some task).filter (·.due ≤ now) = some task := by simpa using hdue
  simp only [takeDue, sharedKind, paintsAt, hsome]
  cases firstPaint with
  | none => simp
  | some due =>
      by_cases hfirst : due ≤ now <;> cases hkind : task.kind.updatesErrors <;>
        simp [Option.filter, hfirst, hkind]

end Timers

namespace Engine

/-- `Ticks parser engine host now result` says that an engine and its command are what comes of a
tick. -/
inductive Ticks (parser : Parser) (engine : Engine) (host : Host) (now : Nat) :
    Engine × Command → Prop where
  | idle (hfirst : engine.timers.paintsAt now = false)
      (hpending : ∀ task ∈ engine.timers.pending, now < task.due) :
      Ticks parser engine host now (engine, .none)
  | firstPaint (hfirst : engine.timers.paintsAt now = true)
      (hpending : ∀ task ∈ engine.timers.pending, now < task.due) :
      Ticks parser engine host now
        (parseNow parser { engine with timers := engine.timers.left now } host .initial)
  | task (task : Task) (htask : engine.timers.pending = some task) (hdue : task.due ≤ now)
      (hstamp : task.revision = host.revision) :
      Ticks parser engine host now
        (parseNow parser { engine with timers := engine.timers.left now } host
          (engine.timers.sharedKind now task))
  | stale (task : Task) (htask : engine.timers.pending = some task) (hdue : task.due ≤ now)
      (hstamp : task.revision ≠ host.revision) :
      Ticks parser engine host now
        ({ engine with timers := (engine.timers.left now).edit host.revision now }, .none)

variable (parser : Parser) (engine : Engine) (host : Host) (now : Nat)

/-- A tick takes what is due, and parses it unless its stamp is another revision than the host's. -/
theorem tick_eq :
    tick parser engine host now =
      match (engine.timers.takeDue now).2 with
      | none => ({ engine with timers := engine.timers.left now }, .none)
      | some due =>
          if due.revision.all (· = host.revision) then
            parseNow parser { engine with timers := engine.timers.left now } host due.kind
          else
            ({ engine with timers := (engine.timers.left now).edit host.revision now }, .none) :=
  rfl

/-- Every tick is one of the four. -/
theorem ticks_tick : Ticks parser engine host now (tick parser engine host now) := by
  rw [tick_eq]
  cases htask : engine.timers.pending.filter (·.due ≤ now) with
  | none =>
      have hpending : ∀ task ∈ engine.timers.pending, now < task.due := by
        intro task hmem
        simpa using Option.filter_eq_none_iff.1 htask task hmem
      rw [Timers.due_of_no_task hpending]
      cases hfirst : engine.timers.paintsAt now with
      | true => exact .firstPaint hfirst hpending
      | false =>
          show Ticks parser engine host now
            ({ engine with timers := engine.timers.left now }, .none)
          rw [Timers.left_of_idle hfirst hpending]
          exact .idle hfirst hpending
  | some task =>
      obtain ⟨hmem, hdue⟩ := Option.filter_eq_some_iff.1 htask
      have hdue : task.due ≤ now := by simpa using hdue
      rw [Timers.due_of_task hmem hdue]
      show Ticks parser engine host now
        (if (some task.revision).all (· = host.revision) then _ else _)
      by_cases hstamp : task.revision = host.revision
      · rw [if_pos (by simpa using hstamp)]
        exact .task task hmem hdue hstamp
      · rw [if_neg (by simpa using hstamp)]
        exact .stale task hmem hdue hstamp

variable {parser engine host}

/-- A tick at which nothing is due changes nothing. -/
theorem tick_of_idle {now : Nat} (hfirst : engine.timers.paintsAt now = false)
    (hpending : ∀ task ∈ engine.timers.pending, now < task.due) :
    tick parser engine host now = (engine, .none) := by
  rw [tick_eq, Timers.due_of_no_task hpending, hfirst]
  show ({ engine with timers := engine.timers.left now }, Command.none) = _
  rw [Timers.left_of_idle hfirst hpending]

/-- A tick parses the host for a task that is due and was armed for the host's revision. -/
theorem tick_of_task {now : Nat} {task : Task} (htask : engine.timers.pending = some task)
    (hdue : task.due ≤ now) (hstamp : task.revision = host.revision) :
    tick parser engine host now =
      parseNow parser { engine with timers := engine.timers.left now } host
        (engine.timers.sharedKind now task) := by
  rw [tick_eq, Timers.due_of_task htask hdue]
  exact if_pos (by simpa using hstamp)

@[simp] theorem parse_now_timers {kind : ParseKind} :
    (parseNow parser engine host kind).1.timers = engine.timers := by
  unfold parseNow
  split <;> rfl

/-- A parse puts the outcome of the host's text in place under the host's revision, with its errors
if they are to be renewed. -/
@[simp] theorem parse_now_snapshot {kind : ParseKind} :
    (parseNow parser engine host kind).1.snapshot =
      { outcome := Recovery.parse parser host.text
        errors :=
          if kind.updatesErrors then errorsOf (Recovery.parse parser host.text)
          else engine.snapshot.errors
        revision := host.revision } := by
  unfold parseNow
  split <;> rfl

/-- A parse neither shows nor hides errors. -/
@[simp] theorem parse_now_show_errors {kind : ParseKind} :
    (parseNow parser engine host kind).1.showErrors = engine.showErrors := by
  unfold parseNow
  split <;> rfl

/-- A parse of a text that is not blank is counted. -/
theorem parse_now_count {kind : ParseKind} :
    (parseNow parser engine host kind).1.parseCount =
      engine.parseCount + if host.text.isBlank then 0 else 1 := by
  unfold parseNow
  split <;> rfl

/-- After a parse the lines are to be painted again, and its errors are reported first if they are
others than before and errors are shown. -/
theorem parse_now_command {kind : ParseKind} :
    (parseNow parser engine host kind).2 =
      if (parseNow parser engine host kind).1.snapshot.errors ≠ engine.snapshot.errors ∧
          engine.showErrors = true then
        .batch [.errorsChanged (parseNow parser engine host kind).1.snapshot.errors, .rehighlight]
      else .rehighlight := by
  have hreport : ∀ errors : List ErrorRecord,
      Command.ofList ((if errors ≠ engine.snapshot.errors && engine.showErrors then
          [.errorsChanged errors] else []) ++ [.rehighlight]) =
        if errors ≠ engine.snapshot.errors ∧ engine.showErrors = true then
          .batch [.errorsChanged errors, .rehighlight]
        else .rehighlight := by
    intro errors
    by_cases hchanged : errors ≠ engine.snapshot.errors ∧ engine.showErrors = true
    · rw [if_pos hchanged, if_pos (by simpa using hchanged)]
      rfl
    · rw [if_neg hchanged, if_neg (by simpa using hchanged)]
      rfl
  unfold parseNow
  split
  · exact hreport _
  · exact hreport _

/-- After a parse the lines are to be painted again. -/
@[simp] theorem parse_now_needs_rehighlight {kind : ParseKind} :
    (parseNow parser engine host kind).2.needsRehighlight = true := by
  rw [parse_now_command]
  split <;> rfl

/-- `Commits parser engine host kind result` says that an engine and its command are what comes of
one parse of the host. The snapshot is that of the host's text and revision, and only a refresh of
the colours keeps the errors of the one before. The lines are to be painted again, and errors that
have changed are reported while errors are shown. -/
structure Commits (parser : Parser) (engine : Engine) (host : Host) (kind : ParseKind)
    (result : Engine × Command) : Prop where
  snapshot : result.1.snapshot =
    { outcome := Recovery.parse parser host.text
      errors :=
        if kind.updatesErrors then
          ((Recovery.parse parser host.text).error?.map ErrorRecord.locate).toList
        else engine.snapshot.errors
      revision := host.revision }
  command : result.2 =
    if result.1.snapshot.errors ≠ engine.snapshot.errors ∧ engine.showErrors = true then
      .batch [.errorsChanged result.1.snapshot.errors, .rehighlight]
    else .rehighlight
  parseCount : result.1.parseCount = engine.parseCount + if host.text.isBlank then 0 else 1
  timers : result.1.timers = engine.timers
  showErrors : result.1.showErrors = engine.showErrors

/-- A parse commits the host. -/
theorem commits_parse_now (kind : ParseKind) :
    Commits parser engine host kind (parseNow parser engine host kind) where
  snapshot := parse_now_snapshot
  command := parse_now_command
  parseCount := parse_now_count
  timers := parse_now_timers
  showErrors := parse_now_show_errors

/-- What gives no command has committed nothing. -/
theorem not_commits_of_none {kind : ParseKind} {other : Engine} :
    ¬ Commits parser engine host kind (other, .none) := by
  intro hcommits
  have hcommand := hcommits.command
  split at hcommand <;> cases hcommand

/-- A tick turns automatic parsing neither on nor off. -/
theorem Ticks.auto {now : Nat} {result : Engine × Command}
    (h : Ticks parser engine host now result) : result.1.timers.auto = engine.timers.auto := by
  cases h with
  | idle _ _ => rfl
  | firstPaint _ _ => rw [parse_now_timers, Timers.left_auto]
  | task _ _ _ _ => rw [parse_now_timers, Timers.left_auto]
  | stale _ _ _ _ => rfl

/-- A parse that the first paint shares renews the errors. -/
theorem shared_kind_updates_errors {timers : Timers} {now : Nat} (task : Task)
    (hfirst : timers.paintsAt now = true) :
    (timers.sharedKind now task).updatesErrors = true := by
  unfold Timers.sharedKind
  split
  · rfl
  · next hkind => simpa [hfirst] using hkind

/-- Once the first paint is due, a tick commits the host as it is, with its errors, if and only if
no task is due that was armed for another revision. The timer of the first paint has run out either
way. -/
theorem first_paint_iff (parser : Parser) (engine : Engine) (host : Host) (due now : Nat)
    (hfirst : engine.timers.firstPaint = some due) (hdue : due ≤ now) :
    let result := engine.update parser host .tick now
    result.1.timers.firstPaint = none ∧
      ((∃ kind : ParseKind, kind.updatesErrors = true ∧
          Commits parser { engine with timers := engine.timers.left now } host kind result) ↔
        ∀ task ∈ engine.timers.pending, task.due ≤ now → task.revision = host.revision) := by
  have hpaints : engine.timers.paintsAt now = true := by simp [Timers.paintsAt, hfirst, hdue]
  have hspent : (engine.timers.left now).firstPaint = none := by simp [hfirst, hdue]
  intro result
  have hticks : Ticks parser engine host now result := ticks_tick parser engine host now
  clear_value result
  cases hticks with
  | idle hidle _ => simp [hpaints] at hidle
  | firstPaint _ hpending =>
      refine ⟨by rw [parse_now_timers, hspent], fun _ task htask htaken => ?_, fun _ => ?_⟩
      · exact absurd htaken (Nat.not_le.2 (hpending task htask))
      · exact ⟨.initial, rfl, commits_parse_now .initial⟩
  | task task htask _ hstamp =>
      refine ⟨by rw [parse_now_timers, hspent], fun _ other hother _ => ?_, fun _ => ?_⟩
      · obtain rfl : task = other := Option.some.inj (htask.symm.trans hother)
        exact hstamp
      · exact ⟨_, shared_kind_updates_errors task hpaints, commits_parse_now _⟩
  | stale task htask htaken hstamp =>
      refine ⟨hspent, ?_, fun hcurrent => absurd (hcurrent task htask htaken) hstamp⟩
      rintro ⟨kind, -, hcommits⟩
      exact absurd hcommits not_commits_of_none

/-- A first paint that is due together with a refresh of the colours: the refresh was armed for the
revision that the document still has, and the errors are renewed. -/
theorem first_paint_iff_shared :
    let doc := Document.ofText "a = !".toList
    let edited := doc.insert 0 "b = 1\n".toList
    let attached :=
      ((ofSettings { autoParse := false }).update documentParser doc.host .attached 0).1
    let engine := (attached.update documentParser edited.1.host (.edited edited.2) 90).1
    let result := engine.update documentParser edited.1.host .tick 100
    engine.timers.firstPaint = some 100 ∧ engine.timers.pending = some ⟨.syntaxOnly, 1, 100⟩ ∧
      (∃ kind : ParseKind, kind.updatesErrors = true ∧
        Commits documentParser { engine with timers := engine.timers.left 100 } edited.1.host kind
          result) ∧
      result.1.snapshot.revision = 1 ∧ result.1.snapshot.errors.map (·.line) = [2] ∧
      result.2.needsRehighlight = true := by
  refine ⟨rfl, rfl, ?_, by decide +kernel⟩
  refine (first_paint_iff documentParser _ _ 100 100 rfl (Nat.le_refl 100)).2.2 ?_
  intro task htask _
  cases htask
  rfl

/-- A document that was edited again without a word to the engine: the first paint is due together
with a full parse for the earlier revision, and is dropped with it. -/
theorem first_paint_dropped :
    let doc := Document.ofText "a = 1".toList
    let edited := doc.insert 5 "0".toList
    let moved := (edited.1.insert 6 "0".toList).1
    let attached :=
      ((ofSettings { parseDelay := 100 }).update documentParser doc.host .attached 0).1
    let engine := (attached.update documentParser edited.1.host (.edited edited.2) 0).1
    let result := engine.update documentParser moved.host .tick 100
    engine.timers.firstPaint = some 100 ∧ result.2.needsRehighlight = false ∧
      result.1.snapshot.revision ≠ moved.revision ∧ result.1.timers.firstPaint = none := by
  decide

end Engine

end Highlighter
