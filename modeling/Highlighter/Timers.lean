/-!
# Timers

When to parse. A timer armed once, when a document is attached, brings the first paint. Every edit
arms the pending task anew: a full parse after the parse delay, or, while automatic parsing is off,
a refresh of the colours alone after a short while. There is at most one pending task. The first
paint has a timer of its own, which no edit arms anew. If a task is due at the same time, the two
share one parse, and that is for the revision of the task. Times are in milliseconds.
-/

namespace Highlighter

/-- What a parse is for. -/
inductive ParseKind where
  /-- The first paint. -/
  | initial
  /-- The full parse after edits. -/
  | diagnostics
  /-- A refresh of the colours that leaves the errors as they are. -/
  | syntaxOnly
  deriving DecidableEq, Repr

/-- Whether a parse renews the errors. -/
def ParseKind.updatesErrors (kind : ParseKind) : Bool :=
  kind ≠ .syntaxOnly

/-- A parse armed by an edit, with the revision of the document at that time. -/
structure Task where
  kind : ParseKind
  revision : UInt64
  due : Nat
  deriving DecidableEq, Repr

/-- A parse whose time has come. The first paint alone has no revision: it takes the document as it
is. -/
structure DueParse where
  kind : ParseKind
  revision : Option UInt64
  deriving DecidableEq, Repr

/-- The timers of a highlighter and their settings. -/
structure Timers where
  delay : Nat
  auto : Bool
  firstPaint : Option Nat := none
  pending : Option Task := none
  deriving DecidableEq, Repr

namespace Timers

/-- The parse delay when none is set. -/
def defaultDelay : Nat := 500

/-- The least parse delay. -/
def minDelay : Nat := 100

/-- The delay of the first paint. -/
def firstPaintDelay : Nat := 100

/-- The delay of a refresh of the colours. -/
def refreshDelay : Nat := 10

/-- A parse delay that is not too short. -/
def clampDelay (delay : Nat) : Nat :=
  max delay minDelay

/-- Timers with nothing armed. -/
def ofSettings (delay : Nat) (auto : Bool) : Timers where
  delay := clampDelay delay
  auto := auto

/-- Arm the first paint. -/
def attach (timers : Timers) (now : Nat) : Timers :=
  { timers with firstPaint := some (now + firstPaintDelay) }

/-- Arm the pending task for an edit, in the place of any other. -/
def edit (timers : Timers) (revision : UInt64) (now : Nat) : Timers :=
  { timers with
    pending :=
      if timers.auto then some ⟨.diagnostics, revision, now + timers.delay⟩
      else some ⟨.syntaxOnly, revision, now + refreshDelay⟩ }

/-- Turn automatic parsing on or off. Turning it on arms a full parse, and turning it off drops a
pending one. -/
def setAuto (timers : Timers) (auto : Bool) (revision : UInt64) (now : Nat) : Timers :=
  if timers.auto = auto then timers
  else if auto then
    { timers with auto, pending := some ⟨.diagnostics, revision, now + timers.delay⟩ }
  else { timers with auto, pending := timers.pending.filter (·.kind ≠ .diagnostics) }

/-- Set the parse delay. A pending full parse starts anew with it. -/
def setDelay (timers : Timers) (delay now : Nat) : Timers :=
  { timers with
    delay := clampDelay delay
    pending := timers.pending.map fun task =>
      if task.kind = .diagnostics then { task with due := now + clampDelay delay } else task }

/-- When the next timer runs out. -/
def nextDeadline (timers : Timers) : Option Nat :=
  match timers.firstPaint, timers.pending with
  | some first, some task => some (min first task.due)
  | some first, none => some first
  | none, some task => some task.due
  | none, none => none

/-- Take what is due. When both timers have run out there is a single parse; it is stamped like the
task and renews the errors. -/
def takeDue (timers : Timers) (now : Nat) : Timers × Option DueParse :=
  let first := timers.firstPaint.filter (· ≤ now)
  let task := timers.pending.filter (·.due ≤ now)
  let rest : Timers :=
    { timers with
      firstPaint := timers.firstPaint.filter (now < ·)
      pending := timers.pending.filter (now < ·.due) }
  let due :=
    match first, task with
    | none, none => none
    | some _, none => some ⟨.initial, none⟩
    | none, some task => some ⟨task.kind, some task.revision⟩
    | some _, some task =>
        some ⟨if task.kind.updatesErrors then task.kind else .initial, some task.revision⟩
  (rest, due)

end Timers

end Highlighter
