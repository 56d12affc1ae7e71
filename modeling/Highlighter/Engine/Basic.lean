import Highlighter.Command
import Highlighter.Document
import Highlighter.Engine.Recovery
import Highlighter.Line.Pass
import Highlighter.Settings.Basic

/-!
# The engine

The engine decides when to parse, keeps the last parse as one snapshot and tells its host what to
do. The host sends events, each with the time it happens at, and gets a command back. All that the
engine sees of the edited document is a `Host`; all that it knows of the language is a `Parser`.
-/

namespace Highlighter

/-- The edited document as the engine sees it. Lines are numbered from one, and a line may be
missing. -/
structure Host where
  text : Text
  revision : UInt64
  lineCount : Nat
  line? : Nat → Option Text

/-- A document as a host. -/
def Document.host (doc : Document) : Host :=
  let lines := doc.lines
  { text := doc.text
    revision := doc.revision
    lineCount := doc.lineCount
    line? := fun line => if line = 0 then none else lines[line - 1]? }

/-- What the host tells the engine. -/
inductive Event where
  /-- The document was edited. -/
  | edited (edit : Edit)
  /-- A document was attached. -/
  | attached
  /-- Time has passed. -/
  | tick
  /-- Errors are to be shown or hidden. -/
  | showErrors (on : Bool)
  /-- The parse delay is to change. -/
  | parseDelay (delay : Nat)
  /-- Automatic parsing is to be turned on or off. -/
  | autoParse (on : Bool)
  deriving DecidableEq, Repr

/-- A parse as it was committed: its outcome, the errors shown with it and the revision it was made
from. -/
structure Snapshot where
  outcome : Outcome := .empty
  errors : List ErrorRecord := []
  revision : UInt64 := 0

/-- The state of the engine. `parseCount` counts the texts that were not blank when their time
came. -/
structure Engine where
  timers : Timers
  showErrors : Bool
  snapshot : Snapshot := {}
  parseCount : Nat := 0

namespace Engine

/-- An engine that has parsed nothing. -/
def ofSettings (settings : Settings) : Engine where
  timers := .ofSettings settings.parseDelay settings.autoParse
  showErrors := settings.showErrors

/-- The errors of an outcome, located. -/
def errorsOf (outcome : Outcome) : List ErrorRecord :=
  (outcome.error?.map ErrorRecord.locate).toList

/-- Put an outcome in the place of the snapshot. A refresh of the colours keeps the errors. Changed
errors are reported while errors are shown, and the lines are always to be painted again. -/
def commit (engine : Engine) (kind : ParseKind) (revision : UInt64) (outcome : Outcome) :
    Engine × Command :=
  let old := engine.snapshot.errors
  let errors := if kind.updatesErrors then errorsOf outcome else old
  let report :=
    if errors ≠ old && engine.showErrors then [Command.errorsChanged errors] else []
  ({ engine with snapshot := { outcome, errors, revision } },
    .ofList (report ++ [.rehighlight]))

/-- Parse the host's text at once and commit the outcome. -/
def parseNow (parser : Parser) (engine : Engine) (host : Host) (kind : ParseKind) :
    Engine × Command :=
  let counted :=
    if host.text.isBlank then engine else { engine with parseCount := engine.parseCount + 1 }
  counted.commit kind host.revision (Recovery.parse parser host.text)

/-- Parse if a timer has run out. A task that was armed for another revision than the host's is
armed anew instead. -/
def tick (parser : Parser) (engine : Engine) (host : Host) (now : Nat) : Engine × Command :=
  let (timers, due) := engine.timers.takeDue now
  match due with
  | none => ({ engine with timers }, .none)
  | some due =>
      if due.revision.all (· = host.revision) then
        parseNow parser { engine with timers } host due.kind
      else ({ engine with timers := timers.edit host.revision now }, .none)

/-- Show or hide errors. A change repaints, and showing them reports the current ones. -/
def setShowErrors (engine : Engine) (on : Bool) : Engine × Command :=
  if engine.showErrors = on then (engine, .none)
  else
    let report := if on then [Command.errorsChanged engine.snapshot.errors] else []
    ({ engine with showErrors := on }, .ofList (report ++ [.rehighlight]))

/-- Take an event. -/
def update (parser : Parser) (engine : Engine) (host : Host) (event : Event) (now : Nat) :
    Engine × Command :=
  match event with
  | .edited _ => ({ engine with timers := engine.timers.edit host.revision now }, .none)
  | .attached => ({ engine with timers := engine.timers.attach now }, .none)
  | .tick => tick parser engine host now
  | .showErrors on => setShowErrors engine on
  | .parseDelay delay => ({ engine with timers := engine.timers.setDelay delay now }, .none)
  | .autoParse on =>
      ({ engine with timers := engine.timers.setAuto on host.revision now }, .none)

/-- What the engine paints from. -/
def pass (engine : Engine) : Pass where
  outcome := engine.snapshot.outcome
  errors := engine.snapshot.errors
  showErrors := engine.showErrors

/-- The paint of a line. -/
def highlightLine (engine : Engine) (line : Nat) (text : Text) : LineHighlight :=
  engine.pass.highlightLine line text

/-- The paint of all lines of a host, in order. Lines that the host does not have are left out. -/
def paint (engine : Engine) (host : Host) : List (Nat × LineHighlight) :=
  (List.range' 1 host.lineCount).filterMap fun line =>
    (host.line? line).map fun text => (line, engine.highlightLine line text)

end Engine

/-- Paint all lines of a document, as far as its host has them. -/
def Document.repaint (doc : Document) (engine : Engine) (host : Host) : Document :=
  doc.applyPaint (engine.paint host)

end Highlighter
