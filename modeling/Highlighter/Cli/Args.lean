import Highlighter.Settings.Basic

/-!
# Command-line arguments

A command line names one file and may hold options in any order. The value of an option is attached
by an equals sign or is the next word, unless that word looks like an option. A value that is the
next word, and the file, wait until something comes after them before they are checked; so a word
that is no option at all is reported before them.
-/

namespace Highlighter.Cli

/-- What the highlighted document is written as. -/
inductive Format where
  | ansi
  | json
  deriving DecidableEq, Repr

/-- The arguments of a run. -/
structure Args where
  file : Text
  theme : Option Text := none
  format : Format := .ansi
  hideErrors : Bool := false
  check : Bool := false
  parseDelay : Option Nat := none
  deriving DecidableEq, Repr

/-- Settings with the arguments in place of what they override. -/
def Args.apply (args : Args) (settings : Settings) : Settings :=
  let settings := { settings with theme := args.theme.getD settings.theme }
  let settings := (args.parseDelay.map settings.setParseDelay).getD settings
  if args.hideErrors then { settings with showErrors := false } else settings

/-- What a command line asks for. -/
inductive Request where
  | run (args : Args)
  | help
  | version
  deriving DecidableEq, Repr

/-- What is wrong with a command line. -/
inductive UsageError where
  /-- No file is named. -/
  | noFile
  /-- A word is no option, or is a second file. -/
  | unknownArgument
  /-- A value is missing, or is none of those allowed. -/
  | badValue
  /-- A number is not written as one. -/
  | badNumber
  /-- An option is there twice. -/
  | repeated
  /-- A value is attached to an option that takes none. -/
  | needlessValue
  deriving DecidableEq, Repr

/-- The arguments that have a value. -/
inductive Slot where
  | file
  | theme
  | format
  | parseDelay
  deriving DecidableEq, Repr

/-- The options that have no value. -/
inductive Switch where
  | hideErrors
  | check
  | help
  | version
  deriving DecidableEq, Repr

/-- What the name of an option stands for. -/
inductive Name where
  | slot (slot : Slot)
  | switch (switch : Switch)
  deriving DecidableEq, Repr

/-- The options by their names. -/
def names : List (String × Name) :=
  [("theme", .slot .theme), ("format", .slot .format), ("parse-delay", .slot .parseDelay),
    ("no-errors", .switch .hideErrors), ("check", .switch .check), ("help", .switch .help),
    ("version", .switch .version)]

/-- The option with a name. -/
def name? (name : Text) : Option Name :=
  names.lookup (String.ofList name)

/-- The option that one letter stands for. -/
def letter? : Char → Option Switch
  | 'h' => some .help
  | 'V' => some .version
  | _ => none

/-- A word of a command line. -/
inductive Word where
  /-- Two dashes alone; only files come after them. -/
  | separator
  /-- Two dashes and a name, with the value that is attached to it. -/
  | long (name : Text) (value : Option Text)
  /-- A dash and letters, of which the first decides. -/
  | short (letter : Char)
  /-- Anything else. -/
  | value
  deriving DecidableEq, Repr

/-- What a word is, by how it starts. -/
def Word.ofText : Text → Word
  | ['-', '-'] => .separator
  | '-' :: '-' :: rest =>
      if rest.contains '=' then
        .long (rest.takeWhile (· ≠ '=')) (some ((rest.dropWhile (· ≠ '=')).drop 1))
      else .long rest none
  | '-' :: letter :: _ => .short letter
  | _ => .value

/-- The values that have been taken. -/
structure Draft where
  file : Option Text := none
  theme : Option Text := none
  format : Option Format := none
  parseDelay : Option Nat := none
  hideErrors : Bool := false
  check : Bool := false
  deriving DecidableEq, Repr

/-- A natural number below two to the power of 64 in decimal, with an optional plus sign. -/
def delay? (text : Text) : Option Nat :=
  let digits := if text.head? = some '+' then text.tail else text
  if digits.isEmpty || !digits.all Char.isDigit then none
  else
    let value := digits.foldl (fun n c => 10 * n + (c.toNat - '0'.toNat)) 0
    if value < UInt64.size then some value else none

/-- The format with a name. -/
def format? (name : Text) : Option Format :=
  if name = "ansi".toList then some .ansi
  else if name = "json".toList then some .json
  else none

/-- Take the value of an argument. A repeated argument is found before the value is looked at. -/
def Draft.take (draft : Draft) (slot : Slot) (value : Text) : Except UsageError Draft :=
  match slot with
  | .file => if value.isEmpty then .error .badValue else .ok { draft with file := some value }
  | .theme =>
      if draft.theme.isSome then .error .repeated else .ok { draft with theme := some value }
  | .format =>
      if draft.format.isSome then .error .repeated
      else
        match format? value with
        | some format => .ok { draft with format := some format }
        | none => .error .badValue
  | .parseDelay =>
      if draft.parseDelay.isSome then .error .repeated
      else
        match delay? value with
        | some delay => .ok { draft with parseDelay := some delay }
        | none => .error .badNumber

/-- The state of a reader of words: what has been taken, and the argument whose value is being
waited for or is waiting to be checked. -/
structure State where
  draft : Draft := {}
  pending : Option (Slot × Option Text) := none
  fileSeen : Bool := false
  literal : Bool := false
  deriving DecidableEq, Repr

namespace State

/-- Check what is waiting. -/
def settle (state : State) : Except UsageError State :=
  match state.pending with
  | none => .ok state
  | some (_, none) => .error .badValue
  | some (slot, some value) => do
      pure { state with draft := ← state.draft.take slot value, pending := none }

/-- The argument that waits for the next word as its value. -/
def awaits? (state : State) : Option Slot :=
  match state.pending with
  | some (slot, none) => if state.literal then none else some slot
  | _ => none

/-- Take a word that is no option: the value that is waited for, or the file. -/
def takeValue (state : State) (word : Text) : Except UsageError State :=
  match state.awaits? with
  | some slot => .ok { state with pending := some (slot, some word) }
  | none =>
      if state.fileSeen then .error .unknownArgument
      else do
        pure { ← state.settle with pending := some (.file, some word), fileSeen := true }

/-- Take a switch. It ends the reading if it asks for help or the version. -/
def takeSwitch (state : State) (switch : Switch) : Except UsageError (State ⊕ Request) := do
  let state ← state.settle
  match switch with
  | .help => pure (.inr .help)
  | .version => pure (.inr .version)
  | .hideErrors =>
      if state.draft.hideErrors then .error .repeated
      else pure (.inl { state with draft := { state.draft with hideErrors := true } })
  | .check =>
      if state.draft.check then .error .repeated
      else pure (.inl { state with draft := { state.draft with check := true } })

/-- Take a word. -/
def step (state : State) (word : Text) : Except UsageError (State ⊕ Request) :=
  if state.literal then .inl <$> state.takeValue word
  else
    match Word.ofText word with
    | .separator => .ok (.inl { state with literal := true })
    | .value => .inl <$> state.takeValue word
    | .short letter =>
        match letter? letter with
        | some switch => state.takeSwitch switch
        | none => .error .unknownArgument
    | .long name value =>
        match name? name, value with
        | none, _ => .error .unknownArgument
        | some (.switch _), some _ => .error .needlessValue
        | some (.switch switch), none => state.takeSwitch switch
        | some (.slot slot), none => do
            pure (.inl { ← state.settle with pending := some (slot, none) })
        | some (.slot slot), some value => do
            let state ← state.settle
            pure (.inl { state with draft := ← state.draft.take slot value })

/-- The request of a reader that has seen all words. -/
def finish (state : State) : Except UsageError Request := do
  let state ← state.settle
  match state.draft.file with
  | none => .error .noFile
  | some file =>
      pure (.run
        { file
          theme := state.draft.theme
          format := state.draft.format.getD .ansi
          hideErrors := state.draft.hideErrors
          check := state.draft.check
          parseDelay := state.draft.parseDelay })

/-- Read words to the end. -/
def read (state : State) : List Text → Except UsageError Request
  | [] => state.finish
  | word :: rest => do
      match ← state.step word with
      | .inl next => next.read rest
      | .inr request => pure request

end State

/-- The request of a command line, without the name of the program. -/
def parse (words : List Text) : Except UsageError Request :=
  State.read {} words

end Highlighter.Cli
