import Highlighter.ErrorRecord.Basic

/-!
# Commands

What the engine asks of its host: to show another list of errors, to paint all lines again, or
several such things. `Command.ofList` makes one command of several and leaves out those that ask for
nothing; `Command.collapse` rebuilds a command that way from the inside out.
-/

namespace Highlighter

/-- A request to the host. -/
inductive Command where
  | none
  | errorsChanged (errors : List ErrorRecord)
  | rehighlight
  | batch (commands : List Command)

namespace Command

/-- Whether a command is the one that asks for nothing. -/
def isNone : Command → Bool
  | .none => true
  | _ => false

/-- One command for several. A batch has at least two members, none of which is `none`. -/
def ofList (commands : List Command) : Command :=
  match commands.filter (!·.isNone) with
  | [] => .none
  | [command] => command
  | several => .batch several

mutual

/-- Whether a command asks for the lines to be painted again. -/
def needsRehighlight : Command → Bool
  | .none => false
  | .errorsChanged _ => false
  | .rehighlight => true
  | .batch commands => anyNeedsRehighlight commands

/-- Whether one of several commands asks for the lines to be painted again. -/
def anyNeedsRehighlight : List Command → Bool
  | [] => false
  | command :: rest => command.needsRehighlight || anyNeedsRehighlight rest

end

mutual

/-- The first list of errors in a command. -/
def errors? : Command → Option (List ErrorRecord)
  | .none => Option.none
  | .errorsChanged errors => some errors
  | .rehighlight => Option.none
  | .batch commands => firstErrors? commands

/-- The first list of errors in several commands. -/
def firstErrors? : List Command → Option (List ErrorRecord)
  | [] => Option.none
  | command :: rest =>
      match command.errors? with
      | some errors => some errors
      | Option.none => firstErrors? rest

end

mutual

/-- The command with every batch rebuilt by `ofList`, the innermost first. -/
def collapse : Command → Command
  | .batch commands => ofList (collapseAll commands)
  | .none => .none
  | .errorsChanged errors => .errorsChanged errors
  | .rehighlight => .rehighlight

/-- Several commands, each collapsed. -/
def collapseAll : List Command → List Command
  | [] => []
  | command :: rest => command.collapse :: collapseAll rest

end

end Command

end Highlighter
