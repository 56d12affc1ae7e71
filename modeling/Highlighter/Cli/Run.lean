import Highlighter.Cli.Args
import Highlighter.Render.Ansi
import Highlighter.Render.Report
import Highlighter.Settings.Load
import Highlighter.Settings.Paths
import Highlighter.Theme.Choose
import Highlighter.Tree.Reader

/-!
# Running the program

One run opens a document, lets an engine parse and paint it, and writes errors and the painted
document. The engine gets the times it waits for, so that a run does not wait.
-/

namespace Highlighter.Cli

/-- What a run leaves behind. -/
structure Output where
  exit : Nat := 0
  stdout : Text := []
  stderr : Text := []
  deriving DecidableEq, Repr

/-- How a command line ends. -/
inductive Ending where
  | usage (error : UsageError)
  | help
  | done (output : Output)
  deriving DecidableEq, Repr

/-- The name and the version of the program. -/
def versionLine : Text :=
  SettingsPaths.programName.toList ++ " 0.3.0\n".toList

/-- An engine that has been attached to a document and was woken up when it wanted to be, and the
document as it then is. -/
def firstPaint (settings : Settings) (doc : Document) : Engine × Document :=
  let host := doc.host
  let attached := ((Engine.ofSettings settings).update documentParser host .attached 0).1
  let due := attached.timers.nextDeadline.getD Timers.firstPaintDelay
  let (engine, command) := attached.update documentParser host .tick due
  (engine, if command.needsRehighlight then doc.repaint engine host else doc)

/-- An error as a line of its own. -/
def errorLine (file : Text) (record : ErrorRecord) : Text :=
  file ++ ':' :: Text.ofNat record.line ++ ':' :: Text.ofNat record.column ++ ": ".toList ++
    record.message ++ ['\n']

/-- What is said when a document cannot be opened. -/
def openFailure (file : Text) (error : OpenError) : Text :=
  "Error: Failed to open ".toList ++ file ++ "\n\nCaused by:\n    ".toList ++
    error.message ++ ['\n']

/-- The document as a run writes it. -/
def rendered (args : Args) (theme : Theme) (doc : Document) (engine : Engine) : Text :=
  match args.format with
  | .ansi => Ansi.document theme.styles theme.background doc ++ ['\n']
  | .json => (Report.ofDocument (some args.file) doc engine.snapshot).toJson.render 0 ++ ['\n']

/-- Highlight the text of a document. In a check only errors are written, and they decide how the
run ends. -/
def highlight (args : Args) (settings : Settings) (theme : Theme) (text : Text) : Output :=
  let (engine, doc) := firstPaint settings (.ofText text)
  let errors := engine.snapshot.errors
  let stderr :=
    if args.check || engine.showErrors then errors.flatMap (errorLine args.file) else []
  if args.check then { exit := if errors.isEmpty then 0 else 1, stderr }
  else { stdout := rendered args theme doc engine, stderr }

/-- The path of a theme in the folder of the program. -/
def themePath (id : Text) : Text :=
  Path.join SettingsPaths.themesFolder (SettingsPaths.themeFile id)

/-- The settings of a run, where `user` is the folder of the program. -/
def runSettings (user : Files) (args : Args) : Settings :=
  args.apply (Settings.loadOrDefault (user SettingsPaths.settingsFile))

/-- A run with arguments, where `files` are the files that the arguments speak of and `user` is the
folder of the program. -/
def runArgs (files user : Files) (args : Args) : Output :=
  let settings := runSettings user args
  match (files args.file).document with
  | .error error => { exit := 1, stderr := openFailure args.file error }
  | .ok text =>
      let themes : Files := fun path => user (Path.join SettingsPaths.themesFolder path)
      highlight args settings (Theme.loadOrDefault themes settings.theme) text

/-- A run with the words of a command line. -/
def run (files user : Files) (words : List Text) : Ending :=
  match parse words with
  | .error error => .usage error
  | .ok .help => .help
  | .ok .version => .done { stdout := versionLine }
  | .ok (.run args) => .done (runArgs files user args)

end Highlighter.Cli
