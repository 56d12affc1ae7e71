import Highlighter.Cli.Run

/-!
# The command line

The outer layer: it looks up the files that a run needs, calls `Cli.run` and writes what the run
leaves behind.
-/

namespace Highlighter.Cli

/-- How the program is called. -/
def usage : String :=
  "Usage: ftml-highlight [OPTIONS] <FILE>\n\nOptions:\n" ++
    "      --theme <ID>        Theme id (built-in or from the user themes directory)\n" ++
    "      --format <FORMAT>   Output format: ansi or json\n" ++
    "      --no-errors         Do not underline parse errors\n" ++
    "      --check             Only report parse errors; exit non-zero if there are any\n" ++
    "      --parse-delay <MS>  Debounce window for the diagnostics parse, in milliseconds\n" ++
    "  -h, --help              Print help\n" ++
    "  -V, --version           Print version\n"

/-- What a path leads to on this machine. A file that is too large to be opened is not read. -/
def lookup (path : Text) : IO Lookup := do
  let full := (← IO.currentDir) / String.ofList path
  try
    let metadata ← full.metadata
    if metadata.type == .dir then return .found .directory
    let size := metadata.byteSize.toNat
    if Stored.maxSize < size then return .found (.file size fun _ => .empty)
    return .found (.ofBytes (← IO.FS.readBinFile full))
  catch
    | .inappropriateType _ _ _ => return .blocked
    | _ => return .missing

/-- The files that a run with arguments looks at: the document, and the settings and the theme in
the folder of the program. -/
def gather (args : Args) : IO (Files × Files) := do
  let config := (← IO.getEnv "XDG_CONFIG_HOME").map String.toList
  let home := (← IO.getEnv "HOME").map String.toList
  let document ← lookup args.file
  let files := Files.ofList [(args.file, document)]
  match SettingsPaths.folder? config home with
  | none => return (files, Files.none)
  | some folder =>
      let settingsFile := SettingsPaths.settingsFile
      let settings ← lookup (Path.join folder settingsFile)
      let theme := themePath (runSettings (Files.ofList [(settingsFile, settings)]) args).theme
      let found ← lookup (Path.join folder theme)
      return (files, Files.ofList [(settingsFile, settings), (theme, found)])

/-- The program, from its words to its exit code. -/
def program (words : List Text) : IO UInt32 := do
  let (files, user) ←
    match parse words with
    | .ok (.run args) => gather args
    | _ => pure (Files.none, Files.none)
  match run files user words with
  | .usage _ =>
      IO.eprint usage
      return 2
  | .help =>
      IO.print usage
      return 0
  | .done output =>
      IO.eprint (String.ofList output.stderr)
      IO.print (String.ofList output.stdout)
      return output.exit.toUInt32

end Highlighter.Cli

/-- The entry point. -/
def main (words : List String) : IO UInt32 :=
  Highlighter.Cli.program (words.map String.toList)
