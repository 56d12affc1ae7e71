import Highlighter.Path

/-!
# Where settings are kept

Settings are kept in a folder of their own below the user's configuration folder, which is either
given or is found below the user's home.
-/

namespace Highlighter.SettingsPaths

/-- The name of the program, which its folder has too. -/
def programName : String := "ftml-highlight"

/-- The folder of the program, from the configuration folder if one is given and else from the
home. -/
def folder? (config home : Option Text) : Option Text :=
  let base := config <|> home.map fun home => Path.join home ".config".toList
  base.map fun base => Path.join base programName.toList

/-- The file with the settings, in the folder of the program. -/
def settingsFile : Text := "config.yaml".toList

/-- The folder with themes, in the folder of the program. -/
def themesFolder : Text := "themes".toList

/-- The folder with logs, in the folder of the program. -/
def logsFolder : Text := "logs".toList

/-- The file of a theme, in the folder with themes. -/
def themeFile (id : Text) : Text := id ++ ".yaml".toList

end Highlighter.SettingsPaths
