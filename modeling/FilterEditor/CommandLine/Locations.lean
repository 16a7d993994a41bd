import FilterEditor.CommandLine.Files

/-!
# Locations

Where the program keeps its files: in the directory that the environment names for it, else in its own
directory below the one for the settings of all programs.
-/

namespace FilterEditor.CommandLine

/-- What the environment says about directories; an unset variable is `none`. -/
structure Environment where
  /-- The directory for this program. -/
  directory : Option Text := none
  /-- The directory for the settings of all programs. -/
  settings : Option Text := none
  /-- The home directory. -/
  home : Option Text := none
deriving DecidableEq, Repr

/-- The name of the program's own directory. -/
def directoryName : Text := "term-filter"

namespace Environment

/-- The directory below which programs keep their settings; an empty home directory is none. -/
def settingsDirectory? (e : Environment) : Option Text :=
  e.settings.or ((e.home.filter (!·.isEmpty)).map (joinPath · ".config"))

/-- The directory of the program: the one named for it, unless that is empty. -/
def directory? (e : Environment) : Option Text :=
  (e.directory.filter (!·.isEmpty)).or (e.settingsDirectory?.map (joinPath · directoryName))

/-- The settings file. -/
def settingsFile? (e : Environment) : Option Text := e.directory?.map (joinPath · "config.yaml")

/-- The keymap file. -/
def keymapFile? (e : Environment) : Option Text := e.directory?.map (joinPath · "keymap.yaml")

/-- The directory for logs. -/
def logDirectory? (e : Environment) : Option Text := e.directory?.map (joinPath · "logs")

end Environment
end FilterEditor.CommandLine
