import Switchboard.FileTree
import Switchboard.LogLine
import Switchboard.Settings.FromToml

namespace Switchboard

/-- Where a user keeps files: the home directory, and the directory of configurations if it is
    set. -/
structure UserDirs where
  home : String
  configHome : Option String

namespace UserDirs

/-- The directory of configurations. An empty one counts as not set. -/
def configDir (user : UserDirs) : String :=
  match user.configHome with
  | some dir => if dir = "" then joinPath user.home ".config" else dir
  | none => joinPath user.home ".config"

def settingsPath (user : UserDirs) : String := joinPath (joinPath user.configDir "lspx") "lspx.toml"

end UserDirs

namespace Settings

inductive LoadError
  | io (path : String) (error : IoError)
  | parse (error : ParseError)

namespace LoadError

def ioMessage (path : String) (error : IoError) : String :=
  "Failed to read config file " ++ path ++ ": " ++ error.message

end LoadError

/-- Reads settings from a file, with what is logged of it once its text is there. -/
def loadLogged (here : Location) (path : String) : List LogLine × Except LoadError Settings :=
  match here.readText path with
  | .error e => ([], .error (.io path e))
  | .ok text =>
    ([⟨"DEBUG", "lspx::config", "Loaded config from " ++ path⟩], match ofToml text with
      | .error e => .error (.parse e)
      | .ok settings => .ok settings)

/-- Reads the user's settings file if the path leads anywhere, with what is logged of it. -/
def loadUserLogged (here : Location) (user : UserDirs) :
    List LogLine × Except LoadError Settings :=
  if here.pathExists user.settingsPath then loadLogged here user.settingsPath else ([], .ok {})

def load (here : Location) (path : String) : Except LoadError Settings :=
  (loadLogged here path).2

def loadUser (here : Location) (user : UserDirs) : Except LoadError Settings :=
  (loadUserLogged here user).2

end Settings

end Switchboard
