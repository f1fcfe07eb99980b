import TabCompletion.Config.TomlForm
import TabCompletion.Error
import TabCompletion.Host.Path

/-!
# Finding the configuration

The configuration is read from the file that is asked for, or that a variable names, or from the
default one. Only the default file may be missing.
-/

namespace TabCompletion

namespace Host

/-- The variable that names a configuration file. -/
def configVar : String := "ARGCOMP_CONFIG"

/-- The home directory, if it is known. -/
def home? (env : Environment) : Option String :=
  (env.value? "HOME").filter (!·.isEmpty)

/-- The directory of configuration files. -/
def configDirectory (env : Environment) : String :=
  match (env.value? "XDG_CONFIG_HOME").filter Path.isAbsolute with
  | some dir => dir
  | none => match home? env with
    | some home => Path.join home ".config"
    | none => "."

/-- The default configuration file. -/
def defaultConfigPath (env : Environment) : String :=
  Path.join (Path.join (configDirectory env) "argcomp") "config.toml"

end Host

namespace Config

/-- The configuration in a file that is there. -/
def ofFile (host : Host) (path : String) : Except Error Config :=
  match host.files.read path with
  | .error fault => .error (.file fault.message)
  | .ok text => (ofToml text).mapError .config

/-- The configuration in the file that is asked for, or else in the default one. -/
def loadFrom (host : Host) (path : Option String) : Except Error Config :=
  match path with
  | some path =>
    if host.files.has path then ofFile host path
    else .error (.config (.fileNotFound path))
  | none =>
    let path := Host.defaultConfigPath host.environment
    if host.files.has path then ofFile host path else .ok default

/-- The configuration that the environment selects. -/
def load (host : Host) : Except Error Config :=
  loadFrom host (host.environment.value? Host.configVar)

end Config

end TabCompletion
