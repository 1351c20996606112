import SigningProxy.Backend.Basic
import SigningProxy.Files.FileError
import SigningProxy.Json.Fault
import SigningProxy.Text.Quoted

/-!
# What can be wrong with settings

A failure to load or to save is told together with its cause. Settings that contradict what they are
for are told as a list of problems, all at once.
-/

namespace SigningProxy

/-- Something that keeps settings from being used. -/
inductive Problem where
  | listen (text : String)
  | backend (cause : BackendError)
  | noSecretPath
  | zeroTimeout (name : String)
  deriving DecidableEq, Repr

def Problem.message : Problem → String
  | .listen text => s!"Invalid listen address {Text.quoted text}: invalid socket address syntax"
  | .backend cause => cause.message
  | .noSecretPath => "secret_path must not be empty"
  | .zeroTimeout name => s!"{name} must be greater than zero"

inductive SettingsError where
  | system (cause : FileError)
  | unreadable (path : String) (cause : FileError)
  | malformed (path : String) (cause : Json.Error)
  | problem (found : Problem)
  | invalid (problems : List Problem)
  deriving DecidableEq, Repr

/-- The failure, followed by what caused it. -/
def SettingsError.chain : SettingsError → List String
  | .system cause => [cause.message]
  | .unreadable path cause => [s!"Failed to read config file {path}", cause.message]
  | .malformed path cause => [s!"Failed to parse config file {path}", cause.message]
  | .problem found => [found.message]
  | .invalid problems =>
    ["Invalid configuration: " ++ "; ".intercalate (problems.map Problem.message)]

end SigningProxy
