import SigningProxy.Settings.Basic

/-!
# Options

What can be said on the command line: which file holds the settings, whether the proxy talks much,
and three settings that take precedence over the file.
-/

namespace SigningProxy

structure Options where
  settingsPath : String
  verbose : Bool
  listen : Option String
  backend : Option String
  secretPath : Option String
  deriving DecidableEq, Repr

namespace Options

/-- Nothing is said. -/
def standard : Options := ⟨Settings.standardPath, false, none, none, none⟩

instance : Inhabited Options := ⟨standard⟩

/-- The settings with what the options say instead of theirs. -/
def apply (o : Options) (s : Settings) : Settings :=
  { s with
    listen := o.listen.getD s.listen
    backend := o.backend.getD s.backend
    secretPath := o.secretPath.getD s.secretPath }

/-- All options, for the log. -/
def listing (o : Options) : String :=
  Text.listing "AuthpxArguments"
    [("config_path", .text o.settingsPath), ("verbose", .flag o.verbose),
      ("listen", .ofText? o.listen), ("upstream", .ofText? o.backend),
      ("secret_path", .ofText? o.secretPath)]

end Options

end SigningProxy
