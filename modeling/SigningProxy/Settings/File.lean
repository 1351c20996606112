import SigningProxy.Files.Tree
import SigningProxy.Log
import SigningProxy.Settings.Basic
import SigningProxy.Settings.Error

/-!
# The settings' file

Settings are loaded from a file. Where there is none, one is written with the standard settings,
together with the directories around it, and these settings are used. Whether there is one is asked
first, and what is found then is left as it is.
-/

namespace SigningProxy.Settings

/-- What working on the file leads to: the result, the files afterwards, and what is told. -/
structure Attempt (α : Type) where
  result : Except SettingsError α
  files : FileTree
  log : List Record

namespace Attempt

variable {α β : Type}

def done (files : FileTree) (value : α) : Attempt α := ⟨.ok value, files, []⟩

def failed (files : FileTree) (cause : SettingsError) : Attempt α := ⟨.error cause, files, []⟩

/-- The same with a record told first. -/
def telling (a : Attempt α) (record : Record) : Attempt α := { a with log := record :: a.log }

/-- Go on with the files as they are, unless something has failed. -/
def andThen (a : Attempt α) (next : FileTree → α → Attempt β) : Attempt β :=
  match a.result with
  | .error cause => ⟨.error cause, a.files, a.log⟩
  | .ok value =>
    let rest := next a.files value
    { rest with log := a.log ++ rest.log }

end Attempt

def told (level : Level) (message : String) : Record := ⟨level, .settings, message⟩

/-- Make sure that the directory of a file is there. -/
def makeParent (path : String) (files : FileTree) : Attempt Unit :=
  match (Path.parent? path).filter (!·.isEmpty) with
  | none => .done files ()
  | some parent =>
    let (result, files) := files.makeDirectories parent
    ⟨result.mapError .system, files, []⟩

/-- Write a file of settings. -/
def writeFile (s : Settings) (files : FileTree) : Attempt Unit :=
  match files.write s.path s.write with
  | .ok files => .done files ()
  | .error cause => .failed files (.system cause)

/-- Write the settings to their file. -/
def save (s : Settings) (files : FileTree) : Attempt Unit :=
  ((makeParent s.path files).andThen fun files () => s.writeFile files).telling
    (told .debug s!"Saving config to: {s.path}")

/-- Write the standard settings to a file. -/
def saveStandard (path : String) (files : FileTree) : Attempt Unit :=
  ((standard path).save files).telling (told .debug s!"Saving default config to: {path}")

/-- The settings of a file that is there. -/
def readFile (path : String) (files : FileTree) : Except SettingsError Settings := do
  let content ← (files.read path).mapError (.unreadable path)
  if (Utf8.decode? content).isNone then throw (.unreadable path .notText)
  (Settings.read path content).mapError (.malformed path)

/-- The settings of a file, which is written if there is none. -/
def load (path : String) (files : FileTree) : Attempt Settings :=
  let settings : Attempt Settings :=
    if files.exists? path then ⟨readFile path files, files, []⟩
    else
      ((saveStandard path files).andThen fun files () => .done files (standard path)).telling
        (told .warn "Config file not found, using default config")
  (settings.andThen fun files settings =>
    (Attempt.done files settings).telling
      (told .trace s!"Loaded config: {settings.listing}")).telling
    (told .debug s!"Loading config from: {path}")

end SigningProxy.Settings
