import SigningProxy.Base64
import SigningProxy.Files.Tree
import SigningProxy.Log

/-!
# The shared key

The key is 32 bytes, kept as base64 in a file that another program writes, perhaps only after the
proxy has started. A store reads the file whenever it is asked for the key and has none yet; the
first key that it reads is kept, and from then on the file is not looked at.
-/

namespace SigningProxy

/-- The number of bytes of a key. -/
def keyLength : Nat := 32

structure Key where
  bytes : List UInt8
  length_eq : bytes.length = keyLength
  deriving DecidableEq

namespace Key

/-- A key is never shown. -/
def description (_ : Key) : String := "SecretKey(..)"

instance : Repr Key := ⟨fun k _ => k.description⟩

def ofBytes? (bytes : List UInt8) : Option Key :=
  if h : bytes.length = keyLength then some ⟨bytes, h⟩ else none

end Key

/-- Why there is no key, always for a file at some path. -/
inductive KeyError where
  | read (path : String) (cause : FileError)
  | decode (path : String) (cause : Base64.Error)
  | length (path : String) (expected found : Nat)
  deriving DecidableEq, Repr

def KeyError.message : KeyError → String
  | .read path cause => s!"read secret {path}: {cause.message}"
  | .decode path cause => s!"decode secret {path}: {cause.message}"
  | .length path expected found => s!"expected {expected} secret bytes in {path}, found {found}"

/-- The white space that may surround the key in its file. -/
def isKeyBlank (b : UInt8) : Bool := b == 32 || b == 9 || b == 10 || b == 12 || b == 13

/-- The key that a file's content spells. -/
def Key.decode (path : String) (content : List UInt8) : Except KeyError Key :=
  match Base64.decode Base64.standard (Text.strip isKeyBlank content) with
  | .error cause => .error (.decode path cause)
  | .ok bytes =>
    if h : bytes.length = keyLength then .ok ⟨bytes, h⟩
    else .error (.length path keyLength bytes.length)

/-- A file that holds the key, and the key once it has been read. -/
structure KeyStore where
  path : String
  key : Option Key
  deriving DecidableEq, Repr

namespace KeyStore

def new (path : String) : KeyStore := ⟨path, none⟩

def loading (path : String) : Record := ⟨.trace, .keyStore, s!"Loading secret from {path}"⟩

def loaded (path : String) : Record := ⟨.debug, .keyStore, s!"Loaded secret from {path}"⟩

/-- What asking for the key leads to: the answer, the store afterwards, and what is told. -/
structure Answer where
  result : Except KeyError Key
  store : KeyStore
  log : List Record

/-- Read and decode the file as it is now. -/
def fetch (path : String) (files : FileTree) : Except KeyError Key :=
  match files.read path with
  | .error cause => .error (.read path cause)
  | .ok content => Key.decode path content

/-- Ask for the key. -/
def value (s : KeyStore) (files : FileTree) : Answer :=
  match s.key with
  | some key => ⟨.ok key, s, []⟩
  | none =>
    match fetch s.path files with
    | .ok key => ⟨.ok key, { s with key := some key }, [loading s.path, loaded s.path]⟩
    | .error e => ⟨.error e, s, [loading s.path]⟩

@[simp] theorem value_of_some {s : KeyStore} {key : Key} (h : s.key = some key)
    (files : FileTree) : s.value files = ⟨.ok key, s, []⟩ := by
  simp [value, h]

end KeyStore

end SigningProxy
