import SigningProxy.Files.Path
import SigningProxy.Forward.Deadline
import SigningProxy.Json.Record
import SigningProxy.Network.Timeouts
import SigningProxy.Text.Listing

/-!
# Settings

What can be set about the proxy: where it listens, which backend it serves, where its key is, and
its limits in seconds. Each setting has a standard value, which holds wherever nothing else is said.
The settings know the file that they belong to, but the file does not name itself.
-/

namespace SigningProxy

structure Settings where
  path : String
  listen : String
  backend : String
  secretPath : String
  version : String
  dialTimeout : UInt64
  keepAlive : UInt64
  handshakeTimeout : UInt64
  headerTimeout : Option UInt64
  requestTimeout : UInt64
  requestTimeoutMessage : String
  deriving DecidableEq, Repr

namespace Settings

/-- The standard settings of the file at `path`. -/
def standard (path : String) : Settings where
  path := path
  listen := "127.0.0.1:8181"
  backend := "http://localhost:8080"
  secretPath := "./.authpx_secret"
  version := "1.0.1"
  dialTimeout := 30
  keepAlive := 30
  handshakeTimeout := 10
  headerTimeout := none
  requestTimeout := 600
  requestTimeoutMessage := Deadline.standardMessage

/-- The standard settings of a file that is named for its format. -/
def new (path : String) : Settings := standard (Path.withExtension path "json")

/-- The file that is used when none is named. -/
def standardPath : String := "./authpx.json"

instance : Inhabited Settings := ⟨new standardPath⟩

/-! ### As a record -/

/-- None of the fields has to be there. -/
def spec : Json.RecordSpec where
  title := "struct Config"
  fields :=
    [⟨"listen", .text, false⟩, ⟨"upstream", .text, false⟩, ⟨"secret_path", .path, false⟩,
      ⟨"version", .text, false⟩, ⟨"dial_timeout_secs", .count, false⟩,
      ⟨"keep_alive_secs", .count, false⟩, ⟨"tls_handshake_timeout_secs", .count, false⟩,
      ⟨"response_header_timeout_secs", .optionalCount, false⟩,
      ⟨"request_timeout_secs", .count, false⟩, ⟨"request_timeout_message", .text, false⟩]

/-- The settings as they are written; the header timeout only if there is one. -/
def entries (s : Settings) : Json.Entries :=
  [("listen", .text s.listen), ("upstream", .text s.backend), ("secret_path", .text s.secretPath),
    ("version", .text s.version), ("dial_timeout_secs", .count s.dialTimeout.toNat),
    ("keep_alive_secs", .count s.keepAlive.toNat),
    ("tls_handshake_timeout_secs", .count s.handshakeTimeout.toNat)] ++
  (s.headerTimeout.map fun limit =>
    ("response_header_timeout_secs", Json.Scalar.count limit.toNat)).toList ++
  [("request_timeout_secs", .count s.requestTimeout.toNat),
    ("request_timeout_message", .text s.requestTimeoutMessage)]

/-- One setting replaced. A value of the wrong kind changes nothing. -/
def assign (s : Settings) (name : String) (value : Json.Scalar) : Settings :=
  match name, value with
  | "listen", .text value => { s with listen := value }
  | "upstream", .text value => { s with backend := value }
  | "secret_path", .text value => { s with secretPath := value }
  | "version", .text value => { s with version := value }
  | "dial_timeout_secs", .count value => { s with dialTimeout := .ofNat value }
  | "keep_alive_secs", .count value => { s with keepAlive := .ofNat value }
  | "tls_handshake_timeout_secs", .count value => { s with handshakeTimeout := .ofNat value }
  | "response_header_timeout_secs", .count value => { s with headerTimeout := some (.ofNat value) }
  | "response_header_timeout_secs", .absent => { s with headerTimeout := none }
  | "request_timeout_secs", .count value => { s with requestTimeout := .ofNat value }
  | "request_timeout_message", .text value => { s with requestTimeoutMessage := value }
  | _, _ => s

/-- The settings with those of a record in place of their own. -/
def override (s : Settings) (entries : Json.Entries) : Settings :=
  entries.foldl (fun s (name, value) => s.assign name value) s

/-- The settings of the file at `path` with this content. -/
def read (path : String) (document : List UInt8) : Except Json.Error Settings := do
  return (standard path).override (← Json.readRecord spec document)

/-- The settings on one line. -/
def writeCompact (s : Settings) : String := Json.writeCompact s.entries

/-- The content of the settings' file. -/
def write (s : Settings) : List UInt8 := Utf8.encode (Json.writePretty s.entries)

/-- All settings, for the log. -/
def listing (s : Settings) : String :=
  Text.listing "Config"
    [("path", .text s.path), ("listen", .text s.listen), ("upstream", .text s.backend),
      ("secret_path", .text s.secretPath), ("version", .text s.version),
      ("dial_timeout_secs", .number s.dialTimeout.toNat),
      ("keep_alive_secs", .number s.keepAlive.toNat),
      ("tls_handshake_timeout_secs", .number s.handshakeTimeout.toNat),
      ("response_header_timeout_secs", .ofNumber? (s.headerTimeout.map UInt64.toNat)),
      ("request_timeout_secs", .number s.requestTimeout.toNat),
      ("request_timeout_message", .text s.requestTimeoutMessage)]

/-! ### What they mean -/

def timeouts (s : Settings) : Timeouts where
  dial := .ofSeconds s.dialTimeout.toNat
  keepAlive := .ofSeconds s.keepAlive.toNat
  handshake := .ofSeconds s.handshakeTimeout.toNat
  header := s.headerTimeout.map fun limit => .ofSeconds limit.toNat

/-- A request may take as long as it likes when its limit is zero. -/
def deadline (s : Settings) : Option Deadline :=
  if s.requestTimeout = 0 then none
  else some ⟨.ofSeconds s.requestTimeout.toNat, s.requestTimeoutMessage⟩

end Settings

end SigningProxy
