import SigningProxy.Text.Blank
import SigningProxy.Text.Quoted

/-!
# The backend

Every request goes to one backend, which is given by an address: a scheme of the web, an authority,
and possibly a path and a query that come before those of each request. The parts are kept as they
are written. Whether a connection can be made to them is a question for the moment when a request is
sent, so an address whose port is no number still names a backend.
-/

namespace SigningProxy

/-- The schemes of the web. -/
inductive Scheme where
  | http
  | https
  deriving DecidableEq, Repr, Inhabited

namespace Scheme

def text : Scheme → String
  | http => "http"
  | https => "https"

/-- The scheme that a text in lower case names. -/
def ofText? (text : String) : Option Scheme :=
  if text = "http" then some http else if text = "https" then some https else none

end Scheme

/-- Why an address names no backend. -/
inductive BackendError where
  | missingScheme (address : String)
  | unsupportedScheme (scheme : String)
  | missingHost (address : String)
  deriving DecidableEq, Repr

def BackendError.message : BackendError → String
  | .missingScheme address => s!"upstream url {Text.quoted address} has no scheme"
  | .unsupportedScheme scheme => s!"unsupported upstream scheme {Text.quoted scheme}"
  | .missingHost address => s!"upstream url {Text.quoted address} has no host"

structure Backend where
  scheme : Scheme
  authority : String
  path : String
  query : Option String
  deriving DecidableEq, Repr, Inhabited

namespace Backend

/-- The path of an address and its query, which begins behind the first question mark. -/
def cutQuery (s : List Char) : String × Option String :=
  match Text.cut? '?' s with
  | some (path, query) => (String.ofList path, some (String.ofList query))
  | none => (String.ofList s, none)

/-- Read an address. Blanks around it do not count, nor does anything from a `#` on. -/
def parse (address : String) : Except BackendError Backend :=
  match Text.cutWord? "://".toList (Text.trim address.toList) with
  | none => .error (.missingScheme address)
  | some (word, rest) =>
    let name := String.ofList (word.map Char.toLower)
    match Scheme.ofText? name with
    | none => .error (.unsupportedScheme name)
    | some scheme =>
      let rest := rest.takeWhile (· ≠ '#')
      let authority := rest.takeWhile fun c => c ≠ '/' && c ≠ '?'
      if authority.isEmpty then .error (.missingHost address)
      else
        let (path, query) := cutQuery (rest.drop authority.length)
        .ok ⟨scheme, String.ofList authority, path, query⟩

/-- The written form. -/
def text (b : Backend) : String :=
  b.scheme.text ++ "://" ++ b.authority ++ b.path ++
    (match b.query with | some q => "?" ++ q | none => "")

end Backend

end SigningProxy
