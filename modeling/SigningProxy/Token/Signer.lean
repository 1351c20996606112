import SigningProxy.Digest.Hmac
import SigningProxy.Http.Message
import SigningProxy.Key.Store
import SigningProxy.Token.Claims

/-!
# Signatures

A signer turns the head of a request, the time and the key into the value of one header field. The
default one issues tokens: a fixed header, the claims, and the authentication code of these two
under the key, each in base64 for addresses, with dots between them. A token is accepted exactly
when its last part is the code of what stands before the last dot; only then its claims are looked
at.
-/

namespace SigningProxy

/-- Why there is no signature, or why one is not accepted. -/
inductive SignError where
  | encode (cause : Json.Error)
  | header
  | malformed
  | mismatch
  deriving DecidableEq, Repr

def SignError.message : SignError → String
  | .encode cause => s!"encode signature claims: {cause.message}"
  | .header => "signature is not a valid header value: failed to parse header value"
  | .malformed => "malformed signature token"
  | .mismatch => "signature mismatch"

/-- Makes the value of one header field. The time is in seconds and may lie before its origin. -/
structure Signer where
  header : FieldName
  sign : RequestHead → (now : Int64) → Key → Except SignError FieldValue

namespace Token

/-- The field that carries a token. -/
def field : FieldName := ⟨"authpx-api-request", by decide⟩

/-- The first part of every token. -/
def header : String := "\x7b\"alg\":\"HS256\",\"typ\":\"JWT\"\x7d"

/-- The dot that stands between the parts of a token. -/
def dot : UInt8 := 46

/-- The two parts that are signed, with the dot between them. -/
def signedPart (claims : Claims) : List UInt8 :=
  Base64.encode Base64.urlSafe (Utf8.encode header) ++
    dot :: Base64.encode Base64.urlSafe claims.write

/-- The token of some claims under a key. -/
def issue (claims : Claims) (key : Key) : List UInt8 :=
  signedPart claims ++
    dot :: Base64.encode Base64.urlSafe (Hmac.mac key.bytes (signedPart claims))

/-- The claims of a token whose signature fits the key. -/
def verify (token : List UInt8) (key : Key) : Except SignError Claims :=
  match Text.cutLast? dot token with
  | none => .error .malformed
  | some (signed, signature) =>
    match Text.cut? dot signed with
    | none => .error .malformed
    | some (_, payload) =>
      match Base64.decode Base64.urlSafe signature with
      | .error _ => .error .malformed
      | .ok code =>
        if code ≠ Hmac.mac key.bytes signed then .error .mismatch
        else
          match Base64.decode Base64.urlSafe payload with
          | .error _ => .error .malformed
          | .ok document => (Claims.read document).mapError .encode

/-- What a token says about a request. Before the origin of time it is issued at zero. -/
def claims (issuer : String) (head : RequestHead) (now : Int64) : Claims :=
  ⟨issuer, now.toNatClampNeg, head.method.text, head.uri.path⟩

/-- The signer that issues tokens in the name of `issuer`. -/
def signer (issuer : String) : Signer where
  header := field
  sign head now key :=
    match FieldValue.ofBytes? (issue (claims issuer head now) key) with
    | some value => .ok value
    | none => .error .header

end Token

end SigningProxy
