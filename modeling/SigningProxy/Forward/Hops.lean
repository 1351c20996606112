import SigningProxy.Address
import SigningProxy.Http.Headers
import SigningProxy.Text.Blank

/-!
# Fields of one hop

Some fields concern a single connection and are not passed on: nine by their name, and whatever
names the `connection` field lists besides. One field, on the contrary, grows with every hop: the
list of the addresses for which a request has been forwarded.
-/

namespace SigningProxy

namespace FieldName

def connection : FieldName := ⟨"connection", by decide⟩

def forwardedFor : FieldName := ⟨"x-forwarded-for", by decide⟩

/-- The names that never pass a hop. -/
def ofHop : List FieldName :=
  [connection, ⟨"keep-alive", by decide⟩, ⟨"proxy-connection", by decide⟩,
    ⟨"proxy-authenticate", by decide⟩, ⟨"proxy-authorization", by decide⟩, ⟨"te", by decide⟩,
    ⟨"trailer", by decide⟩, ⟨"transfer-encoding", by decide⟩, ⟨"upgrade", by decide⟩]

end FieldName

/-- The names in a list with commas. A value that is no text lists none, and an element that is no
name is passed over. -/
def FieldValue.listedNames (v : FieldValue) : List FieldName :=
  match v.text? with
  | none => []
  | some text =>
    (Text.pieces ',' text.toList).filterMap fun element => FieldName.ofChars? (Text.trim element)

namespace Headers

/-- The names that the `connection` fields list. -/
def nominated (h : Headers) : List FieldName :=
  (h.values .connection).flatMap FieldValue.listedNames

/-- Without the fields of one hop. -/
def stripHops (h : Headers) : Headers := h.eraseAll (h.nominated ++ FieldName.ofHop)

/-- The addresses for which a request has been forwarded, with one more. Values that are no texts
are left out. -/
def forwardedChain (h : Headers) (client : IpAddress) : String :=
  ", ".intercalate ((h.values .forwardedFor).filterMap FieldValue.text? ++ [client.text])

/-- Put the client at the end of the chain of addresses, as the only value of its field. -/
def appendForwarded (h : Headers) (client : IpAddress) : Headers :=
  match FieldValue.ofString? (h.forwardedChain client) with
  | some value => h.insert .forwardedFor value
  | none => h

end Headers

end SigningProxy
