import SigningProxy.Http.Body
import SigningProxy.Http.Uri

/-!
# Requests and responses
-/

namespace SigningProxy

/-- The protocol's versions. -/
inductive HttpVersion where
  | http09
  | http10
  | http11
  | http2
  | http3
  deriving DecidableEq, Repr

namespace HttpVersion

instance : Inhabited HttpVersion := ⟨http11⟩

def all : List HttpVersion := [http09, http10, http11, http2, http3]

def text : HttpVersion → String
  | http09 => "HTTP/0.9"
  | http10 => "HTTP/1.0"
  | http11 => "HTTP/1.1"
  | http2 => "HTTP/2.0"
  | http3 => "HTTP/3.0"

def ofText? (s : String) : Option HttpVersion := all.find? (·.text == s)

end HttpVersion

/-- Letters, digits and a few marks; case is kept. -/
def isMethodChar (c : Char) : Bool :=
  c.isAlphanum || "!*+-.^_`|~".toList.contains c

/-- A request method. -/
structure Method where
  text : String
  valid : (!text.toList.isEmpty && text.toList.all isMethodChar) = true
  deriving DecidableEq

namespace Method

instance : Repr Method := ⟨fun m => reprPrec m.text⟩

def get : Method := ⟨"GET", by decide⟩

def connect : Method := ⟨"CONNECT", by decide⟩

instance : Inhabited Method := ⟨get⟩

def ofText? (text : String) : Option Method :=
  if h : (!text.toList.isEmpty && text.toList.all isMethodChar) = true then some ⟨text, h⟩ else none

end Method

/-- A status code of three digits. -/
structure Status where
  code : Nat
  valid : 100 ≤ code ∧ code ≤ 999 := by decide
  deriving DecidableEq

namespace Status

instance : Repr Status := ⟨fun s => reprPrec s.code⟩

def ok : Status := { code := 200 }

def badGateway : Status := { code := 502 }

def serviceUnavailable : Status := { code := 503 }

instance : Inhabited Status := ⟨ok⟩

def ofCode? (code : Nat) : Option Status :=
  if h : 100 ≤ code ∧ code ≤ 999 then some ⟨code, h⟩ else none

/-- The registered reason phrases. -/
def reasons : List (Nat × String) :=
  [(100, "Continue"), (101, "Switching Protocols"), (102, "Processing"),
    (200, "OK"), (201, "Created"), (202, "Accepted"), (203, "Non Authoritative Information"),
    (204, "No Content"), (205, "Reset Content"), (206, "Partial Content"), (207, "Multi-Status"),
    (208, "Already Reported"), (226, "IM Used"),
    (300, "Multiple Choices"), (301, "Moved Permanently"), (302, "Found"), (303, "See Other"),
    (304, "Not Modified"), (305, "Use Proxy"), (307, "Temporary Redirect"),
    (308, "Permanent Redirect"),
    (400, "Bad Request"), (401, "Unauthorized"), (402, "Payment Required"), (403, "Forbidden"),
    (404, "Not Found"), (405, "Method Not Allowed"), (406, "Not Acceptable"),
    (407, "Proxy Authentication Required"), (408, "Request Timeout"), (409, "Conflict"),
    (410, "Gone"), (411, "Length Required"), (412, "Precondition Failed"),
    (413, "Payload Too Large"), (414, "URI Too Long"), (415, "Unsupported Media Type"),
    (416, "Range Not Satisfiable"), (417, "Expectation Failed"), (418, "I'm a teapot"),
    (421, "Misdirected Request"), (422, "Unprocessable Entity"), (423, "Locked"),
    (424, "Failed Dependency"), (426, "Upgrade Required"), (428, "Precondition Required"),
    (429, "Too Many Requests"), (431, "Request Header Fields Too Large"),
    (451, "Unavailable For Legal Reasons"),
    (500, "Internal Server Error"), (501, "Not Implemented"), (502, "Bad Gateway"),
    (503, "Service Unavailable"), (504, "Gateway Timeout"), (505, "HTTP Version Not Supported"),
    (506, "Variant Also Negotiates"), (507, "Insufficient Storage"), (508, "Loop Detected"),
    (510, "Not Extended"), (511, "Network Authentication Required")]

/-- The code followed by its reason. -/
def text (s : Status) : String :=
  toString s.code ++ " " ++ (reasons.lookup s.code).getD "<unknown status code>"

end Status

/-- A request without its body. -/
structure RequestHead where
  method : Method
  uri : Uri
  version : HttpVersion
  headers : Headers
  deriving DecidableEq, Repr, Inhabited

structure Request extends RequestHead where
  body : Body
  deriving Repr, Inhabited

structure Response where
  status : Status
  version : HttpVersion
  headers : Headers
  body : Body
  deriving Repr, Inhabited

namespace Response

def contentType : FieldName := ⟨"content-type", by decide⟩

def plainText : FieldValue := ⟨Utf8.encode "text/plain; charset=utf-8", by decide⟩

/-- A short text as a response of its own. -/
def ofText (status : Status) (body : String) : Response where
  status := status
  version := .http11
  headers := Headers.empty.insert contentType plainText
  body := .ofString body

end Response

end SigningProxy
