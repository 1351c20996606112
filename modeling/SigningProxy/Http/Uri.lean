import SigningProxy.Text.Cut

/-!
# Request addresses

A request names its resource in one of four forms: a path with an optional query, an absolute
address, a bare authority, or `*`. `Uri.parse` reads any of them, and `Uri.build` puts together an
absolute one from parts that are each checked on their own.

A path and its query travel as one text, and the place of the query's mark in it is kept in 16 bits.
Below `2 ^ 16 - 1` characters before the mark this is the first `?` of the text; from there on the
place is the remainder, and the value `2 ^ 16 - 1` itself stands for "no query".
-/

namespace SigningProxy

/-- Why a text is no address. -/
inductive UriError where
  | empty
  | tooLong
  | schemeTooLong
  | invalidCharacter
  | invalidAuthority
  | invalidFormat
  deriving DecidableEq, Repr

namespace UriError

def message : UriError → String
  | empty => "empty string"
  | tooLong => "uri too long"
  | schemeTooLong => "scheme too long"
  | invalidCharacter => "invalid uri character"
  | invalidAuthority => "invalid authority"
  | invalidFormat => "invalid format"

end UriError

/-- An address in parts. The path of a bare authority is empty, and of `*` it is `*`. -/
structure Uri where
  scheme : Option String
  authority : Option String
  path : String
  query : Option String
  deriving DecidableEq, Repr, Inhabited

namespace Uri

/-! ### Alphabets -/

def isSchemeChar (c : Char) : Bool :=
  c.isAlphanum || c == '+' || c == '-' || c == '.' || c == '~'

/-- The characters of an authority; `/`, `?` and `#` end it and are not part of it. -/
def isAuthorityChar (c : Char) : Bool :=
  c.isAlphanum || "!$&'()*+,-.:;=@[]_~".toList.contains c

def isPathChar (c : Char) : Bool :=
  let n := c.toNat
  n == 0x21 || (0x24 ≤ n && n ≤ 0x3B) || n == 0x3D || (0x40 ≤ n && n ≤ 0x5F) ||
    (0x61 ≤ n && n ≤ 0x7A) || n == 0x7C || n == 0x7E || n == 0x22 || n == 0x7B || n == 0x7D

def isQueryChar (c : Char) : Bool :=
  let n := c.toNat
  n == 0x21 || (0x24 ≤ n && n ≤ 0x3B) || n == 0x3D || (0x3F ≤ n && n ≤ 0x7E)

/-! ### Authorities -/

/-- What has been met while reading an authority. A user name or a bracketed literal that ends
takes back the colons and percent signs counted in it. -/
structure AuthorityScan where
  colons : Nat
  opened : Bool
  closed : Bool
  percent : Bool
  deriving DecidableEq

namespace AuthorityScan

def start : AuthorityScan := ⟨0, false, false, false⟩

/-- Up to eight colons may stand together, as in a bracketed literal. -/
def step (st : AuthorityScan) (c : Char) : Except UriError AuthorityScan :=
  if c = ':' then
    if 8 ≤ st.colons then .error .invalidAuthority else .ok { st with colons := st.colons + 1 }
  else if c = '[' then
    if st.percent || st.opened then .error .invalidAuthority else .ok { st with opened := true }
  else if c = ']' then
    if !st.opened || st.closed then .error .invalidAuthority
    else .ok { st with closed := true, colons := 0, percent := false }
  else if c = '@' then .ok { st with colons := 0, percent := false }
  else if c = '%' then .ok { st with percent := true }
  else if isAuthorityChar c then .ok st
  else .error .invalidCharacter

/-- Brackets are balanced, at most one colon stands before the port, and no percent sign is left. -/
def sound (st : AuthorityScan) : Bool :=
  st.opened == st.closed && st.colons ≤ 1 && !st.percent

end AuthorityScan

/-- Check an authority that ends where the text does. -/
def checkAuthority (s : List Char) : Except UriError Unit := do
  let st ← s.foldlM AuthorityScan.step AuthorityScan.start
  if st.sound && s.getLast? ≠ some '@' then .ok () else .error .invalidAuthority

/-- The stretch of `s` that an authority at its start takes up. -/
def authorityText (s : List Char) : List Char :=
  s.takeWhile fun c => c ≠ '/' && c ≠ '?' && c ≠ '#'

/-! ### Path and query -/

/-- An empty path in front of a query is the root. -/
def rooted (path : List Char) : String :=
  if path.isEmpty then "/" else String.ofList path

/-- Read a path and query. What follows a `#` is dropped. -/
def pathAndQuery (s : List Char) : Except UriError (String × Option String) :=
  let path := s.takeWhile fun c => c ≠ '?' && c ≠ '#'
  if !path.all isPathChar then .error .invalidCharacter
  else
    match s.drop path.length with
    | '?' :: rest =>
      let mark := path.length % 65536
      if mark = 65535 then .ok (rooted (path ++ '?' :: rest), none)
      else
        let query := rest.takeWhile (· ≠ '#')
        if !query.all isQueryChar then .error .invalidCharacter
        else
          let whole := path ++ '?' :: query
          .ok (rooted (whole.take mark), some (String.ofList (whole.drop (mark + 1))))
    | _ => .ok (rooted path, none)

/-! ### Whole addresses -/

/-- The scheme of an absolute address and what follows its `://`. The two schemes of the web are
recognised in any case and kept in lower case; another one is kept as it stands. -/
def cutScheme (s : List Char) : Except UriError (Option String × List Char) :=
  if (s.take 7).map Char.toLower = "http://".toList then .ok (some "http", s.drop 7)
  else if (s.take 8).map Char.toLower = "https://".toList then .ok (some "https", s.drop 8)
  else if s.length ≤ 3 then .ok (none, s)
  else
    let word := s.takeWhile isSchemeChar
    match s.drop word.length with
    | ':' :: '/' :: '/' :: rest =>
      if 64 < word.length then .error .schemeTooLong else .ok (some (String.ofList word), rest)
    | _ => .ok (none, s)

/-- Read an address that is neither a path nor `*`. -/
def parseAbsolute (s : List Char) : Except UriError Uri := do
  let (scheme, rest) ← cutScheme s
  let authority := authorityText rest
  checkAuthority authority
  let tail := rest.drop authority.length
  match scheme with
  | none =>
    if tail.isEmpty then .ok ⟨none, some (String.ofList authority), "", none⟩
    else .error .invalidFormat
  | some scheme =>
    if authority.isEmpty then .error .invalidFormat
    else
      let (path, query) ← pathAndQuery tail
      .ok ⟨some scheme, some (String.ofList authority), path, query⟩

/-- Read the address of a request. -/
def parse (text : String) : Except UriError Uri :=
  if 65534 < text.utf8ByteSize then .error .tooLong
  else
    match text.toList with
    | [] => .error .empty
    | ['*'] => .ok ⟨none, none, "*", none⟩
    | '/' :: rest => do
      let (path, query) ← pathAndQuery ('/' :: rest)
      .ok ⟨none, none, path, query⟩
    | [c] => do
      checkAuthority (authorityText [c])
      if (authorityText [c]).isEmpty then .error .invalidCharacter
      else .ok ⟨none, some (String.ofList [c]), "", none⟩
    | s => parseAbsolute s

/-- An absolute address from its scheme, its authority and the text of its path and query. -/
def build (scheme authority path : String) : Except UriError Uri := do
  let host := authority.toList
  if host.isEmpty then .error .empty
  checkAuthority (authorityText host)
  if authorityText host ≠ host then .error .invalidCharacter
  let (path, query) ← pathAndQuery path.toList
  .ok ⟨some scheme, some authority, path, query⟩

/-- The written form. -/
def text (u : Uri) : String :=
  (match u.scheme with | some s => s ++ "://" | none => "") ++ u.authority.getD "" ++ u.path ++
    (match u.query with | some q => "?" ++ q | none => "")

/-- An address that is reached over an encrypted connection. The scheme is compared as it stands: reading an
address brings it to lower case, and `build` does not. -/
def isSecure (u : Uri) : Bool := u.scheme == some "https"

end Uri

end SigningProxy
