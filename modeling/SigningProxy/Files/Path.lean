import SigningProxy.Text.Cut

/-!
# Paths as texts

A path is a text of segments between slashes. As a text it has a last segment and a parent, and its
extension can be replaced; empty segments and dots that only repeat the place before them are passed
over. What the text leads to is the file tree's business.
-/

namespace SigningProxy.Path

/-- The segments of a path, empty ones included. -/
def segments (path : String) : List String :=
  (Text.pieces '/' path.toList).map String.ofList

def isAbsolute (path : String) : Bool := path.toList.head? == some '/'

/-- A segment that leads somewhere: not empty, and a dot only at the very start. -/
def counts (index : Nat) (segment : String) : Bool :=
  segment != "" && (segment != "." || index == 0)

/-- The places of the segments that lead somewhere. -/
def places (path : String) : List Nat :=
  (segments path).zipIdx.filterMap fun (segment, index) =>
    if counts index segment then some index else none

/-- The text up to and including the segment at `index`. -/
def upTo (path : String) (index : Nat) : String :=
  "/".intercalate ((segments path).take (index + 1))

/-- The path without its last segment, or nothing where there is no segment to take away. -/
def parent? (path : String) : Option String :=
  match (places path).reverse with
  | [] => none
  | [_] => some (if isAbsolute path then "/" else "")
  | _ :: before :: _ => some (upTo path before)

/-- The last segment with its place, if it names something. -/
def fileName? (path : String) : Option (String × Nat) :=
  match (places path).getLast? with
  | none => none
  | some index =>
    let name := (segments path).getD index ""
    if name == "." || name == ".." then none else some (name, index)

/-- A name without its extension, and the extension. A dot at the start of a name begins none. -/
def splitName (name : String) : String × Option String :=
  match Text.cutLast? '.' name.toList with
  | some (stem, extension) =>
    if stem.isEmpty then (name, none) else (String.ofList stem, some (String.ofList extension))
  | none => (name, none)

/-- The path with its extension replaced, or added where there was none. Taking the extension off a
name may leave two dots, which name nothing; then they are what is left. -/
def withExtension (path extension : String) : String :=
  match fileName? path with
  | none => path
  | some (name, index) =>
    let before := if index = 0 then "" else upTo path (index - 1) ++ "/"
    let (stem, old) := splitName name
    let ends := index + 1 = (segments path).length
    if stem == "." && old.any (· != "") && ends then before ++ ".."
    else before ++ stem ++ "." ++ extension

end SigningProxy.Path
