/-!
# Joining paths and queries

A backend has a path and a query of its own, which come before those of a request: one slash stands
between the two paths, and an ampersand between two queries that are there and not empty.
-/

namespace SigningProxy

/-- Two paths with exactly one slash between them. -/
def joinPath (first second : String) : String :=
  match first.toList.getLast?, second.toList with
  | some '/', '/' :: rest => first ++ String.ofList rest
  | some '/', _ => first ++ second
  | _, '/' :: _ => first ++ second
  | _, _ => first ++ "/" ++ second

/-- Two queries as one; an empty query is none. -/
def joinQuery (first second : Option String) : Option String :=
  match first.filter (!·.isEmpty), second.filter (!·.isEmpty) with
  | some q, some r => some (q ++ "&" ++ r)
  | some q, none => some q
  | none, r => r

end SigningProxy
