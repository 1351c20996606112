import SigningProxy.Forward.Readdress
import SigningProxy.Proofs.Http.Uri

/-!
# The path under which the backend is asked

The path of a request at the backend is put together from two paths and does not depend on the
queries, as long as there is room for the place of a query behind it.
-/

namespace SigningProxy

/-- A path that ends in a slash is joined to the root by adding nothing. -/
theorem joinPath_root {path : String} (hpath : path.toList.getLast? = some '/') :
    joinPath path "/" = path := by
  rw [joinPath, hpath]
  exact String.append_empty

namespace Backend

theorem toList_pathAndQuery (b : Backend) (uri : Uri) :
    (b.pathAndQuery uri).toList =
      Uri.withQuery (joinPath b.path uri.path).toList (joinQuery b.query uri.query) := by
  rw [pathAndQuery]
  cases joinQuery b.query uri.query with
  | none => rfl
  | some query =>
      rw [String.toList_append, String.toList_append, List.append_assoc]
      rfl

/-- The path at the backend is settled without the queries of the two requests. -/
def PathSettled (b : Backend) (uri other : Uri) : Prop :=
  Uri.PathSettled (joinPath b.path uri.path).toList (joinQuery b.query uri.query)
    (joinQuery b.query other.query)

/-- **Requests for one path ask the backend for one path,** where it is settled without the queries. -/
theorem path_eq_of_settled {b : Backend} {uri other built built' : Uri} {scheme authority : String}
    (hpath : uri.path = other.path) (hsettled : b.PathSettled uri other)
    (hbuild : Uri.build scheme authority (b.pathAndQuery uri) = .ok built)
    (hbuild' : Uri.build scheme authority (b.pathAndQuery other) = .ok built') :
    built.path = built'.path := by
  obtain ⟨-, path, query, hread, rfl⟩ := Uri.build_eq_ok_iff.mp hbuild
  obtain ⟨-, path', query', hread', rfl⟩ := Uri.build_eq_ok_iff.mp hbuild'
  rw [toList_pathAndQuery] at hread hread'
  rw [← hpath] at hread'
  exact Uri.path_eq_of_settled hsettled hread hread'

end Backend

end SigningProxy
