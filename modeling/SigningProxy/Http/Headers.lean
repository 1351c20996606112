import SigningProxy.Http.Field

/-!
# Header maps

A header map gives each name a list of values. It is kept as the fields in the order of their
arrival, and `Headers.values` is the view that every operation is described by: how fields of
different names are ordered among each other is never observed.
-/

namespace SigningProxy

structure Headers where
  fields : List (FieldName × FieldValue)
  deriving DecidableEq, Repr

namespace Headers

def empty : Headers := ⟨[]⟩

instance : Inhabited Headers := ⟨empty⟩

/-- The values of one name, first to last. -/
def values (h : Headers) (name : FieldName) : List FieldValue :=
  h.fields.filterMap fun (n, v) => if n = name then some v else none

/-- Without any field of this name. -/
def erase (h : Headers) (name : FieldName) : Headers :=
  ⟨h.fields.filter fun (n, _) => n ≠ name⟩

/-- Without any field of these names. -/
def eraseAll (h : Headers) (names : List FieldName) : Headers :=
  names.foldl erase h

/-- One more value for a name. -/
def append (h : Headers) (name : FieldName) (value : FieldValue) : Headers :=
  ⟨h.fields ++ [(name, value)]⟩

/-- This value alone for a name, whatever there was before. -/
def insert (h : Headers) (name : FieldName) (value : FieldValue) : Headers :=
  (h.erase name).append name value

@[simp] theorem values_empty (name : FieldName) : empty.values name = [] := rfl

@[simp] theorem values_erase (h : Headers) (name other : FieldName) :
    (h.erase name).values other = if other = name then [] else h.values other := by
  simp only [values, erase, List.filterMap_filter]
  split
  · next heq =>
    subst heq
    simp only [List.filterMap_eq_nil_iff]
    intro f _
    by_cases hf : f.1 = other <;> simp [hf]
  · next hne =>
    congr 1
    funext f
    by_cases hf : f.1 = name
    · simp [hf, Ne.symm hne]
    · simp [hf]

@[simp] theorem values_append (h : Headers) (name other : FieldName) (value : FieldValue) :
    (h.append name value).values other =
      if other = name then h.values other ++ [value] else h.values other := by
  simp only [values, append, List.filterMap_append]
  by_cases heq : other = name
  · subst heq; simp
  · simp [heq, Ne.symm heq]

@[simp] theorem values_insert (h : Headers) (name other : FieldName) (value : FieldValue) :
    (h.insert name value).values other =
      if other = name then [value] else h.values other := by
  by_cases heq : other = name <;> simp [insert, heq]

end Headers

end SigningProxy
