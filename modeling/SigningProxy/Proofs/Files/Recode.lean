import SigningProxy.Files.Tree

/-!
# Trees with other contents

What a path leads to, and whether it leads anywhere, has nothing to do with what is in the files. So when
every content is put through one function, each operation does the same as before, and comes back with
contents that have been put through it: recoding a tree commutes with every operation.
-/

namespace SigningProxy

variable (f : List UInt8 → List UInt8)

mutual

/-- The node with every content in it put through `f`. -/
def Node.recode : Node → Node
  | .file bytes => .file (f bytes)
  | .directory entries => .directory (Entries.recode entries)

def Entries.recode : Entries → Entries
  | [] => []
  | (name, node) :: entries => (name, node.recode) :: Entries.recode entries

end

/-! ### Directories -/

namespace Entries

variable (entries : Entries) (names : List String)

theorem lookup_recode (name : String) :
    (entries.recode f).lookup name = (entries.lookup name).map (Node.recode f) := by
  induction entries with
  | nil => rfl
  | cons entry entries ih =>
      obtain ⟨key, node⟩ := entry
      rw [recode, List.lookup_cons, List.lookup_cons]
      cases name == key with
      | true => rfl
      | false => exact ih

theorem filter_recode (name : String) :
    (entries.recode f).filter (·.1 ≠ name) = recode f (entries.filter (·.1 ≠ name)) := by
  induction entries with
  | nil => rfl
  | cons entry entries ih =>
      obtain ⟨key, node⟩ := entry
      rw [recode, List.filter_cons, List.filter_cons, ih]
      split
      · rw [recode]
      · rfl

theorem assign_recode (name : String) (node : Option Node) :
    (entries.recode f).assign name (node.map (Node.recode f)) =
      (entries.assign name node).recode f := by
  cases node with
  | none => exact filter_recode f entries name
  | some node =>
      change (name, node.recode f) :: (entries.recode f).filter (·.1 ≠ name) = _
      rw [filter_recode]
      rfl

theorem node?_recode :
    (entries.recode f).node? names = (entries.node? names).map (Node.recode f) := by
  fun_induction node? entries names with
  | case1 => rfl
  | case2 entries name => exact lookup_recode f entries name
  | case3 entries name names hnames inside hinside ih =>
      rw [node?, lookup_recode, hinside]
      · exact ih
      · exact hnames
  | case4 entries name names hnames hfile =>
      rw [node?, lookup_recode]
      · rcases hfound : entries.lookup name with _ | bytes | inside
        · rfl
        · rfl
        · exact absurd hfound (hfile inside)
      · exact hnames

theorem replace_recode (node : Option Node) :
    (entries.recode f).replace (node.map (Node.recode f)) names =
      (entries.replace node names).recode f := by
  fun_induction replace entries node names with
  | case1 => rfl
  | case2 entries name => exact assign_recode f entries name node
  | case3 entries name names hnames inside hinside ih =>
      rw [replace, lookup_recode, hinside]
      · change (entries.recode f).assign name (some (.directory _)) = _
        rw [ih]
        exact assign_recode f entries name (some (.directory (replace inside node names)))
      · exact hnames
  | case4 entries name names hnames hfile =>
      rw [replace, lookup_recode]
      · rcases hfound : entries.lookup name with _ | bytes | inside
        · rfl
        · rfl
        · exact absurd hfound (hfile inside)
      · exact hnames

end Entries

namespace FileTree

/-- The tree with every content in it put through `f`. -/
def recode (t : FileTree) : FileTree := ⟨t.below.map fun (anchor, entries) => (anchor, entries.recode f)⟩

variable (t : FileTree)

theorem entries_recode (a : Anchor) : (t.recode f).entries a = (t.entries a).recode f := by
  obtain ⟨below⟩ := t
  rw [entries, entries, recode]
  induction below with
  | nil => rfl
  | cons entry below ih =>
      obtain ⟨anchor, held⟩ := entry
      rw [List.map_cons, List.lookup_cons, List.lookup_cons]
      cases a == anchor with
      | true => rfl
      | false => exact ih

theorem node?_recode (p : Place) : (t.recode f).node? p = (t.node? p).map (Node.recode f) := by
  rw [node?, entries_recode, Entries.node?_recode]
  rfl

theorem replace_recode (p : Place) (node : Option Node) :
    (t.recode f).replace p (node.map (Node.recode f)) = (t.replace p node).recode f := by
  simp only [replace, entries_recode, Entries.replace_recode]
  simp only [recode, List.map_cons, List.filter_map]
  rfl

/-! ### Walking -/

def Standing.recode (here : Standing) : Standing := ⟨here.place, here.entries.recode f⟩

theorem child_recode (here : Standing) (name : String) :
    child (here.recode f) name =
      (child here name).map fun (place, node) => (place, node.map (Node.recode f)) := by
  simp only [child, Standing.recode, Entries.lookup_recode]
  split <;> rfl

theorem stand_recode (p : Place) : (t.recode f).stand p = (t.stand p).map (Standing.recode f) := by
  rw [stand, stand, node?_recode]
  rcases t.node? p with _ | bytes | entries <;> rfl

theorem step_recode (here : Standing) (segment : String) :
    (t.recode f).step (here.recode f) segment = (t.step here segment).map (Standing.recode f) := by
  rw [step, step]
  split
  · rfl
  · split
    · exact stand_recode f t here.place.around
    · rw [child_recode]
      rcases child here segment with cause | ⟨next, _ | bytes | entries⟩ <;> rfl

theorem walk_recode (r : Route) : (t.recode f).walk r = (t.walk r).map (Standing.recode f) := by
  rw [walk, walk, stand_recode]
  rcases t.stand r.start with cause | here
  · rfl
  · change List.foldlM (t.recode f).step (here.recode f) r.steps =
      (List.foldlM t.step here r.steps).map (Standing.recode f)
    induction r.steps generalizing here with
    | nil => rfl
    | cons segment steps ih =>
        rw [List.foldlM_cons, List.foldlM_cons, step_recode]
        rcases t.step here segment with cause | next
        · rfl
        · exact ih next

variable {α β : Type} (path : String)

/-- A computation that starts by walking a path commutes with recoding if the rest of it does. -/
theorem bind_walk_recode (g : α → β) {last : Route → Standing → Except FileError α}
    {last' : Route → Standing → Except FileError β}
    (hlast : ∀ r here, last' r (here.recode f) = (last r here).map g) :
    (do let r ← route path; last' r (← (t.recode f).walk r)) =
      (do let r ← route path; last r (← t.walk r)).map g := by
  rcases route path with cause | r
  · rfl
  · change (do last' r (← (t.recode f).walk r)) = (do last r (← t.walk r)).map g
    rw [walk_recode]
    rcases t.walk r with cause | here
    · rfl
    · exact hlast r here

theorem resolve_recode :
    (t.recode f).resolve path = (t.resolve path).map fun (place, node) => (place, node.recode f) := by
  refine bind_walk_recode f t path _ fun r here => ?_
  cases r.last with
  | dots segment =>
      simp only [step_recode]
      rcases t.step here segment with cause | there <;> rfl
  | name name slash =>
      simp only [child_recode]
      rcases child here name with cause | ⟨place, _ | bytes | entries⟩
      · rfl
      · rfl
      · cases slash <;> rfl
      · rfl

/-! ### Operations -/

theorem isDirectory_recode : (t.recode f).isDirectory path = t.isDirectory path := by
  rw [isDirectory, isDirectory, resolve_recode]
  rcases t.resolve path with cause | ⟨place, bytes | entries⟩ <;> rfl

theorem read_recode : (t.recode f).read path = (t.read path).map f := by
  rw [read, read, resolve_recode]
  rcases t.resolve path with cause | ⟨place, bytes | entries⟩ <;> rfl

theorem write_recode (bytes : List UInt8) :
    (t.recode f).write path (f bytes) = (t.write path bytes).map (recode f) := by
  refine bind_walk_recode f t path _ fun r here => ?_
  have hput : ∀ place, (t.recode f).put place (.file (f bytes)) = (t.put place (.file bytes)).recode f :=
    fun place => replace_recode f t place (some (.file bytes))
  cases r.last with
  | dots segment => rfl
  | name name slash =>
      cases slash with
      | true => rfl
      | false =>
          simp only [child_recode]
          rcases child here name with cause | ⟨place, _ | content | entries⟩
          · rfl
          · exact congrArg Except.ok (hput place)
          · exact congrArg Except.ok (hput place)
          · rfl

theorem remove_recode : (t.recode f).remove path = (t.remove path).map (recode f) := by
  refine bind_walk_recode f t path _ fun r here => ?_
  cases r.last with
  | dots segment => rfl
  | name name slash =>
      simp only [child_recode]
      rcases child here name with cause | ⟨place, _ | content | entries⟩
      · rfl
      · rfl
      · cases slash with
        | true => rfl
        | false => exact congrArg Except.ok (replace_recode f t place none)
      · rfl

theorem makeDirectory_recode :
    (t.recode f).makeDirectory path = (t.makeDirectory path).map (recode f) := by
  refine bind_walk_recode f t path _ fun r here => ?_
  cases r.last with
  | dots segment => rfl
  | name name slash =>
      simp only [child_recode]
      rcases child here name with cause | ⟨place, _ | node⟩
      · rfl
      · exact congrArg Except.ok (replace_recode f t place (some (.directory [])))
      · rfl

theorem settle_recode (cause : FileError) :
    makeDirectories.settle (t.recode f) path cause =
      ((makeDirectories.settle t path cause).1, (makeDirectories.settle t path cause).2.recode f) := by
  rw [makeDirectories.settle, makeDirectories.settle, isDirectory_recode]
  cases t.isDirectory path <;> rfl

theorem go_recode (fuel : Nat) :
    makeDirectories.go fuel (t.recode f) path =
      ((makeDirectories.go fuel t path).1, (makeDirectories.go fuel t path).2.recode f) := by
  induction fuel generalizing t path with
  | zero => rfl
  | succ fuel ih =>
      rw [makeDirectories.go, makeDirectories.go, makeDirectory_recode]
      split
      · rfl
      · rcases t.makeDirectory path with cause | made
        · dsimp only [Except.map]
          split
          · exact settle_recode f t path cause
          · rcases Path.parent? path with _ | parent
            · rfl
            · dsimp only
              rw [ih]
              rcases makeDirectories.go fuel t parent with ⟨cause | _, around⟩
              · rfl
              · dsimp only
                rw [makeDirectory_recode]
                rcases around.makeDirectory path with cause | made
                · exact settle_recode f around path cause
                · rfl
        · rfl

theorem makeDirectories_recode :
    (t.recode f).makeDirectories path =
      ((t.makeDirectories path).1, (t.makeDirectories path).2.recode f) :=
  go_recode f t path (path.length + 1)

end FileTree

end SigningProxy
