import SigningProxy.Files.Tree
import SigningProxy.Proofs.Except

/-!
# Reading what has been written

A walk goes through directories only. What is put at a place where there is no directory leaves every
directory one, so every walk that could be made before can still be made, and leads to the same place.
This is where a written file is then found, by the path under which it has been written.
-/

namespace SigningProxy

/-! ### Below a directory -/

/-- What the names below a node lead to. -/
def Node.below? : Node → List String → Option Node
  | node, [] => some node
  | .directory entries, name :: names => do (← entries.lookup name).below? names
  | .file _, _ :: _ => none

theorem Node.below?_append (node : Node) (names more : List String) :
    node.below? (names ++ more) = (node.below? names).bind (·.below? more) := by
  induction names generalizing node with
  | nil =>
      rw [List.nil_append, below?]
      rfl
  | cons name names ih =>
      cases node with
      | file bytes => rfl
      | directory entries =>
          rw [List.cons_append, below?, below?]
          cases entries.lookup name with
          | none => rfl
          | some found => exact ih found

theorem Node.isDirectory_of_below? {node : Node} {names : List String} {inside : Entries}
    (hinside : node.below? names = some (.directory inside)) : ∃ held, node = .directory held := by
  cases node with
  | directory held => exact ⟨held, rfl⟩
  | file bytes =>
      cases names with
      | nil => cases hinside
      | cons name names => cases hinside

namespace Entries

variable {entries inside : Entries} {node : Option Node} {names other : List String}

theorem node?_eq_below? (entries : Entries) (names : List String) :
    entries.node? names = (Node.directory entries).below? names := by
  fun_induction node? entries names with
  | case1 entries => rfl
  | case2 entries name =>
      show _ = (entries.lookup name).bind fun node => node.below? []
      cases entries.lookup name <;> simp [Node.below?]
  | case3 entries name names hnames inside hinside ih =>
      rw [ih, Node.below?, hinside]
      rfl
  | case4 entries name names hnames hfile =>
      obtain ⟨second, rest, rfl⟩ := List.exists_cons_of_ne_nil hnames
      rw [Node.below?]
      rcases hfound : entries.lookup name with _ | bytes | inside
      · rfl
      · rfl
      · exact absurd hfound (hfile inside)

theorem node?_append (hinside : entries.node? names = some (.directory inside)) (name : String) :
    entries.node? (names ++ [name]) = inside.lookup name := by
  rw [node?_eq_below?] at hinside ⊢
  rw [Node.below?_append, hinside]
  show (inside.lookup name).bind (fun found => found.below? []) = _
  cases inside.lookup name <;> simp [Node.below?]

/-- What the name of the first step stands for after a replacement further down. -/
def replaced (found node : Option Node) : (names : List String) → Option Node
  | [] => node
  | names =>
    match found with
    | some (.directory inside) => some (.directory (replace inside node names))
    | other => other

theorem replaced_directory (held : Entries) (node : Option Node) (hnames : names ≠ []) :
    replaced (some (.directory held)) node names = some (.directory (held.replace node names)) := by
  obtain ⟨name, names, rfl⟩ := List.exists_cons_of_ne_nil hnames
  rfl

theorem lookup_replace (entries : Entries) (node : Option Node) (name : String) (names : List String)
    (other : String) :
    (entries.replace node (name :: names)).lookup other =
      if other = name then replaced (entries.lookup name) node names else entries.lookup other := by
  cases names with
  | nil => exact lookup_assign entries name other node
  | cons second names =>
      have hreplace : entries.replace node (name :: second :: names) =
          match entries.lookup name with
          | some (.directory inside) =>
            entries.assign name (some (.directory (replace inside node (second :: names))))
          | _ => entries := rfl
      have hsame : entries.lookup other =
          if other = name then entries.lookup name else entries.lookup other := by
        split
        · next hother => rw [hother]
        · rfl
      rw [hreplace]
      rcases hfound : entries.lookup name with _ | bytes | inside
      · rwa [hfound] at hsame
      · rwa [hfound] at hsame
      · exact lookup_assign entries name other _

theorem below?_replace (entries : Entries) (node : Option Node) (name : String) (names : List String)
    (first : String) (other : List String) :
    (Node.directory (entries.replace node (name :: names))).below? (first :: other) =
      (if first = name then replaced (entries.lookup name) node names else entries.lookup first).bind
        (·.below? other) := by
  rw [Node.below?, lookup_replace]
  rfl

theorem node?_replace_append (hinside : entries.node? names = some (.directory inside)) (name : String)
    (node : Option Node) : (entries.replace node (names ++ [name])).node? (names ++ [name]) = node := by
  rw [node?_eq_below?] at hinside ⊢
  induction names generalizing entries with
  | nil =>
      rw [List.nil_append, below?_replace, if_pos rfl, replaced]
      cases node <;> simp [Node.below?]
  | cons first names ih =>
      obtain ⟨found, hfound, hbelow⟩ := Option.bind_eq_some_iff.mp hinside
      obtain ⟨held, rfl⟩ := Node.isDirectory_of_below? hbelow
      rw [List.cons_append, below?_replace, if_pos rfl, hfound,
        replaced_directory held node (List.append_ne_nil_of_right_ne_nil _ (List.cons_ne_nil _ _))]
      exact ih hbelow

/-- A directory stays one when something is put where there is none. -/
theorem exists_directory_replace (hnone : ∀ held, entries.node? names ≠ some (.directory held))
    (hinside : entries.node? other = some (.directory inside)) :
    ∃ held, (entries.replace node names).node? other = some (.directory held) := by
  simp only [node?_eq_below?] at hnone hinside ⊢
  induction names generalizing entries other with
  | nil => exact absurd rfl (hnone entries)
  | cons name names ih =>
      cases other with
      | nil => exact ⟨_, rfl⟩
      | cons first other =>
          rw [below?_replace]
          split
          · next heq =>
            subst heq
            obtain ⟨found, hfound, hbelow⟩ := Option.bind_eq_some_iff.mp hinside
            obtain ⟨held, rfl⟩ := Node.isDirectory_of_below? hbelow
            have hnone' : ∀ inside, (Node.directory held).below? names ≠ some (.directory inside) := by
              intro inside hinside
              apply hnone inside
              rw [Node.below?, hfound]
              exact hinside
            have hnames : names ≠ [] := by
              rintro rfl
              exact hnone' held rfl
            rw [hfound, replaced_directory held node hnames]
            exact ih hnone' hbelow
          · exact ⟨inside, hinside⟩

end Entries

/-! ### Places -/

namespace FileTree

variable {t t' : FileTree} {here : Standing}

theorem lookup_others (below : List (Anchor × Entries)) {a b : Anchor} (ha : a ≠ b) :
    (below.filter (·.1 ≠ b)).lookup a = below.lookup a := by
  induction below with
  | nil => rfl
  | cons entry below ih =>
      obtain ⟨anchor, held⟩ := entry
      by_cases hanchor : anchor = b
      · rw [List.filter_cons_of_neg (by simpa using hanchor), ih, List.lookup_cons,
          beq_eq_false_iff_ne.mpr (hanchor ▸ ha)]
      · rw [List.filter_cons_of_pos (by simpa using hanchor), List.lookup_cons, List.lookup_cons, ih]

theorem entries_replace (t : FileTree) (p : Place) (node : Option Node) (a : Anchor) :
    (t.replace p node).entries a =
      if a = p.anchor then (t.entries a).replace node p.names.reverse else t.entries a := by
  by_cases ha : a = p.anchor
  · subst ha
    rw [if_pos rfl, entries, replace, List.lookup_cons_self]
    rfl
  · rw [if_neg ha, entries, replace, List.lookup_cons, beq_eq_false_iff_ne.mpr ha]
    show ((t.below.filter _).lookup a).getD [] = _
    rw [lookup_others t.below ha, entries]

/-- A directory and what it holds in the tree. -/
def Standing.Of (here : Standing) (t : FileTree) : Prop :=
  t.node? here.place = some (.directory here.entries)

theorem node?_child (hof : here.Of t) (name : String) :
    t.node? (here.place.child name) = here.entries.lookup name := by
  rw [node?, Place.child, List.reverse_cons]
  exact Entries.node?_append hof name

/-- Every directory of the one tree is one in the other. -/
def KeepsDirectories (t t' : FileTree) : Prop :=
  ∀ p held, t.node? p = some (.directory held) → ∃ held', t'.node? p = some (.directory held')

theorem node?_replace_child (hof : here.Of t) (name : String) (node : Option Node) :
    (t.replace (here.place.child name) node).node? (here.place.child name) = node := by
  rw [node?, entries_replace, if_pos rfl, Place.child, List.reverse_cons]
  exact Entries.node?_replace_append hof name node

theorem keepsDirectories_replace {p : Place} (hnone : ∀ held, t.node? p ≠ some (.directory held))
    (node : Option Node) : t.KeepsDirectories (t.replace p node) := by
  intro q held hheld
  rw [node?, entries_replace]
  split
  · next hanchor =>
    rw [node?, hanchor] at hheld
    rw [hanchor]
    exact Entries.exists_directory_replace hnone hheld
  · exact ⟨held, hheld⟩

/-! ### Walks -/

theorem stand_eq_ok {p : Place} (hstand : t.stand p = .ok here) : here.place = p ∧ here.Of t := by
  rw [stand] at hstand
  split at hstand
  · next held hheld =>
    cases hstand
    exact ⟨rfl, hheld⟩
  · cases hstand
  · cases hstand

theorem stand_of_directory {p : Place} {held : Entries} (hheld : t.node? p = some (.directory held)) :
    t.stand p = .ok ⟨p, held⟩ := by
  rw [stand, hheld]

theorem child_eq_ok {name : String} {place : Place} {found : Option Node} :
    child here name = .ok (place, found) ↔
      name.utf8ByteSize ≤ 255 ∧ place = here.place.child name ∧ found = here.entries.lookup name := by
  rw [child]
  split
  · next hlong =>
    constructor
    · intro hchild
      cases hchild
    · rintro ⟨hshort, -⟩
      omega
  · next hshort =>
    constructor
    · intro hchild
      cases hchild
      exact ⟨Nat.not_lt.mp hshort, rfl, rfl⟩
    · rintro ⟨-, rfl, rfl⟩
      rfl

/-- The same directory, as it is in two trees. -/
structure Standing.Alike (t t' : FileTree) (here here' : Standing) : Prop where
  place : here'.place = here.place
  before : here.Of t
  after : here'.Of t'

theorem stand_of_keepsDirectories {p : Place} (hkeeps : t.KeepsDirectories t')
    (hstand : t.stand p = .ok here) :
    ∃ here', t'.stand p = .ok here' ∧ Standing.Alike t t' here here' := by
  obtain ⟨rfl, hof⟩ := stand_eq_ok hstand
  obtain ⟨held, hheld⟩ := hkeeps _ _ hof
  exact ⟨_, stand_of_directory hheld, rfl, hof, hheld⟩

theorem step_of_keepsDirectories {here' next : Standing} {segment : String}
    (hkeeps : t.KeepsDirectories t') (halike : Standing.Alike t t' here here')
    (hstep : t.step here segment = .ok next) :
    ∃ next', t'.step here' segment = .ok next' ∧ Standing.Alike t t' next next' := by
  obtain ⟨hplace, hof, hof'⟩ := halike
  unfold step at hstep ⊢
  split at hstep
  · next hdot =>
    cases hstep
    exact ⟨here', by rw [if_pos hdot], hplace, hof, hof'⟩
  · next hdot =>
    rw [if_neg hdot]
    split at hstep
    · next hdots =>
      rw [if_pos hdots, hplace]
      exact stand_of_keepsDirectories hkeeps hstep
    · next hdots =>
      rw [if_neg hdots]
      obtain ⟨⟨place, found⟩, hchild, hnext⟩ := Except.bind_eq_ok.mp hstep
      obtain ⟨hshort, rfl, rfl⟩ := child_eq_ok.mp hchild
      rcases hfound : here.entries.lookup segment with _ | bytes | held
      · rw [hfound] at hnext
        cases hnext
      · rw [hfound] at hnext
        cases hnext
      · rw [hfound] at hnext
        cases hnext
        have hnext : t.node? (here.place.child segment) = some (.directory held) :=
          (node?_child hof segment).trans hfound
        obtain ⟨held', hheld'⟩ := hkeeps _ _ hnext
        have hfound' : here'.entries.lookup segment = some (.directory held') := by
          rw [← node?_child hof', hplace, hheld']
        refine ⟨⟨here.place.child segment, held'⟩, ?_, rfl, hnext, hheld'⟩
        apply Except.bind_eq_ok.mpr
        refine ⟨_, child_eq_ok.mpr ⟨hshort, rfl, rfl⟩, ?_⟩
        rw [hfound', hplace]

theorem steps_of_keepsDirectories {steps : List String} {start start' : Standing}
    (hkeeps : t.KeepsDirectories t') (halike : Standing.Alike t t' start start')
    (hsteps : steps.foldlM t.step start = .ok here) :
    ∃ here', steps.foldlM t'.step start' = .ok here' ∧ Standing.Alike t t' here here' := by
  induction steps generalizing start start' with
  | nil =>
      cases hsteps
      exact ⟨start', rfl, halike⟩
  | cons segment steps ih =>
      rw [List.foldlM_cons] at hsteps
      obtain ⟨next, hstep, hsteps⟩ := Except.bind_eq_ok.mp hsteps
      obtain ⟨next', hstep', halike'⟩ := step_of_keepsDirectories hkeeps halike hstep
      obtain ⟨here', hsteps', hhere⟩ := ih halike' hsteps
      rw [List.foldlM_cons]
      exact ⟨here', Except.bind_eq_ok.mpr ⟨next', hstep', hsteps'⟩, hhere⟩

/-- **A walk can also be made where every directory is kept,** and leads to the same directory. -/
theorem walk_of_keepsDirectories {r : Route} (hkeeps : t.KeepsDirectories t')
    (hwalk : t.walk r = .ok here) :
    ∃ here', t'.walk r = .ok here' ∧ Standing.Alike t t' here here' := by
  obtain ⟨start, hstart, hsteps⟩ := Except.bind_eq_ok.mp hwalk
  obtain ⟨start', hstart', halike⟩ := stand_of_keepsDirectories hkeeps hstart
  obtain ⟨here', hsteps', hhere⟩ := steps_of_keepsDirectories hkeeps halike hsteps
  exact ⟨here', Except.bind_eq_ok.mpr ⟨start', hstart', hsteps'⟩, hhere⟩

theorem of_walk {r : Route} (hwalk : t.walk r = .ok here) : here.Of t := by
  have hkeeps : t.KeepsDirectories t := fun _ held hheld => ⟨held, hheld⟩
  obtain ⟨_, _, halike⟩ := walk_of_keepsDirectories hkeeps hwalk
  exact halike.before

/-! ### Writing -/

/-- A written file is put where the path leads to, and there is no directory there. -/
theorem write_eq_ok {path : String} {bytes : List UInt8} (hwrite : t.write path bytes = .ok t') :
    ∃ r here name, route path = .ok r ∧ t.walk r = .ok here ∧ r.last = .name name false ∧
      name.utf8ByteSize ≤ 255 ∧ (∀ held, here.entries.lookup name ≠ some (.directory held)) ∧
      t' = t.put (here.place.child name) (.file bytes) := by
  obtain ⟨r, hroute, hwrite⟩ := Except.bind_eq_ok.mp hwrite
  obtain ⟨here, hwalk, hwrite⟩ := Except.bind_eq_ok.mp hwrite
  split at hwrite
  · cases hwrite
  · next name slash hlast =>
    split at hwrite
    · cases hwrite
    · next hslash =>
      obtain ⟨⟨place, found⟩, hchild, hput⟩ := Except.bind_eq_ok.mp hwrite
      obtain ⟨hshort, rfl, rfl⟩ := child_eq_ok.mp hchild
      rw [Bool.not_eq_true] at hslash
      split at hput
      · cases hput
      · next hnone heq =>
        cases heq
        cases hput
        refine ⟨r, here, name, hroute, hwalk, hslash ▸ hlast, hshort, ?_, rfl⟩
        intro held hheld
        exact hnone held hheld

/-- What is put where there is no directory is found by the walk that has led there. -/
theorem walk_put {r : Route} {name : String} (hwalk : t.walk r = .ok here)
    (hnone : ∀ held, here.entries.lookup name ≠ some (.directory held)) (node : Node) :
    ∃ here', (t.put (here.place.child name) node).walk r = .ok here' ∧ here'.place = here.place ∧
      here'.entries.lookup name = some node := by
  have hof := of_walk hwalk
  have hkeeps : t.KeepsDirectories (t.put (here.place.child name) node) := by
    apply keepsDirectories_replace
    intro held hheld
    rw [node?_child hof] at hheld
    exact hnone held hheld
  obtain ⟨here', hwalk', halike⟩ := walk_of_keepsDirectories hkeeps hwalk
  refine ⟨here', hwalk', halike.place, ?_⟩
  rw [← node?_child halike.after, halike.place]
  exact node?_replace_child hof name _

/-- A written file is what its path leads to. -/
theorem resolve_write {path : String} {bytes : List UInt8} (hwrite : t.write path bytes = .ok t') :
    ∃ place, t'.resolve path = .ok (place, .file bytes) := by
  obtain ⟨r, here, name, hroute, hwalk, hlast, hshort, hnone, rfl⟩ := write_eq_ok hwrite
  obtain ⟨here', hwalk', -, hwritten⟩ := walk_put hwalk hnone (.file bytes)
  refine ⟨here'.place.child name, ?_⟩
  apply Except.bind_eq_ok.mpr
  refine ⟨r, hroute, Except.bind_eq_ok.mpr ⟨here', hwalk', ?_⟩⟩
  rw [hlast]
  exact Except.bind_eq_ok.mpr ⟨_, child_eq_ok.mpr ⟨hshort, rfl, rfl⟩, by rw [hwritten]; rfl⟩

/-- **What has been written is read.** -/
theorem read_write {path : String} {bytes : List UInt8} (hwrite : t.write path bytes = .ok t') :
    t'.read path = .ok bytes := by
  obtain ⟨place, hresolve⟩ := resolve_write hwrite
  exact Except.bind_eq_ok.mpr ⟨_, hresolve, rfl⟩

theorem exists_of_read {path : String} {bytes : List UInt8} (hread : t.read path = .ok bytes) :
    t.exists? path = true := by
  obtain ⟨found, hresolve, -⟩ := Except.bind_eq_ok.mp hread
  rw [exists?, hresolve]
  rfl

end FileTree

end SigningProxy
