import SigningProxy.Proofs.Files.Tree

/-!
# How a tree grows

Making directories adds empty ones where there was nothing, and writing a file adds or changes this file. Seen
place by place, whatever a directory holds, nothing else changes; so a tree that has grown keeps its files, and
every walk that could be made in it before still leads to the same place.

There are new walks too. One that goes through a new directory and back by two dots may lead to an old file. A
walk without two dots only leads down, so where it leads to an old file it could be made before.
-/

namespace SigningProxy

/-- A node, whatever it holds if it is a directory. -/
inductive Node.Kind where
  | file (bytes : List UInt8)
  | directory

def Node.kind : Node → Node.Kind
  | .file bytes => .file bytes
  | .directory _ => .directory

theorem Node.isDirectory_of_below?_cons {node found : Node} {name : String} {names : List String}
    (hfound : node.below? (name :: names) = some found) : ∃ held, node = .directory held := by
  cases node with
  | directory held => exact ⟨held, rfl⟩
  | file bytes => cases hfound

/-- Nothing is below this node. -/
def Node.Childless (node : Node) : Prop :=
  ∀ name names, node.below? (name :: names) = none

theorem Node.childless_file (bytes : List UInt8) : (Node.file bytes).Childless :=
  fun _ _ => rfl

theorem Node.childless_directory : (Node.directory []).Childless :=
  fun _ _ => rfl

theorem Entries.kind_replace_one {entries : Entries} {name : String} {new : Node}
    (hold : ∀ held, entries.lookup name ≠ some (.directory held)) (hnew : new.Childless) (other : List String) :
    ((Node.directory (entries.replace (some new) [name])).below? other).map Node.kind =
      if other = [name] then some new.kind else ((Node.directory entries).below? other).map Node.kind := by
  cases other with
  | nil => rfl
  | cons first other =>
      rw [below?_replace, replaced, Node.below?]
      by_cases hfirst : first = name
      · subst hfirst
        cases other with
        | nil => simp [Node.below?]
        | cons second other =>
            rw [if_pos rfl, if_neg (by simp)]
            show (new.below? (second :: other)).map _ = _
            rw [hnew second other]
            rcases hfound : List.lookup first entries with _ | bytes | held
            · rfl
            · rfl
            · exact absurd hfound (hold held)
      · rw [if_neg hfirst, if_neg (by simp [hfirst])]
        rfl

/-- What has nothing below it can be put where nothing was below before, and nothing else changes. -/
theorem Entries.kind_replace {entries inside : Entries} {names : List String} {name : String} {new : Node}
    (hinside : entries.node? names = some (.directory inside))
    (hold : ∀ held, inside.lookup name ≠ some (.directory held)) (hnew : new.Childless)
    (other : List String) :
    ((entries.replace (some new) (names ++ [name])).node? other).map Node.kind =
      if other = names ++ [name] then some new.kind else (entries.node? other).map Node.kind := by
  simp only [node?_eq_below?] at hinside ⊢
  induction names generalizing entries other with
  | nil =>
      cases hinside
      exact kind_replace_one hold hnew other
  | cons first names ih =>
      obtain ⟨found, hfound, hbelow⟩ := Option.bind_eq_some_iff.mp hinside
      obtain ⟨held, rfl⟩ := Node.isDirectory_of_below? hbelow
      cases other with
      | nil => rfl
      | cons second other =>
          rw [List.cons_append, below?_replace]
          by_cases hsecond : second = first
          · subst hsecond
            rw [if_pos rfl, hfound, replaced_directory held _
              (List.append_ne_nil_of_right_ne_nil _ (List.cons_ne_nil _ _)), Node.below?, hfound]
            simp only [List.cons.injEq, true_and]
            exact ih other hbelow
          · rw [if_neg hsecond, if_neg (by simp [hsecond])]
            rfl

namespace FileTree

variable {t t' t'' : FileTree} {here : Standing} {path : String}

/-- What is at a place, whatever it holds if it is a directory. -/
def kind? (t : FileTree) (p : Place) : Option Node.Kind := (t.node? p).map Node.kind

theorem kind?_eq_file_iff {p : Place} {bytes : List UInt8} :
    t.kind? p = some (.file bytes) ↔ t.node? p = some (.file bytes) := by
  rw [kind?]
  rcases t.node? p with _ | bytes' | held <;> simp [Node.kind]

theorem kind?_eq_directory_iff {p : Place} :
    t.kind? p = some .directory ↔ ∃ held, t.node? p = some (.directory held) := by
  rw [kind?]
  rcases t.node? p with _ | bytes' | held <;> simp [Node.kind]

theorem kind?_eq_none_iff {p : Place} : t.kind? p = none ↔ t.node? p = none := by
  rw [kind?, Option.map_eq_none_iff]

theorem keepsDirectories_iff :
    t.KeepsDirectories t' ↔ ∀ p, t.kind? p = some .directory → t'.kind? p = some .directory := by
  simp only [kind?_eq_directory_iff, KeepsDirectories, forall_exists_index]

theorem KeepsDirectories.trans (hkeeps : t.KeepsDirectories t') (hkeeps' : t'.KeepsDirectories t'') :
    t.KeepsDirectories t'' := by
  rw [keepsDirectories_iff] at hkeeps hkeeps' ⊢
  exact fun p hp => hkeeps' p (hkeeps p hp)

theorem kind?_put (hof : here.Of t) {name : String} {new : Node}
    (hold : ∀ held, here.entries.lookup name ≠ some (.directory held)) (hnew : new.Childless) (p : Place) :
    (t.put (here.place.child name) new).kind? p =
      if p = here.place.child name then some new.kind else t.kind? p := by
  obtain ⟨anchor, names⟩ := p
  rw [kind?, kind?, node?, node?, put, entries_replace]
  by_cases hanchor : anchor = (here.place.child name).anchor
  · subst hanchor
    rw [if_pos rfl, Place.child, List.reverse_cons]
    have hnames : (⟨here.place.anchor, names⟩ : Place) = here.place.child name ↔
        names.reverse = here.place.names.reverse ++ [name] := by
      rw [Place.child, ← List.reverse_cons, List.reverse_inj]
      simp
    simp only [Place.child] at hnames
    simp only [hnames]
    exact Entries.kind_replace hof hold hnew names.reverse
  · rw [if_neg hanchor, if_neg]
    intro hplace
    exact hanchor (congrArg Place.anchor hplace)

/-! ### What becomes of walks -/

/-- The last step from a directory leads to this node. -/
inductive LastLeads (t : FileTree) (here : Standing) : LastStep → Place → Node → Prop
  | dots {segment : String} {there : Standing} (hstep : t.step here segment = .ok there) :
    LastLeads t here (.dots segment) there.place (.directory there.entries)
  | file {name : String} {bytes : List UInt8} (hshort : name.utf8ByteSize ≤ 255)
    (hfound : here.entries.lookup name = some (.file bytes)) :
    LastLeads t here (.name name false) (here.place.child name) (.file bytes)
  | directory {name : String} {slash : Bool} {held : Entries} (hshort : name.utf8ByteSize ≤ 255)
    (hfound : here.entries.lookup name = some (.directory held)) :
    LastLeads t here (.name name slash) (here.place.child name) (.directory held)

theorem resolve_eq_ok_iff {p : Place} {node : Node} : t.resolve path = .ok (p, node) ↔
    ∃ r here, route path = .ok r ∧ t.walk r = .ok here ∧ LastLeads t here r.last p node := by
  constructor
  · intro hresolve
    obtain ⟨r, hroute, hresolve⟩ := Except.bind_eq_ok.mp hresolve
    obtain ⟨here, hwalk, hresolve⟩ := Except.bind_eq_ok.mp hresolve
    refine ⟨r, here, hroute, hwalk, ?_⟩
    split at hresolve
    · next segment hlast =>
      obtain ⟨there, hstep, hthere⟩ := Except.bind_eq_ok.mp hresolve
      cases hthere
      exact hlast ▸ .dots hstep
    · next name slash hlast =>
      obtain ⟨⟨place, found⟩, hchild, hthere⟩ := Except.bind_eq_ok.mp hresolve
      obtain ⟨hshort, rfl, rfl⟩ := child_eq_ok.mp hchild
      rw [hlast]
      rcases hfound : here.entries.lookup name with _ | bytes | held
      · rw [hfound] at hthere
        cases hthere
      · rw [hfound] at hthere
        change (if slash = true then _ else _) = _ at hthere
        split at hthere
        · cases hthere
        · next hslash =>
          cases hthere
          rw [Bool.eq_false_iff.mpr hslash]
          exact .file hshort hfound
      · rw [hfound] at hthere
        cases hthere
        exact .directory hshort hfound
  · rintro ⟨r, here, hroute, hwalk, hlast⟩
    apply Except.bind_eq_ok.mpr
    refine ⟨r, hroute, Except.bind_eq_ok.mpr ⟨here, hwalk, ?_⟩⟩
    generalize r.last = last at hlast ⊢
    cases hlast with
    | dots hstep => exact Except.bind_eq_ok.mpr ⟨_, hstep, rfl⟩
    | file hshort hfound =>
        refine Except.bind_eq_ok.mpr ⟨_, child_eq_ok.mpr ⟨hshort, rfl, rfl⟩, ?_⟩
        rw [hfound]
        rfl
    | directory hshort hfound =>
        refine Except.bind_eq_ok.mpr ⟨_, child_eq_ok.mpr ⟨hshort, rfl, rfl⟩, ?_⟩
        rw [hfound]
        rfl

/-- What a path leads to is in the tree. -/
theorem node?_of_resolve {p : Place} {node : Node} (hresolve : t.resolve path = .ok (p, node)) :
    t.node? p = some node := by
  obtain ⟨r, here, -, hwalk, hlast⟩ := resolve_eq_ok_iff.mp hresolve
  have hof := of_walk hwalk
  generalize r.last = last at hlast
  cases hlast with
  | dots hstep =>
      have hkeeps : t.KeepsDirectories t := fun _ held hheld => ⟨held, hheld⟩
      obtain ⟨_, _, halike⟩ := step_of_keepsDirectories hkeeps ⟨rfl, hof, hof⟩ hstep
      exact halike.before
  | file _ hfound => exact (node?_child hof _).trans hfound
  | directory _ hfound => exact (node?_child hof _).trans hfound

theorem kind?_of_resolve {p : Place} {node : Node} (hresolve : t.resolve path = .ok (p, node)) :
    t.kind? p = some node.kind := by
  rw [kind?, node?_of_resolve hresolve]
  rfl

theorem resolve_directory (hkeeps : t.KeepsDirectories t') {p : Place} {held : Entries}
    (hresolve : t.resolve path = .ok (p, .directory held)) :
    ∃ held', t'.resolve path = .ok (p, .directory held') := by
  obtain ⟨r, here, hroute, hwalk, hlast⟩ := resolve_eq_ok_iff.mp hresolve
  obtain ⟨here', hwalk', halike⟩ := walk_of_keepsDirectories hkeeps hwalk
  generalize hstep : r.last = last at hlast
  cases hlast with
  | dots hdots =>
      obtain ⟨there', hdots', hthere⟩ := step_of_keepsDirectories hkeeps halike hdots
      refine ⟨there'.entries, resolve_eq_ok_iff.mpr ⟨r, here', hroute, hwalk', ?_⟩⟩
      rw [hstep, ← hthere.place]
      exact .dots hdots'
  | @directory name slash held hshort hfound =>
      obtain ⟨held', hheld'⟩ := hkeeps _ _ ((node?_child halike.before name).trans hfound)
      rw [← halike.place, node?_child halike.after] at hheld'
      refine ⟨held', resolve_eq_ok_iff.mpr ⟨r, here', hroute, hwalk', ?_⟩⟩
      rw [hstep, ← halike.place]
      exact .directory hshort hheld'

/-- A file that is still there is found by the same path. -/
theorem resolve_file (hkeeps : t.KeepsDirectories t') {p : Place} {bytes bytes' : List UInt8}
    (hfile : t'.node? p = some (.file bytes')) (hresolve : t.resolve path = .ok (p, .file bytes)) :
    t'.resolve path = .ok (p, .file bytes') := by
  obtain ⟨r, here, hroute, hwalk, hlast⟩ := resolve_eq_ok_iff.mp hresolve
  obtain ⟨here', hwalk', halike⟩ := walk_of_keepsDirectories hkeeps hwalk
  generalize hstep : r.last = last at hlast
  cases hlast with
  | @file name _ hshort hfound =>
      rw [← halike.place, node?_child halike.after] at hfile
      refine resolve_eq_ok_iff.mpr ⟨r, here', hroute, hwalk', ?_⟩
      rw [hstep, ← halike.place]
      exact .file hshort hfile

/-! ### Making directories -/

/-- One tree has grown out of another by directories, each of them where one of these paths leads to. -/
def GrownBy (paths : String → Prop) (t t' : FileTree) : Prop :=
  ∀ p, t'.kind? p = t.kind? p ∨
    t.kind? p = none ∧ ∃ path held, paths path ∧ t'.resolve path = .ok (p, .directory held)

variable {paths paths' : String → Prop}

theorem GrownBy.refl (paths : String → Prop) (t : FileTree) : GrownBy paths t t :=
  fun _ => .inl rfl

theorem GrownBy.mono (hpaths : ∀ path, paths path → paths' path) (hgrown : GrownBy paths t t') :
    GrownBy paths' t t' := by
  intro p
  refine (hgrown p).imp_right fun ⟨hnone, path, held, hpath, hresolve⟩ => ?_
  exact ⟨hnone, path, held, hpaths path hpath, hresolve⟩

theorem GrownBy.kind?_eq (hgrown : GrownBy paths t t') {p : Place} {kind : Node.Kind}
    (hkind : t.kind? p = some kind) : t'.kind? p = some kind := by
  obtain heq | ⟨hnone, -⟩ := hgrown p
  · exact heq.trans hkind
  · cases hnone.symm.trans hkind

theorem GrownBy.kind?_eq_none (hgrown : GrownBy paths t t') {p : Place} (hnone : t'.kind? p = none) :
    t.kind? p = none := by
  cases hkind : t.kind? p with
  | none => rfl
  | some kind => cases hnone.symm.trans (hgrown.kind?_eq hkind)

theorem GrownBy.file_of_file (hgrown : GrownBy paths t t') {p : Place} {bytes : List UInt8}
    (hfile : t'.kind? p = some (.file bytes)) : t.kind? p = some (.file bytes) := by
  obtain heq | ⟨-, path, held, -, hresolve⟩ := hgrown p
  · exact heq.symm.trans hfile
  · have hdirectory := kind?_of_resolve hresolve
    cases hdirectory.symm.trans hfile

theorem GrownBy.keepsDirectories (hgrown : GrownBy paths t t') : t.KeepsDirectories t' :=
  keepsDirectories_iff.mpr fun _ hkind => hgrown.kind?_eq hkind

theorem GrownBy.trans (hgrown : GrownBy paths t t') (hgrown' : GrownBy paths t' t'') :
    GrownBy paths t t'' := by
  intro p
  obtain heq | ⟨hnone, hnew⟩ := hgrown' p
  · rw [heq]
    refine (hgrown p).imp_right fun ⟨hnone, path, held, hpath, hresolve⟩ => ?_
    obtain ⟨held', hresolve'⟩ := resolve_directory hgrown'.keepsDirectories hresolve
    exact ⟨hnone, path, held', hpath, hresolve'⟩
  · obtain heq | ⟨-, path, held, -, hresolve⟩ := hgrown p
    · exact .inr ⟨heq.symm.trans hnone, hnew⟩
    · have hdirectory := kind?_of_resolve hresolve
      cases hnone.symm.trans hdirectory

theorem grownBy_makeDirectory (hmake : t.makeDirectory path = .ok t') : GrownBy (· = path) t t' := by
  obtain ⟨r, hroute, hmake⟩ := Except.bind_eq_ok.mp hmake
  obtain ⟨here, hwalk, hmake⟩ := Except.bind_eq_ok.mp hmake
  split at hmake
  · cases hmake
  · next name slash hlast =>
    obtain ⟨⟨place, found⟩, hchild, hput⟩ := Except.bind_eq_ok.mp hmake
    obtain ⟨hshort, rfl, rfl⟩ := child_eq_ok.mp hchild
    rcases hfound : here.entries.lookup name with _ | node
    · rw [hfound] at hput
      cases hput
      have hof := of_walk hwalk
      have hnone : ∀ held, here.entries.lookup name ≠ some (.directory held) := by simp [hfound]
      have hkind := kind?_put hof hnone Node.childless_directory
      obtain ⟨here', hwalk', hplace, hnew⟩ := walk_put hwalk hnone (.directory [])
      intro p
      by_cases hp : p = here.place.child name
      · subst hp
        refine .inr ⟨kind?_eq_none_iff.mpr ((node?_child hof name).trans hfound), path, [], rfl, ?_⟩
        refine resolve_eq_ok_iff.mpr ⟨r, here', hroute, hwalk', ?_⟩
        rw [hlast, ← hplace]
        exact .directory hshort hnew
      · exact .inl ((hkind p).trans (if_neg hp))
    · rw [hfound] at hput
      cases hput

theorem settle_snd (t : FileTree) (path : String) (e : FileError) :
    (makeDirectories.settle t path e).2 = t := by
  rw [makeDirectories.settle]
  split <;> rfl

end FileTree

/-- A path above another, by taking away segments at its end. -/
inductive Path.Above : String → String → Prop
  | parent {path above : String} (hparent : parent? path = some above) : Above path above
  | further {path parent above : String} (hparent : parent? path = some parent)
    (habove : Above parent above) : Above path above

namespace FileTree

variable {t t' : FileTree} {path : String}

/-- **Making directories changes nothing that is there.** Every directory that is made is where the path leads
to, or where one above it does, whether all of them can be made or not. -/
theorem grownBy_go (fuel : Nat) (t : FileTree) (path : String) :
    GrownBy (fun above => above = path ∨ Path.Above path above) t (makeDirectories.go fuel t path).2 := by
  induction fuel generalizing t path with
  | zero => exact .refl _ t
  | succ fuel ih =>
      rw [makeDirectories.go]
      split
      · exact .refl _ t
      · split
        · next made hmake => exact (grownBy_makeDirectory hmake).mono fun _ => .inl
        · next e hmake =>
          split
          · rw [settle_snd]
            exact .refl _ t
          · split
            · exact .refl _ t
            · next parent hparent =>
              have hparents : GrownBy (fun above => above = path ∨ Path.Above path above) t
                  (makeDirectories.go fuel t parent).2 := by
                refine (ih t parent).mono ?_
                rintro above (rfl | habove)
                · exact .inr (.parent hparent)
                · exact .inr (.further hparent habove)
              split
              · next cause made hgo =>
                rw [hgo] at hparents
                exact hparents
              · next made hgo =>
                rw [hgo] at hparents
                split
                · next made' hmake' =>
                  exact hparents.trans ((grownBy_makeDirectory hmake').mono fun _ => .inl)
                · rw [settle_snd]
                  exact hparents

theorem grownBy_makeDirectories (t : FileTree) (path : String) :
    GrownBy (fun above => above = path ∨ Path.Above path above) t (t.makeDirectories path).2 :=
  grownBy_go _ t path

/-! ### Writing a file -/

/-- Writing a file changes nothing but what its path leads to afterwards, and it led to this file before if there
was one. -/
theorem kind?_write {bytes : List UInt8} (hwrite : t.write path bytes = .ok t') :
    ∃ place, t'.resolve path = .ok (place, .file bytes) ∧
      (∀ p, t'.kind? p = if p = place then some (.file bytes) else t.kind? p) ∧
      (t.kind? place = none ∨ ∃ old, t.resolve path = .ok (place, .file old)) := by
  obtain ⟨r, here, name, hroute, hwalk, hlast, hshort, hnone, rfl⟩ := write_eq_ok hwrite
  have hof := of_walk hwalk
  refine ⟨here.place.child name, ?_, kind?_put hof hnone (Node.childless_file bytes), ?_⟩
  · obtain ⟨here', hwalk', hplace, hwritten⟩ := walk_put hwalk hnone (.file bytes)
    refine resolve_eq_ok_iff.mpr ⟨r, here', hroute, hwalk', ?_⟩
    rw [hlast, ← hplace]
    exact .file hshort hwritten
  · rw [kind?_eq_none_iff, node?_child hof]
    rcases hfound : here.entries.lookup name with _ | old | held
    · exact .inl rfl
    · refine .inr ⟨old, resolve_eq_ok_iff.mpr ⟨r, here, hroute, hwalk, ?_⟩⟩
      rw [hlast]
      exact .file hshort hfound
    · exact absurd hfound (hnone held)

theorem keepsDirectories_write {bytes : List UInt8} (hwrite : t.write path bytes = .ok t') :
    t.KeepsDirectories t' := by
  obtain ⟨place, -, hkind, hbefore⟩ := kind?_write hwrite
  refine keepsDirectories_iff.mpr fun p hp => ?_
  rw [hkind, if_neg, hp]
  rintro rfl
  obtain hnone | ⟨old, hresolve⟩ := hbefore
  · cases hnone.symm.trans hp
  · cases (kind?_of_resolve hresolve).symm.trans hp

/-- A file can be written by any path that leads to it. -/
theorem exists_write_of_resolve {p : Place} {old : List UInt8}
    (hresolve : t.resolve path = .ok (p, .file old)) (bytes : List UInt8) :
    ∃ t', t.write path bytes = .ok t' := by
  obtain ⟨r, here, hroute, hwalk, hleads⟩ := resolve_eq_ok_iff.mp hresolve
  generalize hlast : r.last = last at hleads
  cases hleads with
  | @file name _ hshort hfound =>
      refine ⟨t.put (here.place.child name) (.file bytes), Except.bind_eq_ok.mpr ⟨r, hroute, ?_⟩⟩
      refine Except.bind_eq_ok.mpr ⟨here, hwalk, ?_⟩
      rw [hlast]
      exact Except.bind_eq_ok.mpr ⟨_, child_eq_ok.mpr ⟨hshort, rfl, rfl⟩, by rw [hfound]; rfl⟩

/-! ### Files that are kept -/

/-- Every file of the one tree is in the other, with its content. -/
def KeepsFiles (t t' : FileTree) : Prop :=
  ∀ p bytes, t.kind? p = some (.file bytes) → t'.kind? p = some (.file bytes)

theorem KeepsFiles.refl (t : FileTree) : t.KeepsFiles t :=
  fun _ _ hfile => hfile

theorem GrownBy.keepsFiles_iff (hgrown : GrownBy paths t t') : t.KeepsFiles t'' ↔ t'.KeepsFiles t'' := by
  constructor
  · intro hkeeps p bytes hfile
    exact hkeeps p bytes (hgrown.file_of_file hfile)
  · intro hkeeps p bytes hfile
    exact hkeeps p bytes (hgrown.kind?_eq hfile)

/-- A file that the path leads to is overwritten. -/
theorem kind?_write_of_resolve {p : Place} {old bytes : List UInt8}
    (hwrite : t.write path bytes = .ok t') (hresolve : t.resolve path = .ok (p, .file old)) :
    t'.kind? p = some (.file bytes) := by
  obtain ⟨place, hresolve', hkind, -⟩ := kind?_write hwrite
  by_cases hp : p = place
  · rw [hkind, if_pos hp]
  · -- Otherwise the path would still lead to the old file.
    have hkept : t'.kind? p = some (.file old) := by
      rw [hkind, if_neg hp]
      exact kind?_of_resolve hresolve
    have hsame := resolve_file (keepsDirectories_write hwrite) (kind?_eq_file_iff.mp hkept) hresolve
    cases hsame.symm.trans hresolve'
    exact absurd rfl hp

/-- Writing changes no file if there is none yet, or if it has this content already. -/
theorem keepsFiles_write_iff {bytes : List UInt8} (hwrite : t.write path bytes = .ok t') :
    t.KeepsFiles t' ↔ ∀ p old, t.resolve path = .ok (p, .file old) → old = bytes := by
  constructor
  · intro hkeeps p old hresolve
    have hold := hkeeps p old (kind?_of_resolve hresolve)
    cases hold.symm.trans (kind?_write_of_resolve hwrite hresolve)
    rfl
  · intro hsame p old hfile
    obtain ⟨place, -, hkind, hbefore⟩ := kind?_write hwrite
    rw [hkind]
    split
    · next hplace =>
      subst hplace
      obtain hnone | ⟨old', hresolve⟩ := hbefore
      · cases hnone.symm.trans hfile
      · cases (kind?_of_resolve hresolve).symm.trans hfile
        rw [hsame p old hresolve]
    · exact hfile

/-- A file that is kept is read by every path by which it was read before. -/
theorem read_of_keepsFiles (hdirectories : t.KeepsDirectories t') (hfiles : t.KeepsFiles t')
    {bytes : List UInt8} (hread : t.read path = .ok bytes) : t'.read path = .ok bytes := by
  obtain ⟨⟨p, node⟩, hresolve, hnode⟩ := Except.bind_eq_ok.mp hread
  cases node with
  | file content =>
      cases hnode
      have hkept := hfiles p bytes (kind?_of_resolve hresolve)
      have hresolve' := resolve_file hdirectories (kind?_eq_file_iff.mp hkept) hresolve
      exact Except.bind_eq_ok.mpr ⟨_, hresolve', rfl⟩
  | directory held => cases hnode

/-! ### Walks without two dots -/

theorem step_down {next : Standing} {segment : String} (hdots : segment ≠ "..")
    (hstep : t.step here segment = .ok next) :
    segment = "." ∧ next = here ∨ segment ≠ "." ∧ segment.utf8ByteSize ≤ 255 ∧
      next.place = here.place.child segment ∧ here.entries.lookup segment = some (.directory next.entries) := by
  rw [step] at hstep
  split at hstep
  · next hdot =>
    cases hstep
    exact .inl ⟨hdot, rfl⟩
  · next hdot =>
    obtain ⟨⟨place, found⟩, hchild, hnext⟩ := Except.bind_eq_ok.mp hstep
    obtain ⟨hshort, rfl, rfl⟩ := child_eq_ok.mp hchild
    rcases hfound : here.entries.lookup segment with _ | bytes | held
    · rw [hfound] at hnext
      cases hnext
    · rw [hfound] at hnext
      cases hnext
    · rw [hfound] at hnext
      cases hnext
      exact .inr ⟨hdot, hshort, rfl, rfl⟩

/-- Whatever is below a place has a directory there. -/
theorem directory_of_below {a : Anchor} {inner names : List String} {held : Entries}
    (hheld : t.node? ⟨a, names ++ inner⟩ = some (.directory held)) :
    ∃ held', t.node? ⟨a, inner⟩ = some (.directory held') := by
  rw [node?, Entries.node?_eq_below?, List.reverse_append, Node.below?_append] at hheld
  obtain ⟨found, hfound, hbelow⟩ := Option.bind_eq_some_iff.mp hheld
  obtain ⟨held', rfl⟩ := Node.isDirectory_of_below? hbelow
  exact ⟨held', by rw [node?, Entries.node?_eq_below?]; exact hfound⟩

theorem directory_of_child {p : Place} {name : String} {node : Node}
    (hnode : t.node? (p.child name) = some node) :
    ∃ held, t.node? p = some (.directory held) ∧ held.lookup name = some node := by
  rw [node?, Entries.node?_eq_below?, Place.child, List.reverse_cons, Node.below?_append] at hnode
  obtain ⟨found, hfound, hbelow⟩ := Option.bind_eq_some_iff.mp hnode
  obtain ⟨held, rfl⟩ := Node.isDirectory_of_below?_cons hbelow
  refine ⟨held, by rw [node?, Entries.node?_eq_below?]; exact hfound, ?_⟩
  rw [Node.below?] at hbelow
  obtain ⟨entry, hentry, hnode⟩ := Option.bind_eq_some_iff.mp hbelow
  rw [Node.below?] at hnode
  cases hnode
  exact hentry

/-- Without two dots a walk ends below where it starts. -/
theorem below_of_steps {steps : List String} {start : Standing} (hdots : ".." ∉ steps)
    (hsteps : steps.foldlM t.step start = .ok here) :
    ∃ names, here.place = ⟨start.place.anchor, names ++ start.place.names⟩ := by
  induction steps generalizing start with
  | nil =>
      cases hsteps
      exact ⟨[], rfl⟩
  | cons segment steps ih =>
      rw [List.mem_cons, not_or] at hdots
      rw [List.foldlM_cons] at hsteps
      obtain ⟨next, hstep, hsteps⟩ := Except.bind_eq_ok.mp hsteps
      obtain ⟨names, hnames⟩ := ih hdots.2 hsteps
      obtain ⟨-, rfl⟩ | ⟨-, -, hplace, -⟩ := step_down (Ne.symm hdots.1) hstep
      · exact ⟨names, hnames⟩
      · refine ⟨names ++ [segment], ?_⟩
        rw [hnames, hplace]
        simp [Place.child]

/-- Such a walk can be made in any tree that has a directory where it ends. -/
theorem steps_back {steps : List String} {start start' : Standing} {held : Entries} (hdots : ".." ∉ steps)
    (hplace : start'.place = start.place) (hof : start'.Of t')
    (hsteps : steps.foldlM t.step start = .ok here) (hheld : t'.node? here.place = some (.directory held)) :
    steps.foldlM t'.step start' = .ok ⟨here.place, held⟩ := by
  induction steps generalizing start start' with
  | nil =>
      cases hsteps
      rw [← hplace, hof] at hheld
      cases hheld
      rw [← hplace]
      rfl
  | cons segment steps ih =>
      rw [List.mem_cons, not_or] at hdots
      rw [List.foldlM_cons] at hsteps ⊢
      obtain ⟨next, hstep, hrest⟩ := Except.bind_eq_ok.mp hsteps
      obtain ⟨names, hbelow⟩ := below_of_steps hdots.2 hrest
      obtain ⟨hdot, rfl⟩ | ⟨hdot, hshort, hnext, -⟩ := step_down (Ne.symm hdots.1) hstep
      · refine Except.bind_eq_ok.mpr ⟨start', ?_, ih hdots.2 hplace hof hrest⟩
        rw [step, if_pos hdot]
      · rw [hbelow] at hheld
        obtain ⟨between, hbetween⟩ := directory_of_below hheld
        rw [← hbelow] at hheld
        have hsame : (⟨next.place, between⟩ : Standing).place = next.place := rfl
        refine Except.bind_eq_ok.mpr ⟨⟨next.place, between⟩, ?_, ih hdots.2 hsame hbetween hrest⟩
        have hfound : start'.entries.lookup segment = some (.directory between) := by
          rw [← node?_child hof, hplace, ← hnext]
          exact hbetween
        rw [step, if_neg hdot, if_neg (Ne.symm hdots.1)]
        refine Except.bind_eq_ok.mpr ⟨_, child_eq_ok.mpr ⟨hshort, rfl, rfl⟩, ?_⟩
        rw [hfound, hplace, hnext]

theorem mem_segments_of_route {r : Route} (hroute : route path = .ok r) {segment : String}
    (hsegment : segment ∈ r.steps) : segment ∈ Path.segments path := by
  rw [route] at hroute
  split at hroute
  · cases hroute
  · split at hroute
    · cases hroute
    · split at hroute
      · cases hroute
      · dsimp only at hroute
        split at hroute
        · cases hroute
          cases hsegment
        · next final before hreverse =>
          cases hroute
          have hmem : segment ∈ ((Path.segments path).filter (· ≠ "")).reverse := by
            rw [hreverse]
            exact List.mem_cons_of_mem _ (List.mem_reverse.mp hsegment)
          exact (List.mem_filter.mp (List.mem_reverse.mp hmem)).1

/-- **A path without two dots finds every file that is there:** where it leads to an old file in a grown tree, it
has led to this file before. -/
theorem resolve_of_grown {paths : String → Prop} (hgrown : GrownBy paths t t')
    (hdots : ".." ∉ Path.segments path) {p : Place} {bytes : List UInt8}
    (hresolve : t'.resolve path = .ok (p, .file bytes)) : t.resolve path = .ok (p, .file bytes) := by
  have hnew := kind?_of_resolve hresolve
  have hold := kind?_eq_file_iff.mp (hgrown.file_of_file hnew)
  obtain ⟨r, here, hroute, hwalk, hleads⟩ := resolve_eq_ok_iff.mp hresolve
  obtain ⟨start, hstart, hsteps⟩ := Except.bind_eq_ok.mp hwalk
  obtain ⟨hplace, hof⟩ := stand_eq_ok hstart
  have hsteps_dots : ".." ∉ r.steps := mt (mem_segments_of_route hroute) hdots
  generalize hlast : r.last = last at hleads
  cases hleads with
  | @file name _ hshort hfound =>
      -- The file's directory was there, and so was every directory on the way down to it.
      obtain ⟨held, hheld, hentry⟩ := directory_of_child hold
      obtain ⟨names, hbelow⟩ := below_of_steps hsteps_dots hsteps
      have hway := hheld
      rw [hbelow] at hway
      obtain ⟨begun, hbegun⟩ := directory_of_below hway
      have hstart' : t.stand r.start = .ok ⟨start.place, begun⟩ := by
        rw [← hplace]
        exact stand_of_directory hbegun
      have hsame : (⟨start.place, begun⟩ : Standing).place = start.place := rfl
      have hsteps' := steps_back hsteps_dots hsame hbegun hsteps hheld
      refine resolve_eq_ok_iff.mpr ⟨r, ⟨here.place, held⟩, hroute, ?_, ?_⟩
      · exact Except.bind_eq_ok.mpr ⟨_, hstart', hsteps'⟩
      · rw [hlast]
        exact .file hshort hentry

end FileTree

end SigningProxy
