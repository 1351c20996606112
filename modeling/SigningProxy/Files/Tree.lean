import SigningProxy.Files.FileError
import SigningProxy.Files.Path

/-!
# The file tree

Files and directories, and what a path leads to. A path is walked segment by segment: every segment
but the last has to lead to a directory, two dots lead to the directory around it, and a slash at
the end asks for a directory too. The directories that contain the working directory are always
there. Replacing what is at one place keeps the content of every file that is not there or below
(`node?_replace_of_file`).

There is nothing but files and directories, and whoever asks may do anything with them. Permissions, links,
devices and full disks are left out, so no two places share a file, and what has been written to a file is what
is read from it.
-/

namespace SigningProxy

/-- Where walking starts: some levels above the working directory, or at the root. -/
inductive Anchor where
  | above (levels : Nat)
  | root
  deriving DecidableEq, Repr

/-- A place in the tree: the names below its anchor, the innermost first. -/
structure Place where
  anchor : Anchor
  names : List String
  deriving DecidableEq, Repr

namespace Place

def working : Place := ⟨.above 0, []⟩

/-- The directory around a place; the root is its own. -/
def around (p : Place) : Place :=
  match p.names with
  | _ :: names => { p with names }
  | [] =>
    match p.anchor with
    | .above n => ⟨.above (n + 1), []⟩
    | .root => p

def child (p : Place) (name : String) : Place := { p with names := name :: p.names }

end Place

/-- What a name stands for: a file with its content, or a directory with what it holds by name. -/
inductive Node where
  | file (bytes : List UInt8)
  | directory (entries : List (String × Node))
  deriving Inhabited, Repr

/-- What a directory holds. -/
abbrev Entries := List (String × Node)

namespace Entries

/-- Another node under a name, or none. -/
def assign (entries : Entries) (name : String) (node : Option Node) : Entries :=
  let others := entries.filter (·.1 ≠ name)
  match node with
  | some node => (name, node) :: others
  | none => others

/-- What the names below a directory lead to, the outermost first. -/
def node? (entries : Entries) : (names : List String) → Option Node
  | [] => some (.directory entries)
  | [name] => entries.lookup name
  | name :: names =>
    match entries.lookup name with
    | some (.directory inside) => node? inside names
    | _ => none

/-- Another node, or none, where the names lead to. Without a directory for it nothing happens. -/
def replace (entries : Entries) (node : Option Node) : (names : List String) → Entries
  | [] => entries
  | [name] => entries.assign name node
  | name :: names =>
    match entries.lookup name with
    | some (.directory inside) =>
      entries.assign name (some (.directory (replace inside node names)))
    | _ => entries

theorem lookup_filter (entries : Entries) (name other : String) :
    (entries.filter (·.1 ≠ name)).lookup other =
      if other = name then none else entries.lookup other := by
  induction entries with
  | nil => simp
  | cons e rest ih =>
    obtain ⟨key, node⟩ := e
    by_cases hk : key = name
    · subst hk
      by_cases ho : other = key
      · subst ho; simpa using ih
      · simp [ho, List.lookup_cons, beq_eq_false_iff_ne.2 ho] at ih ⊢
        exact ih
    · by_cases ho : other = key
      · subst ho; simp [hk]
      · simp [hk, List.lookup_cons, beq_eq_false_iff_ne.2 ho] at ih ⊢
        exact ih

theorem lookup_assign (entries : Entries) (name other : String) (node : Option Node) :
    (entries.assign name node).lookup other =
      if other = name then node else entries.lookup other := by
  cases node with
  | none => exact lookup_filter entries name other
  | some node =>
    by_cases ho : other = name
    · subst ho; simp [assign]
    · have h := lookup_filter entries name other
      simp only [if_neg ho] at h ⊢
      simpa [assign, List.lookup_cons, beq_eq_false_iff_ne.2 ho] using h

/-- A file keeps its content when another node is replaced. -/
theorem node?_replace_of_file {entries : Entries} {names other : List String}
    {node : Option Node} {bytes : List UInt8} (hne : ¬ names <+: other)
    (hfile : entries.node? other = some (.file bytes)) :
    (entries.replace node names).node? other = some (.file bytes) := by
  fun_induction replace entries node names generalizing other with
  | case1 => exact hfile
  | case2 entries name =>
    match other with
    | [] => simp [node?] at hfile
    | [o] =>
      have ho : o ≠ name := fun h => hne (by simp [h])
      simpa [node?, lookup_assign, ho] using hfile
    | o :: p :: rest =>
      have ho : o ≠ name := fun h => hne (by simp [h])
      simpa [node?, lookup_assign, ho] using hfile
  | case3 entries name names hnames inside hinside ih =>
    match other with
    | [] => simp [node?] at hfile
    | [o] =>
      by_cases ho : o = name
      · subst ho; simp [node?, hinside] at hfile
      · simpa [node?, lookup_assign, ho] using hfile
    | o :: p :: rest =>
      by_cases ho : o = name
      · subst ho
        simp only [node?, hinside, lookup_assign, if_true] at hfile ⊢
        exact ih (fun h => hne (by simpa using h)) hfile
      · simpa [node?, lookup_assign, ho] using hfile
  | case4 => exact hfile

end Entries

/-- What there is below every anchor. -/
structure FileTree where
  below : List (Anchor × Entries)
  deriving Inhabited, Repr

namespace FileTree

def empty : FileTree := ⟨[]⟩

/-- What an anchor holds. -/
def entries (t : FileTree) (a : Anchor) : Entries := (t.below.lookup a).getD []

/-- What is at a place. -/
def node? (t : FileTree) (p : Place) : Option Node := (t.entries p.anchor).node? p.names.reverse

def replace (t : FileTree) (p : Place) (node : Option Node) : FileTree :=
  let changed := (t.entries p.anchor).replace node p.names.reverse
  ⟨(p.anchor, changed) :: t.below.filter (·.1 ≠ p.anchor)⟩

def put (t : FileTree) (p : Place) (node : Node) : FileTree := t.replace p (some node)

def drop (t : FileTree) (p : Place) : FileTree := t.replace p none

/-! ### Walking -/

/-- The last step of a path: a name, with or without a slash after it, or a directory that the path
reaches by dots alone. -/
inductive LastStep where
  | name (name : String) (slash : Bool)
  | dots (segment : String)
  deriving DecidableEq, Repr

/-- A path taken apart for walking. -/
structure Route where
  start : Place
  steps : List String
  last : LastStep
  deriving DecidableEq, Repr

/-- Paths are at most 4095 bytes long and hold no NUL. -/
def route (path : String) : Except FileError Route :=
  if path.toList.contains '\x00' then .error .nulInName
  else if path.isEmpty then .error .notFound
  else if 4095 < path.utf8ByteSize then .error .nameTooLong
  else
    let start := if Path.isAbsolute path then ⟨.root, []⟩ else Place.working
    let steps := (Path.segments path).filter (· ≠ "")
    match steps.reverse with
    | [] => .ok ⟨start, [], .dots "."⟩
    | final :: before =>
      let last :=
        if final = "." ∨ final = ".." then LastStep.dots final
        else .name final (path.toList.getLast? == some '/')
      .ok ⟨start, before.reverse, last⟩

/-- Where a walk stands: a directory and what it holds. -/
structure Standing where
  place : Place
  entries : Entries

/-- A name below a directory. -/
def child (here : Standing) (name : String) : Except FileError (Place × Option Node) :=
  if 255 < name.utf8ByteSize then .error .nameTooLong
  else .ok (here.place.child name, here.entries.lookup name)

/-- Stand at a place. -/
def stand (t : FileTree) (p : Place) : Except FileError Standing :=
  match t.node? p with
  | some (.directory entries) => .ok ⟨p, entries⟩
  | some (.file _) => .error .notDirectory
  | none => .error .notFound

/-- One step from a directory into another. -/
def step (t : FileTree) (here : Standing) (segment : String) : Except FileError Standing :=
  if segment = "." then .ok here
  else if segment = ".." then t.stand here.place.around
  else do
    match ← child here segment with
    | (next, some (.directory entries)) => .ok ⟨next, entries⟩
    | (_, some (.file _)) => .error .notDirectory
    | (_, none) => .error .notFound

/-- The directory in which the last step of a route is taken. -/
def walk (t : FileTree) (r : Route) : Except FileError Standing := do
  r.steps.foldlM t.step (← t.stand r.start)

/-- What a path leads to. -/
def resolve (t : FileTree) (path : String) : Except FileError (Place × Node) := do
  let r ← route path
  let here ← t.walk r
  match r.last with
  | .dots segment =>
    let there ← t.step here segment
    return (there.place, .directory there.entries)
  | .name name slash =>
    match ← child here name with
    | (_, none) => .error .notFound
    | (place, some (.file bytes)) =>
      if slash then .error .notDirectory else return (place, .file bytes)
    | (place, some (.directory entries)) => return (place, .directory entries)

/-! ### Operations -/

def exists? (t : FileTree) (path : String) : Bool := (t.resolve path).toBool

def isDirectory (t : FileTree) (path : String) : Bool :=
  match t.resolve path with
  | .ok (_, .directory _) => true
  | _ => false

def read (t : FileTree) (path : String) : Except FileError (List UInt8) := do
  match ← t.resolve path with
  | (_, .file bytes) => return bytes
  | (_, .directory _) => .error .isDirectory

/-- Write a file, whether it was there before or not. -/
def write (t : FileTree) (path : String) (bytes : List UInt8) : Except FileError FileTree := do
  let r ← route path
  let here ← t.walk r
  match r.last with
  | .dots _ => .error .isDirectory
  | .name name slash =>
    if slash then .error .isDirectory
    else
      match ← child here name with
      | (_, some (.directory _)) => .error .isDirectory
      | (place, _) => return t.put place (.file bytes)

def remove (t : FileTree) (path : String) : Except FileError FileTree := do
  let r ← route path
  let here ← t.walk r
  match r.last with
  | .dots _ => .error .isDirectory
  | .name name slash =>
    match ← child here name with
    | (_, none) => .error .notFound
    | (_, some (.directory _)) => .error .isDirectory
    | (place, some (.file _)) => if slash then .error .notDirectory else return t.drop place

/-- Make one directory. -/
def makeDirectory (t : FileTree) (path : String) : Except FileError FileTree := do
  let r ← route path
  let here ← t.walk r
  match r.last with
  | .dots _ => .error .alreadyExists
  | .name name _ =>
    match ← child here name with
    | (_, some _) => .error .alreadyExists
    | (place, none) => return t.put place (.directory [])

/-- Make a directory and, where they are missing, the ones around it. Whatever has been made before
a failure stays. -/
def makeDirectories (t : FileTree) (path : String) : Except FileError Unit × FileTree :=
  go (path.length + 1) t path
where
  /-- An existing directory is as good as a made one. -/
  settle (t : FileTree) (path : String) (e : FileError) : Except FileError Unit × FileTree :=
    if t.isDirectory path then (.ok (), t) else (.error e, t)
  go : (fuel : Nat) → FileTree → String → Except FileError Unit × FileTree
    | 0, t, _ => (.ok (), t)
    | fuel + 1, t, path =>
      if path.isEmpty then (.ok (), t)
      else
        match t.makeDirectory path with
        | .ok t => (.ok (), t)
        | .error e =>
          if e ≠ .notFound then settle t path e
          else
            match Path.parent? path with
            | none => (.error e, t)
            | some parent =>
              match go fuel t parent with
              | (.error e, t) => (.error e, t)
              | (.ok (), t) =>
                match t.makeDirectory path with
                | .ok t => (.ok (), t)
                | .error e => settle t path e

end FileTree

end SigningProxy
