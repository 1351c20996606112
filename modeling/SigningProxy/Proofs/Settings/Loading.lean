import SigningProxy.Proofs.Files.Growth
import SigningProxy.Proofs.Settings.RoundTrip

/-!
# What loading does to the files

Loading changes nothing where the path leads to something. Where it does not, the directories around it are made
and the standard settings are written. Whether there is a file is asked before the directories are made, and
then the path may lead to an old file after all: it is hidden as long as the path goes through a directory that
is missing and back by two dots. Such a file is overwritten, and no other one is.
-/

namespace SigningProxy

namespace Settings

variable {s : Settings} {path : String} {files t : FileTree}

theorem grownBy_makeParent (path : String) (files : FileTree) :
    FileTree.GrownBy (Path.Above path) files (makeParent path files).files := by
  rw [makeParent]
  split
  · exact .refl _ files
  · next parent hparent =>
    obtain ⟨hparent, -⟩ := Option.filter_eq_some_iff.mp hparent
    refine (FileTree.grownBy_makeDirectories files parent).mono ?_
    rintro above (rfl | habove)
    · exact .parent hparent
    · exact .further hparent habove

/-- Saving ends with the file written, or with the directories that could be made. -/
theorem save_cases (s : Settings) (files : FileTree) :
    let made := makeParent s.path files
    (made.result = .ok () ∧ made.files.write s.path s.write = .ok (s.save files).files ∧
        (s.save files).result = .ok ()) ∨
      ((made.result = .ok () → ∃ e, made.files.write s.path s.write = .error e) ∧
        (s.save files).files = made.files) := by
  unfold save Attempt.andThen writeFile
  rw [Attempt.result_telling, Attempt.files_telling]
  rcases makeParent s.path files with ⟨cause | done, made, log⟩
  · exact .inr ⟨nofun, rfl⟩
  · dsimp only
    cases made.write s.path s.write with
    | error cause => exact .inr ⟨fun _ => ⟨cause, rfl⟩, rfl⟩
    | ok written => exact .inl ⟨rfl, rfl, rfl⟩

/-- A file that is not found, but will be once the directories around the path have been made. -/
structure Hidden (path : String) (files : FileTree) (p : Place) (bytes : List UInt8) : Prop where
  absent : files.exists? path = false
  made : (makeParent path files).result = .ok ()
  leads : (makeParent path files).files.resolve path = .ok (p, .file bytes)

theorem Hidden.two_dots {p : Place} {bytes : List UInt8} (hhidden : Hidden path files p bytes) :
    ".." ∈ Path.segments path := by
  apply Decidable.byContradiction
  intro hdots
  have hresolve := FileTree.resolve_of_grown (grownBy_makeParent path files) hdots hhidden.leads
  have hexists : files.exists? path = true := by
    rw [FileTree.exists?, hresolve]
    rfl
  cases hhidden.absent.symm.trans hexists

theorem files_load_of_exists (hexists : files.exists? path = true) : (load path files).files = files := by
  unfold load
  rw [if_pos hexists, Attempt.files_telling, Attempt.files_andThen_done]

/-- What loading leads to where nothing is found. -/
theorem load_cases (habsent : files.exists? path = false) :
    let made := (makeParent path files).files
    ((makeParent path files).result = .ok () ∧
        made.write path (standard path).write = .ok (load path files).files ∧
        (load path files).result = .ok (standard path)) ∨
      (((makeParent path files).result = .ok () → ∃ e, made.write path (standard path).write = .error e) ∧
        (load path files).files = made) := by
  obtain ⟨hresult, hfiles⟩ := load_eq_save habsent
  rw [hresult, hfiles]
  refine (save_cases (standard path) files).imp_left fun ⟨hmade, hwrite, hsave⟩ => ?_
  rw [hsave]
  exact ⟨hmade, hwrite, rfl⟩

theorem Hidden.overwritten {p : Place} {bytes : List UInt8} (hhidden : Hidden path files p bytes) :
    (load path files).result = .ok (standard path) ∧
      (load path files).files.kind? p = some (.file (standard path).write) := by
  obtain ⟨-, hwrite, hloaded⟩ | ⟨hrefused, -⟩ := load_cases hhidden.absent
  · exact ⟨hloaded, FileTree.kind?_write_of_resolve hwrite hhidden.leads⟩
  · obtain ⟨e, hrefused⟩ := hrefused hhidden.made
    obtain ⟨t, hwrite⟩ := FileTree.exists_write_of_resolve hhidden.leads (standard path).write
    cases hwrite.symm.trans hrefused

theorem keepsDirectories_load (path : String) (files : FileTree) :
    files.KeepsDirectories (load path files).files := by
  cases hexists : files.exists? path with
  | true =>
      rw [files_load_of_exists hexists]
      exact fun _ held hheld => ⟨held, hheld⟩
  | false =>
      have hmade := (grownBy_makeParent path files).keepsDirectories
      obtain ⟨-, hwrite, -⟩ | ⟨-, hfiles⟩ := load_cases hexists
      · exact hmade.trans (FileTree.keepsDirectories_write hwrite)
      · rwa [hfiles]

/-- What loading can do at a place: it makes a directory around the path, or it writes the file, which is new if
it has not been hidden. -/
inductive Change (path : String) (files : FileTree) (p : Place) : Prop
  | directory {above : String} {held : Entries} (habove : Path.Above path above)
    (hnone : files.kind? p = none)
    (hmade : (load path files).files.resolve above = .ok (p, .directory held))
  | file (hloaded : (load path files).result = .ok (standard path))
    (hwritten : (load path files).files.resolve path = .ok (p, .file (standard path).write))
    (hbefore : files.kind? p = none ∨ ∃ bytes, Hidden path files p bytes)

theorem change_of_load (habsent : files.exists? path = false) (p : Place) :
    (load path files).files.kind? p = files.kind? p ∨ Change path files p := by
  have hgrown := grownBy_makeParent path files
  obtain ⟨hmade, hwrite, hloaded⟩ | ⟨-, hfiles⟩ := load_cases habsent
  · obtain ⟨place, hresolve, hkind, hbefore⟩ := FileTree.kind?_write hwrite
    rw [hkind p]
    split
    · next hplace =>
      subst hplace
      refine .inr (.file hloaded hresolve ?_)
      obtain hnone | ⟨old, hleads⟩ := hbefore
      · exact .inl (hgrown.kind?_eq_none hnone)
      · exact .inr ⟨old, habsent, hmade, hleads⟩
    · refine (hgrown p).imp_right fun ⟨hnone, above, held, habove, hmade⟩ => ?_
      obtain ⟨held', hmade'⟩ :=
        FileTree.resolve_directory (FileTree.keepsDirectories_write hwrite) hmade
      exact .directory habove hnone hmade'
  · rw [hfiles]
    refine (hgrown p).imp_right fun ⟨hnone, above, held, habove, hmade⟩ => ?_
    exact .directory habove hnone (hfiles ▸ hmade)

theorem keepsFiles_load_iff : files.KeepsFiles (load path files).files ↔
    ∀ p bytes, Hidden path files p bytes → bytes = (standard path).write := by
  have hgrown := grownBy_makeParent path files
  constructor
  · intro hkeeps p bytes hhidden
    have hold := hgrown.file_of_file
      (FileTree.kind?_of_resolve hhidden.leads)
    have hsame := (hkeeps p bytes hold).symm.trans hhidden.overwritten.2
    exact Node.Kind.file.inj (Option.some.inj hsame)
  · intro hsame
    cases hexists : files.exists? path with
    | true =>
        rw [files_load_of_exists hexists]
        exact .refl files
    | false =>
        rw [hgrown.keepsFiles_iff]
        obtain ⟨hmade, hwrite, -⟩ | ⟨-, hfiles⟩ := load_cases hexists
        · rw [FileTree.keepsFiles_write_iff hwrite]
          intro p bytes hleads
          exact hsame p bytes ⟨hexists, hmade, hleads⟩
        · rw [hfiles]
          exact .refl _

/-- **Loading overwrites a file only if two dots have hidden it.** Where the path leads to something, nothing
changes at all. Where it does not, nothing changes but that directories are made around the path and that the
standard settings are written where the path leads to, and loading succeeds only if they are. A hidden file keeps
its content only if it holds the standard settings already; every other file keeps it, by whatever path it is
read. -/
theorem load_changes (path : String) (files : FileTree) :
    let after := (load path files).files
    (files.exists? path = true → after = files) ∧
    (files.exists? path = false →
      (∀ p, after.kind? p = files.kind? p ∨ Change path files p) ∧
      ∀ s, (load path files).result = .ok s → s = { (default : Settings) with path } ∧
        after.read path = .ok s.write ∧ read path s.write = .ok s) ∧
    (files.KeepsFiles after ↔ ∀ p bytes, Hidden path files p bytes → bytes = (standard path).write) ∧
    (∀ p bytes, Hidden path files p bytes → ".." ∈ Path.segments path) ∧
    (files.KeepsFiles after →
      ∀ spelling bytes, files.read spelling = .ok bytes → after.read spelling = .ok bytes) := by
  refine ⟨files_load_of_exists, ?_, keepsFiles_load_iff, fun _ _ => Hidden.two_dots, ?_⟩
  · intro habsent
    refine ⟨change_of_load habsent, ?_⟩
    intro s hload
    obtain ⟨rfl, hsave, hfiles⟩ := load_of_absent habsent hload
    obtain ⟨between, hwrite⟩ := exists_write_of_save hsave
    rw [hfiles]
    exact ⟨rfl, FileTree.read_write hwrite, read_write _ path⟩
  · intro hkeeps spelling bytes hread
    exact FileTree.read_of_keepsFiles (keepsDirectories_load path files) hkeeps hread

/-- A file that is there stays when settings are loaded from a directory that is not. -/
theorem load_changes_beside :
    let files : FileTree := ⟨[(.above 0, [("key", .file [1, 2])])]⟩
    files.exists? "conf/authpx.json" = false ∧
      (load "conf/authpx.json" files).result = .ok (standard "conf/authpx.json") ∧
      files.read "./key" = .ok [1, 2] ∧ (load "conf/authpx.json" files).files.read "./key" = .ok [1, 2] := by
  intro files
  have habsent : files.exists? "conf/authpx.json" = false := by decide
  have hkey : files.read "./key" = .ok [1, 2] := rfl
  obtain ⟨-, -, hkeeps, hdots, hread⟩ := load_changes "conf/authpx.json" files
  have hnone : ".." ∉ Path.segments "conf/authpx.json" := by decide
  have hkept := hkeeps.mpr fun p bytes hhidden => absurd (hdots p bytes hhidden) hnone
  exact ⟨habsent, rfl, hkey, hread hkept "./key" [1, 2] hkey⟩

/-- Settings that are there are not found behind a directory that is missing, and are overwritten. -/
theorem hidden_settings_lost :
    let kept := Utf8.encode "\x7b\"listen\":\"0.0.0.0:9000\"\x7d"
    let files : FileTree := ⟨[(.above 0, [("authpx.json", .file kept)])]⟩
    let path := "missing/../authpx.json"
    files.exists? path = false ∧ (load path files).result = .ok (standard path) ∧
      files.read "authpx.json" = .ok kept ∧
      (load path files).files.read "authpx.json" = .ok (standard path).write ∧
      (standard path).write ≠ kept := by
  intro kept files path
  have hresolve : files.resolve "authpx.json" = .ok (⟨.above 0, ["authpx.json"]⟩, .file kept) := rfl
  have hhidden : Hidden path files ⟨.above 0, ["authpx.json"]⟩ kept := by
    unfold path files kept
    exact ⟨by decide, by rfl, by rfl⟩
  obtain ⟨hloaded, hlost⟩ := hhidden.overwritten
  have hlost' := FileTree.resolve_file (keepsDirectories_load path files)
    (FileTree.kind?_eq_file_iff.mp hlost) hresolve
  refine ⟨hhidden.absent, hloaded, rfl, Except.bind_eq_ok.mpr ⟨_, hlost', rfl⟩, ?_⟩
  -- The written settings have a line break behind their brace.
  rw [write, Utf8.encode, Json.toList_writePretty]
  intro hsame
  exact absurd (congrArg (·[1]?) hsame) (by decide)

end Settings

end SigningProxy
