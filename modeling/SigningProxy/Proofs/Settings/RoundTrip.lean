import SigningProxy.Settings.File
import SigningProxy.Proofs.Files.Tree
import SigningProxy.Proofs.Json.Records

/-!
# Saved settings are loaded again

Every setting is written, except a header timeout that there is none of, and that is also what the
standard settings have. So it does not matter what is read over: a record of settings overrides all
that can differ from them. The path is not written, but loading puts it in.
-/

namespace SigningProxy.Settings

variable {s : Settings} {path : String} {files : FileTree}

/-! ### The record -/

theorem known_entries (s : Settings) : ∀ entry ∈ s.entries, Json.Known spec entry := by
  have hcount : ∀ n : UInt64, n.toNat < Json.countBound := fun n => n.toNat_lt
  intro entry hentry
  simp only [entries, List.cons_append, List.nil_append, List.mem_cons, List.mem_append,
    Option.mem_toList, Option.map_eq_some_iff, List.not_mem_nil, or_false] at hentry
  rcases hentry with rfl | rfl | rfl | rfl | rfl | rfl | rfl | ⟨limit, -, rfl⟩ | rfl | rfl
  · exact ⟨_, rfl, .text _⟩
  · exact ⟨_, rfl, .text _⟩
  · exact ⟨_, rfl, .path _⟩
  · exact ⟨_, rfl, .text _⟩
  · exact ⟨_, rfl, .count (hcount _)⟩
  · exact ⟨_, rfl, .count (hcount _)⟩
  · exact ⟨_, rfl, .count (hcount _)⟩
  · exact ⟨_, rfl, .present (hcount _)⟩
  · exact ⟨_, rfl, .count (hcount _)⟩
  · exact ⟨_, rfl, .text _⟩

theorem nodup_entries (s : Settings) : (s.entries.map (·.1)).Nodup := by
  unfold entries
  cases s.headerTimeout <;> simp

theorem missing?_eq_none (entries : Json.Entries) : spec.missing? entries = none := by
  rfl

/-- The settings come out of their entries, whatever file they are put under. -/
theorem override_entries (s : Settings) (path : String) :
    (standard path).override s.entries = { s with path } := by
  obtain ⟨old, listen, backend, secretPath, version, dial, alive, handshake, header, request, told⟩ := s
  cases header <;> simp [entries, override, assign, standard]

/-- Settings are read back from any object that holds their entries. -/
theorem read_object {document : List Char} (hobject : Json.Object spec s.entries document)
    (path : String) : read path (Utf8.bytes document) = .ok { s with path } := by
  have hread := Json.readRecord_object hobject (nodup_entries s) (missing?_eq_none s.entries)
  rw [read, hread]
  exact congrArg Except.ok (override_entries s path)

theorem read_writeCompact (s : Settings) (path : String) :
    read path (Utf8.encode s.writeCompact) = .ok { s with path } :=
  read_object (Json.object_writeCompact (known_entries s)) path

theorem read_write (s : Settings) (path : String) : read path s.write = .ok { s with path } :=
  read_object (Json.object_writePretty (known_entries s)) path

/-! ### The file -/

namespace Attempt

variable {α β : Type} {a : Attempt α} {next : FileTree → α → Attempt β}

@[simp] theorem result_telling (a : Attempt α) (record : Record) :
    (a.telling record).result = a.result := rfl

@[simp] theorem files_telling (a : Attempt α) (record : Record) :
    (a.telling record).files = a.files := rfl

theorem result_andThen_eq_ok {b : β} :
    (a.andThen next).result = .ok b ↔
      ∃ value, a.result = .ok value ∧ (next a.files value).result = .ok b := by
  unfold andThen
  cases a.result <;> simp

theorem files_andThen {value : α} (hresult : a.result = .ok value) :
    (a.andThen next).files = (next a.files value).files := by
  unfold andThen
  rw [hresult]

@[simp] theorem result_andThen_done (a : Attempt α) (record : α → Record) :
    (a.andThen fun files value => (done files value).telling (record value)).result = a.result := by
  unfold andThen
  cases a.result <;> rfl

@[simp] theorem files_andThen_done (a : Attempt α) (record : α → Record) :
    (a.andThen fun files value => (done files value).telling (record value)).files = a.files := by
  unfold andThen
  cases a.result <;> rfl

end Attempt

/-- Saving succeeds only by writing the file, after whatever it takes to have a directory for it. -/
theorem exists_write_of_save (hsave : (s.save files).result = .ok ()) :
    ∃ between : FileTree, between.write s.path s.write = .ok (s.save files).files := by
  unfold save at hsave ⊢
  rw [Attempt.result_telling] at hsave
  rw [Attempt.files_telling]
  obtain ⟨⟨⟩, hparent, hwrite⟩ := Attempt.result_andThen_eq_ok.mp hsave
  rw [Attempt.files_andThen hparent]
  refine ⟨(makeParent s.path files).files, ?_⟩
  unfold writeFile at hwrite ⊢
  split at hwrite
  · next written heq =>
    rw [heq]
    rfl
  · cases hwrite

theorem readFile_of_text {content : List UInt8} (hread : files.read path = .ok content)
    {text : String} (htext : Utf8.decode? content = some text) :
    readFile path files = (read path content).mapError (.malformed path) := by
  have hisText : ¬ (Utf8.decode? content).isNone = true := by simp [htext]
  rw [readFile, hread]
  change (if (Utf8.decode? content).isNone then _ else _) = _
  rw [if_neg hisText]

theorem result_load_of_exists (hexists : files.exists? path = true) :
    (load path files).result = readFile path files := by
  unfold load
  rw [if_pos hexists, Attempt.result_telling, Attempt.result_andThen_done]

/-- Where there is no file, loading is saving the standard settings. -/
theorem load_eq_save (habsent : files.exists? path = false) :
    (load path files).result = (((standard path).save files).result.map fun () => standard path) ∧
      (load path files).files = ((standard path).save files).files := by
  unfold load saveStandard
  rw [if_neg (Bool.eq_false_iff.mp habsent), Attempt.result_telling, Attempt.result_andThen_done,
    Attempt.files_telling, Attempt.files_andThen_done]
  unfold Attempt.andThen
  rw [Attempt.result_telling, Attempt.files_telling, Attempt.result_telling, Attempt.files_telling]
  cases ((standard path).save files).result <;> exact ⟨rfl, rfl⟩

theorem load_of_absent (habsent : files.exists? path = false)
    (hload : (load path files).result = .ok s) :
    s = standard path ∧ (s.save files).result = .ok () ∧
      (load path files).files = (s.save files).files := by
  obtain ⟨hresult, hfiles⟩ := load_eq_save habsent
  rw [hresult] at hload
  cases hsave : ((standard path).save files).result with
  | error cause =>
      rw [hsave] at hload
      cases hload
  | ok done =>
      rw [hsave] at hload
      cases hload
      exact ⟨rfl, hsave, hfiles⟩

/-- Saved settings are loaded from their file. -/
theorem load_save (hsave : (s.save files).result = .ok ()) :
    (load s.path (s.save files).files).result = .ok s := by
  obtain ⟨between, hwrite⟩ := exists_write_of_save hsave
  have hread := FileTree.read_write hwrite
  rw [result_load_of_exists (FileTree.exists_of_read hread),
    readFile_of_text hread (Utf8.decode?_encode _), read_write]
  rfl

/-- **What has been written is what is read:** the settings on one line, the saved settings, and the
standard settings that loading has saved because there was no file. -/
theorem load_written (s : Settings) (path : String) (files : FileTree) :
    read path (Utf8.encode s.writeCompact) = .ok { s with path } ∧
      ((s.save files).result = .ok () → (load s.path (s.save files).files).result = .ok s) ∧
      (files.exists? path = false → (load path files).result = .ok s →
        (load path (load path files).files).result = .ok s) := by
  refine ⟨read_writeCompact s path, load_save, fun habsent hload => ?_⟩
  obtain ⟨rfl, hsave, hfiles⟩ := load_of_absent habsent hload
  rw [hfiles]
  exact load_save hsave

/-- Texts that have to be escaped, limits at both ends, and a directory that has to be made. -/
def extreme : Settings :=
  { standard "conf/authpx.json" with
    listen := "\"\\/\x01\n\x7f"
    version := ""
    keepAlive := 18446744073709551615
    headerTimeout := some 0
    requestTimeout := 0
    requestTimeoutMessage := "zu spät \u2028 🔒" }

theorem load_written_extreme :
    (extreme.save .empty).result = .ok () ∧
      FileTree.empty.exists? "conf/authpx.json" = false ∧
      (load "conf/authpx.json" .empty).result = .ok (standard "conf/authpx.json") ∧
      (load "conf/authpx.json" (extreme.save .empty).files).result = .ok extreme ∧
      (load "conf/authpx.json" (load "conf/authpx.json" .empty).files).result
        = .ok (standard "conf/authpx.json") :=
  ⟨rfl, by decide, rfl, (load_written extreme "" .empty).2.1 rfl,
    (load_written (standard "conf/authpx.json") "conf/authpx.json" .empty).2.2 (by decide) rfl⟩

end SigningProxy.Settings
