import SigningProxy.Program.Options
import SigningProxy.Proofs.Settings.RoundTrip

/-!
# Which settings are in force

What the options say goes before what the file says, and that before the standard settings. A file is
read over the standard settings entry by entry, so the induction adds the entries one by one behind
those that are there, and an entry of a new name touches no setting but its own.
-/

namespace SigningProxy.Settings

/-- The text that a record gives, if it does. -/
def text? (entries : Json.Entries) (name : String) : Option String :=
  match entries.lookup name with
  | some (.text value) => some value
  | _ => none

/-- The limit that a record gives, if it does. To say that it is absent is not to give one. -/
def limit? (entries : Json.Entries) (name : String) : Option UInt64 :=
  match entries.lookup name with
  | some (.count value) => some (.ofNat value)
  | _ => none

/-- The settings in force with a file at `path` that holds these entries, and these options. -/
def inForce (path : String) (entries : Json.Entries) (o : Options) : Settings where
  path := path
  listen := (o.listen <|> text? entries "listen").getD (default : Settings).listen
  backend := (o.backend <|> text? entries "upstream").getD (default : Settings).backend
  secretPath := (o.secretPath <|> text? entries "secret_path").getD (default : Settings).secretPath
  version := (text? entries "version").getD (default : Settings).version
  dialTimeout := (limit? entries "dial_timeout_secs").getD (default : Settings).dialTimeout
  keepAlive := (limit? entries "keep_alive_secs").getD (default : Settings).keepAlive
  handshakeTimeout :=
    (limit? entries "tls_handshake_timeout_secs").getD (default : Settings).handshakeTimeout
  headerTimeout :=
    limit? entries "response_header_timeout_secs" <|> (default : Settings).headerTimeout
  requestTimeout := (limit? entries "request_timeout_secs").getD (default : Settings).requestTimeout
  requestTimeoutMessage :=
    (text? entries "request_timeout_message").getD (default : Settings).requestTimeoutMessage

section

variable {entries : Json.Entries} {entry : String × Json.Scalar}

theorem lookup_append_self {name : String} (hfresh : name ∉ entries.map (·.1))
    (value : Json.Scalar) : (entries ++ [(name, value)]).lookup name = some value := by
  rw [List.lookup_append, Json.lookup_eq_none hfresh, Option.none_or, List.lookup_cons_self]

theorem text?_append_self {name : String} (hfresh : name ∉ entries.map (·.1)) (value : String) :
    text? (entries ++ [(name, .text value)]) name = some value := by
  rw [text?, lookup_append_self hfresh]

theorem limit?_append_self {name : String} (hfresh : name ∉ entries.map (·.1)) (value : Nat) :
    limit? (entries ++ [(name, .count value)]) name = some (.ofNat value) := by
  rw [limit?, lookup_append_self hfresh]

theorem limit?_append_absent {name : String} (hfresh : name ∉ entries.map (·.1)) :
    limit? (entries ++ [(name, .absent)]) name = none := by
  rw [limit?, lookup_append_self hfresh]

theorem lookup_append_other {name other : String} (hother : other ≠ name) (value : Json.Scalar) :
    (entries ++ [(name, value)]).lookup other = entries.lookup other := by
  rw [List.lookup_append, List.lookup_cons, beq_eq_false_iff_ne.mpr hother]
  exact Option.or_none

theorem text?_append_other {name other : String} (hother : other ≠ name) (value : Json.Scalar) :
    text? (entries ++ [(name, value)]) other = text? entries other := by
  rw [text?, lookup_append_other hother, ← text?]

theorem limit?_append_other {name other : String} (hother : other ≠ name) (value : Json.Scalar) :
    limit? (entries ++ [(name, value)]) other = limit? entries other := by
  rw [limit?, lookup_append_other hother, ← limit?]

theorem exists_field_of_known (hknown : Json.Known spec entry) :
    ∃ field ∈ spec.fields, entry.1 = field.name ∧ Json.Fits field.kind entry.2 := by
  obtain ⟨field, hfind, hfits⟩ := hknown
  refine ⟨field, List.mem_of_find?_eq_some hfind, ?_, hfits⟩
  have hname := List.find?_some hfind
  exact (beq_iff_eq.mp hname).symm

/-- One more entry of a new name changes the setting of that name. -/
theorem assign_inForce (path : String) (hknown : Json.Known spec entry)
    (hfresh : entry.1 ∉ entries.map (·.1)) :
    (inForce path entries .standard).assign entry.1 entry.2
      = inForce path (entries ++ [entry]) .standard := by
  have habsent : (default : Settings).headerTimeout = none := rfl
  obtain ⟨field, hfield, hname, hfits⟩ := exists_field_of_known hknown
  obtain ⟨name, value⟩ := entry
  simp only [spec, List.mem_cons, List.not_mem_nil, or_false] at hfield
  dsimp only at hname hfits hfresh ⊢
  rcases hfield with rfl | rfl | rfl | rfl | rfl | rfl | rfl | rfl | rfl | rfl <;> subst hname <;>
    cases hfits <;>
    simp (disch := decide) [inForce, assign, Options.standard, habsent, text?_append_self hfresh,
      limit?_append_self hfresh, limit?_append_absent hfresh, text?_append_other, limit?_append_other]

theorem override_inForce (path : String) (seen : Json.Entries)
    (hknown : ∀ entry ∈ entries, Json.Known spec entry)
    (honce : ((seen ++ entries).map (·.1)).Nodup) :
    (inForce path seen .standard).override entries = inForce path (seen ++ entries) .standard := by
  induction entries generalizing seen with
  | nil =>
      rw [List.append_nil]
      rfl
  | cons entry entries ih =>
      have hfresh : entry.1 ∉ seen.map (·.1) := by
        rw [List.map_append, List.nodup_append] at honce
        intro hmem
        exact honce.2.2 _ hmem _ List.mem_cons_self rfl
      have hassign := assign_inForce path (hknown entry List.mem_cons_self) hfresh
      have hrest := ih (seen ++ [entry]) (fun e he => hknown e (List.mem_cons_of_mem _ he))
        (by simpa using honce)
      show ((inForce path seen .standard).assign entry.1 entry.2).override entries = _
      rw [hassign, hrest, List.append_assoc]
      rfl

theorem apply_inForce (path : String) (entries : Json.Entries) (o : Options) :
    o.apply (inForce path entries .standard) = inForce path entries o := by
  obtain ⟨_, _, listen, backend, secretPath⟩ := o
  cases listen <;> cases backend <;> cases secretPath <;> rfl

end

/-- **Loading a file and applying the options puts each setting in force:** what the option says, else
what the file says, else the standard. The file may hold members that nobody asked for. Their values may be
anything that the grammar allows, but their names must stand for a text, as a name with half a pair alone in it
does not. -/
theorem load_apply {path document : String} {files : FileTree} {entries : Json.Entries}
    (hfile : files.read path = .ok (Utf8.encode document))
    (hobject : Json.Object spec entries document.toList) (honce : (entries.map (·.1)).Nodup)
    (o : Options) :
    ∃ s, (load path files).result = .ok s ∧ o.apply s = inForce path entries o := by
  refine ⟨inForce path entries .standard, ?_, apply_inForce path entries o⟩
  have hread := Json.readRecord_object hobject honce (missing?_eq_none entries)
  have hoverride := override_inForce path [] (Json.known_of_object hobject) honce
  rw [result_load_of_exists (FileTree.exists_of_read hfile),
    readFile_of_text hfile (Utf8.decode?_encode document), read, Utf8.encode_eq_bytes, hread]
  exact congrArg Except.ok hoverride

/-- A name with an escape, something that nobody asked for, and a limit that is said to be absent. -/
def sample : String :=
  "\x7b\"\\u006Cisten\":\":80\",\n\"x\":\x7b\"\":[\"\\uD800\"]\x7d,\n\"response_header_timeout_secs\":null\x7d"

section

open Json

/-- The first half of a pair, alone. -/
theorem inside_half : Inside ['\\', 'u', 'D', '8', '0', '0'] :=
  .code (.digits (m := 13) (n := 8) (k := 0) (l := 0) (by decide) (by decide) (by decide) (by decide)) .nil

theorem object_sample :
    Object spec [("listen", .text ":80"), ("response_header_timeout_secs", .absent)]
      sample.toList := by
  have hbreak : Gap ['\n'] := by decide
  have hl : CharSpelling 'l' ['\\', 'u', '0', '0', '6', 'C'] :=
    .code (.digits (m := 0) (n := 0) (k := 6) (l := 12) (by decide) (by decide) (by decide)
      (by decide))
  have hlisten : Spelling "listen".toList (['\\', 'u', '0', '0', '6', 'C'] ++ "isten".toList) :=
    .cons hl (spelling_plain (by decide))
  have haddress : Spelling ":80".toList ":80".toList := spelling_plain (by decide)
  have hknown : Known spec ("listen", .text ":80") := ⟨_, rfl, .text _⟩
  have hfirst := Member.known hknown (.marks hlisten) gap_nil gap_nil (.text (.marks haddress))
  have hlist := Derives.bracket (.last (.element gap_nil (.string inside_half) gap_nil))
  have hvalue := Derives.bracket (.last (.member gap_nil .nil gap_nil gap_nil hlist gap_nil))
  have hx : Quoted "x" ('"' :: ("x".toList ++ ['"'])) := .marks (spelling_plain (by decide))
  have hsecond : Member spec [] _ := .unknown rfl hx gap_nil gap_nil hvalue
  have habsent : Known spec ("response_header_timeout_secs", .absent) := ⟨_, rfl, .absent⟩
  have hheader : Spelling "response_header_timeout_secs".toList
      "response_header_timeout_secs".toList := spelling_plain (by decide)
  have hlast := Member.known habsent (.marks hheader) gap_nil gap_nil .absent
  have hmembers := Members.more gap_nil hfirst gap_nil
    (.more hbreak hsecond gap_nil (.last hbreak hlast gap_nil))
  have hobject := Object.members gap_nil hmembers gap_nil
  simpa [sample, Frame.marks] using hobject

end

/-- A working directory with that file. -/
def sampleTree : FileTree := ⟨[(.above 0, [("authpx.json", .file (Utf8.encode sample))])]⟩

theorem load_apply_sample :
    sampleTree.read "authpx.json" = .ok (Utf8.encode sample) ∧
      Json.Object spec [("listen", .text ":80"), ("response_header_timeout_secs", .absent)]
        sample.toList ∧
      ∃ s, (load "authpx.json" sampleTree).result = .ok s ∧
        ({ Options.standard with secretPath := some "key" } : Options).apply s
          = { standard "authpx.json" with listen := ":80", secretPath := "key" } :=
  ⟨rfl, object_sample, load_apply rfl object_sample (by decide) _⟩

section

open Json

/-- An object with one member of a name that no text has: half a pair is alone in it. -/
def halfNamed : String := "\x7b\"\\uD800\":1\x7d"

theorem derives_halfNamed : Derives .value halfNamed.toList := by
  have hdigits : Digits ['1'] := ⟨by decide, List.forall_mem_singleton.mpr rfl⟩
  have hone : Numeral ['1'] := .positive (.parts (.digits (by decide) hdigits) .none .none)
  have hmember := Derives.member gap_nil inside_half gap_nil gap_nil (.number hone) gap_nil
  simpa [halfNamed, Frame.marks] using Derives.bracket (.last hmember)

/-- The grammar allows the document, and its one name is none that a setting has, and yet it is not read. -/
theorem load_half_name :
    let files : FileTree := ⟨[(.above 0, [("authpx.json", .file (Utf8.encode halfNamed))])]⟩
    files.read "authpx.json" = .ok (Utf8.encode halfNamed) ∧ Derives .value halfNamed.toList ∧
      (∀ text, ¬ Quoted text "\"\\uD800\"".toList) ∧
      (load "authpx.json" files).result = .error (.malformed "authpx.json" ⟨.cutSurrogate, 1, 9⟩) := by
  intro files
  have hfile : files.read "authpx.json" = .ok (Utf8.encode halfNamed) := rfl
  refine ⟨hfile, derives_halfNamed, ?_, ?_⟩
  · intro text hquoted
    obtain ⟨body, hbody, hread⟩ := readString_quoted hquoted
    cases hbody
    cases hread []
  · have hread : read "authpx.json" (Utf8.encode halfNamed) = .error ⟨.cutSurrogate, 1, 9⟩ := by
      rw [read, Utf8.encode_eq_bytes]
      rfl
    rw [result_load_of_exists (FileTree.exists_of_read hfile),
      readFile_of_text hfile (Utf8.decode?_encode halfNamed), hread]
    rfl

end

end SigningProxy.Settings
