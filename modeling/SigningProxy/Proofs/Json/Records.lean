import SigningProxy.Proofs.Json.Skipping

/-!
# Reading and writing records

The object that a record is read from may spell its names and values in any way, and may hold any
members of other names. What the reader does with one member does not depend on the others, except
that no field comes twice, and what it has read so far is a prefix of the record. So the induction goes
along the members, with anything behind the object. Both ways of writing a record give such an
object.
-/

namespace SigningProxy.Json

/-! ### Values -/

/-- The values that a field of some kind holds. -/
inductive Fits : FieldKind → Scalar → Prop
  | text (value : String) : Fits .text (.text value)
  | path (value : String) : Fits .path (.text value)
  | count {value : Nat} (h : value < countBound) : Fits .count (.count value)
  | present {value : Nat} (h : value < countBound) : Fits .optionalCount (.count value)
  | absent : Fits .optionalCount .absent

/-- How a value is spelled in a document. -/
inductive Spelled : Scalar → List Char → Prop
  | text {value : String} {s : List Char} : Quoted value s → Spelled (.text value) s
  | count (value : Nat) : Spelled (.count value) (toString value).toList
  | absent : Spelled .absent ['n', 'u', 'l', 'l']

theorem spelled_write (value : Scalar) : Spelled value value.write.toList := by
  cases value with
  | text value => exact .text (quoted_writeString value)
  | count value => exact .count value
  | absent => exact .absent

theorem readCount_digits {n : Nat} (hn : n < countBound) {gap rest : List UInt8}
    (hgap : Blank gap) (hrest : EndsNumber rest) :
    readCount (gap ++ (digits n ++ rest)) = .ok (.count n, rest) := by
  have hread := readNumber_digits hn hrest
  obtain ⟨d, hd, others, hdigits, -⟩ := digits_cases n hn
  have hdigit := isDigit_ofNat d hd
  have hminus : UInt8.ofNat (48 + d) ≠ 45 := ne_of_isDigit hdigit rfl
  rw [hdigits, List.cons_append] at hread ⊢
  simp only [readCount, skipSpace_blank hgap (isSpace_of_isDigit hdigit)]
  rw [if_pos hdigit, hread]
  rfl

theorem readText_quoted {value : String} {s : List Char} (hquoted : Quoted value s)
    {gap : List UInt8} (hgap : Blank gap) (expected : String) (rest : List UInt8) :
    readText expected (gap ++ (Utf8.bytes s ++ rest)) = .ok (.text value, rest) := by
  obtain ⟨body, hbody, hread⟩ := readString_quoted hquoted
  rw [hbody, List.cons_append]
  simp only [readText, skipSpace_blank hgap (show isSpace 34 = false from rfl), hread, bind,
    Except.bind]
  rfl

/-- **A spelled value is read** by a field that holds it. -/
theorem readScalar_spelled {kind : FieldKind} {value : Scalar} (hfits : Fits kind value)
    {s : List Char} (hspelled : Spelled value s) {gap rest : List UInt8} (hgap : Blank gap)
    (hrest : EndsNumber rest) :
    readScalar kind (gap ++ (Utf8.bytes s ++ rest)) = .ok (value, rest) := by
  cases hfits with
  | text value =>
      cases hspelled with
      | text hquoted => exact readText_quoted hquoted hgap _ rest
  | path value =>
      cases hspelled with
      | text hquoted => exact readText_quoted hquoted hgap _ rest
  | count h =>
      cases hspelled
      exact readCount_digits h hgap hrest
  | present h =>
      rename_i n
      cases hspelled
      obtain ⟨d, hd, others, hdigits, -⟩ := digits_cases n h
      have hdigit := isDigit_ofNat d hd
      have hread := readCount_digits h blank_nil hrest
      rw [List.nil_append, hdigits, List.cons_append] at hread
      change readScalar .optionalCount (gap ++ (digits n ++ rest)) = _
      rw [hdigits, List.cons_append]
      simp only [readScalar, skipSpace_blank hgap (isSpace_of_isDigit hdigit)]
      split
      · next heq => exact absurd (List.cons.inj heq).1 (ne_of_isDigit hdigit rfl)
      · exact hread
  | absent =>
      cases hspelled
      have hnull : Utf8.bytes ['n', 'u', 'l', 'l'] = 110 :: nullRest := rfl
      rw [hnull, List.cons_append]
      simp only [readScalar, skipSpace_blank hgap (show isSpace 110 = false from rfl)]
      rfl

/-! ### Objects -/

/-- The field under which a member is read. -/
def Known (spec : RecordSpec) (entry : String × Scalar) : Prop :=
  ∃ field, spec.fields.find? (·.name == entry.1) = some field ∧ Fits field.kind entry.2

/-- A member and the fields that it brings: one, or none if nobody asked for it. -/
inductive Member (spec : RecordSpec) : Entries → List Char → Prop
  | known {entry : String × Scalar} {name between gap s : List Char} :
      Known spec entry → Quoted entry.1 name → Gap between → Gap gap → Spelled entry.2 s →
      Member spec [entry] (name ++ (between ++ ':' :: (gap ++ s)))
  | unknown {text : String} {name between gap s : List Char} :
      spec.fields.find? (·.name == text) = none → Quoted text name → Gap between → Gap gap →
      Derives .value s → Member spec [] (name ++ (between ++ ':' :: (gap ++ s)))

inductive Members (spec : RecordSpec) : Entries → List Char → Prop
  | last {entries : Entries} {before s after : List Char} :
      Gap before → Member spec entries s → Gap after → Members spec entries (before ++ (s ++ after))
  | more {entries others : Entries} {before s after t : List Char} :
      Gap before → Member spec entries s → Gap after → Members spec others t →
      Members spec (entries ++ others) (before ++ (s ++ (after ++ ',' :: t)))

/-- A whole document, and the fields of the record in the order of the document. -/
inductive Object (spec : RecordSpec) : Entries → List Char → Prop
  | empty {before gap after : List Char} :
      Gap before → Gap gap → Gap after →
      Object spec [] (before ++ '\x7b' :: (gap ++ '\x7d' :: after))
  | members {entries : Entries} {before s after : List Char} :
      Gap before → Members spec entries s → Gap after →
      Object spec entries (before ++ '\x7b' :: (s ++ '\x7d' :: after))

theorem known_of_member {spec : RecordSpec} {entries : Entries} {s : List Char}
    (hmember : Member spec entries s) : ∀ entry ∈ entries, Known spec entry := by
  cases hmember with
  | known hknown => exact List.forall_mem_cons.mpr ⟨hknown, fun _ he => absurd he List.not_mem_nil⟩
  | unknown => exact fun _ he => absurd he List.not_mem_nil

theorem known_of_members {spec : RecordSpec} {entries : Entries} {s : List Char}
    (hmembers : Members spec entries s) : ∀ entry ∈ entries, Known spec entry := by
  induction hmembers with
  | last hbefore hmember hafter => exact known_of_member hmember
  | more hbefore hmember hafter hmembers ih =>
      intro entry hentry
      exact (List.mem_append.mp hentry).elim (known_of_member hmember entry) (ih entry)

theorem known_of_object {spec : RecordSpec} {entries : Entries} {s : List Char}
    (hobject : Object spec entries s) : ∀ entry ∈ entries, Known spec entry := by
  cases hobject with
  | empty => exact fun _ he => absurd he List.not_mem_nil
  | members hbefore hmembers hafter => exact known_of_members hmembers

/-! ### Reading -/

theorem readColon_gap {between : List UInt8} (hbetween : Blank between) (rest : List UInt8) :
    readColon (between ++ 58 :: rest) = .ok rest := by
  rw [readColon, skipSpace_blank hbetween rfl]
  rfl

theorem lookup_eq_none {entries : Entries} {name : String}
    (hfresh : name ∉ entries.map (·.1)) : entries.lookup name = none := by
  rw [List.lookup_eq_none_iff]
  intro entry hentry
  rw [bne_iff_ne]
  rintro rfl
  exact hfresh (List.mem_map_of_mem hentry)

/-- The bytes of a member, up to where its name has been read and beyond. -/
theorem exists_name_of_quoted {text : String} {name : List Char} (hname : Quoted text name)
    (between gap s : List Char) :
    ∃ body, Utf8.bytes (name ++ (between ++ ':' :: (gap ++ s)))
        = 34 :: (body ++ (Utf8.bytes between ++ 58 :: (Utf8.bytes gap ++ Utf8.bytes s))) ∧
      ∀ rest, readString (body ++ rest) = .ok (text, rest) := by
  obtain ⟨body, hbody, hread⟩ := readString_quoted hname
  refine ⟨body, ?_, hread⟩
  rw [Utf8.bytes_append, hbody, Utf8.bytes_append, Utf8.bytes_cons, Utf8.bytes_append]
  rfl

/-- One member is read, and what it brings is added to what has been read. -/
theorem readMember_member {spec : RecordSpec} {brought : Entries} {s : List Char}
    (hmember : Member spec brought s) :
    ∃ body, Utf8.bytes s = 34 :: body ∧
      ∀ seen rest, ((seen ++ brought).map (·.1)).Nodup → EndsNumber rest →
        readMember spec seen (body ++ rest) = .ok (seen ++ brought, rest) := by
  cases hmember with
  | known hknown hname hbetween hgap hspelled =>
      rename_i entry name between gap s
      obtain ⟨body, hbody, hread⟩ := exists_name_of_quoted hname between gap s
      refine ⟨_, hbody, fun seen rest hfresh hrest => ?_⟩
      obtain ⟨field, hfield, hfits⟩ := hknown
      have hlookup : seen.lookup entry.1 = none := by
        apply lookup_eq_none
        rw [List.map_append, List.nodup_append] at hfresh
        intro hmem
        exact hfresh.2.2 _ hmem _ (List.mem_singleton_self _) rfl
      have hvalue := readScalar_spelled hfits hspelled (blank_bytes hgap) hrest
      simp only [List.append_assoc, List.cons_append, readMember, hread, bind, Except.bind, hfield,
        hlookup, Option.isSome_none, Bool.false_eq_true, if_false,
        readColon_gap (blank_bytes hbetween), hvalue]
      rfl
  | unknown hunknown hname hbetween hgap hvalue =>
      rename_i text name between gap s
      obtain ⟨body, hbody, hread⟩ := exists_name_of_quoted hname between gap s
      refine ⟨_, hbody, fun seen rest hfresh hrest => ?_⟩
      have hskip := skipValue_derives hvalue (blank_bytes hgap) hrest
      simp only [List.append_assoc, List.cons_append, readMember, hread, bind, Except.bind,
        hunknown, readColon_gap (blank_bytes hbetween), hskip]
      rw [List.append_nil]
      rfl

section

variable {spec : RecordSpec} {fuel : Nat} {first : Bool} {seen : Entries} {rest : List UInt8}

theorem readMembers_append {gap : List UInt8} (hgap : Blank gap) :
    readMembers spec fuel first seen (gap ++ rest) = readMembers spec fuel first seen rest := by
  cases fuel with
  | zero => rfl
  | succ fuel => simp only [readMembers, skipSpace_append hgap]

/-- The comma in front of every member but the first. -/
def comma (first : Bool) : List UInt8 := if first then [] else [44]

theorem readMembers_member {brought : Entries} {before s after : List Char} (hbefore : Gap before)
    (hmember : Member spec brought s) (hafter : Gap after)
    (hfresh : ((seen ++ brought).map (·.1)).Nodup) (hrest : EndsNumber rest) :
    readMembers spec (fuel + 1) first seen
        (comma first ++ (Utf8.bytes before ++ (Utf8.bytes s ++ (Utf8.bytes after ++ rest))))
      = readMembers spec fuel false (seen ++ brought) rest := by
  obtain ⟨body, hbody, hread⟩ := readMember_member hmember
  have hread := hread seen _ hfresh (hrest.append (blank_bytes hafter))
  have hquote := skipSpace_blank (blank_bytes hbefore) (show isSpace 34 = false from rfl)
  rw [hbody, List.cons_append, readMembers]
  cases first with
  | true =>
      rw [comma, if_pos rfl, List.nil_append, hquote]
      simp only [if_true]
      rw [if_neg (by decide), hread]
      exact readMembers_append (blank_bytes hafter)
  | false =>
      rw [comma, if_neg Bool.false_ne_true, List.singleton_append, skipSpace_cons rfl]
      simp only [if_true, Bool.false_eq_true, if_false, hquote]
      rw [if_neg (by decide), hread]
      exact readMembers_append (blank_bytes hafter)

theorem readMembers_closing {gap : List UInt8} (hgap : Blank gap)
    (hcomplete : spec.missing? seen = none) :
    readMembers spec (fuel + 1) first seen (gap ++ 125 :: rest) = .ok (seen, rest) := by
  rw [readMembers, skipSpace_blank hgap rfl]
  simp only [if_true, hcomplete]

/-- Reading goes through all members that are left and stops behind the closing brace. -/
theorem readMembers_members {entries : Entries} {s : List Char} (hmembers : Members spec entries s)
    (hfuel : (Utf8.bytes s).length < fuel) (hfresh : ((seen ++ entries).map (·.1)).Nodup)
    (hcomplete : spec.missing? (seen ++ entries) = none) :
    readMembers spec fuel first seen (comma first ++ (Utf8.bytes s ++ 125 :: rest))
      = .ok (seen ++ entries, rest) := by
  induction hmembers generalizing fuel first seen with
  | last hbefore hmember hafter =>
      obtain ⟨body, hbody, -⟩ := readMember_member hmember
      have hpos := congrArg List.length hbody
      rw [List.length_cons] at hpos
      simp only [Utf8.bytes_append, List.length_append, List.append_assoc] at hfuel ⊢
      obtain ⟨fuel, rfl⟩ : ∃ left, fuel = left + 2 := ⟨fuel - 2, by omega⟩
      rw [readMembers_member hbefore hmember hafter hfresh (.cons (by decide) rest)]
      exact readMembers_closing blank_nil hcomplete
  | more hbefore hmember hafter hmembers ih =>
      rename_i entries others before s after t
      have hcomma : Utf8.bytes (',' :: t) = 44 :: Utf8.bytes t := rfl
      simp only [Utf8.bytes_append, hcomma, List.length_append, List.length_cons, List.append_assoc,
        List.cons_append] at hfuel ⊢
      obtain ⟨fuel, rfl⟩ : ∃ left, fuel = left + 1 := ⟨fuel - 1, by omega⟩
      rw [← List.append_assoc seen] at hfresh hcomplete ⊢
      have hends : EndsNumber (44 :: (Utf8.bytes t ++ 125 :: rest)) := .cons (by decide) _
      have hfirst : ((seen ++ entries).map (·.1)).Nodup := by
        rw [List.map_append] at hfresh
        exact (List.nodup_append.mp hfresh).1
      rw [readMembers_member hbefore hmember hafter hfirst hends]
      exact ih (by omega) hfresh hcomplete

theorem readRecord_braces {entries : Entries} {before inner after : List UInt8}
    (hbefore : Blank before) (hafter : Blank after)
    (hread : readMembers spec (inner.length + 1) true [] inner = .ok (entries, after)) :
    readRecord spec (before ++ 123 :: inner) = .ok entries := by
  have hend : skipSpace after = [] := by
    have hblank := skipSpace_append hafter []
    rwa [List.append_nil] at hblank
  simp only [readRecord, readEntries, skipSpace_blank hbefore (show isSpace 123 = false from rfl),
    hread, bind, Except.bind, hend]
  rfl

/-- **A record is read from its object,** if no field comes twice and all are there that have to be. -/
theorem readRecord_object {entries : Entries} {s : List Char} (hobject : Object spec entries s)
    (hfresh : (entries.map (·.1)).Nodup) (hcomplete : spec.missing? entries = none) :
    readRecord spec (Utf8.bytes s) = .ok entries := by
  have hbytes : ∀ before inner after, Utf8.bytes (before ++ '\x7b' :: (inner ++ '\x7d' :: after))
      = Utf8.bytes before ++ 123 :: (Utf8.bytes inner ++ 125 :: Utf8.bytes after) := by
    intro before inner after
    rw [Utf8.bytes_append, Utf8.bytes_cons, Utf8.bytes_append]
    rfl
  cases hobject with
  | empty hbefore hgap hafter =>
      rw [hbytes]
      apply readRecord_braces (blank_bytes hbefore) (blank_bytes hafter)
      exact readMembers_closing (blank_bytes hgap) hcomplete
  | members hbefore hmembers hafter =>
      rename_i before s after
      rw [hbytes]
      apply readRecord_braces (blank_bytes hbefore) (blank_bytes hafter)
      have hfuel : (Utf8.bytes s).length < (Utf8.bytes s ++ 125 :: Utf8.bytes after).length + 1 := by
        rw [List.length_append]
        omega
      exact readMembers_members hmembers hfuel hfresh hcomplete

end

/-! ### Writing -/

/-- A member on one line. -/
def writeMember (entry : String × Scalar) : String :=
  writeString entry.1 ++ ":" ++ entry.2.write

/-- A member on a line of its own. -/
def writeLine (entry : String × Scalar) : String :=
  "  " ++ writeString entry.1 ++ ": " ++ entry.2.write

theorem gap_nil : Gap [] := fun _ hc => absurd hc List.not_mem_nil

section

variable {spec : RecordSpec} {entry : String × Scalar} {entries : Entries}

theorem member_writeMember (hknown : Known spec entry) :
    ∃ s, (writeMember entry).toList = [] ++ s ∧ Member spec [entry] s := by
  have hmember := Member.known hknown (quoted_writeString entry.1) gap_nil gap_nil
    (spelled_write entry.2)
  exact ⟨_, by simp [writeMember], hmember⟩

theorem member_writeLine (hknown : Known spec entry) :
    ∃ s, (writeLine entry).toList = [' ', ' '] ++ s ∧ Member spec [entry] s := by
  have hgap : Gap [' '] := by decide
  have hmember := Member.known hknown (quoted_writeString entry.1) gap_nil hgap (spelled_write entry.2)
  exact ⟨_, by simp [writeLine], hmember⟩

/-- Members between a first and a last break: a separator is the comma and a break, and a line is a
member behind its indentation. -/
theorem members_intercalate (front indent back : List Char) {separator : String}
    {line : String × Scalar → String} (hseparator : separator.toList = ',' :: front)
    (hfront : Gap (front ++ indent)) (hback : Gap back)
    (hline : ∀ e ∈ entry :: entries, ∃ s, (line e).toList = indent ++ s ∧ Member spec [e] s) :
    Members spec (entry :: entries)
      (front ++ ((separator.intercalate ((entry :: entries).map line)).toList ++ back)) := by
  induction entries generalizing entry with
  | nil =>
      obtain ⟨s, hs, hmember⟩ := hline entry List.mem_cons_self
      rw [List.map_singleton, String.intercalate_singleton, hs]
      simpa using Members.last hfront hmember hback
  | cons next entries ih =>
      obtain ⟨s, hs, hmember⟩ := hline entry List.mem_cons_self
      have hrest := ih fun e he => hline e (List.mem_cons_of_mem _ he)
      rw [List.map_cons] at hrest
      rw [List.map_cons, List.map_cons, String.intercalate_cons_cons, String.toList_append,
        String.toList_append, hseparator, hs]
      simpa using Members.more hfront hmember gap_nil hrest

/-- **A record on one line is its object.** -/
theorem object_writeCompact (hknown : ∀ entry ∈ entries, Known spec entry) :
    Object spec entries (writeCompact entries).toList := by
  have hwrite : (writeCompact entries).toList
      = '\x7b' :: ((",".intercalate (entries.map writeMember)).toList ++ ['\x7d']) := by
    show ("\x7b" ++ ",".intercalate (entries.map writeMember) ++ "\x7d").toList = _
    rw [String.toList_append, String.toList_append]
    rfl
  rw [hwrite]
  cases entries with
  | nil => exact .empty gap_nil gap_nil gap_nil
  | cons entry entries =>
      have hmembers := members_intercalate [] [] [] (show ",".toList = [','] from rfl) gap_nil
        gap_nil fun e he => member_writeMember (hknown e he)
      rw [List.nil_append, List.append_nil] at hmembers
      exact .members gap_nil hmembers gap_nil

theorem toList_writePretty (entries : Entries) : (writePretty entries).toList
    = '\x7b' :: ('\n' :: ((",\n".intercalate (entries.map writeLine)).toList ++ '\n' :: ['\x7d'])) := by
  show ("\x7b\n" ++ ",\n".intercalate (entries.map writeLine) ++ "\n\x7d").toList = _
  rw [String.toList_append, String.toList_append]
  rfl

/-- **A record with one member on each line is its object.** -/
theorem object_writePretty (hknown : ∀ entry ∈ entries, Known spec entry) :
    Object spec entries (writePretty entries).toList := by
  rw [toList_writePretty]
  cases entries with
  | nil =>
      have hbreaks : Gap ['\n', '\n'] := by decide
      exact .empty gap_nil hbreaks gap_nil
  | cons entry entries =>
      have hmembers := members_intercalate ['\n'] [' ', ' '] ['\n']
        (show ",\n".toList = [',', '\n'] from rfl) (by decide) (by decide)
        fun e he => member_writeLine (hknown e he)
      have hobject := Object.members gap_nil hmembers gap_nil
      simpa using hobject

end

end SigningProxy.Json
