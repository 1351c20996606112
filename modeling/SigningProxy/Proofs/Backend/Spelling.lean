import SigningProxy.Proofs.Backend
import SigningProxy.Proofs.Http.Parsed
import SigningProxy.Proofs.Text.Blank
import SigningProxy.Proofs.Text.Word

/-!
# How an address spells a backend

Behind the name of its scheme an address is cut at four places, and each cut is at the first separator. What
the cuts leave is a backend in proper form: the authority ends where the path begins, and the path where the
query does. Such a backend is found again in its own written form, since nothing in a part ends it too early.
So an address names exactly the backend in proper form whose written form it holds, up to the case of the
scheme, the blanks around it and what follows a `#`.

The blanks are taken away before the `#` is looked for. A blank that stands before a `#` therefore belongs to
the backend, and is lost when its written form is read.
-/

namespace SigningProxy.Backend

variable {b : Backend} {scheme : Scheme} {address : String} {s rest : List Char}

/-! ### The parts behind the scheme -/

/-- The backend's parts are cut where they can be found again. -/
structure Proper (b : Backend) : Prop where
  authority_ne : b.authority ≠ ""
  authority : ∀ c ∈ b.authority.toList, c ≠ '/' ∧ c ≠ '?' ∧ c ≠ '#'
  plain : b.Plain

/-- The written form behind the scheme. -/
def body (b : Backend) : List Char :=
  b.authority.toList ++ Uri.withQuery b.path.toList b.query

theorem toList_text (b : Backend) :
    b.text.toList = b.scheme.text.toList ++ "://".toList ++ b.body := by
  rw [text, body]
  cases b.query <;> simp [Uri.withQuery]

/-- The stretch that an authority takes up where nothing follows a `#`. -/
def authorityOf (s : List Char) : List Char := s.takeWhile fun c => c ≠ '/' && c ≠ '?'

/-- The backend that stands behind a scheme. -/
def ofBody (scheme : Scheme) (s : List Char) : Backend :=
  let tail := s.drop (authorityOf s).length
  ⟨scheme, String.ofList (authorityOf s), (cutQuery tail).1, (cutQuery tail).2⟩

theorem withQuery_cutQuery (s : List Char) :
    Uri.withQuery (cutQuery s).1.toList (cutQuery s).2 = s := by
  rw [cutQuery]
  split
  · next path query hcut =>
    rw [Uri.withQuery, String.toList_ofList, String.toList_ofList]
    exact (Text.eq_of_cut? hcut).symm
  · rw [Uri.withQuery, String.toList_ofList]

theorem mark_notMem_cutQuery (s : List Char) : '?' ∉ (cutQuery s).1.toList := by
  rw [cutQuery]
  split
  · next path query hcut =>
    rw [String.toList_ofList]
    exact (Text.cut?_eq_some_iff.mp hcut).2
  · next hcut =>
    rw [String.toList_ofList]
    exact Text.cut?_eq_none_iff.mp hcut

theorem plain_of_cutQuery {authority : String} (hhead : ∀ c, s.head? = some c → c = '/' ∨ c = '?')
    (hhash : '#' ∉ s) : Plain ⟨scheme, authority, (cutQuery s).1, (cutQuery s).2⟩ := by
  have hmark := mark_notMem_cutQuery s
  have hparts := withQuery_cutQuery s
  generalize cutQuery s = cut at hmark hparts ⊢
  obtain ⟨path, query⟩ := cut
  have hpath : path.toList <+: s := by
    rw [← hparts]
    cases query with
    | none => exact List.prefix_rfl
    | some query => exact List.prefix_append _ _
  constructor
  · cases hfirst : path.toList with
    | nil => exact .inl (String.toList_eq_nil_iff.mp hfirst)
    | cons c rest =>
        right
        obtain ⟨behind, hbehind⟩ := hpath
        rcases hhead c (by rw [← hbehind, hfirst]; rfl) with rfl | rfl
        · rfl
        · exact absurd (hfirst ▸ List.mem_cons_self) hmark
  · intro c hc
    constructor
    · rintro rfl
      exact hmark hc
    · rintro rfl
      exact hhash (hpath.mem hc)
  · rintro q rfl hmem
    apply hhash
    rw [← hparts]
    exact List.mem_append_right _ (List.mem_cons_of_mem _ hmem)

theorem cutQuery_withQuery {path : String} (hpath : '?' ∉ path.toList) (query : Option String) :
    cutQuery (Uri.withQuery path.toList query) = (path, query) := by
  rw [cutQuery]
  cases query with
  | none => rw [Uri.withQuery, Text.cut?_eq_none_iff.mpr hpath, String.ofList_toList]
  | some query =>
      rw [Uri.withQuery, Text.cut?_append hpath]
      simp only [String.ofList_toList]

theorem body_ofBody (scheme : Scheme) (s : List Char) : (ofBody scheme s).body = s := by
  rw [body, ofBody, withQuery_cutQuery, String.toList_ofList, authorityOf, Text.drop_takeWhile]
  exact List.takeWhile_append_dropWhile

theorem authorityOf_body (hb : b.Proper) : authorityOf b.body = b.authority.toList := by
  have hauthority : ∀ c ∈ b.authority.toList, (c ≠ '/' && c ≠ '?') = true := by
    intro c hc
    obtain ⟨hslash, hmark, -⟩ := hb.authority c hc
    simp [hslash, hmark]
  rw [authorityOf, body, List.takeWhile_append_of_pos hauthority]
  -- What follows is empty or begins with a separator.
  have htail : (Uri.withQuery b.path.toList b.query).takeWhile (fun c => c ≠ '/' && c ≠ '?') = [] := by
    rcases hb.plain.rooted with hpath | hpath
    · rw [hpath]
      cases b.query <;> rfl
    · obtain ⟨path, hpath⟩ := List.head?_eq_some_iff.mp hpath
      rw [hpath]
      cases b.query <;> rfl
  rw [htail, List.append_nil]

theorem ofBody_body (hb : b.Proper) : ofBody b.scheme b.body = b := by
  have hmark : '?' ∉ b.path.toList := fun hmem => (hb.plain.path '?' hmem).1 rfl
  have htail : b.body.drop b.authority.toList.length = Uri.withQuery b.path.toList b.query := by
    rw [body, List.drop_left]
  rw [ofBody, authorityOf_body hb, htail, cutQuery_withQuery hmark, String.ofList_toList]

theorem proper_ofBody (scheme : Scheme) (hauthority : authorityOf s ≠ []) (hhash : '#' ∉ s) :
    (ofBody scheme s).Proper where
  authority_ne := by
    intro hempty
    apply hauthority
    rw [← String.toList_ofList (l := authorityOf s)]
    exact congrArg String.toList hempty
  authority := by
    intro c hc
    rw [ofBody, String.toList_ofList] at hc
    have hstops := List.all_eq_true.mp List.all_takeWhile c hc
    rw [Bool.and_eq_true, decide_eq_true_eq, decide_eq_true_eq] at hstops
    refine ⟨hstops.1, hstops.2, ?_⟩
    rintro rfl
    exact hhash ((List.takeWhile_prefix _).mem hc)
  plain := by
    apply plain_of_cutQuery
    · intro c hc
      rw [authorityOf, Text.drop_takeWhile] at hc
      have hstop := Text.eq_false_of_head?_dropWhile hc
      by_cases hslash : c = '/'
      · exact .inl hslash
      · exact .inr (by simpa [hslash] using hstop)
    · intro hmem
      exact hhash (List.mem_of_mem_drop hmem)

/-! ### Addresses -/

/-- Without the blanks around it, the address has the name of a scheme before its first `://`, in any case,
and `rest` behind it. -/
def Names (address : String) (scheme : Scheme) (rest : List Char) : Prop :=
  ∃ word, Text.FirstAt "://".toList (Text.trim address.toList) word rest ∧
    word.map Char.toLower = scheme.text.toList

theorem ofText?_eq_some_iff {name : List Char} :
    Scheme.ofText? (String.ofList name) = some scheme ↔ name = scheme.text.toList := by
  rw [← String.toList_ofList (l := name), String.toList_inj, String.ofList_toList]
  cases scheme <;> grind [Scheme.ofText?, Scheme.text]

theorem names_iff_cutWord? : Names address scheme rest ↔
    ∃ word, Text.cutWord? "://".toList (Text.trim address.toList) = some (word, rest) ∧
      Scheme.ofText? (String.ofList (word.map Char.toLower)) = some scheme := by
  simp only [Names, Text.cutWord?_eq_some_iff, ofText?_eq_some_iff]

theorem authorityOf_takeWhile (rest : List Char) :
    authorityOf (rest.takeWhile (· ≠ '#')) = Uri.authorityText rest := by
  rw [authorityOf, Uri.authorityText, List.takeWhile_takeWhile]
  congr 1
  funext c
  simp

/-- **What is read from an address that names a scheme.** -/
theorem parse_of_names (hnames : Names address scheme rest) :
    parse address =
      if Uri.authorityText rest = [] then .error (.missingHost address)
      else .ok (ofBody scheme (rest.takeWhile (· ≠ '#'))) := by
  obtain ⟨word, hcut, hscheme⟩ := names_iff_cutWord?.mp hnames
  rw [parse, hcut]
  dsimp only
  rw [hscheme]
  simp only [List.isEmpty_iff]
  rw [← authorityOf_takeWhile]
  rfl

theorem exists_names_of_parse (hparse : parse address = .ok b) :
    ∃ scheme rest, Names address scheme rest := by
  unfold parse at hparse
  split at hparse
  · cases hparse
  · next word rest hcut =>
    dsimp only at hparse
    split at hparse
    · cases hparse
    · next scheme hscheme =>
      exact ⟨scheme, rest, names_iff_cutWord?.mpr ⟨word, hcut, hscheme⟩⟩

theorem parse_eq_ok_iff : parse address = .ok b ↔
    ∃ rest, Names address b.scheme rest ∧ b.Proper ∧ b.body = rest.takeWhile (· ≠ '#') := by
  constructor
  · intro hparse
    obtain ⟨scheme, rest, hnames⟩ := exists_names_of_parse hparse
    rw [parse_of_names hnames] at hparse
    split at hparse
    · cases hparse
    · next hauthority =>
      cases hparse
      rw [← authorityOf_takeWhile] at hauthority
      refine ⟨rest, hnames, proper_ofBody scheme hauthority ?_, body_ofBody scheme _⟩
      intro hmem
      exact absurd (List.mem_takeWhile_imp hmem) (by decide)
  · rintro ⟨rest, hnames, hb, hbody⟩
    have hauthority : Uri.authorityText rest ≠ [] := by
      rw [← authorityOf_takeWhile, ← hbody, authorityOf_body hb]
      intro hnil
      exact hb.authority_ne (String.toList_eq_nil_iff.mp hnil)
    rw [parse_of_names hnames, if_neg hauthority, ← hbody, ofBody_body hb]

theorem plain_of_parse (hparse : parse address = .ok b) : b.Plain := by
  obtain ⟨rest, -, hb, -⟩ := parse_eq_ok_iff.mp hparse
  exact hb.plain

/-- **Reading loses nothing.** An address is read as a backend exactly if the backend is in proper form and
its written form is what the address holds behind the name of its scheme, up to the first `#`. -/
theorem parse_iff_spelled : parse address = .ok b ↔ b.Proper ∧
    ∃ rest, Names address b.scheme rest ∧
      b.text.toList = b.scheme.text.toList ++ "://".toList ++ rest.takeWhile (· ≠ '#') := by
  simp only [toList_text, List.append_cancel_left_eq, parse_eq_ok_iff]
  constructor
  · rintro ⟨rest, hnames, hb, hbody⟩
    exact ⟨hb, rest, hnames, hbody⟩
  · rintro ⟨hb, rest, hnames, hbody⟩
    exact ⟨rest, hnames, hb, hbody⟩

example : parse " HTTPS://h//a?b?://c#d?#e " = .ok ⟨.https, "h", "//a", some "b?://c"⟩ := rfl

/-! ### Written forms -/

theorem trim_text (b : Backend) :
    Text.trim b.text.toList =
      b.scheme.text.toList ++ "://".toList ++ b.body.rdropWhile Text.isBlank := by
  rw [toList_text]
  cases b.scheme <;> exact Text.trim_append (by decide) (by decide) (by decide) _

theorem names_text (b : Backend) : Names b.text b.scheme (b.body.rdropWhile Text.isBlank) := by
  have hcolon : ':' ∉ b.scheme.text.toList := by cases b.scheme <;> decide
  refine ⟨b.scheme.text.toList, ?_, by cases b.scheme <;> rfl⟩
  rw [trim_text]
  exact Text.firstAt_of_notMem hcolon

theorem hash_notMem_body (hb : b.Proper) : '#' ∉ b.body := by
  rw [body, List.mem_append, not_or]
  refine ⟨fun hmem => (hb.authority '#' hmem).2.2 rfl, ?_⟩
  have hpath : '#' ∉ b.path.toList := fun hmem => (hb.plain.path '#' hmem).2 rfl
  cases hquery : b.query with
  | none => exact hpath
  | some query =>
      rw [Uri.withQuery, List.mem_append, List.mem_cons]
      rintro (hmem | hmark | hmem)
      · exact hpath hmem
      · exact absurd hmark (by decide)
      · exact hb.plain.query query hquery hmem

theorem body_ne_nil (hb : b.Proper) : b.body ≠ [] := by
  intro hnil
  rw [body, List.append_eq_nil_iff] at hnil
  exact hb.authority_ne (String.toList_eq_nil_iff.mp hnil.1)

/-- A stretch at the front of the body begins with the authority, unless it is empty. -/
theorem authorityText_eq_nil_iff (hb : b.Proper) {kept : List Char} (hkept : kept <+: b.body) :
    Uri.authorityText kept = [] ↔ kept = [] := by
  constructor
  · intro hnil
    cases kept with
    | nil => rfl
    | cons c kept =>
        have hauthority : b.authority.toList ≠ [] :=
          fun h => hb.authority_ne (String.toList_eq_nil_iff.mp h)
        obtain ⟨d, more, hmore⟩ := List.exists_cons_of_ne_nil hauthority
        rw [body, hmore, List.cons_append, List.cons_prefix_cons] at hkept
        obtain ⟨hslash, hmark, hhash⟩ := hb.authority d (hmore ▸ List.mem_cons_self)
        rw [hkept.1, Uri.authorityText,
          List.takeWhile_cons_of_pos (by simp [hslash, hmark, hhash])] at hnil
        cases hnil
  · rintro rfl
    rfl

/-- **A written form is read without the blanks it ends in.** -/
theorem parse_text (hb : b.Proper) :
    parse b.text =
      if b.body.rdropWhile Text.isBlank = [] then .error (.missingHost b.text)
      else .ok (ofBody b.scheme (b.body.rdropWhile Text.isBlank)) := by
  have hkept : b.body.rdropWhile Text.isBlank <+: b.body := List.rdropWhile_prefix Text.isBlank _
  have hhash : (b.body.rdropWhile Text.isBlank).takeWhile (· ≠ '#') =
      b.body.rdropWhile Text.isBlank := by
    apply Uri.takeWhile_of_no_hash
    exact fun hmem => hash_notMem_body hb (hkept.mem hmem)
  rw [parse_of_names (names_text b), hhash]
  simp only [authorityText_eq_nil_iff hb hkept]

theorem parse_text_eq_ok_iff (hb : b.Proper) :
    parse b.text = .ok b ↔ b.body.rdropWhile Text.isBlank = b.body := by
  rw [parse_text hb]
  constructor
  · intro hparse
    split at hparse
    · cases hparse
    · have hread := congrArg body (Except.ok.inj hparse)
      rwa [body_ofBody] at hread
  · intro hkept
    rw [hkept, if_neg (body_ne_nil hb), ofBody_body hb]

theorem endsBlank_text_iff (hb : b.Proper) : Text.EndsBlank b.text.toList ↔ Text.EndsBlank b.body := by
  rw [Text.EndsBlank, Text.EndsBlank, toList_text, List.getLast?_append_of_ne_nil _ (body_ne_nil hb)]

/-- A body that ends in a blank has been cut off at a `#` behind it, as the address ends in no blank. -/
theorem exists_blank_before_hash (hnames : Names address scheme rest)
    (hends : Text.EndsBlank (rest.takeWhile (· ≠ '#'))) :
    ∃ front c back, rest = front ++ c :: '#' :: back ∧ '#' ∉ front ∧ Text.isBlank c = true := by
  obtain ⟨front, c, hfront, hblank⟩ := Text.endsBlank_iff.mp hends
  have hsplit : front ++ [c] ++ rest.dropWhile (· ≠ '#') = rest := by
    rw [← hfront]
    exact List.takeWhile_append_dropWhile
  have hhash : '#' ∉ front := by
    intro hmem
    have hcut : '#' ∈ rest.takeWhile (· ≠ '#') := hfront ▸ List.mem_append_left _ hmem
    exact absurd (List.mem_takeWhile_imp hcut) (by decide)
  cases hdrop : rest.dropWhile (· ≠ '#') with
  | nil =>
      rw [hdrop, List.append_nil] at hsplit
      obtain ⟨word, hfirst, -⟩ := hnames
      have htrim : (Text.trim address.toList).getLast? = some c := by
        rw [hfirst.eq, ← hsplit, ← List.append_assoc, List.getLast?_concat]
      rw [Text.eq_false_of_end_strip (.inr htrim)] at hblank
      cases hblank
  | cons d back =>
      have hd : d = '#' := by
        simpa using Text.eq_false_of_head?_dropWhile (congrArg List.head? hdrop)
      rw [hdrop, hd, List.append_assoc] at hsplit
      exact ⟨front, c, back, hsplit.symm, hhash, hblank⟩

/-- **When a written form is read as the same backend:** exactly if it ends in no blank. Otherwise it is read
as another backend, or as none for want of a host, and the address has a blank directly before the `#` at
which it is cut off. -/
theorem reparse_of_parse (hparse : parse address = .ok b) :
    (parse b.text = .ok b ↔ ¬ Text.EndsBlank b.text.toList) ∧
    (Text.EndsBlank b.text.toList →
      parse b.text = .error (.missingHost b.text) ∨
        ∃ other, other ≠ b ∧ parse b.text = .ok other) ∧
    (Text.EndsBlank b.text.toList → ∃ front c back,
      Names address b.scheme (front ++ c :: '#' :: back) ∧ '#' ∉ front ∧
        Text.isBlank c = true) := by
  obtain ⟨rest, hnames, hb, hbody⟩ := parse_eq_ok_iff.mp hparse
  have hsame : parse b.text = .ok b ↔ ¬ Text.EndsBlank b.text.toList := by
    rw [parse_text_eq_ok_iff hb, Text.rdropWhile_eq_self_iff_not_endsBlank, endsBlank_text_iff hb]
  refine ⟨hsame, ?_, ?_⟩
  · intro hends
    cases hread : parse b.text with
    | ok other =>
        right
        refine ⟨other, ?_, rfl⟩
        rintro rfl
        exact hsame.mp hread hends
    | error cause =>
        left
        rw [parse_text hb] at hread
        split at hread
        · exact hread.symm
        · cases hread
  · intro hends
    rw [endsBlank_text_iff hb, hbody] at hends
    obtain ⟨front, c, back, hrest, hhash, hblank⟩ := exists_blank_before_hash hnames hends
    exact ⟨front, c, back, hrest ▸ hnames, hhash, hblank⟩

/-- A blank in the query is lost, and with it the backend; an authority of blanks leaves no host. -/
theorem reparse_of_parse_blank_ends :
    let asked : Backend := ⟨.http, "h", "", some "a=1 "⟩
    let bare : Backend := ⟨.http, " ", "", none⟩
    parse "HTTP://h?a=1 #end" = .ok asked ∧ parse asked.text ≠ .ok asked ∧
      parse asked.text = .ok ⟨.http, "h", "", some "a=1"⟩ ∧
      parse "http:// #" = .ok bare ∧ parse bare.text ≠ .ok bare ∧
      parse bare.text = .error (.missingHost bare.text) := by
  intro asked bare
  have hasked : parse "HTTP://h?a=1 #end" = .ok asked := by rfl
  have hbare : parse "http:// #" = .ok bare := by rfl
  have haskedText : asked.text = "http://h?a=1 " := by decide
  have hbareText : bare.text = "http:// " := by decide
  have haskedEnds : Text.EndsBlank asked.text.toList := by decide
  have hbareEnds : Text.EndsBlank bare.text.toList := by decide
  refine ⟨hasked, ?_, ?_, hbare, ?_, ?_⟩
  · exact fun hsame => (reparse_of_parse hasked).1.mp hsame haskedEnds
  · rw [haskedText]
    rfl
  · exact fun hsame => (reparse_of_parse hbare).1.mp hsame hbareEnds
  · rw [hbareText]
    rfl

end SigningProxy.Backend
