import SigningProxy.Proofs.Key.Concurrent

/-!
# Calls one after the other

Calls that do not overlap take their steps undisturbed, so each of them is one question to the store. What the
store keeps can then be told from what the calls have returned: it is the first key among the results, and
nothing as long as there is none. A call made when nothing is kept looks at the file once, as it is at that
moment; one made later does not look at all.
-/

namespace SigningProxy

/-- The path that an error names. -/
def KeyError.path : KeyError → String
  | .read path _ | .decode path _ | .length path _ _ => path

theorem Key.path_of_decode {path : String} {content : List UInt8} {cause : KeyError}
    (hdecode : Key.decode path content = .error cause) : cause.path = path := by
  rw [Key.decode] at hdecode
  split at hdecode
  · cases hdecode
    rfl
  · split at hdecode
    · cases hdecode
    · cases hdecode
      rfl

theorem KeyStore.path_of_fetch {path : String} {files : FileTree} {cause : KeyError}
    (hfetch : fetch path files = .error cause) : cause.path = path := by
  rw [fetch] at hfetch
  split at hfetch
  · cases hfetch
    rfl
  · exact Key.path_of_decode hfetch

/-- What happens between two calls, or a call. -/
inductive Occasion where
  | change (files : FileTree)
  | call

namespace Callers

variable (c : Callers)

/-- A call that begins when the others are over, and takes all its steps. -/
def lone : List Move := .begin :: .replicate callSteps (.turn c.calls.length)

def attend : Occasion → Callers
  | .change files => c.step (.change files)
  | .call => c.run c.lone

/-- One occasion after the other. -/
def after (occasions : List Occasion) : Callers := occasions.foldl attend c

/-- The first key that a call has returned. -/
def firstKey : Option Key := c.results.findSome? Except.toOption

/-- How often a move looks at the files: a call does so in its second step. -/
def looksAt : Move → Nat
  | .turn caller =>
    match c.calls[caller]? with
    | some .reading => 1
    | _ => 0
  | _ => 0

def looks (c : Callers) : List Move → Nat
  | [] => 0
  | m :: moves => c.looksAt m + (c.step m).looks moves

/-! ### A lone call -/

/-- The steps of a lone call are one question to the store. -/
theorem run_lone : c.run c.lone =
    ⟨c.files, (c.store.value c.files).store, c.calls ++ [.returned (c.store.value c.files).result],
      c.log ++ (c.store.value c.files).log⟩ := by
  obtain ⟨files, ⟨path, key⟩, calls, log⟩ := c
  cases key with
  | some key => simp [lone, callSteps, List.replicate, step, advance, KeyStore.value]
  | none =>
      rcases hread : files.read path with cause | content
      · simp [lone, callSteps, List.replicate, step, advance, KeyStore.value, KeyStore.fetch, hread]
      · rcases hdecode : Key.decode path content with cause | key <;>
          simp [lone, callSteps, List.replicate, step, advance, KeyStore.value, KeyStore.fetch, hread,
            hdecode]

theorem looks_lone : c.looks c.lone = if c.store.key.isSome then 0 else 1 := by
  obtain ⟨files, ⟨path, key⟩, calls, log⟩ := c
  cases key with
  | some key => simp [lone, callSteps, List.replicate, looks, looksAt, step, advance]
  | none =>
      rcases hread : files.read path with cause | content
      · simp [lone, callSteps, List.replicate, looks, looksAt, step, advance, hread]
      · rcases hdecode : Key.decode path content with cause | key <;>
          simp [lone, callSteps, List.replicate, looks, looksAt, step, advance, hread, hdecode]

/-! ### Many calls -/

/-- The files that are there after some occasions. -/
def present (files : FileTree) : List Occasion → FileTree
  | [] => files
  | .change changed :: occasions => present changed occasions
  | .call :: occasions => present files occasions

theorem files_after (occasions : List Occasion) :
    (c.after occasions).files = present c.files occasions := by
  induction occasions generalizing c with
  | nil => rfl
  | cons occasion occasions ih =>
      cases occasion with
      | change files => exact ih _
      | call =>
          have hlater := ih (c.run c.lone)
          rw [run_lone] at hlater
          rw [present, ← hlater, ← run_lone]
          rfl

theorem firstKey_lone :
    (c.run c.lone).firstKey = c.firstKey.or (c.store.value c.files).result.toOption := by
  rw [run_lone, firstKey, firstKey, results, results, List.filterMap_append, List.findSome?_append]
  simp

/-- The store keeps the first key that has been returned, and this alone. -/
def KeepsFirst (path : String) (c : Callers) : Prop := c.store = ⟨path, c.firstKey⟩

theorem KeepsFirst.attend {path : String} {c : Callers} (hkeeps : c.KeepsFirst path)
    (occasion : Occasion) : (c.attend occasion).KeepsFirst path := by
  cases occasion with
  | change files => exact hkeeps
  | call =>
      have hstore : c.store = ⟨path, c.firstKey⟩ := hkeeps
      rw [Callers.attend, KeepsFirst, firstKey_lone, run_lone, KeyStore.store_value,
        KeyStore.result_value, hstore]
      cases c.firstKey <;> rfl

theorem KeepsFirst.after {path : String} {c : Callers} (hkeeps : c.KeepsFirst path)
    (occasions : List Occasion) : (c.after occasions).KeepsFirst path := by
  induction occasions generalizing c with
  | nil => exact hkeeps
  | cons occasion occasions ih => exact ih (hkeeps.attend occasion)

/-- How a store answers a call that is made when the others are over. The steps of the call are this answer.
The first key that has been returned is given again, without a look at the files and without a word. As long
as there is none, the answer is what the file is at this moment, and a failure leaves the store as it is. -/
structure Answers (path : String) (c : Callers) (answer : KeyStore.Answer) : Prop where
  steps : c.run c.lone =
    ⟨c.files, answer.store, c.calls ++ [.returned answer.result], c.log ++ answer.log⟩
  kept : ∀ key, c.firstKey = some key →
    answer.result = .ok key ∧ answer.store = c.store ∧ answer.log = [] ∧ c.looks c.lone = 0
  unreadable : c.firstKey = none → ∀ cause, c.files.read path = .error cause →
    answer.result = .error (.read path cause)
  readable : c.firstKey = none → ∀ content, c.files.read path = .ok content →
    answer.result = Key.decode path content
  failed : ∀ cause, answer.result = .error cause → answer.store = c.store ∧ cause.path = path

theorem answers_of_keepsFirst {path : String} {c : Callers} (hkeeps : c.KeepsFirst path) :
    c.Answers path (c.store.value c.files) := by
  have hpath : c.store.path = path := congrArg KeyStore.path hkeeps
  have hkey : c.store.key = c.firstKey := congrArg KeyStore.key hkeeps
  refine ⟨c.run_lone, ?kept, ?unreadable, ?readable, ?failed⟩
  case kept =>
    intro key hfirst
    rw [hfirst] at hkey
    rw [looks_lone, KeyStore.value_of_some hkey, hkey]
    exact ⟨rfl, rfl, rfl, rfl⟩
  case unreadable =>
    intro hnone cause hread
    rw [KeyStore.result_value, hkey, hnone, hpath]
    show KeyStore.fetch path c.files = _
    rw [KeyStore.fetch, hread]
  case readable =>
    intro hnone content hread
    rw [KeyStore.result_value, hkey, hnone, hpath]
    show KeyStore.fetch path c.files = _
    rw [KeyStore.fetch, hread]
  case failed =>
    intro cause hfailed
    rw [KeyStore.result_value] at hfailed
    rcases hkept : c.store.key with _ | kept
    · rw [hkept] at hfailed
      rw [KeyStore.value_of_failed hkept hfailed]
      exact ⟨rfl, KeyStore.path_of_fetch (hpath ▸ hfailed)⟩
    · rw [hkept] at hfailed
      cases hfailed

/-- **A store gives the first key that it could read, and nothing else after it.** -/
theorem answers_after (path : String) (files : FileTree) (before : List Occasion) :
    let c := (start files (KeyStore.new path)).after before
    c.files = present files before ∧ c.Answers path (c.store.value c.files) := by
  have hkeeps : (start files (KeyStore.new path)).KeepsFirst path := rfl
  exact ⟨files_after _ before, answers_of_keepsFirst (hkeeps.after before)⟩

end Callers

end SigningProxy
