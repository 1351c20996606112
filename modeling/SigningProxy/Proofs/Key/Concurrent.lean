import SigningProxy.Key.Concurrent
import SigningProxy.Proofs.Key.Store

/-!
# Which runs of concurrent calls keep the key

A call that has read the file publishes what it read without looking again whether a key is kept. So
what the store keeps depends on the published keys alone: it is the last of them. Everything that
could be said of a store whose key is given once and for all is true of a run exactly when all keys in
it are the same, the one that is kept at the start included; this is `stable_iff_agree`. Two calls that
read the file on both sides of a change are enough for a run in which they are not.

The invariant is `Current`: a call that has returned a key has returned the one that is kept. A move
keeps it if the key that the move publishes is the one that is kept already.
-/

namespace SigningProxy.Callers

/-! ### Moves -/

@[simp] theorem run_nil (c : Callers) : c.run [] = c := rfl

@[simp] theorem run_cons (c : Callers) (m : Move) (moves : List Move) :
    c.run (m :: moves) = (c.step m).run moves := rfl

theorem run_append (c : Callers) (before after : List Move) :
    c.run (before ++ after) = (c.run before).run after := List.foldl_append

/-- The key that a move publishes. -/
def publishes (c : Callers) : Move → Option Key
  | .turn caller =>
    match c.calls[caller]? with
    | some (.publishing key) => some key
    | _ => none
  | _ => none

def published (c : Callers) : List Move → List Key
  | [] => []
  | m :: moves => (c.publishes m).toList ++ (c.step m).published moves

theorem advance_store (files : FileTree) (store : KeyStore) (phase : Phase) :
    (advance files store phase).2.1 =
      match phase with
      | .publishing key => { store with key := some key }
      | _ => store := by
  cases phase with
  | asking => rcases hkey : store.key with _ | key <;> simp [advance, hkey]
  | reading => rfl
  | decoding content =>
      rcases content with cause | bytes
      · rfl
      · rcases hkey : Key.decode store.path bytes with cause | key <;> simp [advance, hkey]
  | publishing key => rfl
  | returned result => rfl

/-- The kept key changes by publishing only. -/
theorem key_step (c : Callers) (m : Move) :
    (c.step m).store.key = (c.publishes m).or c.store.key := by
  cases m with
  | begin => rfl
  | change files => rfl
  | turn caller =>
      rcases hphase : c.calls[caller]? with _ | phase
      · simp [step, publishes, hphase]
      · simp only [step, publishes, hphase, advance_store]
        cases phase <;> rfl

/-- A phase after a move is one from before, or that of a call that begins, or that of a call after
its next step. -/
theorem calls_step {c : Callers} {m : Move} {caller : Nat} {phase : Phase}
    (hphase : (c.step m).calls[caller]? = some phase) :
    c.calls[caller]? = some phase ∨
      (m = .begin ∧ caller = c.calls.length ∧ phase = .asking) ∨
      ∃ earlier, m = .turn caller ∧ c.calls[caller]? = some earlier ∧
        phase = (advance c.files c.store earlier).1 := by
  cases m with
  | begin =>
      change (c.calls ++ [Phase.asking])[caller]? = some phase at hphase
      rw [List.getElem?_append] at hphase
      split at hphase
      · exact Or.inl hphase
      · next hlen =>
        rw [List.getElem?_singleton] at hphase
        split at hphase
        · next hzero =>
          refine Or.inr (Or.inl ⟨rfl, by omega, ?_⟩)
          exact (Option.some.inj hphase).symm
        · cases hphase
  | change files => exact Or.inl hphase
  | turn turned =>
      rcases hearlier : c.calls[turned]? with _ | earlier
      · simp only [step, hearlier] at hphase
        exact Or.inl hphase
      · simp only [step, hearlier] at hphase
        rw [List.getElem?_set] at hphase
        split at hphase
        · next heq =>
          subst heq
          split at hphase
          · exact Or.inr (Or.inr ⟨earlier, rfl, hearlier, (Option.some.inj hphase).symm⟩)
          · cases hphase
        · exact Or.inl hphase

theorem calls_turn {c : Callers} {caller : Nat} {phase : Phase}
    (hphase : c.calls[caller]? = some phase) :
    (c.step (.turn caller)).calls[caller]? = some (advance c.files c.store phase).1 := by
  obtain ⟨hlt, -⟩ := List.getElem?_eq_some_iff.mp hphase
  simp only [step, hphase]
  exact List.getElem?_set_self hlt

/-! ### Runs in which all keys are the same -/

/-- The keys of a run: the one that is kept at the start, if any, and the published ones. -/
def keys (c : Callers) (moves : List Move) : List Key := c.store.key.toList ++ c.published moves

def Agree (c : Callers) (moves : List Move) : Prop :=
  ∀ key ∈ c.keys moves, ∀ other ∈ c.keys moves, key = other

theorem Agree.mono {c d : Callers} {moves more : List Move} (hagree : c.Agree moves)
    (hkeys : ∀ key ∈ d.keys more, key ∈ c.keys moves) : d.Agree more :=
  fun key hkey other hother => hagree key (hkeys key hkey) other (hkeys other hother)

theorem mem_keys_of_step {c : Callers} {m : Move} {moves : List Move} {key : Key}
    (hkey : key ∈ (c.step m).keys moves) : key ∈ c.keys (m :: moves) := by
  rw [keys, List.mem_append, Option.mem_toList, key_step] at hkey
  rw [keys, published, List.mem_append, List.mem_append, Option.mem_toList, Option.mem_toList]
  rcases hkey with hkey | hkey
  · rcases hpublishes : c.publishes m with _ | new
    · rw [hpublishes, Option.none_or] at hkey
      exact Or.inl hkey
    · rw [hpublishes, Option.some_or] at hkey
      exact Or.inr (Or.inl hkey)
  · exact Or.inr (Or.inr hkey)

theorem Agree.step {c : Callers} {m : Move} {moves : List Move} (hagree : c.Agree (m :: moves)) :
    (c.step m).Agree moves :=
  hagree.mono fun _ => mem_keys_of_step

theorem Agree.run {c : Callers} {before after : List Move} (hagree : c.Agree (before ++ after)) :
    (c.run before).Agree after := by
  induction before generalizing c with
  | nil => exact hagree
  | cons m before ih => exact ih hagree.step

theorem Agree.publishes {c : Callers} {m : Move} {moves : List Move}
    (hagree : c.Agree (m :: moves)) {kept new : Key} (hkept : c.store.key = some kept)
    (hnew : c.publishes m = some new) : new = kept := by
  apply hagree
  · rw [keys, published, hnew]
    simp
  · rw [keys, hkept]
    simp

theorem Agree.kept_step {c : Callers} {m : Move} {moves : List Move}
    (hagree : c.Agree (m :: moves)) {key : Key} (hkept : c.store.key = some key) :
    (c.step m).store.key = some key := by
  rw [key_step]
  rcases hnew : c.publishes m with _ | new
  · exact hkept
  · rw [hagree.publishes hkept hnew, Option.some_or]

theorem Agree.kept {c : Callers} {after rest : List Move} (hagree : c.Agree (after ++ rest))
    {key : Key} (hkept : c.store.key = some key) : (c.run after).store.key = some key := by
  induction after generalizing c with
  | nil => exact hkept
  | cons m after ih => exact ih hagree.step (hagree.kept_step hkept)

/-- A call that has returned a key has returned the one that is kept. -/
def Current (c : Callers) : Prop :=
  ∀ (caller : Nat) (key : Key), c.calls[caller]? = some (.returned (.ok key)) →
    c.store.key = some key

theorem advance_eq_returned {files : FileTree} {store : KeyStore} {phase : Phase} {key : Key}
    (hphase : (advance files store phase).1 = .returned (.ok key)) :
    (phase = .asking ∧ store.key = some key) ∨ phase = .publishing key ∨
      phase = .returned (.ok key) := by
  cases phase with
  | asking =>
      rcases hkey : store.key with _ | kept
      · rw [advance, hkey] at hphase
        cases hphase
      · rw [advance, hkey] at hphase
        cases hphase
        exact Or.inl ⟨rfl, rfl⟩
  | reading => cases hphase
  | decoding content =>
      rcases content with cause | bytes
      · cases hphase
      · rcases hkey : Key.decode store.path bytes with cause | kept
        · rw [advance, hkey] at hphase
          cases hphase
        · rw [advance, hkey] at hphase
          cases hphase
  | publishing new =>
      cases hphase
      exact Or.inr (Or.inl rfl)
  | returned result =>
      cases hphase
      exact Or.inr (Or.inr rfl)

theorem Current.step {c : Callers} (hcurrent : c.Current) {m : Move} {moves : List Move}
    (hagree : c.Agree (m :: moves)) : (c.step m).Current := by
  intro caller key hphase
  rcases calls_step hphase with hold | ⟨-, -, hasking⟩ | ⟨earlier, rfl, hearlier, hnext⟩
  · exact hagree.kept_step (hcurrent caller key hold)
  · cases hasking
  · rcases advance_eq_returned hnext.symm with ⟨-, hkept⟩ | rfl | rfl
    · exact hagree.kept_step hkept
    · simp [key_step, Callers.publishes, hearlier]
    · exact hagree.kept_step (hcurrent caller key hearlier)

theorem Current.run {c : Callers} (hcurrent : c.Current) {before rest : List Move}
    (hagree : c.Agree (before ++ rest)) : (c.run before).Current := by
  induction before generalizing c with
  | nil => exact hcurrent
  | cons m before ih => exact ih (hcurrent.step hagree) hagree.step

theorem current_start (files : FileTree) (store : KeyStore) : (start files store).Current := by
  intro caller key hphase
  cases hphase

/-- The calls from a number on have not looked yet, or have returned this key. -/
def After (c : Callers) (first : Nat) (key : Key) : Prop :=
  ∀ caller ≥ first, ∀ phase, c.calls[caller]? = some phase →
    phase = .asking ∨ phase = .returned (.ok key)

theorem After.step {c : Callers} {first : Nat} {key : Key} (hafter : c.After first key)
    (hkept : c.store.key = some key) (m : Move) : (c.step m).After first key := by
  intro caller hcaller phase hphase
  rcases calls_step hphase with hold | ⟨-, -, hasking⟩ | ⟨earlier, -, hearlier, hnext⟩
  · exact hafter caller hcaller phase hold
  · exact Or.inl hasking
  · right
    rcases hafter caller hcaller earlier hearlier with rfl | rfl
    · rw [hnext, advance, hkept]
    · rw [hnext, advance]

theorem After.run {c : Callers} {first : Nat} {key : Key} {after rest : List Move}
    (hafter : c.After first key) (hkept : c.store.key = some key)
    (hagree : c.Agree (after ++ rest)) : (c.run after).After first key := by
  induction after generalizing c with
  | nil => exact hafter
  | cons m after ih => exact ih (hafter.step hkept m) (hagree.kept_step hkept) hagree.step

/-! ### Stability -/

/-- A run in which the kept key never changes, and every call that begins after one has returned a key
returns this key, at its first step. -/
structure Stable (c : Callers) (moves : List Move) : Prop where
  kept : ∀ before after, before ++ after <+: moves → ∀ key,
    (c.run before).store.key = some key → (c.run (before ++ after)).store.key = some key
  returns : ∀ before after, before ++ after <+: moves → ∀ (caller : Nat) (key : Key),
    (c.run before).calls[caller]? = some (.returned (.ok key)) →
    ∀ later ≥ (c.run before).calls.length, ∀ phase,
      (c.run (before ++ after)).calls[later]? = some phase →
      (phase = .asking ∨ phase = .returned (.ok key)) ∧
        ((c.run (before ++ after)).step (.turn later)).calls[later]? = some (.returned (.ok key))

theorem stable_of_agree {c : Callers} (hcurrent : c.Current) {moves : List Move}
    (hagree : c.Agree moves) : c.Stable moves where
  kept := by
    rintro before after ⟨rest, rfl⟩ key hkept
    rw [List.append_assoc] at hagree
    rw [run_append]
    exact hagree.run.kept hkept
  returns := by
    rintro before after ⟨rest, rfl⟩ caller key hreturned later hlater phase hphase
    rw [List.append_assoc] at hagree
    rw [run_append] at hphase ⊢
    have hkept := hcurrent.run hagree caller key hreturned
    have hafter : (c.run before).After (c.run before).calls.length key := by
      intro other hother phase hphase
      rw [List.getElem?_eq_none hother] at hphase
      cases hphase
    have hphases := hafter.run hkept hagree.run later hlater phase hphase
    refine ⟨hphases, ?_⟩
    rw [calls_turn hphase]
    rcases hphases with rfl | rfl
    · rw [advance, hagree.run.kept hkept]
    · rw [advance]

theorem agree_of_kept {c : Callers} {moves : List Move}
    (hkept : ∀ before after, before ++ after <+: moves → ∀ key,
      (c.run before).store.key = some key → (c.run (before ++ after)).store.key = some key) :
    c.Agree moves := by
  induction moves generalizing c with
  | nil =>
      intro key hkey other hother
      rw [keys, published, List.append_nil, Option.mem_toList] at hkey hother
      rw [hkey] at hother
      exact Option.some.inj hother
  | cons m moves ih =>
      have hagree : (c.step m).Agree moves := by
        apply ih
        intro before after hbegins
        exact hkept (m :: before) after (List.cons_prefix_cons.mpr ⟨rfl, hbegins⟩)
      -- What was kept or is published now is what is kept after the move.
      apply hagree.mono
      intro key hkey
      rw [keys, published, List.mem_append, List.mem_append, Option.mem_toList,
        Option.mem_toList] at hkey
      rw [keys, List.mem_append, Option.mem_toList]
      rcases hkey with hkey | hkey | hkey
      · exact Or.inl (hkept [] [m] ⟨moves, rfl⟩ key hkey)
      · left
        rw [key_step, hkey, Option.some_or]
      · exact Or.inr hkey

/-- **A run keeps its key exactly when all keys in it are the same.** -/
theorem stable_iff_agree (files : FileTree) (store : KeyStore) (moves : List Move) :
    (start files store).Stable moves ↔ (start files store).Agree moves :=
  ⟨fun hstable => agree_of_kept hstable.kept, stable_of_agree (current_start files store)⟩

/-! ### Files that spell one key -/

/-- The files that there are in a run, one after the other. -/
def trees (c : Callers) : List Move → List FileTree
  | [] => [c.files]
  | m :: moves => c.files :: (c.step m).trees moves

/-- A call in this phase publishes no other key than this one. -/
def Spells (path : String) (key : Key) : Phase → Prop
  | .decoding (.ok content) => ∀ new, Key.decode path content = .ok new → new = key
  | .publishing new => new = key
  | _ => True

theorem spells_advance {files : FileTree} {store : KeyStore} {key : Key} {phase : Phase}
    (hfiles : ∀ new, KeyStore.fetch store.path files = .ok new → new = key)
    (hphase : Spells store.path key phase) :
    Spells store.path key (advance files store phase).1 := by
  cases phase with
  | asking => rcases hkey : store.key with _ | kept <;> simp [advance, hkey, Spells]
  | reading =>
      rcases hread : files.read store.path with cause | content
      · simp [advance, hread, Spells]
      · simp only [advance, hread, Spells]
        intro new hnew
        apply hfiles
        rw [KeyStore.fetch, hread]
        exact hnew
  | decoding content =>
      rcases content with cause | content
      · trivial
      · rcases hdecode : Key.decode store.path content with cause | new
        · simp [advance, hdecode, Spells]
        · simp only [advance, hdecode, Spells]
          exact hphase new hdecode
  | publishing new => trivial
  | returned result => trivial

theorem path_step (c : Callers) (m : Move) : (c.step m).store.path = c.store.path := by
  cases m with
  | begin => rfl
  | change files => rfl
  | turn caller =>
      rcases hphase : c.calls[caller]? with _ | phase
      · simp [step, hphase]
      · simp only [step, hphase, advance_store]
        cases phase <;> rfl

theorem published_eq {c : Callers} {moves : List Move} {key : Key}
    (hfiles : ∀ files ∈ c.trees moves, ∀ new,
      KeyStore.fetch c.store.path files = .ok new → new = key)
    (hcalls : ∀ (caller : Nat) (phase : Phase), c.calls[caller]? = some phase →
      Spells c.store.path key phase) :
    ∀ new ∈ c.published moves, new = key := by
  induction moves generalizing c with
  | nil => exact fun _ hnew => absurd hnew List.not_mem_nil
  | cons m moves ih =>
      intro new hnew
      rw [published, List.mem_append, Option.mem_toList] at hnew
      rcases hnew with hnew | hnew
      · cases m with
        | begin => cases hnew
        | change files => cases hnew
        | turn caller =>
            rw [publishes] at hnew
            split at hnew
            · next hphase =>
              cases hnew
              exact hcalls caller _ hphase
            · cases hnew
      · refine ih ?_ ?_ new hnew
        · intro files hmem
          rw [path_step]
          exact hfiles files (List.mem_cons_of_mem _ hmem)
        · intro caller phase hphase
          rw [path_step]
          rcases calls_step hphase with hold | ⟨-, -, rfl⟩ | ⟨earlier, -, hearlier, rfl⟩
          · exact hcalls caller phase hold
          · trivial
          · exact spells_advance (hfiles c.files List.mem_cons_self) (hcalls caller earlier hearlier)

/-- All keys of a run are the one that the file spells. -/
theorem keys_eq {files : FileTree} {path : String} {moves : List Move} {key : Key}
    (hfiles : ∀ tree ∈ (start files (KeyStore.new path)).trees moves, ∀ new,
      KeyStore.fetch path tree = .ok new → new = key) :
    ∀ new ∈ (start files (KeyStore.new path)).keys moves, new = key := by
  apply published_eq hfiles
  intro caller phase hphase
  cases hphase

theorem agree_of_keys_eq {c : Callers} {moves : List Move} {key : Key}
    (hkeys : ∀ new ∈ c.keys moves, new = key) : c.Agree moves := by
  intro new hnew other hother
  rw [hkeys new hnew, hkeys other hother]

/-- **A file that spells one key only is loaded safely:** whatever else it holds in between, every run
keeps its key. -/
theorem stable_of_one_key {files : FileTree} {path : String} {moves : List Move} {key : Key}
    (hfiles : ∀ tree ∈ (start files (KeyStore.new path)).trees moves, ∀ new,
      KeyStore.fetch path tree = .ok new → new = key) :
    (start files (KeyStore.new path)).Stable moves :=
  stable_of_agree (current_start files _) (agree_of_keys_eq (keys_eq hfiles))

/-! ### Two calls around a change of the file -/

/-- Two calls begin, the file changes after the first has read it and before the second does, and then
the first publishes its key and the second its own. -/
def race (changed : FileTree) : List Move :=
  [.begin, .begin, .turn 0, .turn 0, .change changed, .turn 1, .turn 1, .turn 0, .turn 0, .turn 1,
    .turn 1]

theorem keys_race {path : String} {files changed : FileTree} {key other : Key}
    (hkey : KeyStore.fetch path files = .ok key)
    (hother : KeyStore.fetch path changed = .ok other) :
    (start files (KeyStore.new path)).keys (race changed) = [key, other] := by
  obtain ⟨content, hread, hdecode⟩ := KeyStore.fetch_eq_ok hkey
  obtain ⟨content', hread', hdecode'⟩ := KeyStore.fetch_eq_ok hother
  simp [keys, race, start, KeyStore.new, published, publishes, step, advance, hread, hdecode, hread',
    hdecode']

theorem calls_race {path : String} {files changed : FileTree} {key other : Key}
    (hkey : KeyStore.fetch path files = .ok key)
    (hother : KeyStore.fetch path changed = .ok other) :
    ((start files (KeyStore.new path)).run ((race changed).take 9)).calls[0]?
        = some (.returned (.ok key)) ∧
      ((start files (KeyStore.new path)).run (race changed ++ [.begin, .turn 2])).calls[2]?
        = some (.returned (.ok other)) := by
  obtain ⟨content, hread, hdecode⟩ := KeyStore.fetch_eq_ok hkey
  obtain ⟨content', hread', hdecode'⟩ := KeyStore.fetch_eq_ok hother
  simp [race, start, KeyStore.new, step, advance, hread, hdecode, hread', hdecode']

/-- Whatever two keys the file spells one after the other, there is a run that does not keep its key. -/
theorem not_stable_race {path : String} {files changed : FileTree} {key other : Key}
    (hkey : KeyStore.fetch path files = .ok key)
    (hother : KeyStore.fetch path changed = .ok other) (hne : key ≠ other) :
    ¬ (start files (KeyStore.new path)).Stable (race changed) := by
  intro hstable
  have hagree := agree_of_kept hstable.kept
  rw [Agree, keys_race hkey hother] at hagree
  exact hne (hagree key (by simp) other (by simp))

/-- The file first holds the base64 of thirty-two zeros and then that of thirty-two ones. The first call
returns the zeros, and one that begins only after all others have returned gets the ones. -/
theorem not_stable_zeros_ones :
    let zeros : Key := ⟨.replicate 32 0, rfl⟩
    let ones : Key := ⟨.replicate 32 1, rfl⟩
    let tree (key : Key) : FileTree :=
      ⟨[(.above 0, [("secret", .file (Base64.encode Base64.standard key.bytes))])]⟩
    let calls := start (tree zeros) (KeyStore.new "secret")
    (calls.run ((race (tree ones)).take 9)).calls[0]? = some (.returned (.ok zeros)) ∧
      (calls.run (race (tree ones) ++ [.begin, .turn 2])).calls[2]? = some (.returned (.ok ones)) ∧
      ¬ calls.Stable (race (tree ones)) := by
  intro zeros ones tree calls
  have hfetch : ∀ key, KeyStore.fetch "secret" (tree key) = .ok key := by
    intro key
    have hread : (tree key).read "secret" = .ok (Base64.encode Base64.standard key.bytes) := by rfl
    rw [KeyStore.fetch, hread]
    exact Key.decode_encode "secret" key
  obtain ⟨hfirst, hlast⟩ := calls_race (hfetch zeros) (hfetch ones)
  exact ⟨hfirst, hlast, not_stable_race (hfetch zeros) (hfetch ones) (by decide)⟩

end SigningProxy.Callers
