import SigningProxy.Proofs.Key.Concurrent

/-!
# A file that is still being written

The program that makes the key may be writing its file while calls read it, and then they see a part of
what it will hold. No part of a key's text spells another key (`Key.decode_of_prefix`), so all keys of such
a run are one, and what is known of runs with one key applies. What is left to show is that a call that
fails has changed nothing, and that a call returns the key once the whole file is there. For this
`stepsLeft` counts the steps that a call has before it: each of its own turns takes one away, and the moves
of others do not matter.
-/

namespace SigningProxy.Callers

/-! ### Moves -/

@[simp] theorem files_turn (c : Callers) (caller : Nat) : (c.step (.turn caller)).files = c.files := by
  rw [step]
  split <;> rfl

@[simp] theorem length_calls_turn (c : Callers) (caller : Nat) :
    (c.step (.turn caller)).calls.length = c.calls.length := by
  rw [step]
  split
  · rfl
  · exact List.length_set

theorem files_step (c : Callers) (m : Move) :
    (c.step m).files = c.files ∨ m = .change (c.step m).files := by
  cases m with
  | begin => exact Or.inl rfl
  | change files => exact Or.inr rfl
  | turn caller => exact Or.inl (files_turn c caller)

/-- Files that there are in a run are there at its start or come with a change. -/
theorem mem_trees {c : Callers} {moves : List Move} {tree : FileTree} (htree : tree ∈ c.trees moves) :
    tree = c.files ∨ .change tree ∈ moves := by
  induction moves generalizing c with
  | nil => exact Or.inl (List.mem_singleton.mp htree)
  | cons m moves ih =>
      rcases List.mem_cons.mp htree with hnow | hlater
      · exact Or.inl hnow
      · rcases ih hlater with hnext | hchange
        · rcases files_step c m with hsame | hchanged
          · exact Or.inl (hnext.trans hsame)
          · right
            rw [hchanged, hnext]
            exact List.mem_cons_self
        · exact Or.inr (List.mem_cons_of_mem _ hchange)

theorem mem_keys_of_run {c : Callers} {before after : List Move} {key : Key}
    (hkey : key ∈ (c.run before).keys after) : key ∈ c.keys (before ++ after) := by
  induction before generalizing c with
  | nil => exact hkey
  | cons m before ih => exact mem_keys_of_step (ih hkey)

theorem published_append (c : Callers) (before after : List Move) :
    c.published (before ++ after) = c.published before ++ (c.run before).published after := by
  induction before generalizing c with
  | nil => rfl
  | cons m before ih => rw [List.cons_append, published, published, ih, run_cons, List.append_assoc]

theorem mem_keys_append {c : Callers} {before : List Move} {key : Key} (hkey : key ∈ c.keys before)
    (after : List Move) : key ∈ c.keys (before ++ after) := by
  rw [keys, published_append, ← List.append_assoc]
  exact List.mem_append_left _ hkey

theorem cached_of_keys_eq {c : Callers} {moves : List Move} {key : Key}
    (hkeys : ∀ new ∈ c.keys moves, new = key) : c.store.key = none ∨ c.store.key = some key := by
  rcases hkept : c.store.key with _ | kept
  · exact Or.inl rfl
  · right
    rw [hkeys kept (by simp [keys, hkept])]

/-- A move leaves the phases of the calls alone that do not take a turn in it. -/
theorem calls_step_of_ne {c : Callers} {m : Move} {caller : Nat} {phase : Phase}
    (hm : ∀ other, m = .turn other → other ≠ caller) (hphase : c.calls[caller]? = some phase) :
    (c.step m).calls[caller]? = some phase := by
  cases m with
  | begin =>
      obtain ⟨hlt, -⟩ := List.getElem?_eq_some_iff.mp hphase
      change (c.calls ++ [Phase.asking])[caller]? = _
      rw [List.getElem?_append_left hlt, hphase]
  | change files => exact hphase
  | turn other =>
      rcases hother : c.calls[other]? with _ | earlier
      · simpa [step, hother] using hphase
      · simp only [step, hother]
        rw [List.getElem?_set_ne (hm other rfl), hphase]

theorem path_run (c : Callers) (moves : List Move) : (c.run moves).store.path = c.store.path := by
  induction moves generalizing c with
  | nil => rfl
  | cons m moves ih => rw [run_cons, ih, path_step]

/-! ### Calls that fail -/

theorem calls_step_of_returned {c : Callers} {caller : Nat} {result : Except KeyError Key}
    (hphase : c.calls[caller]? = some (.returned result)) (m : Move) :
    (c.step m).calls[caller]? = some (.returned result) := by
  by_cases hm : m = .turn caller
  · rw [hm, calls_turn hphase, advance]
  · apply calls_step_of_ne _ hphase
    rintro other rfl rfl
    exact hm rfl

theorem calls_run_of_returned {c : Callers} {caller : Nat} {result : Except KeyError Key}
    (hphase : c.calls[caller]? = some (.returned result)) (moves : List Move) :
    (c.run moves).calls[caller]? = some (.returned result) := by
  induction moves generalizing c with
  | nil => exact hphase
  | cons m moves ih => exact ih (calls_step_of_returned hphase m)

/-- A call that changes the store returns a key in the same step. -/
theorem store_turn (c : Callers) (caller : Nat) :
    (c.step (.turn caller)).store = c.store ∨
      ∃ key, (c.step (.turn caller)).calls[caller]? = some (.returned (.ok key)) := by
  rcases hphase : c.calls[caller]? with _ | phase
  · left
    simp [step, hphase]
  · have hstore : (c.step (.turn caller)).store = (advance c.files c.store phase).2.1 := by
      simp [step, hphase]
    rw [hstore, advance_store, calls_turn hphase]
    cases phase with
    | publishing key => exact Or.inr ⟨key, rfl⟩
    | asking | reading | decoding _ | returned _ => exact Or.inl rfl

theorem store_turn_of_failed {c : Callers} {caller : Nat} {after : List Move} {cause : KeyError}
    (hfailed : (c.run (.turn caller :: after)).calls[caller]? = some (.returned (.error cause))) :
    (c.step (.turn caller)).store = c.store := by
  rcases store_turn c caller with hstore | ⟨key, hreturned⟩
  · exact hstore
  · rw [run_cons, calls_run_of_returned hreturned after] at hfailed
    cases hfailed

/-! ### Calls on a complete file -/

/-- How many steps a call has before it, at most. -/
def stepsLeft : Phase → Nat
  | .asking => 4
  | .reading => 3
  | .decoding _ => 2
  | .publishing _ => 1
  | .returned _ => 0

/-- A call has met nothing but this content and this key. -/
def Bound (content : List UInt8) (key : Key) : Phase → Prop
  | .asking | .reading => True
  | .decoding read => read = .ok content
  | .publishing new => new = key
  | .returned result => result = .ok key

theorem bound_advance {files : FileTree} {store : KeyStore} {content : List UInt8} {key : Key}
    {phase : Phase} (hread : files.read store.path = .ok content)
    (hdecode : Key.decode store.path content = .ok key)
    (hcached : store.key = none ∨ store.key = some key) (hbound : Bound content key phase) :
    Bound content key (advance files store phase).1 ∧
      stepsLeft (advance files store phase).1 ≤ stepsLeft phase - 1 := by
  cases phase with
  | asking =>
      rcases hcached with hnone | hkept
      · rw [advance, hnone]
        exact ⟨trivial, Nat.le_refl _⟩
      · rw [advance, hkept]
        exact ⟨rfl, Nat.zero_le _⟩
  | reading => exact ⟨hread, Nat.le_refl _⟩
  | decoding read =>
      have hok : read = .ok content := hbound
      rw [hok, advance, hdecode]
      exact ⟨rfl, Nat.le_refl _⟩
  | publishing new =>
      have hnew : new = key := hbound
      rw [hnew]
      exact ⟨rfl, Nat.le_refl _⟩
  | returned result => exact ⟨hbound, Nat.le_refl _⟩

/-- The turns of one call among some moves. -/
def turns (caller : Nat) (moves : List Move) : Nat :=
  moves.countP fun
    | .turn other => other == caller
    | _ => false

theorem bound_run {c : Callers} {moves : List Move} {caller : Nat} {content : List UInt8} {key : Key}
    {phase : Phase} (hfiles : ∀ tree ∈ c.trees moves, tree.read c.store.path = .ok content)
    (hdecode : Key.decode c.store.path content = .ok key) (hkeys : ∀ new ∈ c.keys moves, new = key)
    (hphase : c.calls[caller]? = some phase) (hbound : Bound content key phase) :
    ∃ last, (c.run moves).calls[caller]? = some last ∧ Bound content key last ∧
      stepsLeft last ≤ stepsLeft phase - turns caller moves := by
  induction moves generalizing c phase with
  | nil => exact ⟨phase, hphase, hbound, Nat.le_refl _⟩
  | cons m moves ih =>
      have hlater : ∀ tree ∈ (c.step m).trees moves, tree.read (c.step m).store.path = .ok content := by
        intro tree htree
        rw [path_step]
        exact hfiles tree (List.mem_cons_of_mem _ htree)
      have hdecode' : Key.decode (c.step m).store.path content = .ok key := by rwa [path_step]
      have hkeys' : ∀ new ∈ (c.step m).keys moves, new = key :=
        fun new hnew => hkeys new (mem_keys_of_step hnew)
      by_cases hm : m = .turn caller
      · subst hm
        obtain ⟨hbound', hsteps⟩ :=
          bound_advance (hfiles c.files List.mem_cons_self) hdecode (cached_of_keys_eq hkeys) hbound
        obtain ⟨last, hlast, hboundlast, hleft⟩ :=
          ih hlater hdecode' hkeys' (calls_turn hphase) hbound'
        have hturns : turns caller (.turn caller :: moves) = turns caller moves + 1 := by
          simp [turns]
        exact ⟨last, hlast, hboundlast, by omega⟩
      · have hne : ∀ other, m = .turn other → other ≠ caller := by
          rintro other rfl rfl
          exact hm rfl
        obtain ⟨last, hlast, hboundlast, hleft⟩ :=
          ih hlater hdecode' hkeys' (calls_step_of_ne hne hphase) hbound
        have hturns : turns caller (m :: moves) = turns caller moves := by
          cases m with
          | begin | change _ => simp [turns]
          | turn other => simp [turns, hne other rfl]
        exact ⟨last, hlast, hboundlast, by omega⟩

theorem returned_of_stepsLeft {content : List UInt8} {key : Key} {phase : Phase}
    (hbound : Bound content key phase) (hleft : stepsLeft phase = 0) :
    phase = .returned (.ok key) := by
  cases phase with
  | returned result => exact congrArg Phase.returned hbound
  | asking | reading | decoding _ | publishing _ => cases hleft

/-- A call that begins on a complete file returns its key, in its own turns. -/
theorem complete_run {c : Callers} {after : List Move} {content : List UInt8} {key : Key}
    (hread : c.files.read c.store.path = .ok content)
    (hchanges : ∀ tree, .change tree ∈ after → tree.read c.store.path = .ok content)
    (hdecode : Key.decode c.store.path content = .ok key)
    (hkeys : ∀ new ∈ c.keys (.begin :: after), new = key) :
    ∃ last, (c.run (.begin :: after)).calls[c.calls.length]? = some last ∧
      (∀ result, last = .returned result → result = .ok key) ∧
      (callSteps ≤ turns c.calls.length after → last = .returned (.ok key)) := by
  have hfiles : ∀ tree ∈ (c.step .begin).trees after,
      tree.read (c.step .begin).store.path = .ok content := by
    intro tree htree
    rcases mem_trees htree with rfl | hchange
    · exact hread
    · exact hchanges tree hchange
  have hlater : ∀ new ∈ (c.step .begin).keys after, new = key :=
    fun new hnew => hkeys new (mem_keys_of_step hnew)
  have hasking : (c.step .begin).calls[c.calls.length]? = some .asking := by simp [step]
  have hbegun : Bound content key .asking := trivial
  obtain ⟨last, hlast, hbound, hleft⟩ := bound_run hfiles hdecode hlater hasking hbegun
  refine ⟨last, hlast, ?_, ?_⟩
  · rintro result rfl
    exact hbound
  · intro hturns
    apply returned_of_stepsLeft hbound
    have hsteps : stepsLeft .asking = callSteps := rfl
    omega

/-! ### Runs while the file is written -/

/-- The file at a path cannot be read, or it holds what has been written of this content so far. -/
def Partly (path : String) (content : List UInt8) (files : FileTree) : Prop :=
  (∃ cause, files.read path = .error cause) ∨
    ∃ written, files.read path = .ok written ∧ written <+: content

/-- A run in which a call fails or returns this key, nothing else is ever kept and it is never lost, a
call that fails has not changed the store in any of its turns, and a call that begins when the whole
content is there has returned the key when it has had its turns. -/
structure Untorn (c : Callers) (moves : List Move) (content : List UInt8) (key : Key) : Prop where
  returns : ∀ before, before <+: moves → ∀ (caller : Nat) (result : Except KeyError Key),
    (c.run before).calls[caller]? = some (.returned result) →
    (∃ cause, result = .error cause) ∨ result = .ok key
  cached : ∀ before, before <+: moves →
    (c.run before).store.key = none ∨ (c.run before).store.key = some key
  kept : ∀ before after, before ++ after <+: moves →
    (c.run before).store.key = some key → (c.run (before ++ after)).store.key = some key
  failed : ∀ before after (caller : Nat) cause, before ++ .turn caller :: after <+: moves →
    (c.run (before ++ .turn caller :: after)).calls[caller]? = some (.returned (.error cause)) →
    ((c.run before).step (.turn caller)).store = (c.run before).store
  complete : ∀ before after, before ++ .begin :: after <+: moves →
    (c.run before).files.read c.store.path = .ok content →
    (∀ tree, .change tree ∈ after → tree.read c.store.path = .ok content) →
    ∃ last, (c.run (before ++ .begin :: after)).calls[(c.run before).calls.length]? = some last ∧
      (∀ result, last = .returned result → result = .ok key) ∧
      (callSteps ≤ turns (c.run before).calls.length after → last = .returned (.ok key))

/-- **A key's file may be read while it is written.** Whenever calls ask and whatever part of the text of
a key is there when they read, among blanks or not, they get this key or fail without a trace, and once
the file is complete they get the key. -/
theorem untorn_of_partly {files : FileTree} {path : String} {moves : List Move} {key : Key}
    {front back : List UInt8} (hfront : ∀ b ∈ front, isKeyBlank b = true)
    (hback : ∀ b ∈ back, isKeyBlank b = true)
    (hstart : Partly path (front ++ Base64.encode Base64.standard key.bytes ++ back) files)
    (hmoves : ∀ tree, .change tree ∈ moves →
      Partly path (front ++ Base64.encode Base64.standard key.bytes ++ back) tree) :
    (start files (KeyStore.new path)).Untorn moves
      (front ++ Base64.encode Base64.standard key.bytes ++ back) key := by
  have hkeys : ∀ new ∈ (start files (KeyStore.new path)).keys moves, new = key := by
    apply keys_eq
    intro tree htree new hfetch
    obtain ⟨content, hread, hdecode⟩ := KeyStore.fetch_eq_ok hfetch
    have hpartly : Partly path (front ++ Base64.encode Base64.standard key.bytes ++ back) tree := by
      rcases mem_trees htree with rfl | hchange
      · exact hstart
      · exact hmoves tree hchange
    rcases hpartly with ⟨cause, hnone⟩ | ⟨written, hwritten, hbegins⟩
    · rw [hnone] at hread
      cases hread
    · rw [hwritten] at hread
      cases hread
      exact Key.decode_of_prefix hfront hback hbegins hdecode
  have hagree := agree_of_keys_eq hkeys
  refine ⟨?_, ?_, ?_, ?_, ?_⟩
  · rintro before ⟨rest, rfl⟩ caller result hreturned
    cases result with
    | error cause => exact Or.inl ⟨cause, rfl⟩
    | ok new =>
        right
        have hkept := (current_start files _).run hagree caller new hreturned
        have hnew : new ∈ ((start files (KeyStore.new path)).run before).keys rest := by
          simp [keys, hkept]
        rw [hkeys new (mem_keys_of_run hnew)]
  · rintro before ⟨rest, rfl⟩
    exact cached_of_keys_eq fun new hnew => hkeys new (mem_keys_of_run hnew)
  · rintro before after ⟨rest, rfl⟩ hkept
    rw [List.append_assoc] at hagree
    rw [run_append]
    exact hagree.run.kept hkept
  · rintro before after caller cause - hfailed
    rw [run_append] at hfailed
    exact store_turn_of_failed hfailed
  · rintro before after ⟨rest, rfl⟩ hread hchanges
    have hpath : ((start files (KeyStore.new path)).run before).store.path = path := path_run _ before
    rw [run_append]
    apply complete_run
    · rw [hpath]
      exact hread
    · rw [hpath]
      exact hchanges
    · rw [hpath]
      exact Key.decode_surrounded path key hfront hback
    · intro new hnew
      apply hkeys
      exact mem_keys_append (mem_keys_of_run hnew) rest

/-- The file is missing when the first call asks, is there with nothing in it and then with a part when
the second one does, and is complete, with a line break on either side, when the third one begins. -/
theorem untorn_piece_by_piece :
    let key : Key := ⟨.replicate keyLength 0, rfl⟩
    let content : List UInt8 := [10] ++ Base64.encode Base64.standard key.bytes ++ [13, 10]
    let tree (bytes : List UInt8) : FileTree := ⟨[(.above 0, [("secret", .file bytes)])]⟩
    let moves : List Move :=
      [.begin, .turn 0, .turn 0, .turn 0, .change (tree []), .begin, .turn 1,
        .change (tree (content.take 20)), .turn 1, .change (tree content), .turn 1]
    let calls := start .empty (KeyStore.new "secret")
    calls.Untorn (moves ++ [.begin, .turn 2, .turn 2, .turn 2, .turn 2]) content key ∧
      (calls.run (moves ++ [.begin, .turn 2, .turn 2, .turn 2, .turn 2])).calls[2]?
        = some (.returned (.ok key)) := by
  intro key content tree moves calls
  have hread : ∀ bytes, (tree bytes).read "secret" = .ok bytes := fun bytes => rfl
  have huntorn : calls.Untorn (moves ++ [.begin, .turn 2, .turn 2, .turn 2, .turn 2]) content key := by
    apply untorn_of_partly (List.all_eq_true.mp (by decide)) (List.all_eq_true.mp (by decide))
    · exact Or.inl ⟨_, rfl⟩
    · intro files hfiles
      right
      simp only [moves, List.cons_append, List.nil_append, List.mem_cons, reduceCtorEq,
        Move.change.injEq, List.not_mem_nil, or_false, false_or] at hfiles
      rcases hfiles with rfl | rfl | rfl
      · exact ⟨[], hread _, List.nil_prefix⟩
      · exact ⟨_, hread _, List.take_prefix _ _⟩
      · exact ⟨content, hread _, List.prefix_rfl⟩
  have hfiles : (calls.run moves).files = tree content := by
    simp only [moves, run_cons, run_nil, files_turn]
    rfl
  have hlength : (calls.run moves).calls.length = 2 := by
    simp only [moves, run_cons, run_nil, length_calls_turn]
    simp [step, calls, start]
  obtain ⟨last, hlast, -, hreturns⟩ := huntorn.complete moves [.turn 2, .turn 2, .turn 2, .turn 2]
    List.prefix_rfl (by rw [hfiles]; exact hread content) (by simp)
  rw [hlength] at hlast hreturns
  refine ⟨huntorn, ?_⟩
  rw [hlast, hreturns (by decide)]

end SigningProxy.Callers
