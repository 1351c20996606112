import SigningProxy.Key.Store

/-!
# Asking for the key at the same time

Several callers may ask one store at once. A call looks for a kept key, reads the file, decodes it,
publishes the key and returns; between these steps other calls begin and go on, and another program
may change the files. Whatever happens is a list of moves: a call begins, a call takes its next
step, or the files change.
-/

namespace SigningProxy

/-- How far a call has got. -/
inductive Phase where
  | asking
  | reading
  | decoding (content : Except FileError (List UInt8))
  | publishing (key : Key)
  | returned (result : Except KeyError Key)

/-- What can happen next. -/
inductive Move where
  | begin
  | turn (caller : Nat)
  | change (files : FileTree)

/-- A store under concurrent calls. -/
structure Callers where
  files : FileTree
  store : KeyStore
  calls : List Phase
  log : List Record

namespace Callers

/-- Nobody has called yet. -/
def start (files : FileTree) (store : KeyStore) : Callers := ⟨files, store, [], []⟩

/-- The next step of a call, on the store it is made on. -/
def advance (files : FileTree) (store : KeyStore) : Phase → Phase × KeyStore × List Record
  | .asking =>
    match store.key with
    | some key => (.returned (.ok key), store, [])
    | none => (.reading, store, [KeyStore.loading store.path])
  | .reading => (.decoding (files.read store.path), store, [])
  | .decoding (.error cause) => (.returned (.error (.read store.path cause)), store, [])
  | .decoding (.ok content) =>
    match Key.decode store.path content with
    | .ok key => (.publishing key, store, [])
    | .error e => (.returned (.error e), store, [])
  | .publishing key =>
    (.returned (.ok key), { store with key := some key }, [KeyStore.loaded store.path])
  | .returned result => (.returned result, store, [])

def step (c : Callers) : Move → Callers
  | .begin => { c with calls := c.calls ++ [.asking] }
  | .change files => { c with files }
  | .turn caller =>
    match c.calls[caller]? with
    | none => c
    | some phase =>
      let (phase, store, log) := advance c.files c.store phase
      { c with store, calls := c.calls.set caller phase, log := c.log ++ log }

/-- One move after the other. -/
def run (c : Callers) (moves : List Move) : Callers := moves.foldl step c

/-- A call is over after this many steps. -/
def callSteps : Nat := 4

/-- Let `n` calls begin together and take their steps in turn, until all have returned. -/
def together (files : FileTree) (store : KeyStore) (n : Nat) : Callers :=
  let round := (List.range n).map .turn
  (start files store).run
    (List.replicate n .begin ++ (List.replicate callSteps round).flatten)

/-- What the calls that are over have returned. -/
def results (c : Callers) : List (Except KeyError Key) :=
  c.calls.filterMap fun
    | .returned result => some result
    | _ => none

end Callers

end SigningProxy
