import SigningProxy.Proofs.Forward.Deadline
import SigningProxy.Rehearsal.Session

/-!
# A session turn by turn

The backend of a session need not be played from a script. A turn lets a request through to any carrier, and
what is seen of it is the exchange and, because the carrier is watched, the requests that it is given. A
session with scripts is the special case in which the carriers play them.

A signing session goes through its turns with nothing to remember but the key: the world changes by itself,
and a request that gets as far as the key leaves in the store what the store has been asked for.
-/

namespace SigningProxy

variable {σ : Type}

/-- What is done to a session: its world is changed, or a request is let through to a carrier. -/
inductive Turn where
  | world (step : WorldStep)
  | request (client : Option IpAddress) (request : Request) (inner : Carrier Unit)

/-- What a request leads to: its exchange, and the requests that the carrier is given. -/
structure Visit where
  exchange : Exchange Response
  calls : List Request

/-- What comes of a turn. -/
inductive Sight where
  | world (result : Except FileError WorldReply)
  | visit (visit : Visit)

/-- A step is a turn whose carrier plays the script. -/
def SessionStep.turn : SessionStep → Turn
  | .world step => .world step
  | .request client sent script => .request client sent script.carrier

def Sight.reply : Sight → SessionReply
  | .world result => .world result
  | .visit seen => .exchange seen.exchange

namespace Session

/-- Let a request through to a carrier, and watch the carrier. -/
def visit (s : Session) (client : Option IpAddress) (request : Request) (inner : Carrier Unit) :
    Visit × Session :=
  match s.signer with
  | none =>
    let (exchange, (), calls) := s.gateway.dispatch s.deadline inner.watched client request ((), [])
    (⟨exchange, calls⟩, s)
  | some signer =>
    let carrier := signing signer s.world.files s.world.clock inner.watched
    let (exchange, store, (), calls) :=
      s.gateway.dispatch s.deadline carrier client request (s.store, (), [])
    (⟨exchange, calls⟩, { s with store })

def take (s : Session) : Turn → Sight × Session
  | .world step =>
    let (result, s) := s.perform step
    (.world result, s)
  | .request client request inner =>
    let (visit, s) := s.visit client request inner
    (.visit visit, s)

/-- All that comes of some turns, and the session after them. -/
def play (s : Session) : List Turn → List Sight × Session
  | [] => ([], s)
  | turn :: turns =>
    let (sight, s) := s.take turn
    let (sights, s) := s.play turns
    (sight :: sights, s)

theorem take_request (s : Session) (client : Option IpAddress) (request : Request)
    (inner : Carrier Unit) :
    s.take (.request client request inner) =
      (.visit (s.visit client request inner).1, (s.visit client request inner).2) := by
  rw [take]

theorem play_cons (s : Session) (turn : Turn) (turns : List Turn) :
    s.play (turn :: turns) =
      ((s.take turn).1 :: ((s.take turn).2.play turns).1, ((s.take turn).2.play turns).2) := rfl

theorem play_append (s : Session) (before after : List Turn) :
    s.play (before ++ after) =
      ((s.play before).1 ++ ((s.play before).2.play after).1,
        ((s.play before).2.play after).2) := by
  induction before generalizing s with
  | nil => rfl
  | cons turn before ih =>
      rw [List.cons_append, play_cons, ih, play_cons]
      rfl

theorem length_play (s : Session) (turns : List Turn) : (s.play turns).1.length = turns.length := by
  induction turns generalizing s with
  | nil => rfl
  | cons turn turns ih =>
      rw [play, List.length_cons, List.length_cons, ih]

/-- What comes of a turn is settled by the turns before it. -/
theorem getElem?_play (s : Session) (before after : List Turn) (turn : Turn) :
    (s.play (before ++ turn :: after)).1[before.length]? =
      some ((s.play before).2.take turn).1 := by
  rw [play_append, play_cons, ← length_play s before]
  simp only [List.getElem?_append_right (Nat.le_refl _), Nat.sub_self, List.getElem?_cons_zero]

/-! ### Scripts -/

theorem handle_watched (g : Gateway) (inner : Carrier σ) (client : Option IpAddress)
    (request : Request) (memory : σ) (calls : List Request) :
    g.handle inner client request memory =
      let watched := g.handle inner.watched client request (memory, calls)
      (watched.1, watched.2.1) := by
  unfold Gateway.handle
  split <;> rfl

theorem request_eq_visit (s : Session) (client : Option IpAddress) (request : Request)
    (script : Script) :
    s.request client request script =
      let visited := s.visit client request script.carrier
      (visited.1.exchange, visited.2) := by
  obtain ⟨g, deadline, signer, store, world⟩ := s
  cases signer with
  | none =>
      unfold Session.request visit
      dsimp only
      rw [Gateway.dispatch_eq, Gateway.dispatch_eq, handle_watched g script.carrier client request () []]
  | some signer =>
      unfold Session.request visit
      dsimp only
      rw [Gateway.dispatch_eq, Gateway.dispatch_eq, Gateway.handle_eq_serve]
      unfold Gateway.serve
      generalize g.handle _ client request _ = handled
      rfl

/-- **A session with scripts is played by their carriers.** -/
theorem run_eq_play (s : Session) (steps : List SessionStep) :
    s.run steps =
      ((s.play (steps.map SessionStep.turn)).1.map Sight.reply,
        (s.play (steps.map SessionStep.turn)).2) := by
  induction steps generalizing s with
  | nil => rfl
  | cons step steps ih =>
      rw [List.map_cons, play_cons]
      cases step with
      | world step =>
          simp only [run, Session.step, ih]
          rfl
      | request client request script =>
          simp only [run, Session.step, request_eq_visit, ih]
          rfl

end Session

/-! ### Signing sessions -/

theorem Session.visit_signing (g : Gateway) (deadline : Option Deadline) (signer : Signer)
    (store : KeyStore) (world : World) (client : Option IpAddress) (request : Request)
    (inner : Carrier Unit) :
    (⟨g, deadline, some signer, store, world⟩ : Session).visit client request inner =
      (⟨(g.serve signer world.files world.clock inner client request store ()).exchange.under deadline,
          (g.serve signer world.files world.clock inner client request store ()).calls⟩,
        ⟨g, deadline, some signer,
          (g.serve signer world.files world.clock inner client request store ()).store, world⟩) := by
  unfold Session.visit Gateway.serve
  dsimp only
  rw [Gateway.dispatch_eq]

end SigningProxy
