import SigningProxy.Forward.Deadline
import SigningProxy.Forward.Signing
import SigningProxy.Rehearsal.Script
import SigningProxy.Rehearsal.World

/-!
# Sessions

A session is a proxy in a world, through which requests are let one after the other, each with a
script for the backend. Between the requests the world changes. What the session keeps from one
request to the next is the world and the store of the key.
-/

namespace SigningProxy

structure Session where
  gateway : Gateway
  deadline : Option Deadline
  signer : Option Signer
  store : KeyStore
  world : World

namespace Session

/-- Let a request through. -/
def request (s : Session) (client : Option IpAddress) (request : Request) (script : Script) :
    Exchange Response × Session :=
  match s.signer with
  | none =>
    let (exchange, ()) := s.gateway.dispatch s.deadline script.carrier client request ()
    (exchange, s)
  | some signer =>
    let carrier := signing signer s.world.files s.world.clock script.carrier
    let (exchange, store, ()) := s.gateway.dispatch s.deadline carrier client request (s.store, ())
    (exchange, { s with store })

/-- Change the world. -/
def perform (s : Session) (step : WorldStep) : Except FileError WorldReply × Session :=
  let (result, world) := s.world.perform step
  (result, { s with world })

end Session

/-- What happens in a session. -/
inductive SessionStep where
  | world (step : WorldStep)
  | request (client : Option IpAddress) (request : Request) (script : Script)

/-- What comes of it. -/
inductive SessionReply where
  | world (result : Except FileError WorldReply)
  | exchange (exchange : Exchange Response)

namespace Session

def step (s : Session) : SessionStep → SessionReply × Session
  | .world step =>
    let (result, s) := s.perform step
    (.world result, s)
  | .request client request script =>
    let (exchange, s) := s.request client request script
    (.exchange exchange, s)

/-- All replies to some steps, and the session after them. -/
def run (s : Session) : List SessionStep → List SessionReply × Session
  | [] => ([], s)
  | step :: steps =>
    let (reply, s) := s.step step
    let (replies, s) := s.run steps
    (reply :: replies, s)

end Session

end SigningProxy
