import SigningProxy.Forward.Error
import SigningProxy.Log
import SigningProxy.Time.Course

/-!
# Carriers

A carrier takes a request to its destination and brings back a response or the reason why there is
none. It may remember something from one request to the next, so it turns a state into the next one.
What it does takes the course of an exchange, in which records are told and, where the destination
is one that shows it, requests are received. Carriers are put together from others: one that signs
hands on to one that sends.
-/

namespace SigningProxy

/-- A request as its destination has it, once the body has been read. -/
structure Received extends RequestHead where
  body : Except BodyError (List UInt8)

/-- What can happen in an exchange. -/
inductive Event where
  | told (record : Record)
  | received (request : Received)

namespace Event

def record? : Event → Option Record
  | told record => some record
  | received _ => none

def request? : Event → Option Received
  | told _ => none
  | received request => some request

end Event

/-- The course of an exchange. -/
abbrev Exchange := Course Event

namespace Exchange

/-- Tell some records, and go on. -/
def tell (records : List Record) : Exchange Unit := Course.note (records.map .told)

/-- All that is told, in order. -/
def records {α : Type} (e : Exchange α) : List Record := e.happenings.filterMap Event.record?

/-- All requests that are received, in order. -/
def received {α : Type} (e : Exchange α) : List Received := e.happenings.filterMap Event.request?

end Exchange

/-- What is made of a request. -/
abbrev Outcome := Except ForwardError Response

/-- Takes requests to their destination; `σ` is what it remembers. -/
abbrev Carrier (σ : Type) := Request → σ → Exchange Outcome × σ

end SigningProxy
