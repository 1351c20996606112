import SigningProxy.Http.Body
import SigningProxy.Time.Course

/-!
# Watching an upload

To know when a request has been written, its body is piped: a task of its own takes the body chunk by
chunk, hands each one on, and gives a signal once there is nothing left. Where the body breaks off, so
does what is piped, and the signal is dropped; either way the upload is over. Where only the fields behind
the chunks fail to come, the pipe is closed as if there were none. A body that never ends leaves the signal
open. Whoever reads from the pipe is taken to be there for each piece.
-/

namespace SigningProxy

/-- What goes through the pipe. -/
inductive Piece where
  | chunk (bytes : List UInt8)
  | trailers (fields : Headers)
  | abort
  | close
  deriving DecidableEq, Repr

/-- What becomes of the signal. -/
inductive Signal where
  | given
  | dropped
  deriving DecidableEq, Repr

namespace Body

/-- Nothing is left to come. -/
def isOver (b : Body) : Bool :=
  match b.chunks, b.finish, b.trailers with
  | [], .after 0 (.ok ()), .after 0 (.ok ⟨[]⟩) => true
  | _, _, _ => false

/-- What is piped behind the last chunk, and what becomes of the signal. -/
def ending (b : Body) : Eventual (List Piece × Signal) :=
  b.finish.bind fun
    | .error _ => .now ([.abort], .dropped)
    | .ok () => b.trailers.map fun
      | .ok fields => ((if fields = .empty then [] else [.trailers fields]) ++ [.close], .given)
      -- Why there are no fields is nowhere told.
      | .error _ => ([.close], .given)

/-- The course of the piping. -/
def pump (b : Body) : Course Piece Signal :=
  go b.ending b.chunks
where
  go (ending : Eventual (List Piece × Signal)) : List (Nat × List UInt8) → Course Piece Signal
    | [] => do
      let (pieces, signal) ← Course.await ending
      Course.note pieces
      return signal
    | (wait, bytes) :: rest => do
      Course.await (.after wait ())
      Course.note [.chunk bytes]
      go ending rest

/-- The stream as it comes out of the pipe, counting the waits from `since`. -/
def ofPieces (since : Nat) : List (Nat × Piece) → Body
  | [] => ⟨[], .hanging, Headers.empty⟩
  | (moment, .chunk bytes) :: rest =>
    let b := ofPieces moment rest
    { b with chunks := (moment - since, bytes) :: b.chunks }
  | (_, .trailers fields) :: rest => { ofPieces since rest with trailers := fields }
  | (moment, .abort) :: _ => ⟨[], StreamEnd.aborted.delay (moment - since), Headers.empty⟩
  | (moment, .close) :: _ => ⟨[], StreamEnd.complete.delay (moment - since), Headers.empty⟩

/-- The body to be sent in place of the given one, and the signal. A body with nothing to come is sent
as it is. -/
def watch (b : Body) : Body × Eventual Signal :=
  if b.isOver then (b, .now .given) else (ofPieces 0 b.pump.events, b.pump.outcome)

/-- The moment when the stream is over, if it ever is: with what follows the chunks, or with a failure. -/
def written (b : Body) : Eventual Unit := (b.closing.delay b.span).map fun _ => ()

end Body

end SigningProxy
