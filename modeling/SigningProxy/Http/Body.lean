import SigningProxy.Http.Headers
import SigningProxy.Time.Eventual

/-!
# Message bodies

A body is a stream: wait, hand on a chunk, wait, hand on the next. After the last chunk the stream ends, breaks
off, or stays as it is for ever; and once it has ended there are the fields that follow the chunks, if any, which
take their time too and may fail to come. A body that is known from the start is a stream without waits.
-/

namespace SigningProxy

/-- Why a body cannot be read, in the words of whoever gives it. -/
structure BodyError where
  message : String
  deriving DecidableEq, Repr

/-- Whoever writes the body has given it up. -/
def BodyError.writeAborted : BodyError := ⟨"user body write aborted"⟩

/-- How a stream goes on after its last chunk: it ends or breaks off, at once or later, or nothing more comes. -/
abbrev StreamEnd := Eventual (Except BodyError Unit)

namespace StreamEnd

def complete : StreamEnd := .now (.ok ())

/-- Whoever writes the stream gives it up. -/
def aborted : StreamEnd := .now (.error .writeAborted)

def hanging : StreamEnd := .never

end StreamEnd

/-- The fields behind the chunks of a stream that has ended. There may be none, and they may fail to come. -/
abbrev Trailers := Eventual (Except BodyError Headers)

/-- Fields that are there at once. -/
instance : Coe Headers Trailers := ⟨fun fields => .now (.ok fields)⟩

/-- Chunks, each with the milliseconds waited before it, and what comes behind the last of them. -/
structure Body where
  chunks : List (Nat × List UInt8)
  finish : StreamEnd
  trailers : Trailers
  deriving Repr

namespace Body

/-- A stream that ends with its last chunk. -/
def ofChunks (chunks : List (Nat × List UInt8)) : Body := ⟨chunks, .complete, Headers.empty⟩

/-- A body that is there at once. -/
def ofBytes (bytes : List UInt8) : Body := ofChunks (if bytes.isEmpty then [] else [(0, bytes)])

def ofString (s : String) : Body := ofBytes (Utf8.encode s)

def empty : Body := ofBytes []

instance : Inhabited Body := ⟨empty⟩

/-- All chunks in order. -/
def content (b : Body) : List UInt8 := b.chunks.flatMap (·.2)

/-- The milliseconds until the last chunk is handed on. -/
def span (b : Body) : Nat := (b.chunks.map (·.1)).foldr (· + ·) 0

/-- Reading to the end of the chunks: the whole content, or the failure. What follows them is not read. -/
def read (b : Body) : Eventual (Except BodyError (List UInt8)) :=
  (b.finish.delay b.span).map (·.map fun () => b.content)

/-- What comes of the stream behind its last chunk: the fields that follow, or why they cannot be had. -/
def closing (b : Body) : Eventual (Except BodyError Headers) :=
  b.finish.bind fun
    | .ok () => b.trailers
    | .error cause => .now (.error cause)

end Body

end SigningProxy
