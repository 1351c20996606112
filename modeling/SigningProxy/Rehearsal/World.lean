import SigningProxy.Files.Tree

/-!
# The world around the proxy

While the proxy runs, others change the files that it reads, and time goes on. A world is what they
can change, and a step is one change, or a look at a file.
-/

namespace SigningProxy

structure World where
  files : FileTree
  clock : Int64
  deriving Inhabited

inductive WorldStep where
  | write (path : String) (content : List UInt8)
  | remove (path : String)
  | makeDirectories (path : String)
  | read (path : String)
  | setClock (now : Int64)
  deriving Repr

/-- What comes of a step: nothing to see, or a file's content. -/
inductive WorldReply where
  | done
  | content (bytes : List UInt8)
  deriving DecidableEq, Repr

namespace World

/-- No files, at the origin of time. -/
def start : World := ⟨.empty, 0⟩

/-- The world with other files, if they could be changed. -/
def keep (w : World) : Except FileError FileTree → Except FileError WorldReply × World
  | .ok files => (.ok .done, { w with files })
  | .error cause => (.error cause, w)

def perform (w : World) : WorldStep → Except FileError WorldReply × World
  | .write path content => w.keep (w.files.write path content)
  | .remove path => w.keep (w.files.remove path)
  | .makeDirectories path =>
    let (result, files) := w.files.makeDirectories path
    (result.map fun () => .done, { w with files })
  | .read path => ((w.files.read path).map .content, w)
  | .setClock now => (.ok .done, { w with clock := now })

end World

end SigningProxy
