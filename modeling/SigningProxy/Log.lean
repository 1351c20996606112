/-!
# What the proxy tells about itself

A record has a level, the part of the program that speaks, and a message.
-/

namespace SigningProxy

inductive Level where
  | error
  | warn
  | info
  | debug
  | trace
  deriving DecidableEq, Repr

namespace Level

def text : Level → String
  | error => "ERROR"
  | warn => "WARN"
  | info => "INFO"
  | debug => "DEBUG"
  | trace => "TRACE"

/-- Smaller is graver. -/
def rank : Level → Nat
  | error => 0
  | warn => 1
  | info => 2
  | debug => 3
  | trace => 4

end Level

/-- The parts of the program that speak. -/
inductive Speaker where
  | program
  | settings
  | binding
  | gateway
  | deadline
  | server
  | keyStore
  | signing
  | network
  deriving DecidableEq, Repr

/-- The name under which a part speaks. -/
def Speaker.text : Speaker → String
  | program => "authpx"
  | settings => "authpx::config::loader"
  | binding => "authpx::upstream"
  | gateway => "authpx::proxy::request_handler"
  | deadline => "authpx::proxy::deadline"
  | server => "authpx::proxy::http_server"
  | keyStore => "authpx::secret"
  | signing => "authpx::transport::signing"
  | network => "authpx::transport::http"

structure Record where
  level : Level
  speaker : Speaker
  message : String
  deriving DecidableEq, Repr

namespace Record

/-- Level and message. -/
def text (r : Record) : String := r.level.text ++ " " ++ r.message

/-- As it is printed: the level in five columns, the speaker, and the message with its further lines
indented. -/
def line (r : Record) : String :=
  let level := r.level.text
  let gap := String.ofList (List.replicate (6 - level.length) ' ')
  "[" ++ level ++ gap ++ r.speaker.text ++ "] " ++ "\n    ".intercalate (r.message.splitOn "\n")

end Record

end SigningProxy
