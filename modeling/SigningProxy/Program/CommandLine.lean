import SigningProxy.Program.Options
import SigningProxy.Text.Cut
import SigningProxy.Text.Likeness
import SigningProxy.Text.Steering

/-!
# The command line

Words are read from left to right. A switch is a letter behind a hyphen, where several may stand
together, or a word behind two. A switch that takes a value has it attached, with or without an
equals sign, or as the next word, unless that word is a switch itself. Such a value is settled only
when the next switch is understood or the line ends; so a word that is not understood is complained
about first.
-/

namespace SigningProxy.CommandLine

/-- The switches that take a value. -/
inductive Setter where
  | settings
  | listen
  | backend
  | secret
  deriving DecidableEq, Repr

inductive Flag where
  | verbose
  | help
  | version
  deriving DecidableEq, Repr

inductive Switch where
  | setter (setter : Setter)
  | flag (flag : Flag)
  deriving DecidableEq, Repr

/-- A switch that has been understood, with its value if it takes one. -/
inductive Choice where
  | value (setter : Setter) (text : String)
  | verbose
  deriving DecidableEq, Repr

namespace Setter

def word : Setter → String
  | settings => "config"
  | listen => "listen"
  | backend => "upstream"
  | secret => "secret"

/-- How messages call it. -/
def usage : Setter → String
  | settings => "--config <CONFIG_PATH>"
  | listen => "--listen <LISTEN>"
  | backend => "--upstream <UPSTREAM>"
  | secret => "--secret <SECRET_PATH>"

/-- Whether the value names a file; then it cannot be empty. -/
def isPath : Setter → Bool
  | settings | secret => true
  | listen | backend => false

end Setter

namespace Flag

def word : Flag → String
  | verbose => "verbose"
  | help => "help"
  | version => "version"

end Flag

/-- Every switch with its letter. -/
def switches : List (Char × Switch) :=
  [('c', .setter .settings), ('v', .flag .verbose), ('l', .setter .listen),
    ('u', .setter .backend), ('s', .setter .secret), ('h', .flag .help), ('V', .flag .version)]

def Switch.word : Switch → String
  | .setter s => s.word
  | .flag f => f.word

def Switch.ofLetter? (letter : Char) : Option Switch := switches.lookup letter

def Switch.ofWord? (word : String) : Option Switch :=
  (switches.find? fun (_, switch) => switch.word == word).map (·.2)

/-- The switch whose word is most like a word that is not understood, if one is like it enough. Of
two that are equally like it the later is taken. -/
def Switch.like? (word : String) : Option Switch :=
  let likenesses := switches.map fun (_, switch) =>
    (Text.likeness word.toList switch.word.toList, switch)
  let enough := likenesses.filter fun (likeness, _) => 0.7 < likeness
  let better := fun (best : Option (Float × Switch)) (next : Float × Switch) =>
    if best.all fun (likeness, _) => likeness ≤ next.1 then some next else best
  (enough.foldl better none).map (·.2)

def Choice.switch : Choice → Switch
  | .value setter _ => .setter setter
  | .verbose => .flag .verbose

/-- What ends the reading of a command line early. -/
inductive Stop where
  | help
  | version
  /-- A letter, or a word without hyphens, that means nothing. -/
  | unknown (text : String)
  /-- A word behind two hyphens that means nothing, after the switches that had been given. -/
  | unknownWord (word : String) (given : List Switch)
  | noValue (setter : Setter)
  | repeated (switch : Switch)
  /-- A flag with a value. It is the first switch if nothing has been settled before. -/
  | valueForFlag (flag : Flag) (value : String) (first : Bool)
  deriving DecidableEq, Repr

/-! ### Reading -/

/-- What has been read: the choices that are settled, in their order, and a switch whose value is
not. -/
structure Reading where
  settled : List Choice
  waiting : Option (Setter × Option String)

namespace Reading

def start : Reading := ⟨[], none⟩

/-- The settled value of a switch. -/
def value? (r : Reading) (setter : Setter) : Option String :=
  r.settled.findSome? fun
    | .value s text => if s = setter then some text else none
    | .verbose => none

def isVerbose (r : Reading) : Bool := r.settled.contains .verbose

/-- The switches given so far. A value that waits counts, unless its switch had a value before: then
the two are at odds and neither counts. -/
def given (r : Reading) : List Switch :=
  let settled := r.settled.map Choice.switch
  match r.waiting with
  | some (setter, some _) =>
    if settled.contains (.setter setter) then settled.erase (.setter setter)
    else settled ++ [.setter setter]
  | _ => settled

/-- Take a value over. -/
def give (r : Reading) (setter : Setter) (value : String) : Except Stop Reading :=
  if (r.value? setter).isSome then .error (.repeated (.setter setter))
  else if setter.isPath && value.isEmpty then .error (.noValue setter)
  else .ok { r with settled := r.settled ++ [.value setter value] }

/-- Settle the value of the last switch. -/
def settle (r : Reading) : Except Stop Reading :=
  match r.waiting with
  | none => .ok r
  | some (setter, none) => .error (.noValue setter)
  | some (setter, some value) => { r with waiting := none }.give setter value

def raise (r : Reading) (flag : Flag) : Except Stop Reading := do
  let r ← r.settle
  match flag with
  | .verbose =>
    if r.isVerbose then .error (.repeated (.flag .verbose))
    else .ok { r with settled := r.settled ++ [.verbose] }
  | .help => .error .help
  | .version => .error .version

/-- A switch with its value attached. -/
def attach (r : Reading) (setter : Setter) (value : String) : Except Stop Reading := do
  (← r.settle).give setter value

/-- A switch whose value is still to come. -/
def await (r : Reading) (setter : Setter) : Except Stop Reading := do
  return { ← r.settle with waiting := some (setter, none) }

/-- The letters behind one hyphen. -/
def letters (r : Reading) : List Char → Except Stop Reading
  | [] => .ok r
  | c :: rest =>
    match Switch.ofLetter? c with
    | none => .error (.unknown (String.ofList ['-', c]))
    | some (.flag flag) => do (← r.raise flag).letters rest
    | some (.setter setter) =>
      match rest with
      | [] => r.await setter
      | '=' :: value => r.attach setter (String.ofList value)
      | value => r.attach setter (String.ofList value)

/-- The word behind two hyphens, up to an equals sign, and what stands behind that. -/
def word (r : Reading) (text : List Char) : Except Stop Reading :=
  let (name, value) := match Text.cut? '=' text with
    | some (name, value) => (String.ofList name, some (String.ofList value))
    | none => (String.ofList text, none)
  match Switch.ofWord? name, value with
  | none, _ => .error (.unknownWord name r.given)
  | some (.flag flag), none => r.raise flag
  | some (.flag flag), some value => .error (.valueForFlag flag value r.settled.isEmpty)
  | some (.setter setter), none => r.await setter
  | some (.setter setter), some value => r.attach setter value

/-- All words from here on. Nothing can follow two hyphens alone. -/
def words (r : Reading) : List String → Except Stop Reading
  | [] => r.settle
  | text :: rest =>
    match text.toList with
    | ['-', '-'] =>
      match rest with
      | [] => r.settle
      | next :: _ => .error (.unknown next)
    | '-' :: '-' :: name => do (← r.word name).words rest
    | '-' :: c :: more => do (← r.letters (c :: more)).words rest
    | _ =>
      match r.waiting with
      | some (setter, none) => words { r with waiting := some (setter, some text) } rest
      | _ => .error (.unknown text)

end Reading

/-- The options that a command line gives. -/
def read (arguments : List String) : Except Stop Options := do
  let r ← Reading.start.words arguments
  return {
    settingsPath := (r.value? .settings).getD Settings.standardPath
    verbose := r.isVerbose
    listen := r.value? .listen
    backend := r.value? .backend
    secretPath := r.value? .secret }

/-! ### Texts -/

/-- The switches in columns, below what the program is for. -/
def helpText : String :=
  String.join (["A reverse proxy that signs every forwarded request with a shared secret", "",
    "Usage: authpx [OPTIONS]", "", "Options:",
    "  -c, --config <CONFIG_PATH>  Path to the configuration file [default: ./authpx.json]",
    "  -v, --verbose               Enable verbose logging",
    "  -l, --listen <LISTEN>       Address to listen on, overrides the configuration file",
    "  -u, --upstream <UPSTREAM>   Upstream base URL, overrides the configuration file",
    "  -s, --secret <SECRET_PATH>  Path to the base64 secret file, " ++
      "overrides the configuration file",
    "  -h, --help                  Print help",
    "  -V, --version               Print version"].map (· ++ "\n"))

def versionText : String := "authpx 1.0.1\n"

/-- How a switch is called in messages. -/
def Switch.usage : Switch → String
  | .setter s => s.usage
  | .flag f => "--" ++ f.word

/-- The switches that can stand together; help and the version are asked for alone. -/
def combinable : List Switch :=
  (switches.map (·.2)).filter fun switch => switch ≠ .flag .help ∧ switch ≠ .flag .version

/-- How to call the program with these switches. -/
def usageOf : (given : List Switch) → String
  | [] => "[OPTIONS]"
  | given => " ".intercalate (given.map Switch.usage)

/-- How to call the program with a flag, by itself or beside other switches. -/
def usageWith (flag : Flag) (alone : Bool) : String :=
  let others := "<" ++ "|".intercalate (combinable.map Switch.usage) ++ ">"
  let own := Switch.usage (.flag flag)
  if alone then own
  else if combinable.contains (.flag flag) then others
  else own ++ " " ++ others

/-- What is printed when reading stops. What the command line is quoted with does not steer the
terminal. -/
def Stop.message : Stop → String
  | .help => helpText
  | .version => versionText
  | .unknown text => complaint (unexpected text) (usageOf [])
  | .unknownWord word given =>
    let what := unexpected ("--" ++ word)
    match Switch.like? word with
    | none => complaint what (usageOf given)
    | some switch =>
      let tip := s!"\n\n  tip: a similar argument exists: '--{switch.word}'"
      complaint (what ++ tip) (usageOf (if given.contains switch then given else given ++ [switch]))
  | .noValue setter =>
    s!"error: a value is required for '{setter.usage}' but none was supplied\n\n" ++ hint
  | .repeated switch =>
    complaint s!"the argument '{switch.usage}' cannot be used multiple times" (usageOf [])
  | .valueForFlag flag value first =>
    let name := Switch.usage (.flag flag)
    let shown := Text.withoutSteering value
    complaint s!"unexpected value '{shown}' for '{name}' found; no more were expected"
      (usageWith flag first)
where
  hint : String := "For more information, try '--help'.\n"
  unexpected (text : String) : String :=
    let shown := Text.withoutSteering text
    s!"unexpected argument '{shown}' found"
  complaint (what usage : String) : String :=
    s!"error: {what}\n\nUsage: authpx {usage}\n\n" ++ hint

/-- Asking for help is no mistake. -/
def Stop.isMistake : Stop → Bool
  | .help | .version => false
  | _ => true

end SigningProxy.CommandLine
