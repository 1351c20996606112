import SigningProxy.Program.Binding
import SigningProxy.Program.CommandLine
import SigningProxy.Program.Server
import SigningProxy.Settings.Check
import SigningProxy.Settings.File

/-!
# Starting the program

The command line is read, the settings are loaded, overridden and checked, the proxy is bound and
begins to listen. The first thing that fails ends the program, with its failure on the error output.
-/

namespace SigningProxy

/-- What the program is doing after its start: serving, or nothing any more. -/
inductive Fate where
  | ended (code : Nat)
  | serving (binding : Binding) (deadline : Option Deadline)

/-- What a start leads to. -/
structure Started where
  output : String
  errors : String
  files : FileTree
  fate : Fate

namespace Startup

def told (level : Level) (message : String) : Record := ⟨level, .program, message⟩

/-- A failure as it is printed, with its causes below it. -/
def failureText : List String → String
  | [] => ""
  | [failure] => s!"Error: {failure}\n"
  | failure :: causes =>
    s!"Error: {failure}\n\nCaused by:\n" ++ String.join (causes.map fun cause => s!"    {cause}\n")

/-- Everything is told when much is, and otherwise only what matters to everyone. -/
def isShown (verbose : Bool) (r : Record) : Bool := verbose || r.level.rank ≤ Level.info.rank

/-- The records as they are printed. -/
def printed (verbose : Bool) (log : List Record) : String :=
  String.join ((log.filter (isShown verbose)).map fun r => r.line ++ "\n")

/-- Why a start fails, as a code for the system and a chain of causes. -/
structure Failure where
  code : Nat
  chain : List String

def Failure.ofSettings (e : SettingsError) : Failure := ⟨1, e.chain⟩

/-- Limits that cannot be added are no mistake that the program expects. -/
def Failure.ofBind : BindError → Failure
  | .backend cause => ⟨1, [cause.message]⟩
  | .budgetOverflow => ⟨101, [BindError.budgetOverflow.message]⟩

def Failure.ofListen (e : Server.ListenError) : Failure := ⟨1, e.chain⟩

def forwarding (b : Binding) : Record :=
  told .info s!"Forwarding to {b.gateway.backend.text} (secret: {b.store.path})"

/-- From settings to a server that listens; what is told up to a failure is kept. -/
def serve (host : Host) (s : Settings) : List Record × Except Failure Binding :=
  match s.check with
  | .error e => ([], .error (.ofSettings e))
  | .ok () =>
    match Binding.new s.backend s.secretPath s.version s.timeouts with
    | (log, .error e) => (log, .error (.ofBind e))
    | (log, .ok binding) =>
      let log := log ++ [forwarding binding]
      match s.listenAddress with
      | .error problem => (log, .error (.ofSettings (.problem problem)))
      | .ok address =>
        match Server.listen host address address.text with
        | .error e => (log, .error (.ofListen e))
        | .ok records => (log ++ records, .ok binding)

/-- A start with options that have been understood. -/
def run (host : Host) (files : FileTree) (options : Options) : Started :=
  let start := [told .info "Starting authpx", told .trace s!"Arguments: {options.listing}"]
  let loaded := Settings.load options.settingsPath files
  let log := start ++ loaded.log
  let failed (log : List Record) (failure : Failure) : Started :=
    ⟨"", printed options.verbose log ++ failureText failure.chain, loaded.files,
      .ended failure.code⟩
  match loaded.result with
  | .error e => failed log (.ofSettings e)
  | .ok settings =>
    let settings := options.apply settings
    match serve host settings with
    | (more, .error failure) => failed (log ++ more) failure
    | (more, .ok binding) =>
      ⟨"", printed options.verbose (log ++ more), loaded.files,
        .serving binding settings.deadline⟩

end Startup

/-- Start the program with the words of its command line. -/
def start (host : Host) (files : FileTree) (arguments : List String) : Started :=
  match CommandLine.read arguments with
  | .ok options => Startup.run host files options
  | .error stop =>
    if stop.isMistake then ⟨"", stop.message, files, .ended 2⟩
    else ⟨stop.message, "", files, .ended 0⟩

end SigningProxy
