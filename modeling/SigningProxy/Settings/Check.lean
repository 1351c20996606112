import SigningProxy.Address
import SigningProxy.Settings.Basic
import SigningProxy.Settings.Error

/-!
# Checking settings

Settings can be used when each of seven conditions holds. A check finds every condition that does
not, in the order of the settings, and each at most once.
-/

namespace SigningProxy

/-- A limit must leave some time. -/
def checkTimeout (name : String) (limit : Duration) : Except Problem Unit :=
  if limit.isZero then .error (.zeroTimeout name) else .ok ()

/-- The problem that a check has found, if any. -/
def problems {α : Type} : Except Problem α → List Problem
  | .error problem => [problem]
  | .ok _ => []

namespace Settings

/-- Where the proxy listens. -/
def listenAddress (s : Settings) : Except Problem SocketAddress :=
  match SocketAddress.ofText? s.listen with
  | some address => .ok address
  | none => .error (.listen s.listen)

/-- The backend that the proxy serves. -/
def servedBackend (s : Settings) : Except Problem Backend :=
  (Backend.parse s.backend).mapError .backend

def checkSecretPath (s : Settings) : Except Problem Unit :=
  if Text.blank s.secretPath then .error .noSecretPath else .ok ()

/-- The limits that must leave some time, with their names; zero lifts the limit on a request. -/
def limits (s : Settings) : List (String × Duration) :=
  [("dial_timeout_secs", s.timeouts.dial), ("keep_alive_secs", s.timeouts.keepAlive),
    ("tls_handshake_timeout_secs", s.timeouts.handshake)] ++
  (s.timeouts.header.map ("response_header_timeout_secs", ·)).toList

/-- Everything that is wrong. -/
def allProblems (s : Settings) : List Problem :=
  problems s.listenAddress ++ problems s.servedBackend ++ problems s.checkSecretPath ++
    s.limits.flatMap fun (name, limit) => problems (checkTimeout name limit)

def check (s : Settings) : Except SettingsError Unit :=
  match s.allProblems with
  | [] => .ok ()
  | found => .error (.invalid found)

end Settings

end SigningProxy
