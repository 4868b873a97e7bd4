import Switchboard.Files.Socket
import Switchboard.Session.Act
import Switchboard.Settings

/-! Starting a server: its token is judged, its socket is bound, and then all is set going. -/
namespace Switchboard.Server

variable {σ : Type}

/-- Why a server does not start. -/
inductive Fault where
  /-- The token gives no identity, or the identity no route. -/
  | rejected (e : Error)
  /-- The socket cannot be bound. -/
  | unbound (socket : String) (e : Error)

namespace Fault

/-- The error at the bottom of it. -/
def error : Fault → Error
  | rejected e => .config ("agent token rejected: " ++ e.text)
  | unbound _ e => e

/-- What is told of it, the outermost first. -/
def chain : Fault → List String
  | rejected e => [(rejected e).error.text]
  | unbound socket e => ["listening on " ++ socket, e.text]

def exitCode (f : Fault) : Int :=
  match f.error with
  | .config _ => Shutdown.settingsCode
  | _ => Shutdown.failureCode

end Fault

/-- Binds the socket of a mode that needs one. -/
def bind (mode : Mode) (t : Files.Tree) : Except Fault Unit × Files.Tree :=
  match mode with
  | .normal => (.ok (), t)
  | .router socket =>
    let (result, t) := t.bind socket
    (result.mapError (.unbound socket), t)

/-- Judges the token and then binds the socket; no file is touched for a bad token. -/
def prepare (settings : Settings) (x : Exchange σ) (t : Files.Tree) :
    Except Fault (Exchange σ × Grant) × Files.Tree :=
  match x.acceptOwn settings.token with
  | (_, .error e) => (.error (.rejected e), t)
  | (x, .ok grant) =>
    match bind settings.mode t with
    | (.ok (), t) => (.ok (x, grant), t)
    | (.error f, t) => (.error f, t)

/-- A server's parts in a session. -/
structure Parts where
  route : String
  endpoint : Nat
  link : Nat

/-- The service of the server's own route. -/
def service (settings : Settings) (g : Grant) (state : σ) : Service σ :=
  { route := g.route, identity := settings.identity, authToken := some g.token, state }

/-- Sets a server going that was granted its route. -/
def launch (s : Session σ) (settings : Settings) (g : Grant) (state : σ) : Session σ × Parts :=
  let (s, endpoint) := s.addEndpoint (.service (service settings g state))
  let s := s.changeRouter fun x =>
    (x.register g.route endpoint true).mapRouter fun r =>
      { r with defaultRoute := some g.route }
  let s := s.spawn (.loop none endpoint (.shutdown s.shutdown) false)
  let (s, link) := s.attach
  let s := s.onService endpoint (·.announce)
  let s := match settings.statusInterval with
    | some interval =>
      s.spawn (.report none endpoint s.router interval (.shutdown s.shutdown) none none)
    | none => s
  (s, ⟨g.route, endpoint, link⟩)

/-- Starts a server with a router and a shutdown of its own. -/
def start (s : Session σ) (settings : Settings) (state : σ) (t : Files.Tree) :
    Except Fault (Session σ × Parts) × Files.Tree :=
  match prepare settings ⟨{}, s.endpoints, s.minted⟩ t with
  | (.error f, t) => (.error f, t)
  | (.ok (x, g), t) =>
    let n := s.routers.length
    let s := { s with
      routers := s.routers ++ [x.router]
      router := n
      shutdowns := s.shutdowns ++ [{}]
      shutdown := s.shutdowns.length
      kept := n :: s.kept
      minted := x.minted }
    (.ok (launch s settings g state), t)

end Switchboard.Server
