import Switchboard.Connection
import Switchboard.Link
import Switchboard.Status

/-! A session: routers, endpoints, connections and links under one clock, with the fibers that
run on them. -/
namespace Switchboard

/-- What ends a loop from outside. -/
inductive Signal where
  /-- The end of a service. -/
  | shutdown (n : Nat)
  /-- A signal of the endpoint's own. -/
  | endpoint (n : Nat)
  | reports
deriving DecidableEq, Repr

/-- What a call in the background has come to. -/
inductive Answer where
  | done
  | stopped
  | route (id : String)
  | response (m : Envelope)
  | code (n : Int)
  | failed (e : Error)

inductive Side where
  | reading
  | writing
deriving DecidableEq, Repr

/-- How far the keeper of one side of a stream is. -/
inductive Keeping where
  | fresh
  | waiting
  | closing (c : Closing)

/-- A fiber with how far it is; the numbers are those of router, pump, connection, link,
endpoint, job and shutdown. -/
inductive Fiber where
  | pump (router pump : Nat)
  /-- A handshake with a peer that belongs to no connection. -/
  | greet (call : String) (router peer : Nat) (grace : Duration) (due : Option Duration)
    (h : Handshake)
  | serve (connection : Nat) (begun : Bool)
  | handshake (connection : Nat) (due : Option Duration)
  /-- Waits for one side of a stream to end, and closes the connection then. -/
  | keep (connection : Nat) (side : Side) (k : Keeping)
  | intake (connection : Nat)
  | outlet (connection : Nat)
  /-- Waits for one side of a link to end, and sees to what follows. -/
  | watch (link : Nat) (side : Side) (begun : Bool)
  | linkIntake (link : Nat)
  | linkOutlet (link : Nat)
  | loop (call : Option String) (endpoint : Nat) (stop : Signal) (begun : Bool)
  | dispose (endpoint : Nat)
  | job (endpoint job : Nat)
  | work (endpoint job : Nat)
  | request (call : String) (endpoint : Nat) (c : Command) (route : Option String)
    (number : Option Nat)
  | report (call : Option String) (endpoint router : Nat) (interval : Duration)
    (stop : Signal) (started due : Option Duration)
  /-- Waits for the end of a service, and ends its routing if it is asked to. -/
  | await (call : String) (shutdown : Nat) (router : Option Nat)

structure Session (σ : Type) where
  /-- The time of day. -/
  clock : Duration := ⟨0⟩
  routers : List Router := [{}]
  /-- The router in use. -/
  router : Nat := 0
  shutdowns : List Shutdown := [{}]
  /-- The shutdown in use. -/
  shutdown : Nat := 0
  endpoints : List (Endpoint σ) := []
  minted : Nat := 0
  /-- Connections, each with its router. -/
  connections : List (Nat × Connection) := []
  /-- Links, each with the shutdown that it ends with. -/
  links : List (Nat × Link) := []
  /-- Routers that outlive their use. -/
  kept : List Nat := []
  fired : List Signal := []
  /-- Fibers that have not finished, the oldest first. -/
  fibers : List (Nat × Fiber) := []
  started : Nat := 0
  /-- Fibers that can go on, in the order in which they came to be able to. -/
  ready : List Nat := []
  /-- Who waits for what an endpoint has to say; only the first in line is told. -/
  lines : List (Nat × Nat) := []
  answers : List (String × Answer) := []

namespace Session

variable {σ : Type}

/-- Starts a fiber. -/
def spawn (s : Session σ) (t : Fiber) : Session σ :=
  { s with
    fibers := s.fibers ++ [(s.started, t)]
    started := s.started + 1
    ready := s.ready ++ [s.started] }

def answer (s : Session σ) (call : String) (a : Answer) : Session σ :=
  { s with answers := s.answers ++ [(call, a)] }

/-- A router with all endpoints. -/
def exchange (s : Session σ) (router : Nat) : Exchange σ :=
  ⟨(s.routers[router]?).getD {}, s.endpoints, s.minted⟩

/-- Puts a router and all endpoints back, and starts the pumps that are new. -/
def put (s : Session σ) (router : Nat) (x : Exchange σ) : Session σ :=
  let before := ((s.routers[router]?).getD {}).pumps.length
  let s := { s with
    routers := s.routers.set router x.router
    endpoints := x.endpoints
    minted := x.minted }
  (List.range' before (x.router.pumps.length - before)).foldl (·.spawn <| .pump router ·) s

/-- Lets an exchange do something. -/
def lend {α : Type} (s : Session σ) (router : Nat) (f : Exchange σ → Exchange σ × α) :
    Session σ × α :=
  let (x, a) := f (s.exchange router)
  (s.put router x, a)

/-- Lets a connection do something, if it can. -/
def onConnection (s : Session σ) (c : Nat)
    (f : Connection → Exchange σ → Option (Exchange σ × Connection)) : Option (Session σ) :=
  match s.connections[c]? with
  | none => none
  | some (router, connection) =>
    (f connection (s.exchange router)).map fun (x, connection) =>
      { s.put router x with connections := s.connections.set c (router, connection) }

/-- Lets a link do something, if it can; a link needs no router. -/
def onLink (s : Session σ) (l : Nat)
    (f : Link → Exchange σ → Option (Exchange σ × Link)) : Option (Session σ) :=
  match s.links[l]? with
  | none => none
  | some (shutdown, link) =>
    (f link (s.exchange s.router)).map fun (x, link) =>
      { s.put s.router x with links := s.links.set l (shutdown, link) }

def service? (s : Session σ) (endpoint : Nat) : Option (Service σ) :=
  s.endpoints[endpoint]?.bind (·.service?)

def setService (s : Session σ) (endpoint : Nat) (v : Service σ) : Session σ :=
  { s with endpoints := s.endpoints.set endpoint (.service v) }

def shutdownAt (s : Session σ) (n : Nat) : Shutdown := (s.shutdowns[n]?).getD {}

def trigger (s : Session σ) (n : Nat) (c : Cause) : Session σ × Bool :=
  let (shutdown, won) := (s.shutdownAt n).trigger c
  ({ s with shutdowns := s.shutdowns.set n shutdown }, won)

def isFired (s : Session σ) : Signal → Bool
  | .shutdown n => (s.shutdownAt n).triggered
  | signal => s.fired.contains signal

/-- Whether anybody still has the router. -/
def isAlive (s : Session σ) (router : Nat) : Bool :=
  router = s.router || s.kept.contains router || s.connections.any (·.1 = router)

/-- Takes a fiber out of all lines. -/
def leave (s : Session σ) (fiber : Nat) : Session σ :=
  { s with lines := s.lines.filter (·.2 ≠ fiber) }

/-- Whether a fiber is the first in an endpoint's line. -/
def isFirst (s : Session σ) (fiber endpoint : Nat) : Bool :=
  s.lines.find? (·.1 = endpoint) = some (endpoint, fiber)

end Session

end Switchboard
