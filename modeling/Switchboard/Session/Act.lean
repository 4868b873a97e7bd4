import Switchboard.Session.Run

/-! What can be done to a session from outside. -/
namespace Switchboard.Session

variable {σ : Type}

/-- Adds an endpoint. -/
def addEndpoint (s : Session σ) (e : Endpoint σ) : Session σ × Nat :=
  ({ s with endpoints := s.endpoints ++ [e] }, s.endpoints.length)

def modifyEndpoint (s : Session σ) (n : Nat) (f : Endpoint σ → Endpoint σ) : Session σ :=
  { s with endpoints := s.endpoints.modify n f }

/-- Lets the router in use do something. -/
def withRouter {α : Type} (s : Session σ) (f : Exchange σ → Exchange σ × α) : Session σ × α :=
  s.lend s.router f

def changeRouter (s : Session σ) (f : Exchange σ → Exchange σ) : Session σ :=
  (s.withRouter fun x => (f x, ())).1

def currentRouter (s : Session σ) : Router := (s.exchange s.router).router

def currentShutdown (s : Session σ) : Shutdown := s.shutdownAt s.shutdown

/-- Has an endpoint say something, unless its mouth is shut. -/
def emit (s : Session σ) (n : Nat) (m : Envelope) : Session σ × Bool :=
  match s.endpoints[n]? with
  | none => (s, false)
  | some e =>
    if e.outgoing.ended then (s, false)
    else
      match e.outgoing.push? m with
      | none => (s, false)
      | some q => (s.modifyEndpoint n (·.withOutgoing q), true)

/-- Lets an endpoint stop listening to what is handed to it. -/
def dropInbox (s : Session σ) (n : Nat) : Session σ :=
  s.modifyEndpoint n fun e => e.withIncoming e.incoming.close

/-- Has an endpoint say nothing any more. -/
def dropOutbox (s : Session σ) (n : Nat) : Session σ :=
  s.modifyEndpoint n fun e => e.withOutgoing e.outgoing.finish

/-- What an endpoint was handed since it was last asked. -/
def collect (s : Session σ) (n : Nat) : List Envelope × Session σ :=
  match s.endpoints[n]? with
  | none => ([], s)
  | some e =>
    (e.incoming.items, s.modifyEndpoint n fun e => e.withIncoming e.incoming.drained)

/-- What an endpoint answers to somebody who listens for a moment only. -/
inductive Glance where
  | envelope (m : Envelope)
  | pending
  | closed

/-- Listens to an endpoint for a moment; whoever is in line comes first. -/
def glance (s : Session σ) (n : Nat) : Session σ × Glance :=
  if s.lines.any (·.1 = n) then (s, .pending)
  else
    match (s.exchange s.router).hear n with
    | .envelope m x => (s.put s.router x, .envelope (x.stamp n m))
    | .nothing => (s, .pending)
    | .ended => (s, .closed)

/-- Puts a new router in place of the one in use. -/
def renewRouter (s : Session σ) : Session σ :=
  { s with routers := s.routers ++ [{}], router := s.routers.length }

/-- Presents the server's own token for a peer. -/
def acceptFor (s : Session σ) (n : Nat) (token : String) : Session σ × Except Error Grant :=
  s.withRouter fun x =>
    match x.acceptOwn token with
    | (x, .ok g) =>
      (x.modifyPeer n fun p => { p with authToken := some g.token, route := some g.route },
        .ok g)
    | out => out

def onService (s : Session σ) (n : Nat) (f : Service σ → Service σ) : Session σ :=
  s.modifyEndpoint n fun
    | .service v => .service (f v)
    | e => e

/-- Has a handler handle a command at once. -/
def handle (h : Handler σ) (s : Session σ) (n : Nat) (m : Envelope) :
    Session σ × Outcome (Option Value) :=
  match s.service? n with
  | none => (s, .returned none)
  | some v =>
    let (state, reply) := h.handle v.state s.clock v.identity m
    (s.setService n { v with state }, reply.outcome)

def dispose (h : Handler σ) (s : Session σ) (n : Nat) (route : String) : Session σ :=
  s.onService n fun v => { v with state := h.dispose v.state route }

/-- Takes in a new connection. -/
def connect (s : Session σ) (grace : Duration) (maxFrame : Nat) : Session σ × Nat :=
  let (s, peer) := s.addEndpoint (.peer {})
  let c := s.connections.length
  let connection : Connection := { peer, grace, maxFrame }
  (spawn { s with connections := s.connections ++ [(s.router, connection)] } (.serve c false), c)

def changeConnection (s : Session σ) (c : Nat) (f : Connection → Connection) : Session σ :=
  { s with connections := s.connections.modify c fun (r, c) => (r, f c) }

def connection? (s : Session σ) (c : Nat) : Option Connection :=
  s.connections[c]?.map (·.2)

/-- Whether the service of a connection has got as far as it goes. -/
def isServed (s : Session σ) (c : Nat) : Bool :=
  match s.connection? c with
  | some { admission := .finished, .. } => true
  | _ => false

def receive (s : Session σ) (c : Nat) (r : Read) : Session σ :=
  s.changeConnection c fun c => { c with intake.reads := c.intake.reads ++ [r] }

def endInput (s : Session σ) (c : Nat) : Session σ :=
  s.changeConnection c fun c => { c with intake.ended := true }

def failWrites (s : Session σ) (c : Nat) (text : String) : Session σ :=
  s.changeConnection c fun c => { c with outlet.failing := some text }

/-- Steps of a call that closes a connection. -/
def closeSteps : Nat := 6

/-- Goes through with a call that closes a connection. -/
def closeFrom (h : Handler σ) (c : Nat) : (fuel : Nat) → Closing → Session σ → Session σ × Bool
  | 0, _, s => (s, false)
  | _ + 1, .finished closedIt, s => (s, closedIt)
  | fuel + 1, closing, s =>
    match s.connections[c]? with
    | none => (s, false)
    | some (r, connection) =>
      let (x, connection, closing) := connection.closeStep (s.exchange r) closing
      let s := { s.put r x with connections := s.connections.set c (r, connection) }
      closeFrom h c fuel closing (s.wake h none)

/-- Closes a connection. -/
def close (h : Handler σ) (s : Session σ) (c : Nat) : Session σ × Bool :=
  match s.connections[c]? with
  | none => (s, false)
  | some (r, connection) =>
    let (guard, closing) := connection.guard.beginClose
    let s := { s with connections := s.connections.set c (r, { connection with guard }) }
    closeFrom h c closeSteps closing s

/-- Attaches the uplink to the router in use. -/
def attach (s : Session σ) : Session σ × Nat :=
  let (s, peer) := s.addEndpoint (.peer {})
  let l := s.links.length
  let s := { s with links := s.links ++ [(s.shutdown, ({ peer := peer } : Link))] }
  let s := s.spawn (.watch l .reading false)
  let s := s.spawn (.watch l .writing false)
  (s.changeRouter fun x => x.mapRouter (·.setUplink peer), l)

def changeLink (s : Session σ) (l : Nat) (f : Link → Link) : Session σ :=
  { s with links := s.links.modify l fun (n, l) => (n, f l) }

def link? (s : Session σ) (l : Nat) : Option Link := s.links[l]?.map (·.2)

def receiveUplink (s : Session σ) (l : Nat) (r : Read) : Session σ :=
  s.changeLink l fun l => { l with reads := l.reads ++ [r] }

def endUplink (s : Session σ) (l : Nat) : Session σ :=
  s.changeLink l fun l => { l with ended := true }

def failUplink (s : Session σ) (l : Nat) (text : String) : Session σ :=
  s.changeLink l fun l => { l with failing := some text }

/-- Has status reports sent until they are called off. -/
def startReports (s : Session σ) (call : String) (n : Nat) (interval : Duration) : Session σ :=
  let s := { s with fired := s.fired.filter (· ≠ Signal.reports) }
  s.spawn (.report (some call) n s.router interval .reports none none)

def fire (s : Session σ) (signal : Signal) : Session σ := { s with fired := signal :: s.fired }

end Switchboard.Session
