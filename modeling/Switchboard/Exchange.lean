import Switchboard.Endpoint
import Switchboard.Id
import Switchboard.Router

/-! A router together with the endpoints that it delivers to. -/
namespace Switchboard

/-- What somebody is given who is accepted. -/
structure Grant where
  route : String
  token : String
  identity : Identity
deriving Repr

structure Exchange (σ : Type) where
  router : Router := {}
  /-- The endpoints by number. -/
  endpoints : List (Endpoint σ) := []
  /-- Number of ids made up so far. -/
  minted : Nat := 0

namespace Exchange

variable {σ : Type}

/-- Changes the router alone. -/
def mapRouter (x : Exchange σ) (f : Router → Router) : Exchange σ :=
  { x with router := f x.router }

/-- Hands an envelope to an endpoint. -/
def send (x : Exchange σ) (endpoint : Nat) (m : Envelope) : Exchange σ × Except Error Unit :=
  match x.endpoints[endpoint]? with
  | none => (x, .error (.transport "no such endpoint"))
  | some e =>
    match e.send m with
    | .ok e => ({ x with endpoints := x.endpoints.set endpoint e }, .ok ())
    | .error err => (x, .error err)

/-- Hands an envelope to the uplink, if one is bound. -/
def sendUplink (x : Exchange σ) (m : Envelope) : Exchange σ × Except Error Unit :=
  match x.router.uplink with
  | some b => x.send b.endpoint m
  | none => (x, .ok ())

/-- The news that a route is gone. -/
def unannouncement (route : String) : Envelope :=
  { Envelope.ofCommand .routeUnannounce with source := some route }

/-- Tells the uplink that a route is gone; it does not matter whether that is heard. -/
def tellGone (x : Exchange σ) (route : String) : Exchange σ :=
  (x.sendUplink (unannouncement route)).1

def register (x : Exchange σ) (route : String) (endpoint : Nat) (isLocal : Bool) :
    Exchange σ :=
  x.mapRouter (·.register route endpoint isLocal)

def unregister (x : Exchange σ) (route : String) : Exchange σ :=
  match x.router.routes.get? route with
  | none => x
  | some b =>
    let x := x.mapRouter (·.unregister route)
    if b.isLocal then x else x.tellGone route

/-- Takes back a route that was announced and never bound, and the token it came with. -/
def withdraw (x : Exchange σ) (route : String) (token : Option String) : Exchange σ :=
  let x := match token with
    | some token => x.mapRouter (·.revoke token)
    | none => x
  (x.mapRouter (·.retract route)).tellGone route

/-- What an envelope without a source gets for one. -/
def sourced (m : Envelope) (source : String) : Envelope :=
  if m.source.isNone then { m with source := some source } else m

/-- Passes an announcement on; one from the uplink is of no interest. -/
def announce (x : Exchange σ) (m : Envelope) (source : String) :
    Exchange σ × Except Error Unit :=
  if source = uplinkRoute then (x, .ok ())
  else (x.mapRouter (·.noteAnnounced (m.source.getD source) source)).sendUplink m

def unannounce (x : Exchange σ) (m : Envelope) (source : String) :
    Exchange σ × Except Error Unit :=
  if source = uplinkRoute then (x, .ok ())
  else (x.mapRouter (·.noteUnannounced (m.source.getD source) source)).sendUplink m

/-- Hands an envelope to where the tables say. -/
def deliver (x : Exchange σ) (m : Envelope) (source : String) : Exchange σ × Except Error Unit :=
  match x.router.resolve? m.route source with
  | none =>
    (x, .error (.routing ("no route for " ++ m.route.getD "<default>" ++ " from " ++ source)))
  | some (route, b) =>
    match x.send b.endpoint m with
    | (x, .ok ()) => (x, .ok ())
    | (x, .error e) => (x, .error (.routing ("route " ++ route ++ " is closed: " ++ e.text)))

/-- Routes an envelope that comes from `source`. -/
def route (x : Exchange σ) (m : Envelope) (source : String) : Exchange σ × Except Error Unit :=
  if x.router.closed then (x, .error (.routing "router is shut down"))
  else
    let m := sourced m source
    if m.command = some Command.routeAnnounceName then x.announce m source
    else if m.command = some Command.routeUnannounceName then x.unannounce m source
    else x.deliver m source

/-- Routes an envelope that is still JSON. -/
def inject (x : Exchange σ) (b : Bytes) (source : String) : Exchange σ × Except Error Unit :=
  match Envelope.ofJson b with
  | .ok m => x.route m source
  | .error e => (x, .error (.wire e))

/-- An id that nothing has yet. -/
def mint (x : Exchange σ) : String × Exchange σ :=
  (Id.ofNat x.minted, { x with minted := x.minted + 1 })

/-- Accepts the server's own token, and clients that present it from now on. -/
def acceptOwn (x : Exchange σ) (token : String) : Exchange σ × Except Error Grant :=
  match Identity.ofToken token with
  | .error e => (x, .error e)
  | .ok c =>
    let (id, x) := x.mint
    match c.route id with
    | .error e => (x, .error e)
    | .ok route =>
      let (minted, x) := x.mint
      (x.mapRouter fun r => (r.accept token c).accept minted c, .ok ⟨route, minted, c⟩)

/-- Admits a client by its token, under a route and with a token of its own. -/
def authenticate (x : Exchange σ) (token : String) : Exchange σ × Except Error Grant :=
  if token = "" then (x, .error (.auth "empty token"))
  else
    match x.router.accepted.get? token with
    | none => (x, .error (.auth "token not accepted"))
    | some c =>
      let (id, x) := x.mint
      let (minted, x) := x.mint
      (x.mapRouter (·.accept minted c), .ok ⟨Identity.processRoute id, minted, c⟩)

/-- Changes an endpoint. -/
def modify (x : Exchange σ) (endpoint : Nat) (f : Endpoint σ → Endpoint σ) : Exchange σ :=
  { x with endpoints := x.endpoints.modify endpoint f }

/-- The peer of a number. -/
def peer? (x : Exchange σ) (endpoint : Nat) : Option Peer :=
  x.endpoints[endpoint]?.bind (·.peer?)

def modifyPeer (x : Exchange σ) (endpoint : Nat) (f : Peer → Peer) : Exchange σ :=
  x.modify endpoint fun
    | .peer p => .peer (f p)
    | e => e

/-- What an endpoint has to say next. -/
inductive Heard (σ : Type) where
  | envelope (m : Envelope) (x : Exchange σ)
  | nothing
  | ended

/-- Listens to an endpoint; what it says is taken as it is. -/
def hear (x : Exchange σ) (endpoint : Nat) : Heard σ :=
  match x.endpoints[endpoint]? with
  | none => .ended
  | some e =>
    match e.outgoing.take with
    | .envelope m q => .envelope m (x.modify endpoint (·.withOutgoing q))
    | .nothing => .nothing
    | .ended => .ended

/-- What an envelope of an endpoint is passed on as. -/
def stamp (x : Exchange σ) (endpoint : Nat) (m : Envelope) : Envelope :=
  match x.endpoints[endpoint]? with
  | some e => e.stamp m
  | none => m

def setPump (x : Exchange σ) (pump : Nat) (held : Option Envelope) : Exchange σ :=
  x.mapRouter fun r => { r with pumps := r.pumps.modify pump fun p => { p with held } }

/-- What a pump finds when it turns to its endpoint. -/
inductive Fetched (σ : Type) where
  /-- It has taken an envelope. -/
  | held (x : Exchange σ)
  | nothing
  /-- There is nothing to fetch for it any more. -/
  | finished

/-- Lets a pump take an envelope; a cancelled one takes none. -/
def fetch (x : Exchange σ) (pump : Nat) : Fetched σ :=
  match x.router.pumps[pump]? with
  | none => .finished
  | some p =>
    if p.cancelled then .finished
    else
      match x.hear p.endpoint with
      | .envelope m x => .held (x.setPump pump (some (x.stamp p.endpoint m)))
      | .nothing => .nothing
      | .ended => .finished

/-- Lets a pump route the envelope that it holds. -/
def forward (x : Exchange σ) (pump : Nat) : Exchange σ × Except Error Unit :=
  match x.router.pumps[pump]? with
  | some { source, held := some m, .. } => (x.setPump pump none).route m source
  | _ => (x, .ok ())

end Exchange

end Switchboard
