import Switchboard.Proofs.Exchange.Calm
import Switchboard.Proofs.Exchange.Removal

/-! Runs of an exchange: pumps that take envelopes and route them, in any order among each other
and among all else that happens at the router and at its endpoints. The log of a run says who did
what, which envelopes found an open inbox, and what the routing of an envelope reported. -/
namespace Switchboard

namespace Exchange

variable {σ : Type}

/-- What was handed to an endpoint and is still in its inbox. -/
def incoming (x : Exchange σ) (k : Nat) : List Envelope :=
  (x.endpoints[k]?.map (·.incoming.items)).getD []

/-- What an endpoint has said and nobody has taken. -/
def outgoing (x : Exchange σ) (k : Nat) : List Envelope :=
  (x.endpoints[k]?.map (·.outgoing.items)).getD []

/-- Whether what is handed to an endpoint gets into its inbox. -/
def listens (x : Exchange σ) (k : Nat) : Bool :=
  (x.endpoints[k]?.map (·.incoming.isOpen)).getD false

/-- What the pumps of an endpoint have taken and not routed. -/
def held (x : Exchange σ) (k : Nat) : List Envelope :=
  x.router.pumps.flatMap fun u => if u.endpoint = k then u.held.toList else []

/-- All that an endpoint has said and that is not routed, in the order it was said. -/
def waiting (x : Exchange σ) (k : Nat) : List Envelope := x.held k ++ x.outgoing k

/-- Those of some handings that find an open inbox. -/
def taken (x : Exchange σ) (hs : List Handing) : List Handing :=
  hs.filter fun h => x.listens h.endpoint

/-- No endpoint has been bound twice, so that each has one pump at most. -/
def BoundOnce (x : Exchange σ) : Prop := (x.router.pumps.map Pump.endpoint).Nodup

end Exchange

namespace Relay

variable {σ : Type}

/-- What is done to the router's tables other than by the envelopes it routes. -/
inductive Operation where
  | register (route : String) (endpoint : Nat) (isLocal : Bool)
  | unregister (route : String)
  | setUplink (endpoint : Nat)
  | clearUplink
  | setDefault (route : String)
  | withdraw (route : String) (token : Option String)
  /-- Clients are accepted or no longer so, and ids are made up for them. -/
  | accept (accepted : Registry String Identity) (minted : Nat)
  | shutdown

namespace Operation

def apply (x : Exchange σ) : Operation → Exchange σ
  | register route endpoint isLocal => x.register route endpoint isLocal
  | unregister route => x.unregister route
  | setUplink endpoint => x.mapRouter (·.setUplink endpoint)
  | clearUplink => x.mapRouter Router.clearUplink
  | setDefault route => x.mapRouter fun r => { r with defaultRoute := some route }
  | withdraw route token => x.withdraw route token
  | accept accepted minted => { x.mapRouter ({ · with accepted }) with minted }
  | shutdown => x.mapRouter Router.shutdown

/-- The endpoint that gets a pump. -/
def bound? : Operation → Option Nat
  | register _ endpoint _ | setUplink endpoint => some endpoint
  | _ => none

/-- What the uplink is told of a route that is gone. -/
def handings (r : Router) : Operation → List Handing
  | unregister route => Exchange.unregisterHandings r route
  | withdraw route _ => Exchange.uplinkHandings r (Exchange.unannouncement route)
  | _ => []

def table (r : Router) : Operation → Router
  | register route endpoint isLocal => r.register route endpoint isLocal
  | unregister route => r.unregister route
  | setUplink endpoint => r.setUplink endpoint
  | clearUplink => r.clearUplink
  | setDefault route => { r with defaultRoute := some route }
  | withdraw route (some token) => (r.revoke token).retract route
  | withdraw route none => r.retract route
  | accept accepted _ => { r with accepted }
  | shutdown => r.shutdown

end Operation

/-- Something that happens at an exchange. -/
inductive Turn where
  /-- An endpoint has something to say. -/
  | produce (k : Nat) (m : Envelope)
  /-- An endpoint takes envelopes out of its inbox. -/
  | consume (k : Nat)
  /-- An endpoint stops listening; what is in its inbox is lost. -/
  | shut (k : Nat)
  /-- Something goes on inside an endpoint that does not touch its queues. -/
  | change (k : Nat)
  /-- The pump of an endpoint takes the next envelope. -/
  | fetch (k : Nat)
  /-- The pump of an endpoint routes the envelope that it has taken. -/
  | forward (k : Nat) (source : String) (m : Envelope)
  /-- Somebody else has an envelope routed. -/
  | inject (source : String) (m : Envelope)
  | operate (op : Operation)

structure Entry where
  turn : Turn
  /-- What got into inboxes. -/
  handed : List Handing := []
  /-- What was taken out of an inbox. -/
  consumed : List Envelope := []
  /-- What came of routing an envelope. -/
  report : Except Error Unit := .ok ()

inductive Step (x : Exchange σ) : Entry → Exchange σ → Prop
  | produce {k : Nat} {e : Endpoint σ} {m : Envelope} {q : Queue} (he : x.endpoints[k]? = some e)
      (hq : e.outgoing.push? m = some q) :
      Step x { turn := .produce k m } (x.modify k (·.withOutgoing q))
  | consume {k : Nat} {e : Endpoint σ} {ms rest : List Envelope} (he : x.endpoints[k]? = some e)
      (hq : e.incoming.items = ms ++ rest) :
      Step x { turn := .consume k, consumed := ms }
        (x.modify k (·.withIncoming { e.incoming with items := rest }))
  | shut {k : Nat} {e : Endpoint σ} (he : x.endpoints[k]? = some e) :
      Step x { turn := .shut k, consumed := e.incoming.items }
        (x.modify k (·.withIncoming e.incoming.close))
  | change (k : Nat) {f : Endpoint σ → Endpoint σ}
      (hf : ∀ e, (f e).incoming = e.incoming ∧ (f e).outgoing.items = e.outgoing.items) :
      Step x { turn := .change k } (x.modify k f)
  /-- A pump takes an envelope when it has routed the last one. -/
  | fetch {p : Nat} {u : Pump} {y : Exchange σ} (hu : x.router.pumps[p]? = some u)
      (hidle : u.held = none) (hy : x.fetch p = .held y) :
      Step x { turn := .fetch u.endpoint } y
  | forward {p : Nat} {u : Pump} {m : Envelope} (hu : x.router.pumps[p]? = some u)
      (hm : u.held = some m) :
      Step x {
        turn := .forward u.endpoint u.source m
        handed := x.taken (Exchange.routeHandings x.router m u.source)
        report := (x.forward p).2 } (x.forward p).1
  | inject (source : String) (m : Envelope) :
      Step x {
        turn := .inject source m
        handed := x.taken (Exchange.routeHandings x.router m source)
        report := (x.route m source).2 } (x.route m source).1
  /-- An endpoint is bound once and never again, to whatever route. -/
  | operate (op : Operation) (hnew : ∀ k, op.bound? = some k → ∀ u ∈ x.router.pumps, u.endpoint ≠ k) :
      Step x { turn := .operate op, handed := x.taken (op.handings x.router) } (op.apply x)

inductive Run : Exchange σ → List Entry → Exchange σ → Prop
  | nil (x : Exchange σ) : Run x [] x
  | cons {x y z : Exchange σ} {t : Entry} {log : List Entry} (h : Step x t y) (hr : Run y log z) :
      Run x (t :: log) z

/-- What an endpoint says in the course of a run. -/
def produced (k : Nat) (log : List Entry) : List Envelope :=
  log.filterMap fun t =>
    match t.turn with
    | .produce j m => if j = k then some m else none
    | _ => none

/-- What the pump of an endpoint routes in the course of a run. -/
def forwarded (k : Nat) (log : List Entry) : List Envelope :=
  log.filterMap fun t =>
    match t.turn with
    | .forward j _ m => if j = k then some m else none
    | _ => none

/-- What gets into the inbox of an endpoint, from wherever it comes. -/
def handedTo (d : Nat) (log : List Entry) : List Envelope :=
  log.flatMap fun t => (t.handed.filter (·.endpoint = d)).map Handing.envelope

/-- What comes out of the inbox of an endpoint. -/
def consumedBy (d : Nat) (log : List Entry) : List Envelope :=
  log.flatMap fun t =>
    match t.turn with
    | .consume k | .shut k => if k = d then t.consumed else []
    | _ => []

/-- What gets into the inbox of an endpoint when the pump of another routes it. -/
def handedFrom (s d : Nat) (log : List Entry) : List Envelope :=
  log.flatMap fun t =>
    match t.turn with
    | .forward k _ _ =>
      if k = s then (t.handed.filter (·.endpoint = d)).map Handing.envelope else []
    | _ => []

end Relay

end Switchboard
