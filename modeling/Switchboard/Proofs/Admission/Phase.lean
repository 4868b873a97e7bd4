import Switchboard.Proofs.Admission.Traffic

/-! What has become of the grant of a connection, as a phase: what of it the router holds, and
what was made known of it. -/
namespace Switchboard

inductive Phase where
  /-- There is no grant. -/
  | fresh
  | granted (g : Grant)
  | stored (g : Grant)
  | announced (g : Grant)
  | bound (g : Grant)
  /-- The connection is closed, and the call that closes it has the route. -/
  | closing (g : Grant)
  | unregistered (g : Grant)
  | disposed (g : Grant)
  /-- The connection was closed, and nothing is left of the grant. -/
  | revoked (g : Grant)
  /-- The route was never bound, and nothing is left of the grant. -/
  | withdrawn (g : Grant)

namespace Phase

def grant? : Phase → Option Grant
  | fresh => none
  | granted g | stored g | announced g | bound g | closing g | unregistered g | disposed g
  | revoked g | withdrawn g => some g

/-- Route and token that the peer has. -/
def papers : Phase → Option String × Option String
  | fresh | granted _ => (none, none)
  | stored g | announced g | bound g | closing g | unregistered g | disposed g | revoked g
  | withdrawn g => (some g.route, some g.token)

/-- The route that is registered. -/
def route? : Phase → Option String
  | bound g | closing g => some g.route
  | _ => none

/-- The token that is accepted. -/
def token? : Phase → Option String
  | granted g | stored g | announced g | bound g | closing g | unregistered g | disposed g =>
    some g.token
  | _ => none

/-- The route that the guard names. -/
def guarded? : Phase → Option String
  | bound g => some g.route
  | _ => none

/-- The route that was registered at some time. -/
def bound? : Phase → Option String
  | bound g | closing g | unregistered g | disposed g | revoked g => some g.route
  | _ => none

/-- A call to close has something to do about the grant. -/
def isCarried : Phase → Bool
  | closing _ | unregistered _ | disposed _ => true
  | _ => false

/-- What was made known of the grant. -/
def notices : Phase → List Envelope
  | announced g | bound g | closing g => [Handshake.announcement g]
  | unregistered g | withdrawn g =>
    [Handshake.announcement g, Exchange.unannouncement g.route]
  | disposed g | revoked g =>
    [Handshake.announcement g, Exchange.unannouncement g.route,
      Connection.disposal g.route (some g.token)]
  | _ => []

/-- A call to close that is at `c` agrees with the phase. -/
def Allows (ph : Phase) : Closing → Prop
  | .marked (some r) | .cancelled (some r) => ∃ g, ph = closing g ∧ r = g.route
  | .unregistered r => ∃ g, ph = unregistered g ∧ r = g.route
  | .disposed t => ∃ g, ph = disposed g ∧ t = some g.token
  | .marked none | .cancelled none => ph.isCarried = false
  | .finished _ => True

end Phase

/-- The peer is not admitted, or not any more, and the service sees to it. -/
inductive Failing : Admission → Prop
  | ended (e : Error) : Failing (.greeting (.ended (.error e)))
  | refused : Failing .refused
  | marked : Failing (.closing (.marked none))
  | cancelled : Failing (.closing (.cancelled none))
  | closed (closedIt : Bool) : Failing (.closing (.finished closedIt))
  | unbound : Failing .unbound

/-- How far the service is in each phase. -/
inductive Fits : Phase → Admission → Prop
  | awaiting : Fits .fresh (.greeting .awaiting)
  | received (m : Envelope) : Fits .fresh (.greeting (.received m))
  | failing {a : Admission} (h : Failing a) : Fits .fresh a
  | granted (m : Envelope) (g : Grant) : Fits (.granted g) (.greeting (.granted m g))
  | stored (m : Envelope) (g : Grant) : Fits (.stored g) (.greeting (.stored m g))
  | announced (m : Envelope) (g : Grant) : Fits (.announced g) (.greeting (.announced m g))
  | welcomed (g : Grant) : Fits (.announced g) (.greeting (.ended (.ok g.route)))
  | admitted (g : Grant) : Fits (.announced g) (.admitted g.route)
  | lost {a : Admission} (g : Grant) (h : Failing a) : Fits (.announced g) a
  | nothing : Fits .fresh .finished
  | bound (g : Grant) : Fits (.bound g) .finished
  | closing (g : Grant) : Fits (.closing g) .finished
  | unregistered (g : Grant) : Fits (.unregistered g) .finished
  | disposed (g : Grant) : Fits (.disposed g) .finished
  | revoked (g : Grant) : Fits (.revoked g) .finished
  | withdrawn (g : Grant) : Fits (.withdrawn g) .finished

namespace Event

def grant? : Event → Option Grant
  | granted g => some g
  | _ => none

def bound? : Event → Option String
  | bound route => some route
  | _ => none

def isClosed : Event → Bool
  | closed => true
  | _ => false

def isCalled : Event → Bool
  | called => true
  | _ => false

/-- What an event makes known of a route: news of routes that the uplink is handed, and disposals
that are routed. -/
def notice? (uplink : Nat) : Event → Option Envelope
  | handed h =>
    if h.endpoint = uplink ∧ Exchange.IsControl h.envelope then some h.envelope else none
  | routed m _ => if m.command = some Command.disposeName then some m else none
  | _ => none

/-- All that is made known of routes, in order. -/
def notices (uplink : Nat) (es : List Event) : List Envelope := es.filterMap (notice? uplink)

end Event

/-- The close call of the service itself is under way. -/
def Admission.isClosing : Admission → Bool
  | .closing c => c.isOpen
  | _ => false

/-- The calls that have closed the connection: those under way and those that have returned. -/
def Served.closers (s : Served) (es : List Event) : Nat :=
  s.calls.countP Closing.isOpen + (if s.connection.admission.isClosing then 1 else 0)
    + es.countP Event.isClosed

/-- One call at most has closed the connection, and none has begun as long as it is open. -/
structure Counted (s : Served) (es : List Event) : Prop where
  closers : s.closers es = if s.connection.guard.closed then 1 else 0
  called : es.any Event.isCalled → s.connection.guard.closed = true

/-- What has happened is what leads to the phase. -/
structure Recorded {σ : Type} (x : Exchange σ) (es : List Event) (ph : Phase) : Prop where
  grants : es.filterMap Event.grant? = ph.grant?.toList
  bounds : es.filterMap Event.bound? = ph.bound?.toList
  notices : ∀ b, x.router.closed = false → x.router.uplink = some b →
    Event.notices b.endpoint es = ph.notices

/-- How a connection stands with the router, by its phase and by what has happened. -/
structure Standing {σ : Type} (x : Exchange σ) (s : Served) (es : List Event) (ph : Phase) :
    Prop where
  fits : Fits ph s.connection.admission
  papers : x.papers s.connection.peer = some ph.papers
  guarded : s.connection.guard.route = ph.guarded?
  live : ph.guarded?.isSome → s.connection.guard.closed = false
  allowed : ∀ c ∈ s.calls, ph.Allows c
  carried : ph.isCarried → s.calls.countP Closing.isOpen ≠ 0
  registered : ∀ r, ph.route? = some r →
    ∃ b, x.router.routes.get? r = some b ∧ b.isLocal = false
  counted : Counted s es
  recorded : Recorded x es ph

/-- The grant is made up of the ids of two numbers that follow each other. -/
structure Grant.Numbered (g : Grant) (n : Nat) : Prop where
  route : g.route = Identity.processRoute (Id.ofNat n)
  token : g.token = Id.ofNat (n + 1)

/-- What a step may do to an exchange that takes a connection from one phase to another. -/
structure Effect {σ : Type} (x y : Exchange σ) (peer : Nat) (ph qh : Phase) : Prop where
  papers : ∀ k, k ≠ peer → y.papers k = x.papers k
  uplink : y.router.uplink = x.router.uplink
  closed : y.router.closed = x.router.closed
  minted : x.minted ≤ y.minted
  routes : ∀ r, qh.route? ≠ some r →
    y.router.routes.get? r = if ph.route? = some r then none else x.router.routes.get? r
  accepted : ∀ t, qh.token? ≠ some t →
    y.router.accepted.get? t = if ph.token? = some t then none else x.router.accepted.get? t
  grant : qh.grant? = ph.grant? ∨ ∃ g n, ph = .fresh ∧ qh = .granted g ∧ x.minted ≤ n ∧
    n + 1 < y.minted ∧ g.Numbered n

end Switchboard
