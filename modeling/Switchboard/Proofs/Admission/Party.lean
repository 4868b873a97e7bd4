import Switchboard.Connection
import Switchboard.Proofs.Exchange.Removal

/-! One connection with all that is done to it: its service, both sides of its stream, the calls
that close it, and the client. They take their steps in any order; each step says what happened
in it. -/
namespace Switchboard

/-- What happens in a step of one of the parties to a connection. -/
inductive Event where
  /-- The service has gone a step on. -/
  | served
  /-- The time for authenticating is over. -/
  | expired
  | granted (g : Grant)
  | bound (route : String)
  /-- The router is given an envelope to route. -/
  | routed (m : Envelope) (source : String)
  | handed (h : Handing)
  /-- A call that closes the connection has begun. -/
  | called
  /-- A call has closed the connection itself, and returns. -/
  | closed
  | arrived (r : Read)

namespace Exchange

variable {σ : Type}

/-- What routing an envelope amounts to. -/
def routeEvents (r : Router) (m : Envelope) (source : String) : List Event :=
  .routed m source :: (routeHandings r m source).map .handed

end Exchange

/-- What is objected to the first envelope of a peer. -/
def Handshake.objection {σ : Type} (x : Exchange σ) (first : Envelope) : Option String :=
  match first.command? with
  | .ok (some (.authenticate token)) =>
    match (x.authenticate token).2 with
    | .ok _ => none
    | .error e => some e.text
  | .ok _ => some "connection is not authenticated"
  | .error e => some e.text

namespace Closing

/-- The call has closed the connection itself and is not through yet. -/
def isOpen : Closing → Bool
  | .finished _ => false
  | _ => true

variable {σ : Type}

/-- What happens in the next step of a call. -/
def events (x : Exchange σ) (c : Connection) : Closing → List Event
  | .marked _ => []
  | .cancelled none => [.closed]
  | .cancelled (some route) => (Exchange.unregisterHandings x.router route).map .handed
  | .unregistered route =>
    Exchange.routeEvents x.router
      (Connection.disposal route ((x.peer? c.peer).bind (·.authToken))) route
  | .disposed _ => [.closed]
  | .finished _ => []

end Closing

namespace Connection

variable {σ : Type}

/-- What is handed out for a peer that is withdrawn. -/
def withdrawHandings (x : Exchange σ) (c : Connection) : List Handing :=
  match (x.peer? c.peer).bind (·.route) with
  | some route => Exchange.uplinkHandings x.router (Exchange.unannouncement route)
  | none => []

/-- What happens in the next step of the service. -/
def events (x : Exchange σ) (c : Connection) : List Event :=
  match c.admission with
  | .greeting (.received first) =>
    match Handshake.objection x first, (c.step x).2.admission with
    | some text, _ =>
      if first.requestId.isSome then [.handed ⟨c.peer, first.failure text⟩] else []
    | none, .greeting (.granted _ g) => [.granted g]
    | none, _ => []
  | .greeting (.stored _ g) => Exchange.routeEvents x.router (Handshake.announcement g) g.route
  | .greeting (.announced first g) => [.handed ⟨c.peer, Handshake.welcome first g⟩]
  | .admitted route => if c.guard.closed then [] else [.bound route]
  | .refused => [.called]
  | .closing closing => closing.events x c
  | .unbound => (c.withdrawHandings x).map .handed
  | _ => []

/-- The next step of the service: while the peer may still say something, its envelope or the end
of its time, and then whatever follows. -/
inductive Serves (x : Exchange σ) (c : Connection) :
    List Event → Exchange σ → Connection → Prop
  | hear {y : Exchange σ} {h : Handshake} (ha : c.admission = .greeting .awaiting)
      (hh : Handshake.hear? x c.peer = some (y, h)) :
      Serves x c [] y { c with admission := .greeting h }
  | expire (ha : c.admission = .greeting .awaiting) (hh : Handshake.hear? x c.peer = none) :
      Serves x c [.expired] x { c with admission := .greeting (.expired c.grace) }
  | step (ha : c.admission ≠ .greeting .awaiting) (hf : c.admission ≠ .finished) :
      Serves x c (c.events x) (c.step x).1 (c.step x).2

end Connection

/-- A connection that is served, with the calls to close it that others have made. -/
structure Served where
  connection : Connection
  calls : List Closing := []

namespace Served

variable {σ : Type}

/-- A step of one of the parties. Whoever wants to may close the connection at any time; of a
client that has closed its side nothing more arrives. -/
inductive Step (x : Exchange σ) (s : Served) : List Event → Exchange σ → Served → Prop
  | service {es : List Event} {y : Exchange σ} {d : Connection}
      (h : s.connection.Serves x es y d) : Step x s (.served :: es) y { s with connection := d }
  | read {y : Exchange σ} {d : Connection} (h : s.connection.read? x = some (y, d)) :
      Step x s [] y { s with connection := d }
  | write {y : Exchange σ} {d : Connection} (h : s.connection.write? x = some (y, d)) :
      Step x s [] y { s with connection := d }
  | close {g : Guard} {c : Closing} (h : s.connection.guard.beginClose = (g, c)) :
      Step x s [.called] x
        { connection := { s.connection with guard := g }, calls := s.calls ++ [c] }
  | call {k : Nat} {c d : Closing} {y : Exchange σ} {n : Connection}
      (hk : s.calls[k]? = some c) (ho : c.isOpen = true)
      (h : s.connection.closeStep x c = (y, n, d)) :
      Step x s (c.events x s.connection) y { connection := n, calls := s.calls.set k d }
  | arrive (r : Read) (he : s.connection.intake.ended = false) :
      Step x s [.arrived r] x
        { s with connection.intake.reads := s.connection.intake.reads ++ [r] }
  | hangUp : Step x s [] x { s with connection.intake.ended := true }
  | failWrites (text : String) : Step x s [] x { s with connection.outlet.failing := some text }

/-- Steps of the parties, one after the other, with all that happened. -/
inductive Run (x : Exchange σ) (s : Served) : List Event → Exchange σ → Served → Prop
  | refl : Run x s [] x s
  | tail {es fs : List Event} {y z : Exchange σ} {t u : Served} (h : Run x s es y t)
      (hs : Step y t fs z u) : Run x s (es ++ fs) z u

/-- The service and all calls have returned. -/
def Returned (s : Served) : Prop :=
  s.connection.admission = .finished ∧ ∀ c ∈ s.calls, ∃ closedIt, c = .finished closedIt

end Served

end Switchboard
