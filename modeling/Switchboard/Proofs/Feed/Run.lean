import Switchboard.Proofs.Feed.Reading
import Switchboard.Session.Step

/-! A connection among all that goes on at its router: the parties to it, those who wait for the
sides of its stream to end, the pumps, and whatever others do to the router's tables and at other
endpoints, in any order. -/
namespace Switchboard

structure Feed (σ : Type) where
  exchange : Exchange σ
  served : Served
  /-- The sides of the stream whose end somebody has seen, and closed the connection for. -/
  seen : List Side := []
  /-- What has happened in the steps of the parties. -/
  events : List Event := []
  /-- What the pumps of the peer have given the router to route, and the route it comes from. -/
  routed : List (Envelope × String) := []

/-- What an envelope becomes that somebody sends who is admitted: its token is the one that was
made up for the connection, and its source is the route, unless it names one. -/
def Grant.stamp (g : Grant) (m : Envelope) : Envelope :=
  { m with authToken := some g.token, source := some (m.source.getD g.route) }

namespace Feed

variable {σ : Type}

/-- The endpoint that stands for the client. -/
def peer (f : Feed σ) : Nat := f.served.connection.peer

/-- What a pump gives the router to route, if it is a pump of the peer. -/
def carried (f : Feed σ) (p : Nat) : List (Envelope × String) :=
  match f.exchange.router.pumps[p]? with
  | some u => if u.endpoint = f.peer then u.held.toList.map (·, u.source) else []
  | none => []

/-- A step of anybody. Others may not bind the peer, nor anything to the route of the connection,
nor remove that route. -/
inductive Step (f : Feed σ) : Feed σ → Prop
  | party {es : List Event} {y : Exchange σ} {t : Served} (h : f.served.Step f.exchange es y t) :
      Step f { f with exchange := y, served := t, events := f.events ++ es }
  /-- Somebody sees that a side of the stream has ended, and closes the connection. -/
  | watch {g : Guard} {c : Closing} (side : Side)
      (he : (Session.sideResult f.served.connection side).isSome) (hn : side ∉ f.seen)
      (hb : f.served.connection.guard.beginClose = (g, c)) :
      Step f { f with
        served := {
          connection := { f.served.connection with guard := g }
          calls := f.served.calls ++ [c] }
        seen := f.seen ++ [side]
        events := f.events ++ [.called] }
  /-- A pump takes an envelope when it has routed the last one. -/
  | fetch {p : Nat} {u : Pump} {y : Exchange σ} (hu : f.exchange.router.pumps[p]? = some u)
      (hidle : u.held = none) (hy : f.exchange.fetch p = .held y) : Step f { f with exchange := y }
  | forward (p : Nat) :
      Step f { f with
        exchange := (f.exchange.forward p).1
        routed := f.routed ++ f.carried p }
  /-- Somebody else has an envelope routed. -/
  | sent (m : Envelope) (source : String) :
      Step f { f with exchange := (f.exchange.route m source).1 }
  | operate (op : Relay.Operation) (ho : op.Spares f.peer f.served.connection.guard.route) :
      Step f { f with exchange := op.apply f.exchange }
  /-- Something goes on at the endpoints: the peer may be sent envelopes, and others may come and
  do what they want. -/
  | aside {y : Exchange σ} (hr : y.router = f.exchange.router)
      (hv : y.voice f.peer = f.exchange.voice f.peer) : Step f { f with exchange := y }

/-- What comes of a new connection to `x`. -/
inductive Reachable (x : Exchange σ) : Feed σ → Prop
  | start (grace : Duration) (maxFrame : Nat) :
      Reachable x { exchange := x.meet, served := .new x.endpoints.length grace maxFrame }
  | step {f g : Feed σ} (h : Reachable x f) (hs : Step f g) : Reachable x g

/-- The envelopes of the frames that decode, up to the first that cannot be taken. -/
def decoded (f : Feed σ) : List Envelope :=
  (Frame.scan f.served.connection.maxFrame (Event.received f.events)).1

/-- The client's stream is at an end, or at a frame that cannot be taken. -/
def Over (f : Feed σ) : Prop :=
  Read.Over f.served.connection.maxFrame (Event.arrivals f.events) f.served.connection.intake.ended

/-- Everything has run: the service has returned, nothing can be read, whatever side of the stream
has ended was seen, and the pumps of the peer have nothing to do. -/
structure AtRest (f : Feed σ) : Prop where
  served : f.served.connection.admission = .finished
  read : f.served.connection.read? f.exchange = none
  watched : ∀ side, (Session.sideResult f.served.connection side).isSome → side ∈ f.seen
  pumped : ∀ p u, f.exchange.router.pumps[p]? = some u → u.endpoint = f.peer →
    u.held = none ∧ ∀ y, f.exchange.fetch p ≠ .held y

end Feed

end Switchboard
