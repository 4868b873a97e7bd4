import Switchboard.Exchange

/-! The handshake by which a new peer is admitted: its first envelope must present a token
that the router accepts. -/
namespace Switchboard

/-- How far a handshake is. -/
inductive Handshake where
  /-- The peer has said nothing yet. -/
  | awaiting
  | received (first : Envelope)
  /-- The token is accepted. -/
  | granted (first : Envelope) (grant : Grant)
  /-- The peer has its token and its route. -/
  | stored (first : Envelope) (grant : Grant)
  /-- The uplink knows of the route. -/
  | announced (first : Envelope) (grant : Grant)
  | ended (result : Except Error String)

namespace Handshake

variable {σ : Type}

/-- Tells the peer that its first envelope is refused, if it wants an answer. -/
def reject (x : Exchange σ) (peer : Nat) (first : Envelope) (text : String) : Exchange σ :=
  if first.requestId.isSome then (x.send peer (first.failure text)).1 else x

def refuse (x : Exchange σ) (peer : Nat) (first : Envelope) (text : String) (e : Error) :
    Exchange σ × Handshake :=
  (reject x peer first text, .ended (.error e))

/-- Judges the first envelope. -/
def judge (x : Exchange σ) (peer : Nat) (first : Envelope) : Exchange σ × Handshake :=
  match first.command? with
  | .ok (some (.authenticate token)) =>
    match x.authenticate token with
    | (x, .ok grant) => (x, .granted first grant)
    | (x, .error e) => refuse x peer first e.text e
  | .ok (some c) =>
    refuse x peer first "connection is not authenticated"
      (.auth ("expected authenticate, got " ++ c.name))
  | .ok none =>
    refuse x peer first "connection is not authenticated"
      (.auth "first envelope carries no command")
  | .error e =>
    refuse x peer first e.text (.auth ("malformed authenticate command: " ++ e.text))

/-- The news that a peer is reached under its route. -/
def announcement (g : Grant) : Envelope :=
  { Envelope.ofCommand .routeAnnounce with
    source := some g.route, authToken := some g.token }

/-- What the peer learns when it is admitted. -/
def welcome (first : Envelope) (g : Grant) : Envelope :=
  first.response (some (.object [("authtoken", .string g.token), ("routeid", .string g.route)]))

/-- The next step of a handshake that is under way. -/
def step (x : Exchange σ) (peer : Nat) : Handshake → Exchange σ × Handshake
  | received first => judge x peer first
  | granted first g =>
    (x.modifyPeer peer fun p => { p with authToken := some g.token, route := some g.route },
      .stored first g)
  | stored first g => ((x.route (announcement g) g.route).1, .announced first g)
  | announced first g =>
    match x.send peer (welcome first g) with
    | (x, .ok ()) => (x, .ended (.ok g.route))
    | (x, .error e) => (x, .ended (.error e))
  | h => (x, h)

/-- The peer is gone before it said anything. -/
def abandoned : Handshake := .ended (.error (.auth "connection closed before authentication"))

/-- The peer has said nothing for too long. -/
def expired (grace : Duration) : Handshake :=
  .ended (.error (.auth ("no authentication within " ++ grace.text)))

/-- What becomes of a handshake that waits, once the peer says something or is gone. -/
def hear? (x : Exchange σ) (peer : Nat) : Option (Exchange σ × Handshake) :=
  match x.hear peer with
  | .envelope m x => some (x, .received m)
  | .ended => some (x, abandoned)
  | .nothing => none

end Handshake

end Switchboard
