import Switchboard.Peer
import Switchboard.Service

/-! Endpoints: what routes lead to, and what the envelopes come from. -/
namespace Switchboard

/-- An endpoint; `σ` is the type of the handlers' states. -/
inductive Endpoint (σ : Type) where
  | mailbox (b : Mailbox)
  | peer (p : Peer)
  | service (s : Service σ)

namespace Endpoint

variable {σ : Type}

/-- The endpoint with an envelope handed to it. -/
def send : Endpoint σ → Envelope → Except Error (Endpoint σ)
  | .mailbox b, m => (b.send m).map .mailbox
  | .peer p, m => (p.toMailbox.send m).map fun b => .peer { p with toMailbox := b }
  | .service s, m => (s.send m).map .service

/-- The queue of what the endpoint has to say. -/
def outgoing : Endpoint σ → Queue
  | .mailbox b => b.outbox
  | .peer p => p.outbox
  | .service s => s.output

def withOutgoing (q : Queue) : Endpoint σ → Endpoint σ
  | .mailbox b => .mailbox { b with outbox := q }
  | .peer p => .peer { p with outbox := q }
  | .service s => .service { s with output := q }

/-- The queue of what was handed to the endpoint. -/
def incoming : Endpoint σ → Queue
  | .mailbox b => b.inbox
  | .peer p => p.inbox
  | .service s => s.input

def withIncoming (q : Queue) : Endpoint σ → Endpoint σ
  | .mailbox b => .mailbox { b with inbox := q }
  | .peer p => .peer { p with inbox := q }
  | .service s => .service { s with input := q }

/-- What an envelope of the endpoint is passed on as. -/
def stamp : Endpoint σ → Envelope → Envelope
  | .peer p, m => p.stamp m
  | _, m => m

/-- The peer that this is. -/
def peer? : Endpoint σ → Option Peer
  | .peer p => some p
  | _ => none

def service? : Endpoint σ → Option (Service σ)
  | .service s => some s
  | _ => none

end Endpoint

end Switchboard
