import Switchboard.Error
import Switchboard.Queue

/-! Endpoints with a queue each way: plain mailboxes, and those that stand for a peer. -/
namespace Switchboard

/-- Two queues between the switchboard and somebody outside. -/
structure Mailbox where
  /-- What was handed to the endpoint. -/
  inbox : Queue := {}
  /-- What the endpoint has to say. -/
  outbox : Queue := {}
  /-- What senders are told when nobody reads the inbox any more. -/
  complaint : String
deriving Repr, Inhabited

def Mailbox.send (b : Mailbox) (m : Envelope) : Except Error Mailbox :=
  match b.inbox.push? m with
  | some q => .ok { b with inbox := q }
  | none => .error (.transport b.complaint)

/-- A peer behind a stream, and what it was given when it was admitted. -/
structure Peer extends Mailbox where
  complaint := "peer connection closed"
  authToken : Option String := none
  route : Option String := none
deriving Repr, Inhabited

namespace Peer

/-- What a peer's envelope is passed on as: its token is the one it was given, and its
source is its own route unless it names one. -/
def stamp (p : Peer) (m : Envelope) : Envelope :=
  let m := match p.authToken with
    | some token => { m with authToken := some token }
    | none => m
  if m.source.isNone then { m with source := p.route } else m

end Peer

end Switchboard
