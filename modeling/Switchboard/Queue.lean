import Switchboard.Envelope

/-! Queues of envelopes between two parties, either of which may go away. -/
namespace Switchboard

structure Queue where
  items : List Envelope := []
  /-- Whoever takes envelopes out is still there. -/
  isOpen : Bool := true
  /-- Whoever put envelopes in is gone. -/
  ended : Bool := false
deriving Repr, Inhabited

/-- The answer to a wish for the next envelope. -/
inductive Taken where
  | envelope (m : Envelope) (rest : Queue)
  | nothing
  | ended

namespace Queue

/-- The queue with one more envelope, if anybody is there to take it. -/
def push? (q : Queue) (m : Envelope) : Option Queue :=
  if q.isOpen then some { q with items := q.items ++ [m] } else none

def take (q : Queue) : Taken :=
  match q.items with
  | m :: rest => .envelope m { q with items := rest }
  | [] => if q.ended then .ended else .nothing

/-- The queue that nobody takes from any more. -/
def close (q : Queue) : Queue := { q with items := [], isOpen := false }

/-- The queue that nobody puts into any more. -/
def finish (q : Queue) : Queue := { q with ended := true }

def drained (q : Queue) : Queue := { q with items := [] }

end Queue

end Switchboard
