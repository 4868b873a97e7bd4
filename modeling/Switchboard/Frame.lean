import Switchboard.Envelope
import Switchboard.Stream

/-! Envelopes as frames: four bytes of length, then MessagePack. -/
namespace Switchboard.Frame

/-- Bytes of the length in front of a body. -/
def headSize : Nat := 4

/-- The default limit of a body. -/
def maxBody : Nat := 16 * 1024 * 1024

/-- A body behind its length. -/
def ofBody (body : Bytes) : Bytes := Bytes.ofNat headSize body.length ++ body

/-- The frame of an envelope, unless its body is longer than the limit. -/
def encode (limit : Nat) (e : Envelope) : Except WireError Bytes :=
  let body := e.toMessagePack
  if limit < body.length then .error (.frameTooLarge body.length limit) else .ok (ofBody body)

/-- The body at the front of a buffer and what follows it, if it is all there. -/
def body? (limit : Nat) (b : Bytes) : Except WireError (Option (Bytes × Bytes)) :=
  if (b.take headSize).length < headSize then .ok none
  else
    let size := Bytes.toNat (b.take headSize)
    if limit < size then .error (.frameTooLarge size limit)
    else
      let rest := b.drop headSize
      if rest.length < size then .ok none else .ok (some (rest.take size, rest.drop size))

/-- The answer to a request for the next envelope. -/
inductive Answer where
  | envelope (e : Envelope)
  /-- No whole frame is there. -/
  | nothing
  | failed (e : WireError)
deriving Repr

def answerOf (body : Bytes) : Answer :=
  match Envelope.ofMessagePack body with
  | .ok e => .envelope e
  | .error e => .failed e

/-- Takes a frame off the buffer, if a whole one is there. -/
def tryNext (limit : Nat) (buffer : Bytes) : Answer × Bytes :=
  match body? limit buffer with
  | .error e => (.failed e, buffer)
  | .ok none => (.nothing, buffer)
  | .ok (some (body, rest)) => (answerOf body, rest)

/-- Reads until a whole frame is there; a stream may not end inside a frame. -/
def next (limit : Nat) : (buffer : Bytes) → List Read → Answer × Bytes × List Read
  | buffer, reads =>
    match body? limit buffer with
    | .error e => (.failed e, buffer, reads)
    | .ok (some (body, rest)) => (answerOf body, rest, reads)
    | .ok none =>
      match reads with
      | [] => (if buffer.isEmpty then .nothing else .failed .invalidFrame, buffer, [])
      | .data b :: reads => next limit (buffer ++ b) reads
      | .failure text :: reads => (.failed (.stream text), buffer, reads)

end Switchboard.Frame
