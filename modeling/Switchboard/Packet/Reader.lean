import Switchboard.Stream

/-! Packet lines in a stream of other text, told apart as the bytes come in. -/
namespace Switchboard.Packet

/-- What every packet line starts with. -/
def marker : Bytes := [35, 35, 78]

/-- A line of this many bytes before its newline is no packet. -/
def maxLine : Nat := 16 * 1024 * 1024

/-- Bytes that one read may bring. -/
def readSize : Nat := 8192

/-- A unit of the stream: the object of a packet line, or bytes of other text. -/
inductive Chunk where
  | packet (body : Bytes)
  | raw (b : Bytes)
deriving DecidableEq, Repr

structure Reader where
  /-- Bytes read and not handed out. -/
  buffer : Bytes := []
  /-- Inside a line of other text; a packet can only start a line. -/
  midLine : Bool := false
deriving DecidableEq, Repr

namespace Reader

/-- Hands out other text up to the end of its line, or all there is. -/
def rawLine (b : Bytes) : Chunk × Reader :=
  match Bytes.splitLine? b with
  | some (line, rest) => (.raw line, ⟨rest, false⟩)
  | none => (.raw b, ⟨[], true⟩)

def isObject (body : Bytes) : Bool := body.head? == some 123 && body.getLast? == some 125

/-- The packet of a whole line that starts with the marker, or the line as other text. -/
def markedLine (max : Nat) (line : Bytes) : Chunk :=
  let body := (line.drop marker.length).dropLast
  if line.length ≤ max && isObject body then .packet body else .raw line

/-- The next chunk that the buffer is sure to hold. -/
def split? (max : Nat) (r : Reader) : Option (Chunk × Reader) :=
  if r.buffer.isEmpty then none
  else if r.midLine then some (rawLine r.buffer)
  else if r.buffer.length < marker.length && r.buffer.isPrefixOf marker then none
  else if !marker.isPrefixOf r.buffer then some (rawLine r.buffer)
  else
    match Bytes.splitLine? r.buffer with
    | some (line, rest) => some (markedLine max line, ⟨rest, false⟩)
    | none => if max < r.buffer.length then some (.raw r.buffer, ⟨[], true⟩) else none

/-- What is left at the end of the stream: a packet without its newline is dropped. -/
def finish (r : Reader) : Option Chunk × Reader :=
  if r.buffer.isEmpty || marker.isPrefixOf r.buffer then (none, { r with buffer := [] })
  else (some (.raw r.buffer), { r with buffer := [] })

def receive (r : Reader) (b : Bytes) : Reader := { r with buffer := r.buffer ++ b }

/-- The answer to a request for the next chunk. -/
inductive Answer where
  | chunk (c : Chunk)
  | ended
  | failed (text : String)
deriving DecidableEq, Repr

/-- Reads until a chunk is sure, the stream ends, or a read fails. -/
def next (max : Nat) : Reader → List Read → Answer × Reader × List Read
  | r, reads =>
    match split? max r with
    | some (c, r) => (.chunk c, r, reads)
    | none =>
      match reads with
      | [] =>
        match finish r with
        | (some c, r) => (.chunk c, r, [])
        | (none, r) => (.ended, r, [])
      | .data b :: rest => next max (r.receive b) rest
      | .failure text :: rest => (.failed text, r, rest)

/-- The chunks up to the end of the stream or a failure; `fuel` bounds their number. -/
def chunks (max : Nat) : (fuel : Nat) → Reader → List Read → List Chunk × Option String
  | 0, _, _ => ([], none)
  | fuel + 1, r, reads =>
    match next max r reads with
    | (.chunk c, r, reads) =>
      let (cs, failure) := chunks max fuel r reads
      (c :: cs, failure)
    | (.ended, _, _) => ([], none)
    | (.failed text, _, _) => ([], some text)

end Switchboard.Packet.Reader
