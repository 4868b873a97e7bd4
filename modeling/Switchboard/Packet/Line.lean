import Switchboard.Envelope
import Switchboard.Packet.Reader

/-! Envelopes as packet lines. -/
namespace Switchboard.Packet

/-- The line of a body, which must be an object on one line. -/
def lineOf (body : Bytes) : Except WireError Bytes :=
  if !Reader.isObject body then .error (.invalidPacket "packet must be a JSON object")
  else if body.contains 10 then .error (.invalidPacket "packet contains a newline")
  else .ok (marker ++ body ++ [10])

/-- The packet line of an envelope. -/
def encode (e : Envelope) : Except WireError Bytes := lineOf e.toJson

/-- A queue whose receiver may have gone. -/
structure Sink (α : Type) where
  items : List α := []
  isOpen : Bool := true

/-- Adds an item, which is lost if nobody is there to receive it. -/
def Sink.send {α : Type} (q : Sink α) (x : α) : Sink α :=
  if q.isOpen then { q with items := q.items ++ [x] } else q

/-- Where the two contents of a stream go. -/
structure Sinks where
  envelopes : Sink Envelope := {}
  raw : Sink Bytes := {}

/-- Sends what a chunk holds; a packet that holds no envelope is left out. -/
def Sinks.accept (q : Sinks) : Chunk → Sinks
  | .packet body =>
    match Envelope.ofJson body with
    | .ok e => { q with envelopes := q.envelopes.send e }
    | .error _ => q
  | .raw b => { q with raw := q.raw.send b }

/-- Sends chunk after chunk up to the end of the stream or its first failure; `fuel` bounds the
number of chunks. -/
def sendChunks : (fuel : Nat) → Reader → List Read → Sinks → Sinks × Except WireError Unit
  | 0, _, _, q => (q, .ok ())
  | fuel + 1, r, reads, q =>
    match r.next maxLine reads with
    | (.chunk c, r, reads) => sendChunks fuel r reads (q.accept c)
    | (.ended, _, _) => (q, .ok ())
    | (.failed text, _, _) => (q, .error (.stream text))

/-- Reads a stream into two queues. -/
def parse (q : Sinks) (reads : List Read) : Sinks × Except WireError Unit :=
  let reads := Read.cut readSize reads
  sendChunks ((Read.bytes reads).length + 1) {} reads q

/-- What a stream carries: the envelopes of its packets, and all other text. -/
structure Contents where
  envelopes : List Envelope
  raw : Bytes
  result : Except WireError Unit

/-- What arrives in two queues, as far as there is anybody to receive it. -/
def received (q : Sinks) (reads : List Read) : Contents :=
  let (q, result) := parse q reads
  ⟨q.envelopes.items, q.raw.items.flatten, result⟩

/-- Reads a stream to its end or its first failure. -/
def contents (reads : List Read) : Contents := received {} reads

end Switchboard.Packet
