import Switchboard.Exchange
import Switchboard.Packet.Line
import Switchboard.Shutdown

/-! The uplink: packets on a pair of streams. -/
namespace Switchboard

structure Link where
  /-- The endpoint that stands for the other side. -/
  peer : Nat
  reader : Packet.Reader := {}
  reads : List Read := []
  /-- The input has ended. -/
  ended : Bool := false
  /-- How reading has ended. -/
  readResult : Option (Except Error Unit) := none
  written : Bytes := []
  /-- All writes fail, with this text. -/
  failing : Option String := none
  /-- How writing has ended. -/
  writeResult : Option (Except Error Unit) := none

namespace Link

variable {σ : Type}

def endRead (x : Exchange σ) (l : Link) (result : Except Error Unit) : Exchange σ × Link :=
  (x.modifyPeer l.peer fun p => { p with outbox := p.outbox.finish },
    { l with readResult := some result })

/-- Takes in what a chunk of the input holds; other text is of no interest. -/
def accept (x : Exchange σ) (l : Link) : Packet.Chunk → Exchange σ
  | .raw _ => x
  | .packet body =>
    match Envelope.ofJson body with
    | .ok m =>
      x.modifyPeer l.peer fun p => { p with outbox := (p.outbox.push? m).getD p.outbox }
    | .error _ => x

/-- Takes up what a read has brought; `none` if one is to be waited for. -/
def readMore? (x : Exchange σ) (l : Link) : Option (Exchange σ × Link) :=
  match l.reads with
  | .data b :: reads => some (x, { l with reader := l.reader.receive b, reads })
  | .failure text :: reads =>
    some ({ l with reads }.endRead x (.error (.wire (.stream text))))
  | [] => if l.ended then some (l.endRead x (.ok ())) else none

/-- The next step of reading. -/
def read? (x : Exchange σ) (l : Link) : Option (Exchange σ × Link) :=
  if l.readResult.isSome then none
  else
    match l.reader.split? Packet.maxLine with
    | some (chunk, reader) => some (l.accept x chunk, { l with reader })
    | none => l.readMore? x

def endWrite (x : Exchange σ) (l : Link) (result : Except Error Unit) : Exchange σ × Link :=
  (x.modifyPeer l.peer fun p => { p with inbox := p.inbox.close },
    { l with writeResult := some result })

/-- The next step of writing, which stops when the service ends. -/
def write? (x : Exchange σ) (stopped : Bool) (l : Link) : Option (Exchange σ × Link) :=
  if l.writeResult.isSome then none
  else if stopped then some (l.endWrite x (.ok ()))
  else
    match x.peer? l.peer with
    | none => none
    | some p =>
      match p.inbox.take with
      | .nothing => none
      | .ended => some (l.endWrite x (.ok ()))
      | .envelope m q =>
        let x := x.modifyPeer l.peer fun p => { p with inbox := q }
        match Packet.encode m with
        | .error _ => some (x, l)
        | .ok line =>
          match l.failing with
          | none => some (x, { l with written := l.written ++ line })
          | some text => some (l.endWrite x (.error (.wire (.stream text))))

/-- What the end of reading means to the service. -/
def readCause : Except Error Unit → Cause
  | .ok () => ⟨Shutdown.closedCode, "upstream input closed"⟩
  | .error _ => ⟨Shutdown.failureCode, "upstream read failed"⟩

/-- What the end of writing means to the service, if it means anything. -/
def writeCause? : Except Error Unit → Option Cause
  | .ok () => none
  | .error _ => some ⟨Shutdown.failureCode, "upstream write failed"⟩

end Link

end Switchboard
