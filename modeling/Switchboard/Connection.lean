import Switchboard.Frame
import Switchboard.Handshake

/-! One connection of a local client: its admission, its two streams, and its end. -/
namespace Switchboard

/-- What all parties to a connection look at to learn whether it has ended. -/
structure Guard where
  closed : Bool := false
  cancelled : Bool := false
  /-- The route that the connection is bound to. -/
  route : Option String := none
deriving DecidableEq, Repr

/-- How far a call is that closes the connection. -/
inductive Closing where
  /-- The connection is closed from here on; the route that it had is to be removed. -/
  | marked (route : Option String)
  /-- Both streams are told. -/
  | cancelled (route : Option String)
  | unregistered (route : String)
  /-- The end of the route is made known. -/
  | disposed (token : Option String)
  /-- The call has returned; only one of all calls has closed the connection itself. -/
  | finished (closedIt : Bool)
deriving DecidableEq, Repr

/-- How far the service of a connection is. -/
inductive Admission where
  | greeting (h : Handshake)
  /-- The peer is admitted; its route is to be bound. -/
  | admitted (route : String)
  /-- The peer is refused; the connection is to be closed. -/
  | refused
  /-- The call that closes the connection is under way. -/
  | closing (c : Closing)
  /-- The route never came to be bound; what the peer was given is to be taken back. -/
  | unbound
  | finished

/-- The reading side of the stream. -/
structure Intake where
  /-- Bytes that are read and belong to no whole frame yet. -/
  buffer : Bytes := []
  reads : List Read := []
  /-- The client has closed its side. -/
  ended : Bool := false
  /-- How reading has ended. -/
  result : Option (Except Error Unit) := none

/-- The writing side of the stream. -/
structure Outlet where
  written : Bytes := []
  /-- All writes fail, with this text. -/
  failing : Option String := none
  /-- The client is told that nothing follows. -/
  shut : Bool := false
  /-- How writing has ended. -/
  result : Option (Except Error Unit) := none

structure Connection where
  /-- The endpoint that stands for the client. -/
  peer : Nat
  /-- Time that the client has for authenticating. -/
  grace : Duration := .ofSeconds 5
  maxFrame : Nat := Frame.maxBody
  guard : Guard := {}
  admission : Admission := .greeting .awaiting
  intake : Intake := {}
  outlet : Outlet := {}

namespace Guard

/-- Starts a call that closes the connection; all but the first find it closed. -/
def beginClose (g : Guard) : Guard × Closing :=
  if g.closed then (g, .finished false)
  else ({ g with closed := true, route := none }, .marked g.route)

end Guard

namespace Connection

variable {σ : Type}

/-- The end of a route, as it is made known. -/
def disposal (route : String) (token : Option String) : Envelope :=
  { Envelope.ofCommand (.dispose route) with source := some route, authToken := token }

/-- The next step of a call that closes the connection. -/
def closeStep (x : Exchange σ) (c : Connection) : Closing → Exchange σ × Connection × Closing
  | .marked route => (x, { c with guard.cancelled := true }, .cancelled route)
  | .cancelled none => (x, c, .finished true)
  | .cancelled (some route) => (x.unregister route, c, .unregistered route)
  | .unregistered route =>
    let token := (x.peer? c.peer).bind (·.authToken)
    ((x.route (disposal route token) route).1, c, .disposed token)
  | .disposed none => (x, c, .finished true)
  | .disposed (some token) => (x.mapRouter (·.revoke token), c, .finished true)
  | .finished closedIt => (x, c, .finished closedIt)

/-- Binds the route of an admitted peer, unless the connection is closed meanwhile. -/
def bindRoute (x : Exchange σ) (c : Connection) (route : String) : Exchange σ × Connection :=
  if c.guard.closed then (x, { c with admission := .unbound })
  else
    (x.register route c.peer false,
      { c with admission := .finished, guard.route := some route })

/-- Takes back what the peer was given, if it was given anything. -/
def withdraw (x : Exchange σ) (c : Connection) : Exchange σ :=
  match x.peer? c.peer with
  | some { route := some route, authToken, .. } => x.withdraw route authToken
  | _ => x

/-- What follows from the end of the handshake. -/
def decide (c : Connection) : Except Error String → Connection
  | .ok route => { c with admission := .admitted route }
  | .error _ => { c with admission := .refused }

/-- The next step of the service of a connection, once its peer has said something. -/
def step (x : Exchange σ) (c : Connection) : Exchange σ × Connection :=
  match c.admission with
  | .greeting (.ended result) => (x, c.decide result)
  | .greeting h =>
    let (x, h) := h.step x c.peer
    (x, { c with admission := .greeting h })
  | .admitted route => c.bindRoute x route
  | .refused =>
    let (guard, closing) := c.guard.beginClose
    (x, { c with guard, admission := .closing closing })
  | .closing (.finished _) => (x, { c with admission := .unbound })
  | .closing closing =>
    let (x, c, closing) := c.closeStep x closing
    (x, { c with admission := .closing closing })
  | .unbound => (c.withdraw x, { c with admission := .finished })
  | .finished => (x, c)

/-- Ends reading: nothing more will come from the client. -/
def endIntake (x : Exchange σ) (c : Connection) (result : Except Error Unit) :
    Exchange σ × Connection :=
  (x.modifyPeer c.peer fun p => { p with outbox := p.outbox.finish },
    { c with intake.result := some result })

/-- Takes up what a read has brought; `none` if one is to be waited for. -/
def readMore? (x : Exchange σ) (c : Connection) : Option (Exchange σ × Connection) :=
  match c.intake.reads with
  | .data b :: reads =>
    some (x, { c with intake := { c.intake with buffer := c.intake.buffer ++ b, reads } })
  | .failure text :: reads =>
    let e := WireError.stream text
    some ({ c with intake.reads := reads }.endIntake x
      (.error (.transport ("read failed: " ++ e.text))))
  | [] =>
    if c.intake.ended then
      some (c.endIntake x (if c.intake.buffer.isEmpty then .ok ()
        else .error (.transport ("read failed: " ++ WireError.invalidFrame.text))))
    else none

/-- The next step of reading: a frame that does not decode is left out, and a frame that
cannot be taken ends the connection. -/
def read? (x : Exchange σ) (c : Connection) : Option (Exchange σ × Connection) :=
  if c.intake.result.isSome then none
  else if c.guard.cancelled then some (c.endIntake x (.ok ()))
  else
    match Frame.body? c.maxFrame c.intake.buffer with
    | .error e => some (c.endIntake x (.error (.transport ("read failed: " ++ e.text))))
    | .ok none => c.readMore? x
    | .ok (some (body, buffer)) =>
      let c := { c with intake.buffer := buffer }
      match Envelope.ofMessagePack body with
      | .ok m =>
        some (x.modifyPeer c.peer fun p =>
          { p with outbox := (p.outbox.push? m).getD p.outbox }, c)
      | .error _ => some (x, c)

/-- Ends writing: nothing can be sent to the client from then on. -/
def endOutlet (x : Exchange σ) (c : Connection) (result : Except Error Unit) :
    Exchange σ × Connection :=
  (x.modifyPeer c.peer fun p => { p with inbox := p.inbox.close },
    { c with outlet.result := some result })

/-- Writes what is still there when the connection ends, up to the first envelope that
cannot be written, and closes the stream. -/
def flush (o : Outlet) : List Envelope → Outlet
  | [] => { o with shut := true }
  | m :: rest =>
    match Frame.encode Frame.maxBody m, o.failing with
    | .ok b, none => flush { o with written := o.written ++ b } rest
    | _, _ => { o with shut := true }

/-- The next step of writing; an envelope that makes no frame is left out. -/
def write? (x : Exchange σ) (c : Connection) : Option (Exchange σ × Connection) :=
  if c.outlet.result.isSome then none
  else
    match x.peer? c.peer with
    | none => none
    | some p =>
      if c.guard.cancelled then
        some (endOutlet x { c with outlet := flush c.outlet p.inbox.items } (.ok ()))
      else
        match p.inbox.take with
        | .nothing => none
        | .ended => some (endOutlet x { c with outlet := flush c.outlet [] } (.ok ()))
        | .envelope m q =>
          let x := x.modifyPeer c.peer fun p => { p with inbox := q }
          match Frame.encode Frame.maxBody m with
          | .error _ => some (x, c)
          | .ok b =>
            match c.outlet.failing with
            | none => some (x, { c with outlet.written := c.outlet.written ++ b })
            | some text =>
              some (c.endOutlet x
                (.error (.transport ("write failed: " ++ (WireError.stream text).text))))

end Connection

end Switchboard
