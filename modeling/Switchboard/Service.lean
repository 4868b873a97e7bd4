import Switchboard.Command
import Switchboard.Handler
import Switchboard.Queue
import Switchboard.Registry

/-! Services: endpoints that run commands through a handler. Commands run on their own,
each in a job; disposals run one after the other, as they come in. -/
namespace Switchboard

/-- How far the work on a command is. -/
inductive Job.Stage where
  | delivered
  | begun
  /-- The handler answers at a time of its own. -/
  | working (due : Duration) (outcome : Outcome (Option Value))
  | worked (outcome : Outcome (Option Value))
  | finished

structure Job where
  request : Envelope
  stage : Job.Stage := .delivered

/-- What the loop is at that takes envelopes in. -/
inductive Loop where
  | unused
  | running
  /-- A disposal is handed to the handler. -/
  | disposing (route : String)
  | disposed
  | stopped
deriving DecidableEq, Repr

/-- How far a call is that sends a request and waits for the response. -/
inductive Call.Stage where
  /-- Its id is entered, and the request is still to be sent. -/
  | entered (request : Envelope)
  | waiting (deadline : Duration)
  /-- No response came in time; the id is still to be taken out. -/
  | expired
  | returned

structure Call where
  id : String
  stage : Call.Stage
  response : Option Envelope := none

def Call.deadline? (c : Call) : Option Duration :=
  match c.stage with
  | .waiting deadline => some deadline
  | _ => none

structure Service (σ : Type) where
  route : String
  identity : Identity := {}
  authToken : Option String := none
  input : Queue := {}
  output : Queue := {}
  loop : Loop := .unused
  jobs : List Job := []
  calls : List Call := []
  /-- Calls by the id of their request, until a response comes or they give up. -/
  pending : Registry String Nat := {}
  requestTimeout : Duration := .ofSeconds 5
  state : σ

namespace Service

variable {σ : Type}

def send (s : Service σ) (m : Envelope) : Except Error (Service σ) :=
  match s.input.push? m with
  | some q => .ok { s with input := q }
  | none => .error (.routing ("endpoint " ++ s.route ++ " stopped"))

/-- Puts an envelope out. -/
def emit (s : Service σ) (m : Envelope) : Service σ :=
  match s.output.push? m with
  | some q => { s with output := q }
  | none => s

/-- A response, which is sent as this service's own. -/
def respondWith (s : Service σ) (m : Envelope) : Service σ :=
  s.emit { m with source := some s.route }

/-- Starts the loop, which can be done once. -/
def start (s : Service σ) : Except Error (Service σ) :=
  match s.loop with
  | .unused => .ok { s with loop := .running }
  | _ => .error (.transport ("endpoint " ++ s.route ++ " is already running"))

/-- Ends the loop; nothing can be sent to the service from then on. -/
def stop (s : Service σ) : Service σ := { s with loop := .stopped, input := s.input.close }

/-- Hands a response to the call that waits for it, if one does. -/
def complete (s : Service σ) (m : Envelope) : Service σ :=
  match m.responseId with
  | none => s
  | some id =>
    match s.pending.get? id with
    | none => s
    | some k =>
      { s with
        pending := s.pending.erase id
        calls := s.calls.modify k fun c => { c with response := some m } }

/-- What becomes of an envelope that was taken in. -/
def dispatch (s : Service σ) (m : Envelope) : Service σ :=
  if m.isResponse then s.complete m
  else
    match m.command? with
    | .ok (some (.dispose route)) => { s with loop := .disposing route }
    | .ok (some _) => { s with jobs := s.jobs ++ [{ request := m }] }
    | .ok none => s
    | .error e =>
      if m.requestId.isSome then s.respondWith (m.failure e.text) else s

/-- The loop's next step, unless it has to wait. -/
def receive? (s : Service σ) : Option (Service σ) :=
  match s.loop with
  | .running =>
    match s.input.take with
    | .envelope m q => some (dispatch { s with input := q } m)
    | .nothing => none
    | .ended => some s.stop
  | .disposed => some { s with loop := .running }
  | _ => none

/-- Hands a disposal to the handler. -/
def dispose? (h : Handler σ) (s : Service σ) : Option (Service σ) :=
  match s.loop with
  | .disposing route => some { s with state := h.dispose s.state route, loop := .disposed }
  | _ => none

def setStage (s : Service σ) (k : Nat) (stage : Job.Stage) : Service σ :=
  { s with jobs := s.jobs.modify k fun j => { j with stage } }

/-- Starts the work on a command that was delivered. -/
def begin? (s : Service σ) (k : Nat) : Option (Service σ) :=
  match s.jobs[k]? with
  | some ⟨_, .delivered⟩ => some (s.setStage k .begun)
  | _ => none

/-- Lets the handler have a command, or waits until it is done with it. -/
def work? (h : Handler σ) (now : Duration) (s : Service σ) (k : Nat) : Option (Service σ) :=
  match s.jobs[k]? with
  | some ⟨m, .begun⟩ =>
    let (state, reply) := h.handle s.state now s.identity m
    some (setStage { s with state } k
      (if reply.after.nanos = 0 then .worked reply.outcome
        else .working ⟨now.nanos + reply.after.nanos⟩ reply.outcome))
  | some ⟨_, .working due outcome⟩ =>
    if due.nanos ≤ now.nanos then some (s.setStage k (.worked outcome)) else none
  | _ => none

/-- The response to a request that was worked on. -/
def responseTo (m : Envelope) (outcome : Outcome (Option Value)) : Envelope :=
  match outcome.supervised "command handler" with
  | .ok data => m.response data
  | .error e => m.failure e.text

/-- Answers a command that was worked on, if an answer is wanted. -/
def answer? (s : Service σ) (k : Nat) : Option (Service σ) :=
  match s.jobs[k]? with
  | some ⟨m, .worked outcome⟩ =>
    let s := s.setStage k .finished
    some (if m.requestId.isSome then s.respondWith (responseTo m outcome) else s)
  | _ => none

/-- A command as this service sends it. -/
def outgoing (s : Service σ) (c : Command) (route : Option String) : Envelope :=
  { Envelope.ofCommand c with source := some s.route, route, authToken := s.authToken }

def sendCommand (s : Service σ) (c : Command) (route : Option String) : Service σ :=
  s.emit (s.outgoing c route)

def announce (s : Service σ) : Service σ := s.sendCommand .routeAnnounce none

/-- Begins a call: the id of its request is entered before the request is sent. -/
def enter (s : Service σ) (id : String) (c : Command) (route : Option String) : Service σ :=
  let m := { s.outgoing c route with
    requestId := some id, timeout := some (UInt64.ofNat s.requestTimeout.millis) }
  { s with
    calls := s.calls ++ [{ id, stage := .entered m }]
    pending := s.pending.insert id s.calls.length }

def setCall (s : Service σ) (k : Nat) (stage : Call.Stage) : Service σ :=
  { s with calls := s.calls.modify k fun c => { c with stage } }

/-- Sends the request of a call, whose time runs from then on. -/
def post? (s : Service σ) (now : Duration) (k : Nat) : Option (Service σ) :=
  match s.calls[k]? with
  | some { stage := .entered m, .. } =>
    some ((s.setCall k (.waiting ⟨now.nanos + s.requestTimeout.nanos⟩)).emit m)
  | _ => none

/-- Gives a call up that has no response when its time is over. -/
def expire? (s : Service σ) (now : Duration) (k : Nat) : Option (Service σ) :=
  match s.calls[k]? with
  | some { stage := .waiting deadline, response := none, .. } =>
    if deadline.nanos ≤ now.nanos then some (s.setCall k .expired) else none
  | _ => none

/-- What a response means to the call that it is for. -/
def resultOf (m : Envelope) : Except Error Envelope :=
  match m.error with
  | some text => .error (.handler text)
  | none => .ok m

/-- What a call returns, once it has a response or is given up. -/
def return? (s : Service σ) (k : Nat) : Option (Except Error Envelope × Service σ) :=
  match s.calls[k]? with
  | some { stage := .waiting _, response := some m, .. } =>
    some (resultOf m, s.setCall k .returned)
  | some { stage := .expired, id, .. } =>
    some (.error (.timeout s.requestTimeout),
      setCall { s with pending := s.pending.erase id } k .returned)
  | _ => none

end Service

end Switchboard
