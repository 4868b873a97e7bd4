import Switchboard.Session.Fiber

/-! The next step of each fiber. -/
namespace Switchboard.Session

variable {σ : Type}

/-- A session after a step, with what is left of the fiber; `none` if the fiber has to wait. -/
abbrev Stepped (σ : Type) := Option (Session σ × Option Fiber)

/-- Does something when the fiber comes to be first in an endpoint's line. -/
def inLine (s : Session σ) (id endpoint : Nat) (t : Fiber) (f : Stepped σ) : Stepped σ :=
  if !s.lines.contains (endpoint, id) then
    some ({ s with lines := s.lines ++ [(endpoint, id)] }, some t)
  else if s.isFirst id endpoint then f
  else none

def stepPump (s : Session σ) (id r p : Nat) : Stepped σ :=
  match (s.exchange r).router.pumps[p]? with
  | none => some (s, none)
  | some pump =>
    if pump.held.isSome then
      if s.isAlive r then some ((s.lend r (·.forward p)).1, some (.pump r p))
      else some (s, none)
    else if pump.cancelled then some (s.leave id, none)
    else
      s.inLine id pump.endpoint (.pump r p) <|
        match (s.exchange r).fetch p with
        | .held x => some ((s.put r x).leave id, some (.pump r p))
        | .nothing => none
        | .finished => some (s.leave id, none)

/-- The next step of a handshake that runs until a certain time. -/
def stepHandshake (s : Session σ) (id r peer : Nat) (grace : Duration)
    (due : Option Duration) (h : Handshake) (next : Option Duration → Handshake → Fiber)
    (keep : Session σ → Handshake → Session σ) : Stepped σ :=
  match h, due with
  | .awaiting, none => some (s, some (next (some ⟨s.clock.nanos + grace.nanos⟩) h))
  | .awaiting, some due =>
    let heard := (Handshake.hear? (s.exchange r) peer).map fun (x, h) =>
      (keep ((s.put r x).leave id) h, some (next (some due) h))
    match s.inLine id peer (next (some due) h) heard with
    | some out => some out
    | none =>
      if due.nanos ≤ s.clock.nanos then
        some (keep (s.leave id) (.expired grace), some (next (some due) (.expired grace)))
      else none
  | h, _ =>
    let (s, h) := s.lend r fun x => h.step x peer
    some (keep s h, some (next due h))

def stepGreet (s : Session σ) (id : Nat) (call : String) (r peer : Nat) (grace : Duration)
    (due : Option Duration) : Handshake → Stepped σ
  | .ended (.ok route) => some (s.answer call (.route route), none)
  | .ended (.error e) => some (s.answer call (.failed e), none)
  | h => s.stepHandshake id r peer grace due h (.greet call r peer grace) fun s _ => s

def stepHandshakeOf (s : Session σ) (id c : Nat) (due : Option Duration) : Stepped σ :=
  match s.connections[c]? with
  | some (r, connection@{ admission := .greeting h, .. }) =>
    match h with
    | .ended _ => some (s, none)
    | h =>
      s.stepHandshake id r connection.peer connection.grace due h (fun due _ => .handshake c due)
        fun s h =>
          { s with connections :=
              s.connections.set c (r, { connection with admission := .greeting h }) }
  | _ => some (s, none)

def stepServe (s : Session σ) (c : Nat) (begun : Bool) : Stepped σ :=
  if !begun then
    let s := s.spawn (.keep c .writing .fresh)
    let s := s.spawn (.keep c .reading .fresh)
    some (s.spawn (.handshake c none), some (.serve c true))
  else
    match s.connections[c]? with
    | none => some (s, none)
    | some (_, connection) =>
      match connection.admission with
      | .finished => some (s, none)
      | .greeting (.ended _) | .admitted _ | .refused | .closing _ | .unbound =>
        (s.onConnection c fun c x => some (c.step x)).map (·, some (.serve c true))
      | .greeting _ => none

/-- How one side of a connection has ended, if it has. -/
def sideResult (c : Connection) : Side → Option (Except Error Unit)
  | .reading => c.intake.result
  | .writing => c.outlet.result

def stepKeep (s : Session σ) (c : Nat) (side : Side) (k : Keeping) : Stepped σ :=
  match s.connections[c]? with
  | none => some (s, none)
  | some (r, connection) =>
    match k with
    | .fresh =>
      let inner := match side with
        | .reading => Fiber.intake c
        | .writing => Fiber.outlet c
      some (s.spawn inner, some (.keep c side .waiting))
    | .waiting =>
      if (sideResult connection side).isSome then
        let (guard, closing) := connection.guard.beginClose
        some ({ s with connections := s.connections.set c (r, { connection with guard }) },
          some (.keep c side (.closing closing)))
      else none
    | .closing (.finished _) => some (s, none)
    | .closing closing =>
      let (x, connection, closing) := connection.closeStep (s.exchange r) closing
      some ({ s.put r x with connections := s.connections.set c (r, connection) },
        some (.keep c side (.closing closing)))

def stepIntake (s : Session σ) (c : Nat) : Stepped σ :=
  match s.connections[c]? with
  | some (_, { intake := { result := none, .. }, .. }) =>
    (s.onConnection c fun c x => c.read? x).map (·, some (.intake c))
  | _ => some (s, none)

def stepOutlet (s : Session σ) (c : Nat) : Stepped σ :=
  match s.connections[c]? with
  | some (_, { outlet := { result := none, .. }, .. }) =>
    (s.onConnection c fun c x => c.write? x).map (·, some (.outlet c))
  | _ => some (s, none)

def stepWatch (s : Session σ) (l : Nat) (side : Side) (begun : Bool) : Stepped σ :=
  if !begun then
    let inner := match side with
      | .reading => Fiber.linkIntake l
      | .writing => Fiber.linkOutlet l
    some (s.spawn inner, some (.watch l side true))
  else
    match s.links[l]? with
    | none => some (s, none)
    | some (n, link) =>
      match side with
      | .reading =>
        link.readResult.map fun result => ((s.trigger n (Link.readCause result)).1, none)
      | .writing =>
        link.writeResult.map fun result =>
          match Link.writeCause? result with
          | some cause => ((s.trigger n cause).1, none)
          | none => (s, none)

def stepLinkIntake (s : Session σ) (l : Nat) : Stepped σ :=
  match s.links[l]? with
  | some (_, { readResult := none, .. }) =>
    (s.onLink l fun l x => l.read? x).map (·, some (.linkIntake l))
  | _ => some (s, none)

def stepLinkOutlet (s : Session σ) (l : Nat) : Stepped σ :=
  match s.links[l]? with
  | some (n, { writeResult := none, .. }) =>
    (s.onLink l fun l x => l.write? x (s.shutdownAt n).triggered).map (·, some (.linkOutlet l))
  | _ => some (s, none)

/-- The answer to a call in the background, if anybody waits for it. -/
def answerIf (s : Session σ) (call : Option String) (a : Answer) : Session σ :=
  match call with
  | some call => s.answer call a
  | none => s

def stepLoop (s : Session σ) (call : Option String) (e : Nat) (stop : Signal)
    (begun : Bool) : Stepped σ :=
  match s.service? e with
  | none => some (s, none)
  | some v =>
    if !begun then
      match v.start with
      | .ok v => some (s.setService e v, some (.loop call e stop true))
      | .error err => some (s.answerIf call (.failed err), none)
    else if v.loop = .stopped then some (s.answerIf call .done, none)
    else if v.loop = .running && s.isFired stop then
      some (s.setService e v.stop, some (.loop call e stop true))
    else
      v.receive?.map fun w =>
        let s := s.setService e w
        let s := match w.loop with
          | .disposing _ => s.spawn (.dispose e)
          | _ => s
        let s := if v.jobs.length < w.jobs.length then s.spawn (.job e v.jobs.length) else s
        (s, some (.loop call e stop true))

def stepDispose (h : Handler σ) (s : Session σ) (e : Nat) : Stepped σ :=
  match s.service? e with
  | none => some (s, none)
  | some v => (v.dispose? h).map fun v => (s.setService e v, none)

def stepJob (s : Session σ) (e k : Nat) : Stepped σ :=
  match s.service? e with
  | none => some (s, none)
  | some v =>
    match v.begin? k with
    | some v => some ((s.setService e v).spawn (.work e k), some (.job e k))
    | none => (v.answer? k).map fun v => (s.setService e v, none)

def stepWork (h : Handler σ) (s : Session σ) (e k : Nat) : Stepped σ :=
  match s.service? e with
  | none => some (s, none)
  | some v =>
    match v.jobs[k]? with
    | some ⟨_, .worked _⟩ => some (s, none)
    | _ => (v.work? h s.clock k).map fun v => (s.setService e v, some (.work e k))

def stepRequest (s : Session σ) (call : String) (e : Nat) (c : Command)
    (route : Option String) (number : Option Nat) : Stepped σ :=
  match s.service? e with
  | none => some (s, none)
  | some v =>
    match number with
    | none =>
      let number := v.calls.length
      some ({ s.setService e (v.enter (Id.ofNat s.minted) c route) with minted := s.minted + 1 },
        some (.request call e c route (some number)))
    | some k =>
      match v.post? s.clock k <|> v.expire? s.clock k with
      | some v => some (s.setService e v, some (.request call e c route number))
      | none =>
        (v.return? k).map fun (result, v) =>
          ((s.setService e v).answer call (match result with
            | .ok m => .response m
            | .error err => .failed err), none)

/-- Reports from time to time; at intervals of no length there are none. -/
def stepReport (s : Session σ) (call : Option String) (e r : Nat) (interval : Duration)
    (stop : Signal) (started due : Option Duration) : Stepped σ :=
  match s.service? e with
  | none => some (s, none)
  | some v =>
    let began := started.getD s.clock
    let due := due.getD s.clock
    if interval.nanos = 0 then some (s, none)
    else if s.isFired stop then some (s.answerIf call .stopped, none)
    else if due.nanos ≤ s.clock.nanos then
      let status := Status.of (s.exchange r).router v.identity ⟨s.clock.nanos - began.nanos⟩
      some (s.setService e (v.sendCommand status.command (some uplinkRoute)),
        some (.report call e r interval stop (some began)
          (some (Status.nextDue interval due s.clock))))
    else none

def stepAwait (s : Session σ) (call : String) (n : Nat) (router : Option Nat) : Stepped σ :=
  (s.shutdownAt n).awaited?.map fun code =>
    let s := match router with
      | some r => (s.lend r fun x => (x.mapRouter (·.shutdown), ())).1
      | none => s
    (s.answer call (.code code), none)

/-- The next step of a fiber; `none` if it has to wait. -/
def step? (h : Handler σ) (s : Session σ) (id : Nat) : Fiber → Stepped σ
  | .pump r p => s.stepPump id r p
  | .greet call r peer grace due hs => s.stepGreet id call r peer grace due hs
  | .serve c begun => s.stepServe c begun
  | .handshake c due => s.stepHandshakeOf id c due
  | .keep c side k => s.stepKeep c side k
  | .intake c => s.stepIntake c
  | .outlet c => s.stepOutlet c
  | .watch l side begun => s.stepWatch l side begun
  | .linkIntake l => s.stepLinkIntake l
  | .linkOutlet l => s.stepLinkOutlet l
  | .loop call e stop begun => s.stepLoop call e stop begun
  | .dispose e => stepDispose h s e
  | .job e k => s.stepJob e k
  | .work e k => stepWork h s e k
  | .request call e c route number => s.stepRequest call e c route number
  | .report call e r interval stop started due =>
    s.stepReport call e r interval stop started due
  | .await call n router => s.stepAwait call n router

end Switchboard.Session
