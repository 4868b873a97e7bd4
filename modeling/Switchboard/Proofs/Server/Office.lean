import Switchboard.Proofs.Exchange.Dispatch
import Switchboard.Proofs.Exchange.Handing
import Switchboard.Proofs.Packet.Interleaving
import Switchboard.Proofs.Service.Answers
import Switchboard.Agent
import Switchboard.Server

/-! A server that serves nobody but its uplink: what of it changes, and what each of its parties
does by a step. -/
namespace Switchboard.Server

open Exchange (IsControl sourced)

/-- The line of an envelope on the uplink. -/
def line (m : Envelope) : Bytes := Packet.marker ++ m.toJson ++ [10]

/-- What comes in on the uplink and is for the server's own service. -/
def Reaches (own : String) (m : Envelope) : Prop :=
  ¬ IsControl m ∧ (m.route = none ∨ m.route = some own)

/-- What the service has to say and the uplink is told. -/
def Leaves (own : String) (m : Envelope) : Prop :=
  m.command = some Command.routeAnnounceName ∨ m.route ≠ none ∧ m.route ≠ some own

instance (own : String) (m : Envelope) : Decidable (Reaches own m) :=
  inferInstanceAs (Decidable (_ ∧ _))

instance (own : String) (m : Envelope) : Decidable (Leaves own m) :=
  inferInstanceAs (Decidable (_ ∨ _))

/-- What is to be answered: a request for the server's own service that comes from elsewhere. -/
def Wants (own : String) (m : Envelope) : Prop :=
  m.isRequest = true ∧ Reaches own m ∧ m.source ≠ some own

instance (own : String) (m : Envelope) : Decidable (Wants own m) :=
  inferInstanceAs (Decidable (_ ∧ _))

/-- The answer to a request, sent back to where that came from. -/
structure Reply (own : String) (m a : Envelope) : Prop where
  command : a.command = none
  responseId : a.responseId = m.requestId
  route : a.route = some (m.source.getD uplinkRoute)
  source : a.source = some own

/-- What a service puts out that sends no commands but its announcement. -/
structure Spoken (own : String) (m : Envelope) : Prop where
  source : m.source = some own
  command : m.command = none ∨ m.command = some Command.routeAnnounceName

/-- No job of a service waits for a time of day. -/
def Prompt (v : Service Agent) : Prop :=
  ∀ j ∈ v.jobs, ∀ due outcome, j.stage ≠ .working due outcome

/-- What changes in a server that serves nobody but its uplink. -/
structure Office where
  own : String
  accepted : Registry String Identity
  minted : Nat
  service : Service Agent
  /-- What has come in on the uplink and waits for its pump. -/
  outbox : List Envelope := []
  /-- What is to go out on the uplink. -/
  inbox : List Envelope := []
  /-- What the pump of the uplink holds. -/
  up : Option Envelope := none
  /-- What the pump of the service holds. -/
  down : Option Envelope := none
  reader : Packet.Reader := {}
  reads : List Bytes := []
  written : Bytes := []

namespace Office

variable {o p : Office} {m : Envelope} {b c : Bytes}

def router (o : Office) : Router where
  routes :=
    ({} : Registry String Binding).insert o.own { endpoint := 0, isLocal := true, pump := 0 }
  uplink := some { endpoint := 1, pump := 1 }
  defaultRoute := some o.own
  accepted := o.accepted
  pumps := [{ source := o.own, endpoint := 0, held := o.down },
    { source := uplinkRoute, endpoint := 1, held := o.up }]

def endpoints (o : Office) : List (Endpoint Agent) :=
  [.service o.service,
    .peer { inbox := { items := o.inbox }, outbox := { items := o.outbox } }]

def exchange (o : Office) : Exchange Agent := ⟨o.router, o.endpoints, o.minted⟩

def link (o : Office) : Link where
  peer := 1
  reader := o.reader
  reads := o.reads.map .data
  written := o.written

/-- The service with one more envelope to take in. -/
def tell (o : Office) (m : Envelope) : Office :=
  { o with service.input.items := o.service.input.items ++ [m] }

/-- The office with some bytes that have come in. -/
def input (o : Office) (b : Bytes) : Office := { o with reads := o.reads ++ [b] }

/-- A step of one of the parties. -/
inductive Step (o : Office) : Office → Prop
  | hear {b : Bytes} {rest : List Bytes} (h : o.reads = b :: rest) :
      Step o { o with reader := o.reader.receive b, reads := rest }
  | decode {d : Packet.Chunk} {r : Packet.Reader}
      (h : o.reader.split? Packet.maxLine = some (d, r)) :
      Step o { o with reader := r, outbox := o.outbox ++ d.envelope?.toList }
  | fetchUp {m : Envelope} {rest : List Envelope} (h : o.outbox = m :: rest) (hu : o.up = none) :
      Step o { o with outbox := rest, up := some m }
  | enter {m : Envelope} (h : o.up = some m) (hr : Reaches o.own m) :
      Step o ({ o with up := none }.tell (sourced m uplinkRoute))
  | drop {m : Envelope} (h : o.up = some m) (hr : ¬ Reaches o.own m) :
      Step o { o with up := none }
  | start {v : Service Agent} (hv : o.service.start = .ok v) : Step o { o with service := v }
  | serve {es : List Service.Event} {v : Service Agent}
      (hv : Service.Progress Agent.handler o.service es v) : Step o { o with service := v }
  | fetchDown {m : Envelope} {rest : List Envelope} (h : o.service.output.items = m :: rest)
      (hd : o.down = none) :
      Step o { o with down := some m, service.output.items := rest }
  | send {m : Envelope} (h : o.down = some m) (hl : Leaves o.own m) :
      Step o { o with down := none, inbox := o.inbox ++ [m] }
  /-- The service hears what it says to itself. -/
  | bounce {m : Envelope} (h : o.down = some m) (hl : ¬ Leaves o.own m) :
      Step o ({ o with down := none }.tell m)
  | write {m : Envelope} {rest : List Envelope} (h : o.inbox = m :: rest) :
      Step o { o with inbox := rest, written := o.written ++ line m }

/-- The service can be reached and is heard, it answers at once, and it is the one of the route. -/
structure Sound (o : Office) : Prop where
  own : o.own ≠ uplinkRoute
  route : o.service.route = o.own
  service : o.service.Sound
  listens : o.service.input.isOpen = true
  heard : o.service.output.ended = false
  prompt : Prompt o.service
  spoken : ∀ n ∈ o.down.toList ++ o.service.output.items, Spoken o.own n

/-- None of the parties has anything left to do. -/
structure Quiet (o : Office) : Prop where
  reads : o.reads = []
  reader : o.reader.split? Packet.maxLine = none
  outbox : o.outbox = []
  up : o.up = none
  service : o.service.Clear
  output : o.service.output.items = []
  down : o.down = none
  inbox : o.inbox = []

theorem get?_routes (o : Office) (route : String) : o.router.routes.get? route
    = if route = o.own then some { endpoint := 0, isLocal := true, pump := 0 } else none :=
  Registry.get?_insert ..

theorem handAll_service (hl : o.service.input.isOpen = true) (m : Envelope) :
    o.exchange.handAll [⟨0, m⟩] = (o.tell m).exchange := by
  have hq : o.service.input.push? m
      = some { o.service.input with items := o.service.input.items ++ [m] } := if_pos hl
  have he : (Endpoint.service o.service).holding m = .service (o.tell m).service := by
    rw [Endpoint.holding, Endpoint.incoming, hq]
    rfl
  rw [Exchange.handAll_singleton, Exchange.modify, exchange, endpoints, List.modify_zero_cons, he]
  rfl

theorem handAll_peer (o : Office) (m : Envelope) :
    o.exchange.handAll [⟨1, m⟩] = { o with inbox := o.inbox ++ [m] }.exchange := rfl

/-- What comes from the uplink goes to the service or nowhere. -/
theorem routeHandings_up (ho : o.own ≠ uplinkRoute) (m : Envelope) :
    Exchange.routeHandings o.router m uplinkRoute
      = if Reaches o.own m then [⟨0, sourced m uplinkRoute⟩] else [] := by
  have hopen : o.router.closed = false := rfl
  have hc : IsControl (sourced m uplinkRoute) ↔ IsControl m := by rw [Exchange.sourced_eq]; rfl
  have hr : (sourced m uplinkRoute).route = m.route := by rw [Exchange.sourced_eq]
  have htable : o.router.resolve? m.route uplinkRoute
      = if m.route = none ∨ m.route = some o.own then
          some (o.own, { endpoint := 0, isLocal := true, pump := 0 })
        else none := by
    have hdefault : o.router.defaultRoute = some o.own := rfl
    have hthrough (r : String) : o.router.through r = none := rfl
    cases m.route with
    | none => simp [Router.resolve?, hdefault, Router.registered, get?_routes]
    | some r =>
      by_cases hown : r = o.own
      · simp [Router.resolve?, hown, ho, Router.registered, get?_routes]
      · by_cases hup : r = uplinkRoute
        · simp [Router.resolve?, hup, Ne.symm ho, Router.upward]
        · simp [Router.resolve?, hown, hup, Router.registered, get?_routes, hthrough, Router.upward]
  unfold Exchange.routeHandings Reaches
  by_cases hm : IsControl m
  · simp [hopen, hc, hm]
  · simp only [hopen, hc, hm, hr, htable, Bool.false_eq_true, if_false, not_false_eq_true, true_and]
    split <;> rfl

/-- What comes from the service goes to the uplink or back to the service. -/
theorem routeHandings_down (ho : o.own ≠ uplinkRoute) (hm : Spoken o.own m) :
    Exchange.routeHandings o.router m o.own
      = if Leaves o.own m then [⟨1, m⟩] else [⟨0, m⟩] := by
  have hopen : o.router.closed = false := rfl
  have hsource : sourced m o.own = m := by simp [sourced, hm.source]
  have htable : o.router.resolve? m.route o.own
      = if m.route ≠ none ∧ m.route ≠ some o.own then
          some (uplinkRoute, { endpoint := 1, pump := 1 })
        else some (o.own, { endpoint := 0, isLocal := true, pump := 0 }) := by
    have hdefault : o.router.defaultRoute = some o.own := rfl
    have huplink : o.router.uplink = some { endpoint := 1, pump := 1 } := rfl
    have hthrough (r : String) : o.router.through r = none := rfl
    cases m.route with
    | none => simp [Router.resolve?, hdefault, Router.registered, get?_routes]
    | some r =>
      by_cases hown : r = o.own
      · simp [Router.resolve?, hown, ho, Router.registered, get?_routes]
      · by_cases hup : r = uplinkRoute
        · simp [Router.resolve?, hup, Ne.symm ho, Router.upward, ho, huplink]
        · simp [Router.resolve?, hown, hup, Router.registered, get?_routes, hthrough, ho,
            Router.upward, huplink]
  unfold Exchange.routeHandings Leaves
  rw [hsource]
  rcases hm.command with hc | hc
  · have hcontrol : ¬ IsControl m := by simp [IsControl, hc]
    simp only [hopen, hcontrol, htable, hc, Bool.false_eq_true, if_false, reduceCtorEq, false_or]
    split <;> rfl
  · have hcontrol : IsControl m := .inl hc
    simp only [hopen, hcontrol, hc, ho, Bool.false_eq_true, if_false, if_true, true_or]
    rfl

theorem route_up (ho : o.own ≠ uplinkRoute) (hl : o.service.input.isOpen = true) (m : Envelope) :
    (o.exchange.route m uplinkRoute).1
      = (if Reaches o.own m then o.tell (sourced m uplinkRoute) else o).exchange := by
  have hnoted : Exchange.noted o.router (sourced m uplinkRoute) uplinkRoute = o.router :=
    if_pos (.inr rfl)
  have hmap : o.exchange.mapRouter (Exchange.noted · (sourced m uplinkRoute) uplinkRoute)
      = o.exchange := congrArg (Exchange.mk · _ _) hnoted
  have hhand : Exchange.routeHandings o.exchange.router m uplinkRoute
      = if Reaches o.own m then [⟨0, sourced m uplinkRoute⟩] else [] := routeHandings_up ho m
  rw [Exchange.route_fst, hmap, hhand]
  split
  · exact handAll_service hl _
  · rfl

theorem route_down (ho : o.own ≠ uplinkRoute) (hl : o.service.input.isOpen = true)
    (hm : Spoken o.own m) : (o.exchange.route m o.own).1
      = (if Leaves o.own m then { o with inbox := o.inbox ++ [m] } else o.tell m).exchange := by
  have hsource : sourced m o.own = m := by simp [sourced, hm.source]
  have hnoted : Exchange.noted o.router m o.own = o.router := by
    unfold Exchange.noted
    rcases hm.command with hc | hc
    · simp [hc]
    · simp [hc, hm.source, Router.noteAnnounced]
  have hmap : o.exchange.mapRouter (Exchange.noted · m o.own) = o.exchange :=
    congrArg (Exchange.mk · _ _) hnoted
  have hhand : Exchange.routeHandings o.exchange.router m o.own
      = if Leaves o.own m then [⟨1, m⟩] else [⟨0, m⟩] := routeHandings_down ho hm
  rw [Exchange.route_fst, hsource, hmap, hhand]
  split
  · exact handAll_peer o m
  · exact handAll_service hl m

/-- Nothing is added to what a peer says that was given neither token nor route. -/
theorem stamp_plain {q : Peer} (ht : q.authToken = none) (hr : q.route = none) (m : Envelope) :
    q.stamp m = m := by
  obtain ⟨_, _, _, _, _, _, source, _, _, _, _⟩ := m
  cases source <;> simp [Peer.stamp, ht, hr]

theorem fetch_up (o : Office) : o.exchange.fetch 1 =
    match o.outbox with
    | [] => .nothing
    | m :: rest => .held { o with outbox := rest, up := some m }.exchange := by
  have hpump : o.exchange.router.pumps[1]?
      = some { source := uplinkRoute, endpoint := 1, held := o.up } := rfl
  have hear : o.exchange.hear 1 =
      match o.outbox with
      | [] => .nothing
      | m :: rest => .envelope m { o with outbox := rest }.exchange := by
    cases h : o.outbox <;> simp [Exchange.hear, exchange, endpoints, Endpoint.outgoing, Queue.take,
      Exchange.modify, Endpoint.withOutgoing, h, router]
  rw [Exchange.fetch, hpump]
  simp only [Bool.false_eq_true, if_false, hear]
  cases h : o.outbox with
  | nil => rfl
  | cons m rest =>
    have hstamp : Exchange.stamp { o with outbox := rest }.exchange 1 m = m :=
      stamp_plain (q := { inbox := { items := o.inbox }, outbox := { items := rest } }) rfl rfl m
    simp only [hstamp]
    rfl

theorem fetch_down (hs : o.Sound) : o.exchange.fetch 0 =
    match o.service.output.items with
    | [] => .nothing
    | m :: rest =>
      .held { o with down := some m, service.output.items := rest }.exchange := by
  have hpump : o.exchange.router.pumps[0]?
      = some { source := o.own, endpoint := 0, held := o.down } := rfl
  have hear : o.exchange.hear 0 =
      match o.service.output.items with
      | [] => .nothing
      | m :: rest => .envelope m { o with service.output.items := rest }.exchange := by
    cases h : o.service.output.items <;> simp [Exchange.hear, exchange, endpoints,
      Endpoint.outgoing, Queue.take, Exchange.modify, Endpoint.withOutgoing, h, hs.heard, router]
  rw [Exchange.fetch, hpump]
  simp only [Bool.false_eq_true, if_false, hear]
  cases h : o.service.output.items with
  | nil => rfl
  | cons m rest => rfl

/-- The pump of the uplink routes what it holds. -/
theorem forward_up (hs : o.Sound) (h : o.up = some m) : (o.exchange.forward 1).1 =
    (if Reaches o.own m then { o with up := none }.tell (sourced m uplinkRoute)
      else { o with up := none }).exchange := by
  have hforward : o.exchange.forward 1 = { o with up := none }.exchange.route m uplinkRoute := by
    simp only [Exchange.forward, exchange, router, h, List.getElem?_cons_succ,
      List.getElem?_cons_zero]
    rfl
  rw [hforward]
  exact route_up (o := { o with up := none }) hs.own hs.listens m

/-- The pump of the service routes what it holds. -/
theorem forward_down (hs : o.Sound) (h : o.down = some m) : (o.exchange.forward 0).1 =
    (if Leaves o.own m then { o with down := none, inbox := o.inbox ++ [m] }
      else { o with down := none }.tell m).exchange := by
  have hforward : o.exchange.forward 0 = { o with down := none }.exchange.route m o.own := by
    simp only [Exchange.forward, exchange, router, h, List.getElem?_cons_zero]
    rfl
  rw [hforward]
  exact route_down (o := { o with down := none }) hs.own hs.listens (hs.spoken m (by simp [h]))

/-- What a pump holds; that of the service is the first. -/
def holds (o : Office) : Nat → Option Envelope
  | 0 => o.down
  | _ => o.up

/-- What waits for a pump. -/
def waiting (o : Office) : Nat → List Envelope
  | 0 => o.service.output.items
  | _ => o.outbox

/-- Another office with the same uplink, in which the loop and the jobs are as far. -/
structure Beside (o p : Office) : Prop where
  link : p.link = o.link
  loop : p.service.loop = o.service.loop
  jobs : p.service.jobs = o.service.jobs

theorem forward_step (hs : o.Sound) {n : Nat} (hn : n < 2) (hh : (o.holds n).isSome) :
    ∃ p, o.Step p ∧ Beside o p ∧ (o.exchange.forward n).1 = p.exchange := by
  obtain ⟨m, hm⟩ := Option.isSome_iff_exists.1 hh
  obtain rfl | rfl : n = 0 ∨ n = 1 := by omega
  · rw [forward_down hs hm]
    split
    · exact ⟨_, .send hm ‹_›, ⟨rfl, rfl, rfl⟩, rfl⟩
    · exact ⟨_, .bounce hm ‹_›, ⟨rfl, rfl, rfl⟩, rfl⟩
  · rw [forward_up hs hm]
    split
    · exact ⟨_, .enter hm ‹_›, ⟨rfl, rfl, rfl⟩, rfl⟩
    · exact ⟨_, .drop hm ‹_›, ⟨rfl, rfl, rfl⟩, rfl⟩

theorem fetch_step (hs : o.Sound) {n : Nat} (hn : n < 2) (hh : o.holds n = none) :
    (o.waiting n = [] ∧ o.exchange.fetch n = .nothing) ∨
      ∃ p, o.Step p ∧ Beside o p ∧ o.exchange.fetch n = .held p.exchange := by
  cases hw : o.waiting n with
  | nil =>
    obtain rfl | rfl : n = 0 ∨ n = 1 := by omega
    · exact .inl ⟨rfl, by rw [fetch_down hs, show o.service.output.items = [] from hw]⟩
    · exact .inl ⟨rfl, by rw [fetch_up, show o.outbox = [] from hw]⟩
  | cons m rest =>
    obtain rfl | rfl : n = 0 ∨ n = 1 := by omega
    · exact .inr ⟨_, .fetchDown hw hh, ⟨rfl, rfl, rfl⟩,
        by rw [fetch_down hs, show o.service.output.items = m :: rest from hw]⟩
    · exact .inr ⟨_, .fetchUp hw hh, ⟨rfl, rfl, rfl⟩,
        by rw [fetch_up, show o.outbox = m :: rest from hw]⟩

/-- What a chunk means to the uplink's endpoint. -/
theorem accept_link (o : Office) (d : Packet.Chunk) : o.link.accept o.exchange d
    = { o with outbox := o.outbox ++ d.envelope?.toList }.exchange := by
  cases d with
  | raw b => simp [Link.accept, Packet.Chunk.envelope?]
  | packet body =>
    cases h : Envelope.ofJson body with
    | error e => simp [Link.accept, Packet.Chunk.envelope?, h, Except.toOption]
    | ok m =>
      simp only [Link.accept, Packet.Chunk.envelope?, h, Except.toOption]
      rfl

/-- A step of reading takes up a chunk, or else a read. -/
theorem read?_link (o : Office) : o.link.read? o.exchange =
    match o.reader.split? Packet.maxLine, o.reads with
    | some (d, r), _ =>
      let p : Office := { o with reader := r, outbox := o.outbox ++ d.envelope?.toList }
      some (p.exchange, p.link)
    | none, b :: rest =>
      let p : Office := { o with reader := o.reader.receive b, reads := rest }
      some (p.exchange, p.link)
    | none, [] => none := by
  have hreader : o.link.reader = o.reader := rfl
  rw [Link.read?, if_neg (by simp [link]), hreader]
  cases hd : o.reader.split? Packet.maxLine with
  | some a =>
    simp only [accept_link]
    rfl
  | none =>
    cases hr : o.reads with
    | nil => simp [Link.readMore?, link, hr]
    | cons b rest =>
      simp only [Link.readMore?, link, hr, List.map_cons]
      rfl

/-- A step of writing takes up what is to go out. -/
theorem write?_link (o : Office) : o.link.write? o.exchange false =
    match o.inbox with
    | [] => none
    | m :: rest =>
      let p : Office := { o with inbox := rest, written := o.written ++ line m }
      some (p.exchange, p.link) := by
  have hpeer : o.exchange.peer? o.link.peer
      = some { inbox := { items := o.inbox }, outbox := { items := o.outbox } } := rfl
  rw [Link.write?, if_neg (by simp [link]), if_neg (by simp), hpeer]
  cases hi : o.inbox with
  | nil => rfl
  | cons m rest =>
    simp only [Queue.take, Packet.encode_eq]
    rfl

theorem read_step (o : Office) :
    (o.reader.split? Packet.maxLine = none ∧ o.reads = [] ∧ o.link.read? o.exchange = none) ∨
      ∃ p, o.Step p ∧ p.service = o.service ∧
        o.link.read? o.exchange = some (p.exchange, p.link) := by
  rw [read?_link]
  cases hd : o.reader.split? Packet.maxLine with
  | some a => exact .inr ⟨_, .decode hd, rfl, rfl⟩
  | none =>
    cases hr : o.reads with
    | nil => exact .inl ⟨rfl, rfl, rfl⟩
    | cons b rest => exact .inr ⟨_, .hear hr, rfl, rfl⟩

theorem write_step (o : Office) :
    (o.inbox = [] ∧ o.link.write? o.exchange false = none) ∨
      ∃ p, o.Step p ∧ p.service = o.service ∧
        o.link.write? o.exchange false = some (p.exchange, p.link) := by
  rw [write?_link]
  cases hi : o.inbox with
  | nil => exact .inl ⟨rfl, rfl⟩
  | cons m rest => exact .inr ⟨_, .write hi, rfl, rfl⟩

end Office

end Switchboard.Server
