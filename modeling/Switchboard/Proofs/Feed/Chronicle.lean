import Switchboard.Proofs.Feed.Conveyance
import Switchboard.Proofs.Feed.Neighbours
import Switchboard.Proofs.Wire.Flush

/-! The chronicle of a connection: step by step, what was handed out around it and what its pump
had to do with. What got into the inbox of the peer by the chronicle is what the writer of the
connection finds there. -/
namespace Switchboard

variable {σ : Type} {x y : Exchange σ} {hs : List Handing} {j k : Nat} {own : Option String}

namespace Exchange

/-- Around an endpoint, what is handed out is all that it gets; and so it is for every endpoint
where anything is handed out. -/
theorem Around.hands (h : x.Around k own hs y) (hj : j = k ∨ hs ≠ []) : Hands j hs x y := by
  cases h with
  | sent m source => exact hands_of_endpoint (by rw [endpoints_route])
  | operate op ho => exact hands_of_endpoint (by rw [Relay.endpoints_apply])
  | aside hr he =>
    obtain rfl := hj.resolve_right (fun hne => hne rfl)
    exact hands_of_endpoint he

end Exchange

namespace Feed

variable {f g : Feed σ} {ps : List (Envelope × String)}

/-- A step of anybody, with what the router or a party hands out in it, and what the pump of the
peer takes or gives the router. -/
inductive Deed (f : Feed σ) : List Handing → List (Envelope × String) → Feed σ → Prop
  | party {es : List Event} {y : Exchange σ} {t : Served} (h : f.served.Step f.exchange es y t) :
      Deed f (Event.handings es) []
        { f with exchange := y, served := t, events := f.events ++ es }
  | watch {gd : Guard} {c : Closing} (side : Side)
      (he : (Session.sideResult f.served.connection side).isSome) (hn : side ∉ f.seen)
      (hb : f.served.connection.guard.beginClose = (gd, c)) :
      Deed f [] [] { f with
        served := {
          connection := { f.served.connection with guard := gd }
          calls := f.served.calls ++ [c] }
        seen := f.seen ++ [side]
        events := f.events ++ [.called] }
  | fetch {p : Nat} {u : Pump} {y : Exchange σ} (hu : f.exchange.router.pumps[p]? = some u)
      (hidle : u.held = none) (hy : f.exchange.fetch p = .held y) :
      Deed f [] (carried { f with exchange := y } p) { f with exchange := y }
  | forward (p : Nat) :
      Deed f (f.exchange.forwardHandings p) (f.carried p) { f with
        exchange := (f.exchange.forward p).1
        routed := f.routed ++ f.carried p }
  /-- What others do, the parties to other connections among them. -/
  | others {hs : List Handing} {y : Exchange σ}
      (h : f.exchange.Around f.peer f.served.connection.guard.route hs y) :
      Deed f hs [] { f with exchange := y }

/-- A step of a chronicle, by the state that it was made from. -/
structure Moment (σ : Type) where
  before : Feed σ
  handed : List Handing
  pumped : List (Envelope × String)

/-- What comes of a new connection to `x`, with all that was done on the way. -/
inductive Chronicle (x : Exchange σ) : List (Moment σ) → Feed σ → Prop
  | start (grace : Duration) (maxFrame : Nat) :
      Chronicle x [] { exchange := x.meet, served := .new x.endpoints.length grace maxFrame }
  | step {log : List (Moment σ)} {f g : Feed σ} {hs : List Handing}
      {ps : List (Envelope × String)} (h : Chronicle x log f) (hd : f.Deed hs ps g) :
      Chronicle x (log ++ [⟨f, hs, ps⟩]) g

variable {log earlier later : List (Moment σ)} {t : Moment σ}

/-- What got into the inbox of an endpoint, whoever handed it there. -/
def queued (log : List (Moment σ)) (k : Nat) : List Envelope :=
  log.flatMap fun t => t.before.exchange.received t.handed k

@[simp] theorem queued_append (log more : List (Moment σ)) (k : Nat) :
    queued (log ++ more) k = queued log k ++ queued more k := List.flatMap_append

@[simp] theorem queued_singleton (t : Moment σ) (k : Nat) :
    queued [t] k = t.before.exchange.received t.handed k := List.flatMap_singleton _ _

/-- What a later state of a connection has in common with an earlier one. -/
structure Grows (f g : Feed σ) : Prop where
  peer : g.peer = f.peer
  events : f.events <+: g.events
  decoded : f.decoded <+: g.decoded

theorem Grows.refl (f : Feed σ) : f.Grows f := ⟨rfl, List.prefix_rfl, List.prefix_rfl⟩

theorem Grows.trans {e : Feed σ} (h : e.Grows f) (h' : f.Grows g) : e.Grows g :=
  ⟨h'.peer.trans h.peer, h.events.trans h'.events, h.decoded.trans h'.decoded⟩

theorem grows_of_events {es : List Event} (hp : g.peer = f.peer)
    (hm : g.served.connection.maxFrame = f.served.connection.maxFrame)
    (he : g.events = f.events ++ es) : f.Grows g := by
  refine ⟨hp, he ▸ List.prefix_append _ _, ?_⟩
  obtain ⟨b, hb⟩ := Read.untilFailure_append (Event.arrivals f.events) (Event.arrivals es)
  have hr : Event.received g.events = Event.received f.events ++ b := by
    rw [Event.received, he, Event.arrivals_append]
    exact hb
  rw [decoded, decoded, hm, hr]
  exact Frame.scan_prefix _ b

namespace Deed

theorem step (h : f.Deed hs ps g) : f.Step g := by
  cases h with
  | party h => exact .party h
  | watch side he hn hb => exact .watch side he hn hb
  | fetch hu hidle hy => exact .fetch hu hidle hy
  | forward p => exact .forward p
  | others h => exact step_around h

theorem grows (h : f.Deed hs ps g) : f.Grows g := by
  cases h with
  | party h => exact grows_of_events h.fixed.1 h.fixed.2 rfl
  | watch side he hn hb => exact grows_of_events rfl rfl rfl
  | _ => exact grows_of_events rfl rfl (List.append_nil _).symm

/-- Whatever is done, the inbox of the peer gets what is handed out. -/
theorem writing (h : f.Deed hs ps g) (ms : List Envelope) :
    Writing.Step ⟨f.exchange, f.served, ms⟩
      ⟨g.exchange, g.served, ms ++ f.exchange.received hs f.peer⟩ := by
  cases h with
  | party h => exact .party h
  | watch side he hn hb => exact .party (.close hb)
  | fetch hu hidle hy => exact .others (Exchange.hands_fetch hu hy)
  | forward p => exact .others (f.exchange.hands_forward p)
  | others h => exact .others (h.hands (.inl rfl))

/-- Where anything is handed out, each inbox gets what is handed to it and nothing else. -/
theorem hands (h : f.Deed hs ps g) (hne : hs ≠ []) :
    Exchange.Hands k hs f.exchange g.exchange := by
  cases h with
  | party h => exact h.hands hne
  | forward p => exact f.exchange.hands_forward p
  | others h => exact h.hands (.inr hne)
  | watch | fetch => exact absurd rfl hne

end Deed

namespace Chronicle

theorem reachable (h : Chronicle x log f) : Reachable x f := by
  induction h with
  | start grace maxFrame => exact .start grace maxFrame
  | step _ hd ih => exact ih.step hd.step

/-- What the chronicle says was queued is what the writer of the connection was given. -/
theorem writing (h : Chronicle x log f) :
    Writing.Reachable x ⟨f.exchange, f.served, queued log f.peer⟩ := by
  induction h with
  | start grace maxFrame => exact .start grace maxFrame
  | step _ hd ih =>
    rw [hd.grows.peer, queued_append, queued_singleton]
    exact ih.step (hd.writing _)

/-- As long as the writer goes on, what was queued is what it has written and what still waits. -/
theorem queue (h : Chronicle x log f) (hf : f.served.connection.outlet.failing = none)
    (hr : f.served.connection.outlet.result = none) :
    ∃ sent, queued log f.peer = sent ++ f.exchange.incoming f.peer ∧
      f.served.connection.outlet.written = Frame.frames sent := by
  cases Writing.stands_of_reachable h.writing hf with
  | writing sent _ hq hw => exact ⟨sent, hq, hw⟩
  | ended sent rest hsome => exact absurd (hr.symm.trans hsome) (by simp)

/-- The beginning of a chronicle is one, and the step that it says comes next leads to the state
that comes next. -/
theorem past (h : Chronicle x (earlier ++ t :: later) f) :
    Chronicle x earlier t.before ∧ t.before.Grows f ∧
      ∃ g, (later.map Moment.before ++ [f]).head? = some g ∧ t.before.Deed t.handed t.pumped g := by
  generalize hl : earlier ++ t :: later = log at h
  induction h generalizing later with
  | start => simp at hl
  | @step log f g hs ps h hd ih =>
    rcases last_or_before hl.symm with ⟨rfl, rfl, rfl⟩ | ⟨rest, rfl, hbefore⟩
    · exact ⟨h, hd.grows, g, rfl, hd⟩
    · obtain ⟨hpast, hgrows, e, hnext, hdeed⟩ := ih hbefore.symm
      refine ⟨hpast, hgrows.trans hd.grows, e, ?_, hdeed⟩
      rw [List.map_append, List.map_singleton, List.head?_append, hnext]
      rfl

end Chronicle

/-- An act of a party or a pump, or an envelope that somebody else has routed. -/
inductive Doing where
  | own (a : Act)
  | sent (m : Envelope) (source : String)

/-- What is handed out in an act. -/
def handed (f : Feed σ) : Act → List Handing
  | .party m => ((f.served.move? f.exchange m).map fun (es, _) => Event.handings es).getD []
  | .forward p => f.exchange.forwardHandings p
  | _ => []

/-- What the pump of the peer has to do with in an act that leads to `g`. -/
def pumped (f g : Feed σ) : Act → List (Envelope × String)
  | .fetch p => g.carried p
  | .forward p => f.carried p
  | _ => []

/-- What comes of something that is done, if it can be. -/
def deed? (f : Feed σ) : Doing → Option (Moment σ × Feed σ)
  | .own a => (f.act? a).map fun g => (⟨f, f.handed a, f.pumped g a⟩, g)
  | .sent m source => some (⟨f, Exchange.routeHandings f.exchange.router m source, []⟩,
      { f with exchange := (f.exchange.route m source).1 })

def deeds? (f : Feed σ) : List Doing → Option (List (Moment σ) × Feed σ)
  | [] => some ([], f)
  | d :: ds => do
    let (t, g) ← f.deed? d
    let (log, g) ← g.deeds? ds
    some (t :: log, g)

theorem deed_of_act? {a : Act} (h : f.act? a = some g) :
    f.Deed (f.handed a) (f.pumped g a) g := by
  cases a with
  | party m =>
    obtain ⟨⟨es, y, t⟩, hm, rfl⟩ := Option.map_eq_some_iff.1 h
    have hd := Deed.party (Served.step_of_move? hm)
    simpa [handed, pumped, hm] using hd
  | watch side =>
    obtain ⟨he, hn, rfl⟩ := act?_watch h
    exact .watch side he hn rfl
  | fetch p =>
    obtain ⟨u, y, hu, hidle, hy, rfl⟩ := act?_fetch h
    exact .fetch hu hidle hy
  | forward p =>
    cases h
    exact .forward p

theorem deed_of_deed? {d : Doing} (h : f.deed? d = some (t, g)) :
    t.before = f ∧ f.Deed t.handed t.pumped g := by
  cases d with
  | own a =>
    obtain ⟨g', ha, he⟩ := Option.map_eq_some_iff.1 h
    obtain ⟨rfl, rfl⟩ := Prod.mk.inj he
    exact ⟨rfl, deed_of_act? ha⟩
  | sent m source =>
    cases h
    exact ⟨rfl, .others (.sent m source)⟩

theorem chronicle_of_deeds? {ds : List Doing} {more : List (Moment σ)} (h : Chronicle x log f)
    (hd : f.deeds? ds = some (more, g)) : Chronicle x (log ++ more) g := by
  induction ds generalizing f log more with
  | nil =>
    cases hd
    rwa [List.append_nil]
  | cons d ds ih =>
    obtain ⟨⟨t, f'⟩, ht, hd⟩ := Option.bind_eq_some_iff.1 hd
    obtain ⟨⟨rest, g'⟩, hrest, he⟩ := Option.bind_eq_some_iff.1 hd
    cases he
    obtain ⟨rfl, hdeed⟩ := deed_of_deed? ht
    rw [List.append_cons]
    exact ih (h.step hdeed) hrest

end Feed

end Switchboard
