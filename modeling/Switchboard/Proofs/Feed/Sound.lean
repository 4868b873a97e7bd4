import Switchboard.Proofs.Feed.Course

/-! Where the envelopes of a client are: heard by the service, fetched and routed by the pump, held
by the pump, or still with the peer; and that they stay in order whatever step is made. -/
namespace Switchboard

variable {σ : Type} {x y : Exchange σ} {f : Feed σ} {t : Served} {ph qh : Phase} {g : Grant}
  {r s : Router} {k : Nat} {live : Prop} {routed : List (Envelope × String)}
  {heard heard' fed : List Envelope} {q q' : Queue} {seen : List Side} {ev : List Event}

/-- From one phase to the next no route is bound, nor is a bound route given up. -/
inductive Phase.Onward (ph : Phase) : Phase → Prop
  | stay : Onward ph ph
  | free {qh : Phase} (hp : ph.bound? = none) (hq : qh.bound? = none) : Onward ph qh

theorem Phase.Onward.bound_eq (h : ph.Onward qh) : qh.bound? = ph.bound? := by
  cases h with
  | stay => rfl
  | free hp hq => exact hq.trans hp.symm

/-- What the pump of an endpoint has fetched, `fed`: nothing as long as no route is bound, and from
then on what it has routed and what it holds. -/
inductive Flow (r : Router) (k : Nat) (live : Prop) (routed : List (Envelope × String)) :
    Phase → List Envelope → Prop
  | idle {ph : Phase} (hp : ph.bound? = none) (hk : r.Unserved k) (hr : routed = []) :
      Flow r k live routed ph []
  | bound {g : Grant} {p : Nat} {u : Pump} {fed : List Envelope} (hs : r.Serves k p u)
      (hu : u.source = g.route) (hl : live → u.cancelled = false)
      (hr : routed ++ u.held.toList.map (·, g.route) = fed.map fun m => (g.stamp m, g.route)) :
      Flow r k live routed (.bound g) fed

/-- The pump of an endpoint goes with the phase. -/
theorem Flow.keeps {lives live' : Prop} (h : Flow r k live routed ph fed)
    (hr : Router.Keeps k ph.bound? lives r s) (hb : r.Bindings k ph.bound?)
    (hl : live' → live ∧ lives ∧ s.closed = r.closed)
    (hq : ph.Onward qh) : Flow s k live' routed qh fed := by
  cases h with
  | idle hp hk hrouted => exact .idle (hq.bound_eq.trans hp) (hr.unserved hk) hrouted
  | bound hs hu hlive hrouted =>
    obtain ⟨c, hs', hc⟩ := hr.serves _ _ hb hs
    cases hq with
    | stay =>
      refine .bound hs' hu (fun h => ?_) hrouted
      obtain ⟨h, h', he⟩ := hl h
      exact (hc h' he).trans (hlive h)
    | free hp _ => cases hp

namespace Feed

/-- The connection is open, and the router was not shut down meanwhile. -/
def Live (x : Exchange σ) (f : Feed σ) : Prop :=
  f.served.connection.guard.closed = false ∧ f.exchange.router.closed = x.router.closed

/-- What the client has said is what the service has heard, what the pump has fetched, and what the
peer still has to say. -/
structure Sound (x : Exchange σ) (f : Feed σ) (ph : Phase) (heard fed : List Envelope)
    (q : Queue) : Prop where
  course : Course f.served f.seen f.events ph
  said : Said f.served.connection.maxFrame (Event.arrivals f.events) f.served.connection.intake
    f.served.connection.guard.cancelled (heard ++ fed ++ q.items)
  hearing : Hearing ph f.served.connection.admission heard
  voice : f.exchange.voice f.peer = some (q, ph.papers)
  isOpen : q.isOpen = true
  bindings : f.exchange.router.Bindings f.peer ph.bound?
  flow : Flow f.exchange.router f.peer (f.Live x) f.routed ph fed
  down : x.router.closed = true → f.exchange.router.closed = true

/-- Of a router that was not shut down up to now, nobody has shut it down before. -/
theorem open_before {a b c : Bool} (hab : a = true → b = true) (hbc : b = true → c = true)
    (h : c = a) : b = a ∧ c = b := by
  cases a <;> cases b <;> simp_all

namespace Sound

/-- A step that leaves it to the pump what the pump has fetched. -/
theorem go {lives : Prop} (h : Sound x f ph heard fed q)
    (hr : Router.Keeps f.peer ph.bound? lives f.exchange.router y.router)
    (hl : t.connection.guard.closed = false →
      f.served.connection.guard.closed = false ∧ lives)
    (hp : t.connection.peer = f.peer) (hv : y.voice f.peer = some (q', qh.papers))
    (ho : q'.isOpen = true)
    (hs : Said t.connection.maxFrame (Event.arrivals ev) t.connection.intake
      t.connection.guard.cancelled (heard' ++ fed ++ q'.items))
    (hh : Hearing qh t.connection.admission heard') (hc : Course t seen ev qh)
    (hq : ph.Onward qh) :
    Sound x { f with exchange := y, served := t, seen, events := ev } qh heard' fed q' := by
  have hpeer : peer { f with exchange := y, served := t, seen, events := ev } = f.peer := hp
  constructor
  case course => exact hc
  case said => exact hs
  case hearing => exact hh
  case voice => exact hpeer ▸ hv
  case isOpen => exact ho
  case bindings =>
    rw [hpeer, hq.bound_eq]
    exact hr.bindings h.bindings
  case flow =>
    rw [hpeer]
    refine h.flow.keeps hr h.bindings ?_ hq
    rintro ⟨hopen, hdown⟩
    obtain ⟨hopen, hlives⟩ := hl hopen
    obtain ⟨hbefore, hsame⟩ := open_before h.down hr.closed hdown
    exact ⟨⟨hopen, hbefore⟩, hlives, hsame⟩
  case down => exact fun hx => hr.closed (h.down hx)

/-- A step apart from the peer and its pump. -/
theorem apart {lives : Prop} (h : Sound x f ph heard fed q)
    (ha : f.exchange.Apart f.peer ph.bound? lives y)
    (hl : t.connection.guard.closed = false →
      f.served.connection.guard.closed = false ∧ lives)
    (hp : t.connection.peer = f.peer) (hm : qh.papers = ph.papers)
    (hs : Said t.connection.maxFrame (Event.arrivals ev) t.connection.intake
      t.connection.guard.cancelled (heard ++ fed ++ q.items))
    (hh : Hearing qh t.connection.admission heard) (hc : Course t seen ev qh)
    (hq : ph.Onward qh) :
    Sound x { f with exchange := y, served := t, seen, events := ev } qh heard fed q :=
  h.go ha.router hl hp (by rw [ha.voice, h.voice, hm]) h.isOpen hs hh hc hq

/-- Whatever others do apart from the connection is nothing to it. -/
theorem others {lives : Prop} (h : Sound x f ph heard fed q)
    (ha : f.exchange.Apart f.peer ph.bound? lives y)
    (hl : f.served.connection.guard.closed = false → lives) :
    Sound x { f with exchange := y } ph heard fed q :=
  h.apart ha (fun ho => ⟨ho, hl ho⟩) rfl rfl h.said h.hearing h.course .stay

/-- An operation that spares the connection does not cancel its pump. -/
theorem operate (h : Sound x f ph heard fed q) {op : Relay.Operation}
    (ho : op.Spares f.peer f.served.connection.guard.route) :
    Sound x { f with exchange := op.apply f.exchange } ph heard fed q := by
  refine h.others (Exchange.apart_apply op ho.1) fun hopen i hi => ?_
  rw [← (h.course.running hopen).route]
  exact ho.2 i hi

/-- The pump of the peer, as long as there is one, is the one of the phase. -/
theorem pump {p : Nat} {u : Pump} (h : Sound x f ph heard fed q)
    (hu : f.exchange.router.pumps[p]? = some u) (hk : u.endpoint = f.peer) :
    ∃ g, ph = .bound g ∧ f.exchange.router.Serves f.peer p u ∧ u.source = g.route ∧
      (f.Live x → u.cancelled = false) ∧
      f.routed ++ u.held.toList.map (·, g.route) = fed.map fun m => (g.stamp m, g.route) := by
  cases h.flow with
  | idle _ hnone _ => exact absurd hk (hnone u (List.mem_of_getElem? hu))
  | @bound g p' u' _ hs hsource hlive hrouted =>
    obtain rfl := hs.only p u hu hk
    obtain rfl : u = u' := Option.some.inj (hu.symm.trans hs.found)
    exact ⟨g, rfl, hs, hsource, hlive, hrouted⟩

/-- The pump of the peer puts the same steps behind it, one after the other. -/
theorem rebound {p : Nat} {u : Pump} {fed' : List Envelope} {r : List (Envelope × String)}
    (h : Sound x f (.bound g) heard fed q)
    (hv : y.voice f.peer = some (q', Phase.papers (.bound g))) (ho : q'.isOpen = true)
    (hc : y.router.closed = f.exchange.router.closed)
    (hb : y.router.Bindings f.peer (some g.route)) (hs : y.router.Serves f.peer p u)
    (hu : u.source = g.route) (hl : f.Live x → u.cancelled = false)
    (hr : r ++ u.held.toList.map (·, g.route) = fed'.map fun m => (g.stamp m, g.route))
    (hsaid : fed' ++ q'.items = fed ++ q.items) :
    Sound x { f with exchange := y, routed := r } (.bound g) heard fed' q' where
  course := h.course
  said := by
    have hall := h.said
    rw [List.append_assoc, ← hsaid, ← List.append_assoc] at hall
    exact hall
  hearing := h.hearing
  voice := hv
  isOpen := ho
  bindings := hb
  flow := .bound hs hu (fun hlive => hl ⟨hlive.1, hc ▸ hlive.2⟩) hr
  down hx := hc.trans (h.down hx)

end Sound

end Feed

/-- The stamp of a peer that was given its papers is that of its grant. -/
theorem Peer.stamp_eq {p : Peer} (hr : p.route = some g.route) (ht : p.authToken = some g.token)
    (m : Envelope) : p.stamp m = g.stamp m := by
  obtain ⟨b, token, route⟩ := p
  simp only at hr ht
  subst hr ht
  cases hs : m.source with
  | none => simp [Peer.stamp, Grant.stamp, hs]
  | some s => simp [Peer.stamp, Grant.stamp, hs]

namespace Exchange

/-- A pump that takes an envelope hears its endpoint and holds what it stamps. -/
theorem fetch_heard {p : Nat} {u : Pump} (hu : x.router.pumps[p]? = some u)
    (hy : x.fetch p = .held y) : ∃ m z, x.hear u.endpoint = .envelope m z ∧
      y = z.setPump p (some (z.stamp u.endpoint m)) := by
  simp only [fetch, hu] at hy
  split at hy
  · cases hy
  · split at hy
    · cases hy
      exact ⟨_, _, ‹_›, rfl⟩
    · cases hy
    · cases hy

theorem stamp_of_voice (h : x.voice k = some (q, Phase.papers (.bound g))) (m : Envelope) :
    x.stamp k m = g.stamp m := by
  obtain ⟨v, hv, -, hr, ht⟩ := peer?_of_voice h
  obtain ⟨e, he, hp⟩ := Option.bind_eq_some_iff.1 hv
  cases e <;> cases hp
  rw [stamp, he]
  exact Peer.stamp_eq hr ht m

end Exchange

namespace Feed.Sound

/-- A pump takes an envelope: if it is the pump of the peer, what the peer said first. -/
theorem fetch {p : Nat} {u : Pump} (h : Sound x f ph heard fed q)
    (hu : f.exchange.router.pumps[p]? = some u) (hidle : u.held = none)
    (hy : f.exchange.fetch p = .held y) :
    ∃ fed' q', Sound x { f with exchange := y } ph heard fed' q' := by
  by_cases hk : u.endpoint = f.peer
  · obtain ⟨g, rfl, hs, hsource, hlive, hrouted⟩ := h.pump hu hk
    obtain ⟨m, z, hz, rfl⟩ := Exchange.fetch_heard hu hy
    rw [hk] at hz ⊢
    obtain ⟨rest, hm, hvoice⟩ := Exchange.voice_hear h.voice hz
    have hrouter : z.router = f.exchange.router := (Exchange.within_hear hz).router
    have hclosed : z.router.closed = f.exchange.router.closed := by rw [hrouter]
    have hbind := Exchange.bindings_setPump (hrouter ▸ h.bindings) p (some (g.stamp m))
    have hserve := Exchange.serves_setPump (hrouter ▸ hs) (some (g.stamp m))
    rw [Exchange.stamp_of_voice hvoice]
    refine ⟨fed ++ [m], { q with items := rest }, h.rebound hvoice h.isOpen hclosed
      hbind hserve hsource hlive ?_ ?_⟩
    · rw [hidle] at hrouted
      simp only [Option.toList_none, List.map_nil, List.append_nil] at hrouted
      simp [hrouted]
    · simp [hm]
  · exact ⟨fed, q, h.others (Exchange.apart_fetch hu hk hy) fun _ => trivial⟩

/-- A pump routes what it holds: if it is the pump of the peer, what it fetched last. -/
theorem forward (h : Sound x f ph heard fed q) (p : Nat) :
    Sound x { f with
      exchange := (f.exchange.forward p).1
      routed := f.routed ++ f.carried p } ph heard fed q := by
  cases hu : f.exchange.router.pumps[p]? with
  | none =>
    have hx : (f.exchange.forward p).1 = f.exchange := by rw [Exchange.forward, hu]
    rw [hx, carried, hu, List.append_nil]
    exact h
  | some u =>
    by_cases hk : u.endpoint = f.peer
    · obtain ⟨g, rfl, hs, hsource, hlive, hrouted⟩ := h.pump hu hk
      rw [carried, hu]
      simp only [if_pos hk, Exchange.forward_eq hu]
      cases hheld : u.held with
      | none =>
        simpa using h
      | some m =>
        rw [hheld, ← hsource] at hrouted
        have hserve := Exchange.serves_setPump hs none
        have hbind := Exchange.bindings_setPump h.bindings p none
        have hset : Sound x { f with
            exchange := f.exchange.setPump p none
            routed := f.routed ++ [(m, u.source)] } (.bound g) heard fed q := by
          refine h.rebound h.voice h.isOpen rfl hbind hserve hsource hlive ?_ rfl
          rw [← hsource]
          simpa using hrouted
        exact hset.others (Exchange.apart_route m u.source) fun _ => trivial
    · rw [carried, hu]
      simp only [if_neg hk, List.append_nil]
      exact h.others (Exchange.apart_forward hu hk) fun _ => trivial

end Feed.Sound

end Switchboard
