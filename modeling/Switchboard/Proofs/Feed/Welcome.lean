import Switchboard.Proofs.Feed.Advance
import Switchboard.Proofs.Feed.Chronicle
import Switchboard.Proofs.Feed.Endings

/-! What comes first when a client is admitted. As long as its route is not bound, nothing that the
router hands out reaches it; so the answer to its own request is the first that is queued for it.
And the uplink hears of the route before that is bound, hence before anything of the client is
pumped. -/
namespace Switchboard

variable {σ : Type} {x : Exchange σ} {hs : List Handing} {k : Nat} {m : Envelope} {route : String}

/-- The router is not shut down, and an uplink is bound. -/
structure Exchange.Connected (x : Exchange σ) : Prop where
  isOpen : x.router.closed = false
  uplink : x.router.uplink.isSome

instance (x : Exchange σ) : Decidable x.Connected :=
  decidable_of_iff (x.router.closed = false ∧ x.router.uplink.isSome)
    ⟨fun h => ⟨h.1, h.2⟩, fun h => ⟨h.isOpen, h.uplink⟩⟩

open Exchange

/-- What is not bound gets nothing that the router hands out. -/
theorem Exchange.received_of_reaches (hb : x.router.Bindings k none) (hr : x.router.Reaches hs) :
    x.received hs k = [] := by
  simp only [received, taken, List.map_eq_nil_iff, List.filter_eq_nil_iff, List.mem_filter,
    decide_eq_true_eq]
  intro h hm hk
  obtain ⟨slot, b, hslot, he⟩ := hr h hm.1
  exact hb.not_bound hslot (he.trans hk)

namespace Feed

variable {f f' : Feed σ} {ps : List (Envelope × String)} {log earlier later : List (Moment σ)}
  {t : Moment σ} {a a' : Admission} {grants more : List Grant} {said said' : List Envelope}
  {first : Envelope} {g : Grant}

/-- What is handed out and granted in a step goes with how far it takes the service. -/
theorem Deed.advance (h : f.Deed hs ps f') : ∃ more,
    Advance f.exchange f.peer f.served.connection.admission f'.served.connection.admission hs
      more ∧ f'.events.filterMap Event.grant? = f.events.filterMap Event.grant? ++ more := by
  cases h with
  | party h => exact ⟨_, h.advance, List.filterMap_append⟩
  | watch side he hn hb => exact ⟨[], .aside (Router.reaches_nil _), List.filterMap_append⟩
  | fetch hu hidle hy => exact ⟨[], .aside (Router.reaches_nil _), (List.append_nil _).symm⟩
  | forward p => exact ⟨[], .aside (Exchange.reaches_forward _ p), (List.append_nil _).symm⟩
  | others h => exact ⟨[], .aside h.reaches, (List.append_nil _).symm⟩

/-- The uplink is handed the news of the route of a grant. -/
def Moment.Tells (t : Moment σ) (g : Grant) : Prop :=
  ∃ b, t.before.exchange.router.uplink = some b ∧
    ⟨b.endpoint, Handshake.announcement g⟩ ∈ t.handed

/-- How far the client and the uplink were told of what was granted, by how far the service is. -/
structure Orderly (log : List (Moment σ)) (k : Nat) (a : Admission) (grants : List Grant)
    (said : List Envelope) : Prop where
  silent : a.isUnanswered = true → queued log k = []
  granted : a.isUnanswered = true → grants = (a.asked?.map Prod.snd).toList
  asked : ∀ first g, a.asked? = some (first, g) →
    [first] <+: said ∧ ∃ t ∈ log, t.before.exchange.Grants first g
  answered : ∀ route, a.admits? = some route → ∃ first g, g.route = route ∧ g ∈ grants ∧
    [first] <+: said ∧ (∃ t ∈ log, t.before.exchange.Grants first g) ∧
      [Handshake.welcome first g] <+: queued log k
  told : a.isUntold = false → ∀ g ∈ grants, ∃ t ∈ log, t.Tells g

theorem tells_of_connected (hc : t.before.exchange.Connected) (hr : g.route ≠ uplinkRoute)
    (hh : t.handed =
      routeHandings t.before.exchange.router (Handshake.announcement g) g.route) :
    t.Tells g := by
  obtain ⟨b, hb⟩ := Option.isSome_iff_exists.1 hc.uplink
  refine ⟨b, hb, ?_⟩
  rw [hh, routeHandings_of_isControl (.inl rfl) rfl hc.isOpen hr, uplinkHandings, hb]
  exact List.mem_singleton_self _

namespace Orderly

theorem step (h : Orderly log k a grants said)
    (ha : Advance t.before.exchange k a a' t.handed more) (hp : said <+: said')
    (hb : a.isUnanswered = true → t.before.exchange.router.Bindings k none)
    (hf : ∀ m, a = .greeting (.received m) → [m] <+: said)
    (hc : t.before.exchange.Connected) :
    Orderly (log ++ [t]) k a' (grants ++ more) said' := by
  have hkeeps {p : Moment σ → Prop} : (∃ u ∈ log, p u) → ∃ u ∈ log ++ [t], p u := by
    rintro ⟨u, hu, ht⟩
    exact ⟨u, List.mem_append_left _ hu, ht⟩
  have hlast : t ∈ log ++ [t] := List.mem_append_right _ (List.mem_singleton_self t)
  constructor
  case silent =>
    intro hu
    obtain ⟨hbefore, hr⟩ := ha.unanswered hu
    rw [queued_append, h.silent hbefore, queued_singleton,
      received_of_reaches (hb hbefore) hr]
    rfl
  case granted =>
    intro hu
    exact ha.grants hu (h.granted (ha.unanswered hu).1)
  case asked =>
    intro first g hq
    rcases ha.asked hq with hold | ⟨hreceived, hg⟩
    · obtain ⟨hfirst, hgrants⟩ := h.asked first g hold
      exact ⟨hfirst.trans hp, hkeeps hgrants⟩
    · exact ⟨(hf first hreceived).trans hp, t, hlast, hg⟩
  case answered =>
    intro route hr
    rw [queued_append]
    rcases ha.admits hr with hold | ⟨first, g, rfl, hroute, hh, hl⟩
    · obtain ⟨first, g, hroute, hg, hfirst, hgrants, hqueue⟩ := h.answered route hold
      exact ⟨first, g, hroute, List.mem_append_left _ hg, hfirst.trans hp, hkeeps hgrants,
        hqueue.trans (List.prefix_append _ _)⟩
    · obtain ⟨hfirst, hgrants⟩ := h.asked first g rfl
      refine ⟨first, g, hroute, ?_, hfirst.trans hp, hkeeps hgrants, ?_⟩
      · rw [h.granted rfl]
        simp [Admission.asked?]
      · rw [h.silent rfl, queued_singleton, hh]
        simp [received, taken, hl]
  case told =>
    intro hu g hg
    rcases ha.told hu with ⟨hbefore, rfl⟩ | ⟨first, g', rfl, rfl, hh⟩
    · rw [List.append_nil] at hg
      exact hkeeps (h.told hbefore g hg)
    · obtain rfl : g = g' := by
        rw [h.granted rfl] at hg
        simpa [Admission.asked?] using hg
      obtain ⟨-, u, -, hgrants⟩ := h.asked first g rfl
      exact ⟨t, hlast, tells_of_connected hc hgrants.route_ne_uplinkRoute hh⟩

end Orderly

namespace Sound

variable {ph : Phase} {heard fed : List Envelope} {q : Queue}

theorem bindings_of_unanswered (h : Sound x f ph heard fed q)
    (hu : f.served.connection.admission.isUnanswered = true) :
    f.exchange.router.Bindings f.peer none := by
  have hb := h.bindings
  rwa [h.course.fits.bound_of_unanswered hu] at hb

theorem first_of_received (h : Sound x f ph heard fed q)
    (ha : f.served.connection.admission = .greeting (.received m)) : [m] <+: f.decoded := by
  have hfront := h.said.front
  rw [h.hearing.received m ha, List.append_assoc] at hfront
  exact (List.prefix_append _ _).trans hfront

/-- Where the pump of the peer has an envelope in hand, the route is bound. -/
theorem bound_of_carried {p : Nat} (h : Sound x f ph heard fed q) (hp : f.carried p ≠ []) :
    ∃ g, ph = .bound g := by
  cases hu : f.exchange.router.pumps[p]? with
  | none => simp [carried, hu] at hp
  | some u =>
    by_cases hk : u.endpoint = f.peer
    · obtain ⟨g, hg, -⟩ := h.pump hu hk
      exact ⟨g, hg⟩
    · simp [carried, hu, hk] at hp

theorem finished_of_carried {p : Nat} (h : Sound x f ph heard fed q) (hp : f.carried p ≠ []) :
    f.served.connection.admission = .finished ∧ ∃ g, .granted g ∈ f.events := by
  obtain ⟨g, rfl⟩ := h.bound_of_carried hp
  have hfits := h.course.fits
  refine ⟨?_, g, ?_⟩
  · generalize f.served.connection.admission = a at hfits
    cases hfits
    rfl
  · rw [Event.granted_mem_iff, h.course.grants]
    exact List.mem_singleton_self g

/-- A connection is granted one thing at most. -/
theorem eq_of_granted (h : Sound x f ph heard fed q) {g g' : Grant} (hg : .granted g ∈ f.events)
    (hg' : .granted g' ∈ f.events) : g' = g := by
  rw [Event.granted_mem_iff, h.course.grants, Option.mem_toList] at hg hg'
  exact Option.some.inj (hg'.symm.trans hg)

end Sound

theorem orderly_of_chronicle (hx : x.Tidy) (h : Chronicle x log f)
    (hc : ∀ t ∈ log, t.before.exchange.Connected) :
    Orderly log f.peer f.served.connection.admission (f.events.filterMap Event.grant?)
      f.decoded := by
  induction h with
  | start grace maxFrame =>
    constructor
    case silent | granted => exact fun _ => rfl
    case asked => exact fun _ _ hq => by cases hq
    case answered => exact fun _ hr => by cases hr
    case told => exact fun _ _ hg => absurd hg List.not_mem_nil
  | @step log f g hs ps h hd ih =>
    obtain ⟨ph, heard, fed, q, hsound⟩ := sound_of_reachable hx h.reachable
    obtain ⟨more, ha, hm⟩ := hd.advance
    have hbefore := ih fun t ht => hc t (List.mem_append_left _ ht)
    have hlast := hc ⟨f, hs, ps⟩ (List.mem_append_right _ (List.mem_singleton_self _))
    rw [hd.grows.peer, hm]
    exact hbefore.step ha hd.grows.decoded hsound.bindings_of_unanswered
      (fun m => hsound.first_of_received) hlast

/-- Nothing is pumped before the service is through with the admission. -/
theorem Deed.finished_of_pumped (hx : x.Tidy) (hr : Reachable x f) (h : f.Deed hs ps f')
    (hp : ps ≠ []) :
    f.served.connection.admission = .finished ∧ ∃ g, .granted g ∈ f.events := by
  obtain ⟨ph, heard, fed, q, hs⟩ := sound_of_reachable hx hr
  obtain ⟨ph', heard', fed', q', hs'⟩ := sound_of_reachable hx (hr.step h.step)
  cases h with
  | fetch hu hidle hy => exact hs'.finished_of_carried hp
  | forward p => exact hs.finished_of_carried hp
  | party | watch | others => exact absurd rfl hp

/-- Before anything of the client is pumped, the uplink was told of the route. -/
theorem Chronicle.told_of_pumped (h : Chronicle x (earlier ++ t :: later) f) (hx : x.Tidy)
    (hc : ∀ u ∈ earlier, u.before.exchange.Connected) (hp : t.pumped ≠ [])
    (hg : .granted g ∈ f.events) : ∃ u ∈ earlier, u.Tells g := by
  obtain ⟨ph, heard, fed, q, hs⟩ := sound_of_reachable hx h.reachable
  obtain ⟨hpast, hgrows, f', -, hd⟩ := h.past
  obtain ⟨hfinished, g', hg'⟩ := hd.finished_of_pumped hx hpast.reachable hp
  obtain rfl := hs.eq_of_granted hg (hgrows.events.subset hg')
  exact (orderly_of_chronicle hx hpast hc).told (by rw [hfinished]; rfl) g'
    (Event.granted_mem_iff.1 hg')

/-- At some time the handshake had ended with the client admitted under a route. -/
def Admitted (log : List (Moment σ)) (f : Feed σ) (route : String) : Prop :=
  ∃ e ∈ log.map Moment.before ++ [f], e.served.connection.admission.admits? = some route

instance (log : List (Moment σ)) (f : Feed σ) (route : String) :
    Decidable (Admitted log f route) :=
  inferInstanceAs (Decidable (∃ e ∈ log.map Moment.before ++ [f], _))

theorem Chronicle.exists_past {e : Feed σ} (h : Chronicle x log f)
    (he : e ∈ log.map Moment.before ++ [f]) :
    ∃ earlier later, log = earlier ++ later ∧ Chronicle x earlier e ∧ e.Grows f := by
  rcases List.mem_append.1 he with hm | hm
  · obtain ⟨t, ht, rfl⟩ := List.mem_map.1 hm
    obtain ⟨earlier, later, rfl⟩ := List.append_of_mem ht
    obtain ⟨hpast, hgrows, -⟩ := h.past
    exact ⟨earlier, t :: later, rfl, hpast, hgrows⟩
  · obtain rfl := List.mem_singleton.1 hm
    exact ⟨log, [], (List.append_nil _).symm, h, .refl e⟩

end Feed

/-- An envelope tells the sender of another that it is admitted under a grant. -/
structure Grant.Answers (g : Grant) (first answer : Envelope) : Prop where
  responseId : answer.responseId = first.requestId
  route : answer.route = first.source
  data : answer.data =
    some (.object [("authtoken", .string g.token), ("routeid", .string g.route)])
  command : answer.command = none
  error : answer.error = none

namespace Feed

/-- What the client and the uplink are told when something is granted, and in which order. -/
structure Welcomed (log : List (Moment σ)) (f : Feed σ) (g : Grant) : Prop where
  granted : .granted g ∈ f.events
  /-- The grant was made up for the first envelope of the client, and the first that is queued for
  the client is the answer to that one, whatever others have sent to its route. -/
  answered : ∃ first said answer rest, f.decoded = first :: said ∧
    (∃ t ∈ log, t.before.exchange.Grants first g) ∧ queued log f.peer = answer :: rest ∧
      g.Answers first answer
  /-- The uplink was told of the route. -/
  told : ∃ t ∈ log, t.Tells g
  /-- And it was before anything that the client sent was pumped. -/
  toldFirst : ∀ earlier t later, log = earlier ++ t :: later → t.pumped ≠ [] →
    ∃ u ∈ earlier, u.Tells g
  /-- What is handed out in a step gets into the inboxes of those that it is for, that of the uplink
  among them, and until the next state they get nothing else. -/
  inbox : ∀ earlier t later, log = earlier ++ t :: later → t.handed ≠ [] →
    ∃ e, (later.map Moment.before ++ [f]).head? = some e ∧
      ∀ k, Hands k t.handed t.before.exchange e.exchange
  /-- What is queued is what the client gets, or what it is still to get. -/
  queue : f.served.connection.outlet.failing = none → f.served.connection.outlet.result = none →
    ∃ sent, queued log f.peer = sent ++ f.exchange.incoming f.peer ∧
      f.served.connection.outlet.written = Frame.frames sent

/-- What somebody sends who has heard of the first route that is made up. -/
def hail : Envelope :=
  { command := some "hail", route := some (Identity.processRoute (Id.ofNat 0)) }

/-- The uplink hails the client as soon as it hears of the route, when the client has its answer,
and once more when the route is bound. -/
def ushered? : Option (List (Moment Unit) × Feed Unit) :=
  deeds? { exchange := lobby.meet, served := .new 1 (.ofSeconds 5) 100 }
    [.own (.party (.arrive (.data pipelined))), .own (.party .read), .own (.party .read),
      .own (.party .read), .own (.party .read), .own (.party .service), .own (.party .service),
      .own (.party .service), .own (.party .service), .sent hail uplinkRoute,
      .own (.party .service), .sent hail uplinkRoute, .own (.party .service),
      .own (.party .service), .sent hail uplinkRoute, .own (.fetch 1), .own (.forward 1)]

theorem ushered?_isSome : ushered?.isSome := by decide +kernel

def ushered : List (Moment Unit) × Feed Unit := ushered?.get ushered?_isSome

end Feed

end Switchboard
