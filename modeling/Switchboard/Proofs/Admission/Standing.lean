import Switchboard.Proofs.Admission.Step

/-! Each step of a party keeps a connection in one of its phases: `Standing` holds on, and what the
step does to the exchange is what the change of phase allows. -/
namespace Switchboard

variable {σ : Type} {x y : Exchange σ} {s t : Served} {c d : Connection} {ev es : List Event}
  {ph qh : Phase} {k : Nat} {g : Grant}

namespace Event

/-- Nothing comes of the event that a phase has to do with. -/
structure IsQuiet (e : Event) : Prop where
  grant : e.grant? = none
  bound : e.bound? = none
  closed : e.isClosed = false
  called : e.isCalled = false
  notice : ∀ u, e.notice? u = none

theorem served_isQuiet : IsQuiet served := ⟨rfl, rfl, rfl, rfl, fun _ => rfl⟩

theorem expired_isQuiet : IsQuiet expired := ⟨rfl, rfl, rfl, rfl, fun _ => rfl⟩

theorem arrived_isQuiet (r : Read) : IsQuiet (arrived r) := ⟨rfl, rfl, rfl, rfl, fun _ => rfl⟩

/-- What the client is told is no news of a route. -/
theorem handed_isQuiet {h : Handing} (hm : ¬Exchange.IsControl h.envelope) :
    IsQuiet (handed h) :=
  ⟨rfl, rfl, rfl, rfl, fun u => by simp [notice?, hm]⟩

theorem grants_handed (hs : List Handing) : (hs.map handed).filterMap grant? = [] := by
  simp [grant?]

theorem bounds_handed (hs : List Handing) : (hs.map handed).filterMap bound? = [] := by
  simp [bound?]

theorem closes_handed (hs : List Handing) : (hs.map handed).countP isClosed = 0 := by
  simp [isClosed]

theorem calls_handed (hs : List Handing) : (hs.map handed).any isCalled = false := by
  simp [isCalled]

/-- News of a route that the uplink is handed. -/
theorem notices_uplinkHandings {r : Router} {b : Binding} {m : Envelope}
    (hu : r.uplink = some b) (hm : Exchange.IsControl m) :
    notices b.endpoint ((Exchange.uplinkHandings r m).map handed) = [m] := by
  simp [notices, Exchange.uplinkHandings, hu, notice?, hm]

/-- Routing makes known what it hands the uplink, and a disposal once more. -/
theorem notices_routeEvents_control {r : Router} {b : Binding} {m : Envelope} {source : String}
    (hr : r.closed = false) (hu : r.uplink = some b) (hs : source ≠ uplinkRoute)
    (hm : Exchange.IsControl m) (hd : m.command ≠ some Command.disposeName)
    (hsource : m.source.isSome) :
    notices b.endpoint (Exchange.routeEvents r m source) = [m] := by
  have he : Exchange.sourced m source = m := by
    unfold Exchange.sourced
    split
    · simp_all
    · rfl
  have hh : Exchange.routeHandings r m source = Exchange.uplinkHandings r m := by
    simp [Exchange.routeHandings, he, hr, hm, hs]
  have := notices_uplinkHandings hu hm
  simp only [Exchange.routeEvents, hh]
  simpa [notices, notice?, hd] using this

theorem notices_routeEvents_dispose {r : Router} {m : Envelope} {source : String}
    (hm : m.command = some Command.disposeName) (u : Nat) :
    notices u (Exchange.routeEvents r m source) = [m] := by
  have hc : (Exchange.sourced m source).command = some Command.disposeName := by
    unfold Exchange.sourced
    split <;> exact hm
  have hn : ¬Exchange.IsControl (Exchange.sourced m source) := by
    simp [Exchange.IsControl, hc, Command.disposeName, Command.routeAnnounceName,
      Command.routeUnannounceName]
  have hh : ∀ h ∈ Exchange.routeHandings r m source, ¬Exchange.IsControl h.envelope := by
    intro h hh
    unfold Exchange.routeHandings at hh
    split at hh
    · cases hh
    · simp only [hn, if_false, Option.mem_toList, Option.map_eq_some_iff] at hh
      obtain ⟨d, -, rfl⟩ := hh
      exact hn
  simpa [Exchange.routeEvents, notices, notice?, hm] using fun h hmem _ => hh h hmem

theorem granted_mem_iff : .granted g ∈ ev ↔ g ∈ ev.filterMap grant? := by
  rw [List.mem_filterMap]
  refine ⟨fun h => ⟨_, h, rfl⟩, ?_⟩
  rintro ⟨e, he, hg⟩
  cases e <;> cases hg
  exact he

theorem bound_mem_iff {r : String} : .bound r ∈ ev ↔ r ∈ ev.filterMap bound? := by
  rw [List.mem_filterMap]
  refine ⟨fun h => ⟨_, h, rfl⟩, ?_⟩
  rintro ⟨e, he, hb⟩
  cases e <;> cases hb
  exact he

end Event

open Event

theorem Counted.append (h : Counted s ev) (hl : t.calls = s.calls)
    (hw : t.connection.admission.isClosing = s.connection.admission.isClosing)
    (hd : t.connection.guard.closed = s.connection.guard.closed)
    (hc : es.countP isClosed = 0) (ha : es.any isCalled = false) : Counted t (ev ++ es) where
  closers := by
    have := h.closers
    simp only [Served.closers, List.countP_append, hc, hl, hw, hd] at this ⊢
    exact this
  called := by simpa [ha, hd] using h.called

theorem Counted.quiet (h : Counted s ev) (hl : t.calls = s.calls)
    (hw : t.connection.admission.isClosing = s.connection.admission.isClosing)
    (hd : t.connection.guard.closed = s.connection.guard.closed) (hq : ∀ e ∈ es, e.IsQuiet) :
    Counted t (ev ++ es) :=
  h.append hl hw hd (by simpa using fun e he => (hq e he).closed)
    (by simpa using fun e he => (hq e he).called)

theorem Recorded.append (h : Recorded x ev ph)
    (hg : ph.grant?.toList ++ es.filterMap grant? = qh.grant?.toList)
    (hb : ph.bound?.toList ++ es.filterMap bound? = qh.bound?.toList)
    (hn : ∀ b, x.router.closed = false → x.router.uplink = some b →
      ph.notices ++ Event.notices b.endpoint es = qh.notices)
    (hc : y.router.closed = x.router.closed) (hu : y.router.uplink = x.router.uplink) :
    Recorded y (ev ++ es) qh where
  grants := by rw [List.filterMap_append, h.grants, hg]
  bounds := by rw [List.filterMap_append, h.bounds, hb]
  notices b hx hy := by
    rw [hc] at hx
    rw [hu] at hy
    rw [← hn b hx hy, ← h.notices b hx hy, Event.notices, List.filterMap_append]
    rfl

/-- What is made known besides what was, when nothing is granted and nothing is bound. -/
theorem Recorded.more {ms : List Envelope} (h : Recorded x ev ph)
    (hg : es.filterMap grant? = []) (hb : es.filterMap bound? = [])
    (hn : ∀ b, x.router.closed = false → x.router.uplink = some b →
      Event.notices b.endpoint es = ms)
    (hqg : qh.grant? = ph.grant?) (hqb : qh.bound? = ph.bound?)
    (hqn : qh.notices = ph.notices ++ ms)
    (hc : y.router.closed = x.router.closed) (hu : y.router.uplink = x.router.uplink) :
    Recorded y (ev ++ es) qh := by
  refine h.append ?_ ?_ ?_ hc hu
  · rw [hg, hqg, List.append_nil]
  · rw [hb, hqb, List.append_nil]
  · intro b hx hux
    rw [hn b hx hux, hqn]

theorem Recorded.silent (h : Recorded x ev ph) (hc : x.Calm y) (hg : es.filterMap grant? = [])
    (hb : es.filterMap bound? = []) (hn : ∀ u, Event.notices u es = []) :
    Recorded y (ev ++ es) ph :=
  h.append (by simp [hg]) (by simp [hb]) (by simp [hn]) hc.closed hc.uplink

theorem Recorded.quiet (h : Recorded x ev ph) (hc : x.Calm y) (hq : ∀ e ∈ es, e.IsQuiet) :
    Recorded y (ev ++ es) ph := by
  refine h.silent hc ?_ ?_ fun u => ?_
  · simpa using fun e he => (hq e he).grant
  · simpa using fun e he => (hq e he).bound
  · simpa [Event.notices] using fun e he => (hq e he).notice u

namespace Recorded

theorem granted_mem_iff (h : Recorded x ev ph) : .granted g ∈ ev ↔ ph.grant? = some g := by
  rw [Event.granted_mem_iff, h.grants, Option.mem_toList]

theorem bound_mem_iff {r : String} (h : Recorded x ev ph) :
    .bound r ∈ ev ↔ ph.bound? = some r := by
  rw [Event.bound_mem_iff, h.bounds, Option.mem_toList]

end Recorded

/-- Where no call has anything to do about the grant, none cares for the phase. -/
theorem Phase.Allows.of_idle {c : Closing} (h : ph.Allows c) (hp : ph.isCarried = false)
    (hq : qh.isCarried = false) : qh.Allows c := by
  cases c with
  | marked r =>
    cases r with
    | none => exact hq
    | some r =>
      obtain ⟨g, rfl, -⟩ := h
      cases hp
  | cancelled r =>
    cases r with
    | none => exact hq
    | some r =>
      obtain ⟨g, rfl, -⟩ := h
      cases hp
  | unregistered r =>
    obtain ⟨g, rfl, -⟩ := h
    cases hp
  | disposed t =>
    obtain ⟨g, rfl, -⟩ := h
    cases hp
  | finished b => trivial

theorem effect_of_calm (h : x.Calm y) (hr : qh.route? = ph.route?) (ht : qh.token? = ph.token?)
    (hg : qh.grant? = ph.grant?) : Effect x y k ph qh where
  papers j _ := h.papers j
  uplink := h.uplink
  closed := h.closed
  minted := h.minted
  routes r hn := by rw [h.routes, if_neg (hr ▸ hn)]
  accepted t hn := by rw [h.accepted, if_neg (ht ▸ hn)]
  grant := .inl hg

namespace Standing

/-- A connection that has just been accepted is in the first phase. -/
theorem new (x : Exchange σ) (grace : Duration) (maxFrame : Nat) :
    Standing x.meet (.new x.endpoints.length grace maxFrame) [] .fresh where
  fits := .awaiting
  papers := by simp [Exchange.papers, Exchange.peer?, Exchange.meet, Served.new,
    Endpoint.peer?, Phase.papers]
  guarded := rfl
  live := nofun
  allowed := nofun
  carried := nofun
  registered := nofun
  counted := ⟨rfl, nofun⟩
  recorded := ⟨rfl, rfl, fun _ _ _ => rfl⟩

/-- A step in which nothing happens that a phase has to do with. -/
theorem advance (h : Standing x s ev ph) (hc : x.Calm y)
    (hp : t.connection.peer = s.connection.peer)
    (hr : t.connection.guard.route = s.connection.guard.route)
    (hd : t.connection.guard.closed = s.connection.guard.closed) (hl : t.calls = s.calls)
    (hf : Fits ph t.connection.admission)
    (hw : t.connection.admission.isClosing = s.connection.admission.isClosing)
    (hq : ∀ e ∈ es, e.IsQuiet) : Standing y t (ev ++ es) ph where
  fits := hf
  papers := by rw [hp, hc.papers, h.papers]
  guarded := hr.trans h.guarded
  live hb := hd.trans (h.live hb)
  allowed := by rw [hl]; exact h.allowed
  carried := by rw [hl]; exact h.carried
  registered r hs := by rw [hc.routes]; exact h.registered r hs
  counted := h.counted.quiet hl hw hd hq
  recorded := h.recorded.quiet hc hq

theorem advance_effect (h : Standing x s ev ph) (hc : x.Calm y)
    (hp : t.connection.peer = s.connection.peer)
    (hr : t.connection.guard.route = s.connection.guard.route)
    (hd : t.connection.guard.closed = s.connection.guard.closed) (hl : t.calls = s.calls)
    (hf : Fits ph t.connection.admission)
    (hw : t.connection.admission.isClosing = s.connection.admission.isClosing)
    (hq : ∀ e ∈ es, e.IsQuiet) :
    ∃ qh, Standing y t (ev ++ es) qh ∧ Effect x y k ph qh :=
  ⟨ph, h.advance hc hp hr hd hl hf hw hq, effect_of_calm hc rfl rfl rfl⟩

/-- The service goes on with an admission in which no route is bound. -/
theorem pass {a : Admission} (h : Standing x s ev ph) (hpg : ph.guarded? = none)
    (hpc : ph.isCarried = false) (hqg : qh.guarded? = none) (hqc : qh.isCarried = false)
    (hqr : qh.route? = none) (hf : Fits qh a)
    (hp : y.papers s.connection.peer = some qh.papers)
    (hn : Counted { s with connection.admission := a } (ev ++ es))
    (hm : Recorded y (ev ++ es) qh) :
    Standing y { s with connection.admission := a } (ev ++ es) qh where
  fits := hf
  papers := hp
  guarded := h.guarded.trans (hpg.trans hqg.symm)
  live hs := by simp [hqg] at hs
  allowed c hc := (h.allowed c hc).of_idle hpc hqc
  carried hs := by simp [hqc] at hs
  registered r hr := by simp [hqr] at hr
  counted := hn
  recorded := hm

/-- The token of the client is accepted. -/
theorem grant {first : Envelope} {token : String} (h : Standing x s ev .fresh)
    (ha : s.connection.admission = .greeting (.received first))
    (hx : x.authenticate token = (y, .ok g)) :
    Standing y { s with connection.admission := .greeting (.granted first g) }
      (ev ++ [.served, .granted g]) (.granted g) ∧
    Effect x y s.connection.peer .fresh (.granted g) := by
  obtain ⟨rfl, hr, ht⟩ := Exchange.authenticate_ok hx
  constructor
  · refine h.pass rfl rfl rfl rfl rfl (.granted first g) h.papers ?_ ?_
    · exact h.counted.append rfl (by simp [ha, Admission.isClosing]) rfl rfl rfl
    · exact h.recorded.append rfl rfl (fun _ _ _ => rfl) rfl rfl
  · constructor
    case accepted =>
      intro t hn
      have hne : t ≠ g.token := fun he => hn (by simp [Phase.token?, he])
      simp [Router.accept, hne, Phase.token?]
    case grant => exact .inr ⟨g, x.minted, rfl, rfl, Nat.le_refl _, by simp, hr, ht⟩
    case minted => exact Nat.le_add_right _ _
    all_goals intros; rfl

/-- The client's route and token are stored with its peer. -/
theorem store {first : Envelope} (h : Standing x s ev (.granted g))
    (ha : s.connection.admission = .greeting (.granted first g)) :
    let y := x.modifyPeer s.connection.peer fun p =>
      { p with authToken := some g.token, route := some g.route }
    Standing y { s with connection.admission := .greeting (.stored first g) } (ev ++ [.served])
      (.stored g) ∧
    Effect x y s.connection.peer (.granted g) (.stored g) := by
  have hp := Exchange.papers_modifyPeer_self h.papers g.route g.token
  constructor
  · refine h.pass rfl rfl rfl rfl rfl (.stored first g) hp ?_ ?_
    · exact h.counted.append rfl (by simp [ha, Admission.isClosing]) rfl rfl rfl
    · exact h.recorded.append rfl rfl (fun _ _ _ => rfl) rfl rfl
  · constructor
    case papers =>
      intro k hk
      exact Exchange.papers_modifyPeer_of_ne hk
    case accepted =>
      intro t hn
      exact (if_neg hn).symm
    case grant => exact .inl rfl
    case minted => exact Nat.le_refl _
    all_goals intros; rfl

/-- The route is announced: the uplink is handed the news, if one is bound. -/
theorem announce {first : Envelope} (h : Standing x s ev (.stored g))
    (ha : s.connection.admission = .greeting (.stored first g))
    (hg : g.route ≠ uplinkRoute) :
    let y := (x.route (Handshake.announcement g) g.route).1
    Standing y { s with connection.admission := .greeting (.announced first g) }
      (ev ++ .served :: Exchange.routeEvents x.router (Handshake.announcement g) g.route)
      (.announced g) ∧
    Effect x y s.connection.peer (.stored g) (.announced g) := by
  have hc := Exchange.calm_route (x := x) (Handshake.announcement g) g.route
  have hd : (Handshake.announcement g).command ≠ some Command.disposeName := by
    show some Command.routeAnnounceName ≠ some Command.disposeName
    decide
  refine ⟨?_, effect_of_calm hc rfl rfl rfl⟩
  refine h.pass rfl rfl rfl rfl rfl (.announced first g) ((hc.papers _).trans h.papers) ?_ ?_
  · exact h.counted.append rfl (by simp [ha, Admission.isClosing]) rfl
      (closes_handed _) (calls_handed _)
  · refine h.recorded.more (grants_handed _) (bounds_handed _) ?_ rfl rfl rfl hc.closed hc.uplink
    intro b hx hu
    exact notices_routeEvents_control hx hu hg (.inl rfl) hd rfl

/-- The route is bound, and the guard names it. -/
theorem bind (h : Standing x s ev (.announced g)) (ha : s.connection.admission = .admitted g.route)
    (hopen : s.connection.guard.closed = false) :
    let y := x.register g.route s.connection.peer false
    Standing y
      { s with
        connection.admission := .finished
        connection.guard.route := some g.route } (ev ++ [.served, .bound g.route]) (.bound g) ∧
    Effect x y s.connection.peer (.announced g) (.bound g) := by
  obtain ⟨hacc, hup, hcl⟩ :=
    Router.rest_register x.router g.route s.connection.peer false
  have hget := Router.get?_register x.router g.route
  constructor
  · constructor
    case registered =>
      intro r hr
      obtain rfl : g.route = r := by simpa [Phase.route?] using hr
      exact ⟨_, (hget ..).trans (if_pos rfl), rfl⟩
    case allowed =>
      intro c hc
      exact (h.allowed c hc).of_idle rfl rfl
    case counted => exact h.counted.append rfl (by simp [ha, Admission.isClosing]) rfl rfl rfl
    case recorded => exact h.recorded.append rfl rfl (fun _ _ _ => rfl) hcl hup
    case fits => exact .bound g
    case papers => exact h.papers
    case guarded => rfl
    case live => exact fun _ => hopen
    case carried => exact nofun
  · constructor
    case routes =>
      intro r hn
      have hne : r ≠ g.route := fun he => hn (by simp [Phase.route?, he])
      exact (hget ..).trans (if_neg hne)
    case accepted =>
      intro t hn
      exact (congrArg (·.get? t) hacc).trans (if_neg hn).symm
    case uplink => exact hup
    case closed => exact hcl
    case grant => exact .inl rfl
    case minted => exact Nat.le_refl _
    case papers => exact fun _ _ => rfl

/-- What the client was given is taken back. -/
theorem withdraw (h : Standing x s ev (.announced g)) (ha : s.connection.admission = .unbound) :
    let y := s.connection.withdraw x
    Standing y { s with connection.admission := .finished }
      (ev ++ .served :: (s.connection.withdrawHandings x).map .handed) (.withdrawn g) ∧
    Effect x y s.connection.peer (.announced g) (.withdrawn g) := by
  obtain ⟨p, hp, hr, ht⟩ := Exchange.peer?_of_papers h.papers
  have hy : s.connection.withdraw x = x.withdraw g.route (some g.token) := by
    obtain ⟨b, t, r⟩ := p
    simp only [Phase.papers] at hr ht
    subst hr ht
    simp [Connection.withdraw, hp]
  have hh : s.connection.withdrawHandings x
      = Exchange.uplinkHandings x.router (Exchange.unannouncement g.route) := by
    simp [Connection.withdrawHandings, hp, hr, Phase.papers]
  simp only [hy, Exchange.withdraw_eq, hh]
  constructor
  · refine h.pass rfl rfl rfl rfl rfl (.withdrawn g) ?_ ?_ ?_
    · exact (Exchange.papers_handAll _).trans h.papers
    · exact h.counted.append rfl (by simp [ha, Admission.isClosing]) rfl
        (closes_handed _) (calls_handed _)
    · refine h.recorded.more (grants_handed _) (bounds_handed _) ?_ rfl rfl rfl ?_ ?_
      · intro b _ hu
        exact notices_uplinkHandings (m := Exchange.unannouncement g.route) hu (.inr rfl)
      · simp [Exchange.mapRouter, Router.retract, Router.revoke]
      · simp [Exchange.mapRouter, Router.retract, Router.revoke]
  · constructor
    case papers => exact fun _ _ => Exchange.papers_handAll _
    case accepted =>
      intro t _
      by_cases he : g.token = t <;>
        simp [Exchange.mapRouter, Router.retract, Router.revoke, Phase.token?, he, Ne.symm]
    case grant => exact .inl rfl
    case minted => simp [Exchange.mapRouter]
    all_goals simp [Exchange.mapRouter, Router.retract, Router.revoke, Phase.route?]

end Standing

end Switchboard
