import Switchboard.Proofs.Admission.Preservation

/-! Connections of one router do not get in each other's way: each is in a phase of its own,
whatever the parties to the others do, and the tables are as at first but for what the phases
say. -/
namespace Switchboard

variable {σ : Type} {x y z : Exchange σ} {w v : Traffic σ} {s t : Served} {ev es : List Event}
  {ph qh : Phase} {φ : Nat → Phase} {g g' : Grant} {i j k : Nat}

/-- Changes that leave what a connection was given leave it in its phase. -/
theorem Standing.frame (h : Standing x s ev ph)
    (hp : y.papers s.connection.peer = x.papers s.connection.peer)
    (hr : ∀ r, ph.route? = some r → y.router.routes.get? r = x.router.routes.get? r)
    (hu : y.router.uplink = x.router.uplink) (hc : y.router.closed = x.router.closed) :
    Standing y s ev ph where
  fits := h.fits
  papers := hp.trans h.papers
  guarded := h.guarded
  live := h.live
  allowed := h.allowed
  carried := h.carried
  registered r hs := by
    rw [hr r hs]
    exact h.registered r hs
  counted := h.counted
  recorded := ⟨h.recorded.grants, h.recorded.bounds,
    fun b hx hy => h.recorded.notices b (hc ▸ hx) (hu ▸ hy)⟩

theorem getElem?_concat {α : Type} {l : List α} {a b : α} (h : (l ++ [a])[k]? = some b) :
    l[k]? = some b ∨ k = l.length ∧ b = a := by
  rcases Nat.lt_trichotomy k l.length with hlt | rfl | hgt
  · exact .inl ((List.getElem?_append_left hlt).symm.trans h)
  · exact .inr ⟨rfl, by simpa [eq_comm] using h⟩
  · rw [List.getElem?_eq_none (by simpa using hgt)] at h
    cases h

theorem Exchange.papers_meet_of_lt (h : k < x.endpoints.length) :
    x.meet.papers k = x.papers k := by
  simp [papers, peer?, meet, List.getElem?_append_left h]

/-- `φ` gives the phase of each connection, in what has come of the exchange `x`. -/
structure Sound (x : Exchange σ) (φ : Nat → Phase) (w : Traffic σ) : Prop where
  standing : ∀ k s, w.served[k]? = some s → Standing w.exchange s (w.events k) (φ k)
  beyond : ∀ k, w.served.length ≤ k → φ k = .fresh ∧ w.events k = []
  peers : ∀ (j k : Nat) (s t : Served), w.served[j]? = some s → w.served[k]? = some t →
    s.connection.peer = t.connection.peer → j = k
  numbered : ∀ k g, (φ k).grant? = some g →
    ∃ n, x.minted ≤ n ∧ n + 1 < w.exchange.minted ∧ g.Numbered n
  distinct : ∀ j k g g', (φ j).grant? = some g → (φ k).grant? = some g' → j ≠ k →
    g.route ≠ g'.route ∧ g.token ≠ g'.token
  minted : x.minted ≤ w.exchange.minted
  uplink : w.exchange.router.uplink = x.router.uplink
  closed : w.exchange.router.closed = x.router.closed
  routes : Traffic.Fresh x → ∀ r, (∀ k, (φ k).route? ≠ some r) →
    w.exchange.router.routes.get? r = x.router.routes.get? r
  accepted : Traffic.Fresh x → ∀ t, (∀ k, (φ k).token? ≠ some t) →
    w.exchange.router.accepted.get? t = x.router.accepted.get? t

namespace Phase

/-- A route that is registered or named by a guard, or was once bound, is that of the grant. -/
theorem grant_of_route? {r : String} (h : ph.route? = some r) :
    ∃ g, ph.grant? = some g ∧ g.route = r := by
  cases ph <;> simp_all [route?, grant?]

theorem grant_of_guarded? {r : String} (h : ph.guarded? = some r) :
    ∃ g, ph.grant? = some g ∧ g.route = r := by
  cases ph <;> simp_all [guarded?, grant?]

theorem grant_of_bound? {r : String} (h : ph.bound? = some r) :
    ∃ g, ph.grant? = some g ∧ g.route = r := by
  cases ph <;> simp_all [bound?, grant?]

theorem grant_of_token? {t : String} (h : ph.token? = some t) :
    ∃ g, ph.grant? = some g ∧ g.token = t := by
  cases ph <;> simp_all [token?, grant?]

end Phase

namespace Sound

theorem start (x : Exchange σ) : Sound x (fun _ => .fresh) { exchange := x } where
  standing := by simp
  beyond _ _ := ⟨rfl, rfl⟩
  peers := by simp
  numbered := by simp [Phase.grant?]
  distinct := by simp [Phase.grant?]
  minted := Nat.le_refl _
  uplink := rfl
  closed := rfl
  routes _ _ _ := rfl
  accepted _ _ _ := rfl

theorem route_ne_uplinkRoute (h : Sound x φ w) (hg : (φ k).grant? = some g) :
    g.route ≠ uplinkRoute := by
  obtain ⟨n, -, -, hn⟩ := h.numbered k g hg
  exact hn.route_ne_uplinkRoute

/-- Nothing of a connection is touched by what is calm. -/
theorem calm (h : Sound x φ w) (hc : w.exchange.Calm v.exchange) (hs : v.served = w.served)
    (he : ∀ k, v.events k = w.events k) : Sound x φ v where
  standing k s hk := by
    rw [he]
    exact (h.standing k s (hs ▸ hk)).frame (hc.papers _) (fun _ _ => by rw [hc.routes])
      hc.uplink hc.closed
  beyond k hk := by
    rw [he]
    exact h.beyond k (hs ▸ hk)
  peers := by
    rw [hs]
    exact h.peers
  numbered k g hg := by
    obtain ⟨n, hlo, hhi, hn⟩ := h.numbered k g hg
    exact ⟨n, hlo, hhi.trans_le hc.minted, hn⟩
  distinct := h.distinct
  minted := h.minted.trans hc.minted
  uplink := hc.uplink.trans h.uplink
  closed := hc.closed.trans h.closed
  routes hf r hr := by rw [hc.routes, h.routes hf r hr]
  accepted hf t ht := by rw [hc.accepted, h.accepted hf t ht]


theorem peer_lt (h : Sound x φ w) (hk : w.served[k]? = some s) :
    s.connection.peer < w.exchange.endpoints.length := by
  obtain ⟨p, hp, -⟩ := Exchange.peer?_of_papers (h.standing k s hk).papers
  obtain ⟨e, he, -⟩ := Option.bind_eq_some_iff.1 hp
  exact (List.getElem?_eq_some_iff.1 he).1

/-- A connection more changes nothing for the others. -/
theorem connect (h : Sound x φ w) (grace : Duration) (maxFrame : Nat) :
    Sound x φ { w with
      exchange := w.exchange.meet
      served := w.served ++ [.new w.exchange.endpoints.length grace maxFrame] } := by
  constructor
  case standing =>
    intro k s hk
    rcases getElem?_concat hk with hk | ⟨rfl, rfl⟩
    · exact (h.standing k s hk).frame (Exchange.papers_meet_of_lt (h.peer_lt hk))
        (fun _ _ => rfl) rfl rfl
    · obtain ⟨hf, he⟩ := h.beyond w.served.length (Nat.le_refl _)
      rw [hf]
      exact he ▸ .new w.exchange grace maxFrame
  case beyond =>
    intro k hk
    exact h.beyond k (by simp at hk; omega)
  case peers =>
    intro j k s t hj hk hp
    rcases getElem?_concat hj with hj | ⟨rfl, rfl⟩
    · rcases getElem?_concat hk with hk | ⟨rfl, rfl⟩
      · exact h.peers j k s t hj hk hp
      · exact absurd (h.peer_lt hj) (hp ▸ Nat.lt_irrefl _)
    · rcases getElem?_concat hk with hk | ⟨rfl, rfl⟩
      · exact absurd (h.peer_lt hk) (hp ▸ Nat.lt_irrefl _)
      · rfl
  case numbered => exact h.numbered
  case distinct => exact h.distinct
  case minted => exact h.minted
  case uplink => exact h.uplink
  case closed => exact h.closed
  case routes => exact h.routes
  case accepted => exact h.accepted

/-- The grant of a connection that has made a step is nobody else's. -/
theorem grant_of_effect (h : Sound x φ w) (he : Effect w.exchange y k (φ i) qh)
    (hg : qh.grant? = some g) :
    (∃ n, x.minted ≤ n ∧ n + 1 < y.minted ∧ g.Numbered n) ∧
      ∀ j g', j ≠ i → (φ j).grant? = some g' → g.route ≠ g'.route ∧ g.token ≠ g'.token := by
  rcases he.grant with hsame | ⟨g₁, n, -, rfl, hlo, hhi, hn⟩
  · rw [hsame] at hg
    obtain ⟨n, hlo, hhi, hn⟩ := h.numbered i g hg
    refine ⟨⟨n, hlo, hhi.trans_le he.minted, hn⟩, ?_⟩
    intro j g' hj hg'
    exact h.distinct i j g g' hg hg' hj.symm
  · obtain rfl : g₁ = g := by simpa [Phase.grant?] using hg
    refine ⟨⟨n, h.minted.trans hlo, hhi, hn⟩, ?_⟩
    intro j g' hj hg'
    obtain ⟨m, -, hm, hm'⟩ := h.numbered j g' hg'
    exact hn.ne hm' (by omega)

/-- The parties to one connection do nothing to the others. -/
theorem others (h : Sound x φ w) (hi : w.served[i]? = some s)
    (he : Effect w.exchange y s.connection.peer (φ i) qh) (hj : j ≠ i)
    (ht : w.served[j]? = some t) : Standing y t (w.events j) (φ j) := by
  have hp : t.connection.peer ≠ s.connection.peer := by
    intro hp
    exact hj (h.peers j i t s ht hi hp)
  refine (h.standing j t ht).frame (he.papers _ hp) ?_ he.uplink he.closed
  intro r hr
  obtain ⟨g', hg', rfl⟩ := Phase.grant_of_route? hr
  rw [he.routes, if_neg]
  · intro hph
    obtain ⟨g, hg, hgr⟩ := Phase.grant_of_route? hph
    exact (h.distinct i j g g' hg hg' hj.symm).1 hgr
  · intro hqh
    obtain ⟨g, hg, hgr⟩ := Phase.grant_of_route? hqh
    exact ((h.grant_of_effect he hg).2 j g' hj hg').1 hgr

/-- What is registered is still as at first but for what the phases say. -/
theorem routes_of_effect (h : Sound x φ w) (he : Effect w.exchange y k (φ i) qh)
    (hx : Traffic.Fresh x) {r : String} (hr : ∀ k, (Function.update φ i qh k).route? ≠ some r) :
    y.router.routes.get? r = x.router.routes.get? r := by
  have hq : qh.route? ≠ some r := by simpa using hr i
  rw [he.routes r hq]
  split
  · obtain ⟨g, hg, rfl⟩ := Phase.grant_of_route? ‹_›
    obtain ⟨n, hlo, -, hn⟩ := h.numbered i g hg
    rw [hn.route]
    exact (hx n hlo).1.symm
  · apply h.routes hx r
    intro k
    by_cases hk : k = i
    · subst k
      assumption
    · simpa [hk] using hr k

theorem accepted_of_effect (h : Sound x φ w) (he : Effect w.exchange y k (φ i) qh)
    (hx : Traffic.Fresh x) {t : String} (ht : ∀ k, (Function.update φ i qh k).token? ≠ some t) :
    y.router.accepted.get? t = x.router.accepted.get? t := by
  have hq : qh.token? ≠ some t := by simpa using ht i
  rw [he.accepted t hq]
  split
  · obtain ⟨g, hg, rfl⟩ := Phase.grant_of_token? ‹_›
    obtain ⟨n, hlo, -, hn⟩ := h.numbered i g hg
    rw [hn.token]
    exact (hx (n + 1) (by omega)).2.symm
  · apply h.accepted hx t
    intro k
    by_cases hk : k = i
    · subst k
      assumption
    · simpa [hk] using ht k

/-- A step of a party to a connection leaves all connections in phases of their own. -/
theorem party (h : Sound x φ w) (hi : w.served[i]? = some s) (hs : s.Step w.exchange es y t) :
    ∃ ψ, Sound x ψ
      { exchange := y
        served := w.served.set i t
        log := w.log ++ es.map (some i, ·) } := by
  obtain ⟨⟨qh, hst, he⟩, hp⟩ := standing_step (h.standing i s hi)
    (fun g hg => h.route_ne_uplinkRoute hg) hs
  have hlt := (List.getElem?_eq_some_iff.1 hi).1
  have hpeer : ∀ (j : Nat) (u : Served), (w.served.set i t)[j]? = some u →
      ∃ u', w.served[j]? = some u' ∧ u'.connection.peer = u.connection.peer := by
    intro j u hj
    by_cases hji : i = j
    · subst j
      obtain rfl : t = u := by simpa [List.getElem?_set_self hlt] using hj
      exact ⟨s, hi, hp.symm⟩
    · exact ⟨u, (List.getElem?_set_ne hji).symm.trans hj, rfl⟩
  refine ⟨Function.update φ i qh, ?_⟩
  constructor
  case standing =>
    intro k u hk
    rw [Traffic.events_append]
    by_cases hki : i = k
    · subst k
      obtain rfl : t = u := by simpa [List.getElem?_set_self hlt] using hk
      simpa using hst
    · rw [Function.update_of_ne (Ne.symm hki), if_neg hki]
      exact h.others hi he (Ne.symm hki) ((List.getElem?_set_ne hki).symm.trans hk)
  case beyond =>
    intro k hk
    simp only [List.length_set] at hk
    rw [Traffic.events_append, Function.update_of_ne (by omega), if_neg (by omega)]
    exact h.beyond k hk
  case peers =>
    intro j k u v hj hk huv
    obtain ⟨u', hj, hu⟩ := hpeer j u hj
    obtain ⟨v', hk, hv⟩ := hpeer k v hk
    exact h.peers j k u' v' hj hk (by rw [hu, hv, huv])
  case numbered =>
    intro k g hg
    by_cases hki : k = i
    · subst k
      exact (h.grant_of_effect he (by simpa using hg)).1
    · rw [Function.update_of_ne hki] at hg
      obtain ⟨n, hlo, hhi, hn⟩ := h.numbered k g hg
      exact ⟨n, hlo, hhi.trans_le he.minted, hn⟩
  case distinct =>
    intro j k g g' hg hg' hjk
    by_cases hji : j = i
    · subst j
      rw [Function.update_of_ne (Ne.symm hjk)] at hg'
      exact (h.grant_of_effect he (by simpa using hg)).2 k g' (Ne.symm hjk) hg'
    · rw [Function.update_of_ne hji] at hg
      by_cases hki : k = i
      · subst k
        obtain ⟨hr, ht⟩ := (h.grant_of_effect he (by simpa using hg')).2 j g hji hg
        exact ⟨Ne.symm hr, Ne.symm ht⟩
      · rw [Function.update_of_ne hki] at hg'
        exact h.distinct j k g g' hg hg' hjk
  case minted => exact h.minted.trans he.minted
  case uplink => exact he.uplink.trans h.uplink
  case closed => exact he.closed.trans h.closed
  case routes =>
    intro hx r hr
    exact h.routes_of_effect he hx hr
  case accepted =>
    intro hx t ht
    exact h.accepted_of_effect he hx ht

end Sound

/-- Each step of anybody leaves every connection in a phase. -/
theorem sound_step (h : Sound x φ w) (hs : w.Step v) : ∃ ψ, Sound x ψ v := by
  cases hs with
  | connect grace maxFrame => exact ⟨φ, h.connect grace maxFrame⟩
  | party hk hs => exact h.party hk hs
  | sent m source =>
    exact ⟨φ, h.calm (Exchange.calm_route m source) rfl fun k => Traffic.events_handed _ k w _⟩
  | fetch hf => exact ⟨φ, h.calm (Exchange.calm_fetch hf) rfl fun _ => rfl⟩
  | forward p =>
    exact ⟨φ, h.calm (Exchange.calm_forward p) rfl fun k => Traffic.events_handed _ k w _⟩
  | aside ha => exact ⟨φ, h.calm ha.calm rfl fun _ => rfl⟩

theorem sound_of_reachable (h : Traffic.Reachable x w) : ∃ φ, Sound x φ w := by
  induction h with
  | start => exact ⟨_, .start x⟩
  | step _ hs ih =>
    obtain ⟨φ, hφ⟩ := ih
    exact sound_step hφ hs

end Switchboard
