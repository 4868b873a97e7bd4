import Switchboard.Proofs.Exchange.Handing

/-! What sending envelopes leaves as it is: the registered routes, the accepted tokens, the uplink,
and what peers were given when they were admitted. -/
namespace Switchboard.Exchange

variable {σ : Type} {x y z : Exchange σ} {k j : Nat} {m : Envelope} {source : String}

/-- Route and token that a peer was given. -/
def papers (x : Exchange σ) (k : Nat) : Option (Option String × Option String) :=
  (x.peer? k).map fun p => (p.route, p.authToken)

theorem endpoint_of_peer? {p : Peer} (h : x.peer? k = some p) :
    x.endpoints[k]? = some (.peer p) := by
  obtain ⟨e, he, hp⟩ := Option.bind_eq_some_iff.1 h
  cases e <;> cases hp
  exact he

/-- `y` differs from `x` in queues, announcements and pumps at most. -/
structure Calm (x y : Exchange σ) : Prop where
  routes : y.router.routes = x.router.routes
  accepted : y.router.accepted = x.router.accepted
  uplink : y.router.uplink = x.router.uplink
  closed : y.router.closed = x.router.closed
  papers : ∀ k, y.papers k = x.papers k
  minted : x.minted ≤ y.minted

theorem Calm.refl (x : Exchange σ) : Calm x x := ⟨rfl, rfl, rfl, rfl, fun _ => rfl, Nat.le_refl _⟩

theorem Calm.trans (h : Calm x y) (g : Calm y z) : Calm x z :=
  ⟨g.routes.trans h.routes, g.accepted.trans h.accepted, g.uplink.trans h.uplink,
    g.closed.trans h.closed, fun k => (g.papers k).trans (h.papers k), h.minted.trans g.minted⟩

/-- `y` differs from `x` in the queues of one endpoint at most. -/
structure Within (k : Nat) (x y : Exchange σ) : Prop where
  router : y.router = x.router
  minted : y.minted = x.minted
  endpoints : ∀ j, j ≠ k → y.endpoints[j]? = x.endpoints[j]?
  papers : y.papers k = x.papers k

theorem Within.refl (x : Exchange σ) : Within k x x := ⟨rfl, rfl, fun _ _ => rfl, rfl⟩

theorem Within.trans (h : Within k x y) (g : Within k y z) : Within k x z :=
  ⟨g.router.trans h.router, g.minted.trans h.minted,
    fun j hj => (g.endpoints j hj).trans (h.endpoints j hj), g.papers.trans h.papers⟩

theorem Within.calm (h : Within k x y) : Calm x y := by
  refine ⟨by rw [h.router], by rw [h.router], by rw [h.router], by rw [h.router], fun j => ?_,
    h.minted.ge⟩
  by_cases hj : j = k
  · rw [hj, h.papers]
  · simp only [Exchange.papers, peer?, h.endpoints j hj]

theorem papers_eq_of_endpoints (h : y.endpoints = x.endpoints) : y.papers k = x.papers k := by
  simp [papers, peer?, h]

theorem papers_modify {f : Endpoint σ → Endpoint σ}
    (h : ∀ e, ((f e).peer?.map fun p => (p.route, p.authToken))
      = e.peer?.map fun p => (p.route, p.authToken)) :
    (x.modify k f).papers j = x.papers j := by
  simp only [papers, peer?, modify, List.getElem?_modify]
  cases x.endpoints[j]? with
  | none => rfl
  | some e =>
    by_cases hj : k = j
    · simpa [hj] using h e
    · simp [hj]

theorem within_modify {f : Endpoint σ → Endpoint σ}
    (h : ∀ e, ((f e).peer?.map fun p => (p.route, p.authToken))
      = e.peer?.map fun p => (p.route, p.authToken)) : Within k x (x.modify k f) := by
  refine ⟨rfl, rfl, fun j hj => ?_, papers_modify h⟩
  simp [modify, Ne.symm hj]

theorem within_modifyPeer {f : Peer → Peer}
    (h : ∀ p, (f p).route = p.route ∧ (f p).authToken = p.authToken) :
    Within k x (x.modifyPeer k f) := by
  apply within_modify
  intro e
  cases e with
  | peer p => simp [Endpoint.peer?, h p]
  | mailbox b => rfl
  | service s => rfl

theorem within_holding (m : Envelope) : Within k x (x.modify k (·.holding m)) := by
  apply within_modify
  intro e
  cases e <;> rfl

theorem within_send : Within k x (x.send k m).1 := by
  rw [send_fst]
  exact within_holding m

theorem within_hear (h : x.hear k = .envelope m y) : Within k x y := by
  unfold hear at h
  split at h
  · cases h
  · split at h <;> cases h
    apply within_modify
    intro e
    cases e <;> rfl

theorem calm_handAll (hs : List Handing) : Calm x (x.handAll hs) := by
  induction hs generalizing x with
  | nil => exact .refl x
  | cons h hs ih => exact (within_holding h.envelope).calm.trans ih

theorem tables_noted (r : Router) (m : Envelope) (source : String) :
    noted r m source = { r with announced := (noted r m source).announced } := by
  unfold noted
  split
  · rfl
  · split
    · exact tables_noteAnnounced ..
    · split
      · exact tables_noteUnannounced ..
      · rfl

theorem calm_noted (m : Envelope) (source : String) :
    Calm x (x.mapRouter (noted · m source)) := by
  have ht := tables_noted x.router m source
  refine ⟨?_, ?_, ?_, ?_, fun _ => papers_eq_of_endpoints rfl, Nat.le_refl _⟩ <;>
    simp only [mapRouter] <;> rw [ht]

theorem calm_route (m : Envelope) (source : String) : Calm x (x.route m source).1 := by
  rw [route_fst]
  exact (calm_noted _ _).trans (calm_handAll _)

theorem calm_setPump (p : Nat) (held : Option Envelope) : Calm x (x.setPump p held) :=
  ⟨rfl, rfl, rfl, rfl, fun _ => papers_eq_of_endpoints rfl, Nat.le_refl _⟩

/-- A pump that takes an envelope changes nothing that calm leaves. -/
theorem calm_fetch {p : Nat} (h : x.fetch p = .held y) : Calm x y := by
  unfold fetch at h
  split at h
  · cases h
  · split at h
    · cases h
    · split at h <;> cases h
      exact (within_hear ‹_›).calm.trans (calm_setPump _ _)

theorem calm_forward (p : Nat) : Calm x (x.forward p).1 := by
  unfold forward
  split
  · exact (calm_setPump _ _).trans (calm_route _ _)
  · exact .refl x

end Switchboard.Exchange
