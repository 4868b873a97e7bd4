import Switchboard.Proofs.Admission.Play
import Switchboard.Proofs.Admission.Sound

/-! What the router has of its connections goes with them: routes and tokens are as before the first
one came, once all are closed. -/
namespace Switchboard

variable {σ : Type} {x y : Exchange σ} {w : Traffic σ} {s : Served} {ev : List Event}
  {ph : Phase} {φ : Nat → Phase} {g : Grant} {k : Nat}

namespace Counted

/-- When one call has returned that closed the connection, none is under way. -/
theorem closed_of_mem (h : Counted s ev) (hc : .closed ∈ ev) :
    s.connection.guard.closed = true ∧ s.calls.countP Closing.isOpen = 0 := by
  have hpos : 0 < ev.countP Event.isClosed := List.countP_pos_iff.2 ⟨_, hc, rfl⟩
  cases hd : s.connection.guard.closed with
  | false => exact absurd (h.none_of_open hd).2.2 (Nat.ne_of_gt hpos)
  | true =>
    have hcl := h.closers
    rw [hd, if_pos rfl, Served.closers] at hcl
    exact ⟨rfl, by omega⟩

end Counted

theorem Served.Returned.countP (h : s.Returned) : s.calls.countP Closing.isOpen = 0 := by
  rw [List.countP_eq_zero]
  intro c hc
  obtain ⟨b, rfl⟩ := h.2 c hc
  simp [Closing.isOpen]

/-- Of a connection that is over, the router has nothing left. -/
theorem Standing.released (h : Standing x s ev ph) (hf : s.connection.admission = .finished)
    (hd : s.connection.guard.closed = true) (ho : s.calls.countP Closing.isOpen = 0) :
    ph.route? = none ∧ ph.token? = none := by
  have hfits := hf ▸ h.fits
  cases hfits with
  | failing hf => cases hf
  | lost g hf => cases hf
  | bound g =>
    have hl := h.live rfl
    simp [hd] at hl
  | closing g => exact absurd ho (h.carried rfl)
  | unregistered g => exact absurd ho (h.carried rfl)
  | disposed g => exact absurd ho (h.carried rfl)
  | _ => exact ⟨rfl, rfl⟩

/-- What connections that come and go leave of the tables of `x`. -/
structure Conserved (x : Exchange σ) (w : Traffic σ) : Prop where
  /-- No two of them are ever registered under one route. -/
  distinct : ∀ i j r, .bound r ∈ w.events i → .bound r ∈ w.events j → i = j
  /-- Once the service has returned, and the call that closed the connection, neither the route is
  registered nor the token accepted. -/
  released : ∀ (k : Nat) (s : Served) (g : Grant), w.served[k]? = some s →
    s.connection.admission = .finished → .closed ∈ w.events k → .granted g ∈ w.events k →
    w.exchange.router.routes.get? g.route = none ∧
      w.exchange.router.accepted.get? g.token = none
  /-- Once all are closed and everything has returned, the tables are as at first. -/
  restored : (∀ s ∈ w.served, s.connection.guard.closed = true ∧ s.Returned) →
    (∀ r, w.exchange.router.routes.get? r = x.router.routes.get? r) ∧
      ∀ t, w.exchange.router.accepted.get? t = x.router.accepted.get? t

namespace Sound

theorem recorded (h : Sound x φ w) (k : Nat) : Recorded w.exchange (w.events k) (φ k) := by
  cases hk : w.served[k]? with
  | some s => exact (h.standing k s hk).recorded
  | none =>
    obtain ⟨hf, he⟩ := h.beyond k (List.getElem?_eq_none_iff.1 hk)
    rw [hf, he]
    exact ⟨rfl, rfl, fun _ _ _ => rfl⟩

theorem eq_of_bound {i j : Nat} {r : String} (h : Sound x φ w) (hi : .bound r ∈ w.events i)
    (hj : .bound r ∈ w.events j) : i = j := by
  obtain ⟨g, hg, hgr⟩ := Phase.grant_of_bound? ((h.recorded i).bound_mem_iff.1 hi)
  obtain ⟨g', hg', hgr'⟩ := Phase.grant_of_bound? ((h.recorded j).bound_mem_iff.1 hj)
  by_contra hij
  exact (h.distinct i j g g' hg hg' hij).1 (hgr.trans hgr'.symm)

/-- A route that no other connection can have is as at first when this one has it no more. -/
theorem get?_of_released (h : Sound x φ w) (hx : Traffic.Fresh x) (hg : (φ k).grant? = some g)
    (hr : (φ k).route? = none) (ht : (φ k).token? = none) :
    w.exchange.router.routes.get? g.route = none ∧
      w.exchange.router.accepted.get? g.token = none := by
  obtain ⟨n, hlo, -, hn⟩ := h.numbered k g hg
  rw [h.routes hx, h.accepted hx, hn.route, hn.token]
  · exact ⟨(hx n hlo).1, (hx (n + 1) (by omega)).2⟩
  · intro j hj
    by_cases hjk : j = k
    · subst j
      simp [ht] at hj
    · obtain ⟨g', hg', he⟩ := Phase.grant_of_token? hj
      exact (h.distinct j k g' g hg' hg hjk).2 he
  · intro j hj
    by_cases hjk : j = k
    · subst j
      simp [hr] at hj
    · obtain ⟨g', hg', he⟩ := Phase.grant_of_route? hj
      exact (h.distinct j k g' g hg' hg hjk).1 he

/-- When all is over, no phase holds anything. -/
theorem idle_of_returned (h : Sound x φ w)
    (hall : ∀ s ∈ w.served, s.connection.guard.closed = true ∧ s.Returned) (k : Nat) :
    (φ k).route? = none ∧ (φ k).token? = none := by
  cases hk : w.served[k]? with
  | some s =>
    obtain ⟨hd, hret⟩ := hall s (List.mem_of_getElem? hk)
    exact (h.standing k s hk).released hret.1 hd hret.countP
  | none =>
    rw [(h.beyond k (List.getElem?_eq_none_iff.1 hk)).1]
    exact ⟨rfl, rfl⟩

end Sound

/-- Admission and teardown conserve the tables, in whatever order the parties make their steps. -/
theorem tables_conserved (hx : Traffic.Fresh x) (h : Traffic.Reachable x w) : Conserved x w := by
  obtain ⟨φ, hs⟩ := sound_of_reachable h
  constructor
  case distinct =>
    intro i j r hi hj
    exact hs.eq_of_bound hi hj
  case released =>
    intro k s g hk hf hc hg
    have hst := hs.standing k s hk
    have hgr := hst.recorded.granted_mem_iff.1 hg
    obtain ⟨hd, ho⟩ := hst.counted.closed_of_mem hc
    obtain ⟨hr, ht⟩ := hst.released hf hd ho
    exact hs.get?_of_released hx hgr hr ht
  case restored =>
    intro hall
    have hidle := hs.idle_of_returned hall
    constructor
    · intro r
      apply hs.routes hx r
      intro k
      simp [(hidle k).1]
    · intro t
      apply hs.accepted hx t
      intro k
      simp [(hidle k).2]

/-- A router that accepts one token and has an uplink. -/
def hall : Exchange Unit where
  router := {
    accepted := ({} : Registry String Identity).insert "t" {}
    uplink := some { endpoint := 0, pump := 0 } }
  endpoints := [.mailbox { complaint := "gone" }]

/-- The frame in which a client presents the token. -/
def knock : Bytes :=
  [0, 0, 0, 37, 131, 167, 99, 111, 109, 109, 97, 110, 100, 172, 97, 117, 116, 104, 101, 110, 116,
    105, 99, 97, 116, 101, 165, 114, 101, 113, 105, 100, 161, 49, 164, 100, 97, 116, 97, 161, 116]

/-- A client comes, is admitted, and goes again. -/
def visit? : Option (List Event × Exchange Unit × Served) :=
  (Served.new 1 (.ofSeconds 5) 100).play? hall.meet
    [.arrive (.data knock), .read, .read, .service, .service, .service, .service, .service,
      .service, .service, .close, .call 0, .call 0, .call 0, .call 0]

theorem visit?_isSome : visit?.isSome := by decide +kernel

/-- All that came of the visit. -/
def visited : Traffic Unit where
  exchange := (visit?.get visit?_isSome).2.1
  served := [(visit?.get visit?_isSome).2.2]
  log := (visit?.get visit?_isSome).1.map (some 0, ·)

theorem visited_reachable : Traffic.Reachable hall visited := by
  have hw : Traffic.Reachable hall
      { exchange := hall.meet, served := [.new 1 (.ofSeconds 5) 100] } :=
    Traffic.Reachable.start.step (.connect (.ofSeconds 5) 100)
  exact hw.run (k := 0) rfl (Served.run_of_play? (Option.some_get visit?_isSome).symm)

theorem hall_fresh : Traffic.Fresh hall := by
  intro n _
  have hne : Id.ofNat n ≠ "t" := by
    intro h
    have hl := congrArg String.toList h
    simp [Id.ofNat, Id.stem] at hl
  exact ⟨rfl, by simp [hall, hne]; rfl⟩

theorem visited_conserved : Traffic.Fresh hall ∧ Traffic.Reachable hall visited ∧
    Conserved hall visited :=
  ⟨hall_fresh, visited_reachable, tables_conserved hall_fresh visited_reachable⟩

end Switchboard
