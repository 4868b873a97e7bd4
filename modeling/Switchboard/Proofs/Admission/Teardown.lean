import Switchboard.Proofs.Admission.Standing

/-! The calls that close a connection, those of others and that of the service itself: one of them
finds it open, and takes back what the router still has of its grant. -/
namespace Switchboard

variable {σ : Type} {x y : Exchange σ} {s t : Served} {c d : Closing} {ev es : List Event}
  {ph : Phase} {k : Nat} {g : Grant}

open Event

/-- A call that has returned cares for no phase. -/
theorem Phase.Allows.of_returned (h : c.isOpen = false) : ph.Allows c := by
  cases c with
  | finished b => trivial
  | _ => cases h

theorem Counted.of_closed (hd : t.connection.guard.closed = true) (hc : t.closers es = 1) :
    Counted t es := ⟨by rw [hc, if_pos hd], fun _ => hd⟩

namespace Counted

/-- As long as a connection is open, nobody has closed it. -/
theorem none_of_open (h : Counted s ev) (hd : s.connection.guard.closed = false) :
    s.calls.countP Closing.isOpen = 0 ∧ s.connection.admission.isClosing = false ∧
      ev.countP isClosed = 0 := by
  have hc := h.closers
  unfold Served.closers at hc
  cases hw : s.connection.admission.isClosing with
  | false =>
    simp only [hd, hw, Bool.false_eq_true, if_false] at hc
    exact ⟨by omega, rfl, by omega⟩
  | true =>
    simp only [hd, hw, Bool.false_eq_true, if_false, if_true] at hc
    omega

/-- A call of another that is under way is the only one that has closed the connection. -/
theorem only_call (h : Counted s ev) (hk : s.calls[k]? = some c) (ho : c.isOpen = true) :
    s.calls.countP Closing.isOpen = 1 ∧ s.connection.admission.isClosing = false ∧
      ev.countP isClosed = 0 ∧ s.connection.guard.closed = true := by
  have hpos : 0 < s.calls.countP Closing.isOpen :=
    List.countP_pos_iff.2 ⟨c, List.mem_of_getElem? hk, ho⟩
  cases hd : s.connection.guard.closed with
  | false => exact absurd (h.none_of_open hd).1 (Nat.ne_of_gt hpos)
  | true =>
    have hc := h.closers
    unfold Served.closers at hc
    rw [hd, if_pos rfl] at hc
    cases hw : s.connection.admission.isClosing with
    | false =>
      simp only [hw, Bool.false_eq_true, if_false] at hc
      exact ⟨by omega, rfl, by omega, rfl⟩
    | true =>
      simp only [hw, if_true] at hc
      omega

/-- The close call of the service is the only one when it is under way. -/
theorem only_service (h : Counted s ev) (hw : s.connection.admission.isClosing = true) :
    s.calls.countP Closing.isOpen = 0 ∧ ev.countP isClosed = 0 ∧
      s.connection.guard.closed = true := by
  cases hd : s.connection.guard.closed with
  | false => simp [(h.none_of_open hd).2.1] at hw
  | true =>
    have hc := h.closers
    unfold Served.closers at hc
    simp only [hd, hw, if_true] at hc
    exact ⟨by omega, by omega, rfl⟩

theorem countP_set (h : Counted s ev) (hk : s.calls[k]? = some c) (ho : c.isOpen = true) :
    (s.calls.set k d).countP Closing.isOpen = if d.isOpen then 1 else 0 := by
  obtain ⟨hlt, rfl⟩ := List.getElem?_eq_some_iff.1 hk
  simp [List.countP_set hlt, (h.only_call hk ho).1, ho]

/-- All calls but the one that goes on have returned. -/
theorem eq_or_returned {e : Closing} (h : Counted s ev) (hk : s.calls[k]? = some c)
    (ho : c.isOpen = true) (hm : e ∈ s.calls.set k d) : e = d ∨ e.isOpen = false := by
  have hnone : (s.calls.set k (.finished true)).countP Closing.isOpen = 0 := h.countP_set hk ho
  obtain ⟨j, hj⟩ := List.mem_iff_getElem?.1 hm
  by_cases hjk : k = j
  · subst j
    rw [List.getElem?_set_self (List.getElem?_eq_some_iff.1 hk).1] at hj
    exact .inl (Option.some.inj hj).symm
  · rw [List.getElem?_set_ne hjk] at hj
    have hm' : e ∈ s.calls.set k (.finished true) :=
      List.mem_of_getElem? ((List.getElem?_set_ne hjk).trans hj)
    exact .inr (Bool.eq_false_iff.2 (List.countP_eq_zero.1 hnone e hm'))

end Counted

/-- No grant that a call has to do with is left while the service still runs. -/
theorem Fits.finished {a : Admission} (h : Fits ph a) (hc : ph.isCarried = true) :
    a = .finished := by
  cases h with
  | closing g | unregistered g | disposed g => rfl
  | _ => cases hc

theorem Fits.failing_again {a b : Admission} (h : Fits ph a) (ha : Failing a) (hb : Failing b) :
    Fits ph b := by
  cases h with
  | failing _ => exact .failing hb
  | lost g _ => exact .lost g hb
  | _ => cases ha

/-- While the service sees to a failure, no route is bound. -/
theorem Fits.unbound_of_failing {a : Admission} (h : Fits ph a) (ha : Failing a) :
    ph.guarded? = none ∧ ph.isCarried = false := by
  cases h with
  | failing _ => exact ⟨rfl, rfl⟩
  | lost g _ => exact ⟨rfl, rfl⟩
  | _ => cases ha

namespace Standing

/-- A step that leaves the phase as it is. -/
theorem keep (h : Standing x s ev ph) (hc : x.Calm y)
    (hp : t.connection.peer = s.connection.peer) (hr : t.connection.guard.route = ph.guarded?)
    (hd : ph.guarded?.isSome → t.connection.guard.closed = false)
    (hl : ∀ c ∈ t.calls, ph.Allows c)
    (ho : ph.isCarried → t.calls.countP Closing.isOpen ≠ 0)
    (hf : Fits ph t.connection.admission) (hn : Counted t (ev ++ es))
    (hm : Recorded y (ev ++ es) ph) :
    Standing y t (ev ++ es) ph ∧ Effect x y k ph ph :=
  ⟨⟨hf, by rw [hp, hc.papers, h.papers], hr, hd, hl, ho,
    fun r hs => by rw [hc.routes]; exact h.registered r hs, hn, hm⟩, effect_of_calm hc rfl rfl rfl⟩

/-- A call to close that finds the connection closed returns at once. -/
theorem close_late (h : Standing x s ev ph) (hd : s.connection.guard.closed = true) :
    Standing x { s with calls := s.calls ++ [.finished false] } (ev ++ [.called]) ph ∧
      Effect x x k ph ph := by
  have hall : ∀ c ∈ s.calls ++ [Closing.finished false], ph.Allows c := by
    intro c hc
    rcases List.mem_append.1 hc with hs | hs
    · exact h.allowed c hs
    · obtain rfl := List.mem_singleton.1 hs
      trivial
  have hcar : ph.isCarried → (s.calls ++ [Closing.finished false]).countP Closing.isOpen ≠ 0 := by
    simpa [Closing.isOpen] using h.carried
  refine h.keep (.refl x) rfl h.guarded h.live hall hcar h.fits (.of_closed hd ?_)
    (h.recorded.silent (.refl x) rfl rfl fun _ => rfl)
  have hcl := h.counted.closers
  rw [if_pos hd] at hcl
  simpa [Served.closers, Closing.isOpen, isClosed] using hcl

theorem idle_of_open (h : Standing x s ev ph) (hd : s.connection.guard.closed = false) :
    ph.isCarried = false :=
  Bool.eq_false_iff.2 fun hc => h.carried hc (h.counted.none_of_open hd).1

/-- The first call to close a connection whose route is not bound. -/
theorem close_unbound (h : Standing x s ev ph) (hd : s.connection.guard.closed = false)
    (hg : ph.guarded? = none) :
    Standing x
      { connection := { s.connection with
          guard := { s.connection.guard with closed := true, route := none } }
        calls := s.calls ++ [.marked none] } (ev ++ [.called]) ph ∧
      Effect x x k ph ph := by
  obtain ⟨hnone, hw, hcl⟩ := h.counted.none_of_open hd
  have hall : ∀ c ∈ s.calls ++ [Closing.marked none], ph.Allows c := by
    intro c hc
    rcases List.mem_append.1 hc with hs | hs
    · exact h.allowed c hs
    · obtain rfl := List.mem_singleton.1 hs
      exact h.idle_of_open hd
  refine h.keep (.refl x) rfl hg.symm (by simp [hg]) hall (by simp [Closing.isOpen]) h.fits
    (.of_closed rfl ?_) (h.recorded.silent (.refl x) rfl rfl fun _ => rfl)
  simp [Served.closers, hnone, hw, hcl, Closing.isOpen, isClosed]

/-- The first call to close a connection whose route is bound has the route from there on. -/
theorem close_bound (h : Standing x s ev (.bound g)) (hd : s.connection.guard.closed = false) :
    Standing x
      { connection := { s.connection with
          guard := { s.connection.guard with closed := true, route := none } }
        calls := s.calls ++ [.marked (some g.route)] } (ev ++ [.called]) (.closing g) ∧
      Effect x x k (.bound g) (.closing g) := by
  obtain ⟨hnone, hw, hcl⟩ := h.counted.none_of_open hd
  have ha : s.connection.admission = .finished := by
    have hf := h.fits
    generalize s.connection.admission = a at hf
    cases hf
    rfl
  refine ⟨?_, effect_of_calm (.refl x) rfl rfl rfl⟩
  constructor
  case fits => exact ha ▸ .closing g
  case allowed =>
    intro c hc
    rcases List.mem_append.1 hc with hs | hs
    · exact .of_returned (Bool.eq_false_iff.2 (List.countP_eq_zero.1 hnone c hs))
    · obtain rfl := List.mem_singleton.1 hs
      exact ⟨g, rfl, rfl⟩
  case counted =>
    refine .of_closed rfl ?_
    simp [Served.closers, hnone, hw, hcl, Closing.isOpen, isClosed]
  case recorded => exact h.recorded.append rfl rfl (fun _ _ _ => rfl) rfl rfl
  case papers => exact h.papers
  case guarded => rfl
  case live => rintro ⟨⟩
  case carried => simp [Closing.isOpen]
  case registered => exact h.registered

/-- A call to close begins. -/
theorem close {gd : Guard} (h : Standing x s ev ph)
    (hb : s.connection.guard.beginClose = (gd, c)) :
    ∃ qh, Standing x
        { connection := { s.connection with guard := gd }, calls := s.calls ++ [c] }
        (ev ++ [.called]) qh ∧
      Effect x x k ph qh := by
  cases hd : s.connection.guard.closed with
  | true =>
    rw [Guard.beginClose, if_pos hd] at hb
    cases hb
    exact ⟨ph, h.close_late hd⟩
  | false =>
    rw [Guard.beginClose, if_neg (by simp [hd])] at hb
    cases hb
    cases hg : ph.guarded? with
    | none =>
      rw [h.guarded, hg]
      exact ⟨ph, h.close_unbound hd hg⟩
    | some r =>
      cases ph with
      | bound g =>
        rw [h.guarded]
        exact ⟨.closing g, h.close_bound hd⟩
      | _ => cases hg

/-- The service closes the connection of a peer that is not admitted. -/
theorem refuse {gd : Guard} (h : Standing x s ev ph) (ha : s.connection.admission = .refused)
    (hb : s.connection.guard.beginClose = (gd, c)) :
    Standing x
        { s with connection := { s.connection with guard := gd, admission := .closing c } }
        (ev ++ [.served, .called]) ph ∧
      Effect x x k ph ph := by
  have hf : Fits ph .refused := ha ▸ h.fits
  obtain ⟨hg, hi⟩ := hf.unbound_of_failing .refused
  cases hd : s.connection.guard.closed with
  | true =>
    rw [Guard.beginClose, if_pos hd] at hb
    cases hb
    refine h.keep (.refl x) rfl h.guarded h.live h.allowed h.carried
      (hf.failing_again .refused (.closed false)) (.of_closed hd ?_)
      (h.recorded.silent (.refl x) rfl rfl fun _ => rfl)
    have := h.counted.closers
    simpa [Served.closers, hd, ha, Admission.isClosing, Closing.isOpen, isClosed] using this
  | false =>
    rw [Guard.beginClose, if_neg (by simp [hd]), h.guarded, hg] at hb
    cases hb
    obtain ⟨hnone, -, hcl⟩ := h.counted.none_of_open hd
    refine h.keep (.refl x) rfl hg.symm (by simp [hg]) h.allowed h.carried
      (hf.failing_again .refused .marked) (.of_closed rfl ?_)
      (h.recorded.silent (.refl x) rfl rfl fun _ => rfl)
    simp [Served.closers, hnone, hcl, Admission.isClosing, Closing.isOpen, isClosed]

/-- The close call of the service returns. -/
theorem service_closed (h : Standing x s ev ph)
    (ha : s.connection.admission = .closing (.cancelled none)) :
    Standing x { s with connection.admission := .closing (.finished true) }
        (ev ++ [.served, .closed]) ph ∧
      Effect x x k ph ph := by
  have hf : Fits ph (.closing (.cancelled none)) := ha ▸ h.fits
  obtain ⟨hnone, hcl, hd⟩ := h.counted.only_service (by rw [ha]; rfl)
  refine h.keep (.refl x) rfl h.guarded h.live h.allowed h.carried
    (hf.failing_again .cancelled (.closed true)) (.of_closed hd ?_)
    (h.recorded.silent (.refl x) rfl rfl fun _ => rfl)
  simp [Served.closers, hnone, hcl, Admission.isClosing, Closing.isOpen, isClosed]

/-- A call under way goes on to `d`, and all others have returned. -/
theorem allowed_set (h : Standing x s ev ph) (hk : s.calls[k]? = some c) (ho : c.isOpen = true)
    {qh : Phase} (hd : qh.Allows d) : ∀ e ∈ s.calls.set k d, qh.Allows e := by
  intro e he
  rcases h.counted.eq_or_returned hk ho he with rfl | hr
  · exact hd
  · exact .of_returned hr

theorem counted_set {p : Connection} (h : Standing x s ev ph) (hk : s.calls[k]? = some c)
    (ho : c.isOpen = true) (hp : p.guard.closed = s.connection.guard.closed)
    (hw : p.admission = s.connection.admission)
    (hn : (if d.isOpen then 1 else 0) + es.countP isClosed = 1) :
    Counted { connection := p, calls := s.calls.set k d } (ev ++ es) := by
  obtain ⟨-, hcl, hev, hd⟩ := h.counted.only_call hk ho
  refine .of_closed (hp.trans hd) ?_
  simpa [Served.closers, h.counted.countP_set hk ho, hw, hcl, hev] using hn

/-- The streams are told that the connection ends. -/
theorem call_marked {r : Option String} (h : Standing x s ev ph)
    (hk : s.calls[k]? = some (.marked r)) :
    Standing x
        { connection := { s.connection with guard.cancelled := true }
          calls := s.calls.set k (.cancelled r) } (ev ++ []) ph ∧
      Effect x x s.connection.peer ph ph := by
  have hm := h.allowed _ (List.mem_of_getElem? hk)
  have hr : ph.Allows (.cancelled r) := by cases r <;> exact hm
  refine h.keep (.refl x) rfl h.guarded h.live (h.allowed_set hk rfl hr) (fun _ => ?_) h.fits
    (h.counted_set hk rfl rfl rfl rfl) (h.recorded.silent (.refl x) rfl rfl fun _ => rfl)
  simp [h.counted.countP_set hk rfl, Closing.isOpen]

/-- A call that has nothing to take back returns. -/
theorem call_cancelled (h : Standing x s ev ph) (hk : s.calls[k]? = some (.cancelled none)) :
    Standing x { s with calls := s.calls.set k (.finished true) } (ev ++ [.closed]) ph ∧
      Effect x x s.connection.peer ph ph := by
  have hi : ph.isCarried = false := h.allowed _ (List.mem_of_getElem? hk)
  exact h.keep (.refl x) rfl h.guarded h.live (h.allowed_set hk rfl trivial) (by simp [hi]) h.fits
    (h.counted_set hk rfl rfl rfl rfl) (h.recorded.silent (.refl x) rfl rfl fun _ => rfl)

/-- A call goes on to take back what a connection was given. -/
theorem carry {qh : Phase} (h : Standing x s ev ph) (hk : s.calls[k]? = some c)
    (ho : c.isOpen = true) (hpc : ph.isCarried = true) (hpg : ph.guarded? = none)
    (hqg : qh.guarded? = none) (hqr : qh.route? = none) (hf : Fits qh .finished)
    (hp : y.papers s.connection.peer = some qh.papers) (hd : qh.Allows d)
    (hc : qh.isCarried = d.isOpen) (hn : (if d.isOpen then 1 else 0) + es.countP isClosed = 1)
    (hm : Recorded y (ev ++ es) qh) :
    Standing y { s with calls := s.calls.set k d } (ev ++ es) qh where
  fits := by
    rw [h.fits.finished hpc]
    exact hf
  papers := hp
  guarded := h.guarded.trans (hpg.trans hqg.symm)
  live hs := by simp [hqg] at hs
  allowed := h.allowed_set hk ho hd
  carried hs := by
    rw [hc] at hs
    simp [h.counted.countP_set hk ho, hs]
  registered r hr := by simp [hqr] at hr
  counted := h.counted_set hk ho rfl rfl hn
  recorded := hm

/-- The route is removed, and the uplink is handed the news. -/
theorem call_unregister (h : Standing x s ev (.closing g))
    (hk : s.calls[k]? = some (.cancelled (some g.route))) :
    Standing (x.unregister g.route)
        { s with calls := s.calls.set k (.unregistered g.route) }
        (ev ++ (Exchange.unregisterHandings x.router g.route).map .handed) (.unregistered g) ∧
      Effect x (x.unregister g.route) s.connection.peer (.closing g) (.unregistered g) := by
  obtain ⟨b, hb, hl⟩ := h.registered g.route rfl
  have hh : Exchange.unregisterHandings x.router g.route
      = Exchange.uplinkHandings x.router (Exchange.unannouncement g.route) := by
    simp [Exchange.unregisterHandings, hb, hl]
  obtain ⟨hacc, hup, hcl⟩ := Router.rest_unregister x.router g.route
  have hy := Exchange.unregister_eq x g.route
  have hr : (x.unregister g.route).router = x.router.unregister g.route := by
    rw [hy, Exchange.router_handAll]
    rfl
  have hp (j : Nat) : (x.unregister g.route).papers j = x.papers j := by
    rw [hy]
    exact Exchange.papers_handAll _
  rw [hh]
  constructor
  · refine h.carry hk rfl rfl rfl rfl rfl (.unregistered g) ((hp _).trans h.papers) ⟨g, rfl, rfl⟩
      rfl ?_ ?_
    · exact congrArg (1 + ·) (closes_handed _)
    · refine h.recorded.more (grants_handed _) (bounds_handed _) ?_ rfl rfl rfl
        (hr ▸ hcl) (hr ▸ hup)
      intro b _ hu
      exact notices_uplinkHandings (m := Exchange.unannouncement g.route) hu (.inr rfl)
  · constructor
    case papers => exact fun j _ => hp j
    case uplink => exact hr ▸ hup
    case closed => exact hr ▸ hcl
    case minted => simp [hy, Exchange.mapRouter]
    case routes =>
      intro r _
      rw [hr, Router.get?_unregister]
      by_cases he : g.route = r <;> simp [Phase.route?, he, Ne.symm]
    case accepted =>
      intro t hn
      rw [hr, hacc]
      exact (if_neg hn).symm
    case grant => exact .inl rfl

/-- The end of the route is made known. -/
theorem call_dispose (h : Standing x s ev (.unregistered g))
    (hk : s.calls[k]? = some (.unregistered g.route)) :
    let m := Connection.disposal g.route (some g.token)
    Standing (x.route m g.route).1
        { s with calls := s.calls.set k (.disposed (some g.token)) }
        (ev ++ Exchange.routeEvents x.router m g.route) (.disposed g) ∧
      Effect x (x.route m g.route).1 s.connection.peer (.unregistered g) (.disposed g) := by
  intro m
  have hc := Exchange.calm_route (x := x) m g.route
  refine ⟨?_, effect_of_calm hc rfl rfl rfl⟩
  refine h.carry hk rfl rfl rfl rfl rfl (.disposed g) ((hc.papers _).trans h.papers) ⟨g, rfl, rfl⟩
    rfl ?_ ?_
  · exact congrArg (1 + ·) (closes_handed _)
  · refine h.recorded.more (grants_handed _) (bounds_handed _) ?_ rfl rfl rfl hc.closed hc.uplink
    intro b _ _
    exact notices_routeEvents_dispose (m := m) rfl _

/-- The token is no longer accepted, and the call returns. -/
theorem call_revoke (h : Standing x s ev (.disposed g))
    (hk : s.calls[k]? = some (.disposed (some g.token))) :
    Standing (x.mapRouter (·.revoke g.token)) { s with calls := s.calls.set k (.finished true) }
        (ev ++ [.closed]) (.revoked g) ∧
      Effect x (x.mapRouter (·.revoke g.token)) s.connection.peer (.disposed g) (.revoked g) := by
  constructor
  · exact h.carry hk rfl rfl rfl rfl rfl (.revoked g) h.papers trivial rfl rfl
      (h.recorded.more rfl rfl (fun _ _ _ => rfl) rfl rfl rfl rfl rfl)
  · constructor
    case accepted =>
      intro t _
      by_cases he : g.token = t <;>
        simp [Exchange.mapRouter, Router.revoke, Phase.token?, he, Ne.symm]
    case grant => exact .inl rfl
    case minted => exact Nat.le_refl _
    all_goals intros; rfl

/-- A call that is under way makes its next step. -/
theorem call {n : Connection} (h : Standing x s ev ph) (hk : s.calls[k]? = some c)
    (ho : c.isOpen = true) (hs : s.connection.closeStep x c = (y, n, d)) :
    (∃ qh, Standing y { connection := n, calls := s.calls.set k d }
        (ev ++ c.events x s.connection) qh ∧
      Effect x y s.connection.peer ph qh) ∧
    n.peer = s.connection.peer := by
  have ha := h.allowed c (List.mem_of_getElem? hk)
  cases c with
  | marked r =>
    cases hs
    exact ⟨⟨ph, h.call_marked hk⟩, rfl⟩
  | cancelled r =>
    cases r with
    | none =>
      cases hs
      exact ⟨⟨ph, h.call_cancelled hk⟩, rfl⟩
    | some r =>
      obtain ⟨g, rfl, rfl⟩ := ha
      cases hs
      exact ⟨⟨.unregistered g, h.call_unregister hk⟩, rfl⟩
  | unregistered r =>
    obtain ⟨g, rfl, rfl⟩ := ha
    obtain ⟨p, hp, -, ht⟩ := Exchange.peer?_of_papers h.papers
    have ht : (x.peer? s.connection.peer).bind (·.authToken) = some g.token := by
      simpa [hp, Phase.papers] using ht
    rw [Connection.closeStep, ht] at hs
    cases hs
    rw [Closing.events, ht]
    exact ⟨⟨.disposed g, h.call_dispose hk⟩, rfl⟩
  | disposed t =>
    obtain ⟨g, rfl, rfl⟩ := ha
    cases hs
    exact ⟨⟨.revoked g, h.call_revoke hk⟩, rfl⟩
  | finished b => cases ho

end Standing

end Switchboard
