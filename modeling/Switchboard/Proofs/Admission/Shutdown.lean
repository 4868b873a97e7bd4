import Switchboard.Proofs.Admission.Account
import Switchboard.Proofs.Relay.Queues

/-! What is handed out when the router is shut down: nothing is routed any more, but the uplink is
still told of routes that go. -/
namespace Switchboard

open Exchange

variable {σ : Type} {x y : Exchange σ} {c d : Connection} {s t : Served} {es : List Event}
  {h : Handing} {k : Option Nat}

namespace Exchange

/-- The news for the uplink that a route is gone. -/
def IsNotice (r : Router) (h : Handing) : Prop :=
  ∃ route, h ∈ uplinkHandings r (unannouncement route)

theorem routeHandings_of_closed {r : Router} (hr : r.closed = true) (m : Envelope)
    (source : String) : routeHandings r m source = [] := by
  rw [routeHandings, if_pos hr]

theorem isNotice_of_mem_unregisterHandings {r : Router} {route : String}
    (hm : h ∈ unregisterHandings r route) : IsNotice r h := by
  unfold unregisterHandings at hm
  split at hm
  · split at hm
    · cases hm
    · exact ⟨route, hm⟩
  · cases hm

theorem closed_route (m : Envelope) (source : String) :
    (x.route m source).1.router.closed = x.router.closed := (calm_route m source).closed

theorem closed_unregister (x : Exchange σ) (route : String) :
    (x.unregister route).router.closed = x.router.closed := by
  rw [unregister_eq, router_handAll]
  exact (x.router.rest_unregister route).2.2

end Exchange

theorem Router.closed_cancelPumpOf (r : Router) (b : Option Binding) :
    (r.cancelPumpOf b).closed = r.closed := by
  cases b <;> rfl

namespace Relay.Operation

theorem isNotice_of_mem_handings {r : Router} {op : Operation} (hm : h ∈ op.handings r) :
    IsNotice r h := by
  cases op with
  | unregister route => exact isNotice_of_mem_unregisterHandings hm
  | withdraw route token => exact ⟨route, hm⟩
  | _ => cases hm

/-- No operation opens a router again. -/
theorem closed_apply (op : Operation) (hx : x.router.closed = true) :
    (op.apply x).router.closed = true := by
  rw [router_apply]
  cases op with
  | register route endpoint isLocal =>
    exact ((x.router.rest_register route endpoint isLocal).2.2).trans hx
  | unregister route => exact ((x.router.rest_unregister route).2.2).trans hx
  | setUplink | clearUplink => exact (x.router.closed_cancelPumpOf x.router.uplink).trans hx
  | setDefault => exact hx
  | withdraw route token => cases token <;> exact hx
  | accept => exact hx
  | shutdown =>
    rw [table, Router.shutdown, if_pos hx]
    exact hx

end Relay.Operation

namespace Connection

theorem closed_withdraw (x : Exchange σ) (c : Connection) :
    (c.withdraw x).router.closed = x.router.closed := by
  unfold withdraw
  split
  · rename_i token route _
    have hr := Relay.router_apply (.withdraw route token) x
    exact (congrArg Router.closed hr).trans (by cases token <;> rfl)
  · rfl

theorem closed_closeStep (x : Exchange σ) (c : Connection) (q : Closing) :
    (c.closeStep x q).1.router.closed = x.router.closed := by
  cases q with
  | cancelled route =>
    cases route with
    | none => rfl
    | some route => exact closed_unregister x route
  | unregistered route => exact closed_route _ _
  | disposed token => cases token <;> rfl
  | marked | finished => rfl

theorem closed_step (x : Exchange σ) (c : Connection) :
    (c.step x).1.router.closed = x.router.closed := by
  cases ha : c.admission with
  | greeting g =>
    cases g with
    | ended r => rw [step, ha]
    | received first =>
      rw [step_greeting ha (by simp)]
      rcases Handshake.judge_cases x c.peer first with ⟨token, y, g, hx, -, hj⟩ | ⟨text, e, -, hj⟩
      · obtain ⟨rfl, -, -⟩ := authenticate_ok hx
        rw [Handshake.step, hj]
        rfl
      · rw [Handshake.step, hj]
        exact (Handshake.within_reject x c.peer first text).calm.closed
    | stored first g =>
      rw [step_greeting ha (by simp)]
      exact closed_route _ _
    | announced first g =>
      rw [step_greeting ha (by simp)]
      exact (Handshake.within_step_announced g).calm.closed
    | awaiting | granted =>
      rw [step_greeting ha (by simp)]
      rfl
  | admitted route =>
    rw [step, ha]
    simp only [bindRoute]
    split
    · rfl
    · exact (x.router.rest_register route c.peer false).2.2
  | closing q =>
    have hq := c.closed_closeStep x q
    rw [step, ha]
    cases q <;> exact hq
  | unbound =>
    rw [step, ha]
    exact c.closed_withdraw x
  | refused | finished => rw [step, ha]

end Connection

/-- The handings of a call that closes a connection. -/
theorem Closing.isNotice_of_mem_events {q : Closing} (hx : x.router.closed = true)
    (hm : .handed h ∈ q.events x c) : IsNotice x.router h := by
  cases q with
  | cancelled route =>
    cases route with
    | none => simp [events] at hm
    | some route =>
      obtain ⟨a, ha, he⟩ := List.mem_map.1 hm
      cases he
      exact isNotice_of_mem_unregisterHandings ha
  | unregistered route => simp [events, routeEvents, routeHandings_of_closed hx] at hm
  | marked | disposed | finished => simp [events] at hm

theorem Connection.handed_of_mem_events (hx : x.router.closed = true)
    (hm : .handed h ∈ c.events x) : IsNotice x.router h ∨
      ∃ g, c.admission = .greeting g ∧ h.endpoint = c.peer := by
  unfold events at hm
  split at hm
  · refine .inr ⟨_, ‹_›, ?_⟩
    split at hm
    · split at hm
      · simpa using congrArg Handing.endpoint (Event.handed.inj (List.mem_singleton.1 hm))
      · cases hm
    · simp at hm
    · cases hm
  · simp [routeEvents, routeHandings_of_closed hx] at hm
  · refine .inr ⟨_, ‹_›, ?_⟩
    simpa using congrArg Handing.endpoint (Event.handed.inj (List.mem_singleton.1 hm))
  · split at hm <;> simp at hm
  · simp at hm
  · exact .inl (Closing.isNotice_of_mem_events hx hm)
  · obtain ⟨a, ha, he⟩ := List.mem_map.1 hm
    cases he
    unfold withdrawHandings at ha
    split at ha
    · exact .inl ⟨_, ha⟩
    · cases ha
  · cases hm

theorem Served.Step.closed (hs : s.Step x es y t) : y.router.closed = x.router.closed := by
  cases hs with
  | service hs =>
    cases hs with
    | hear _ hh => exact (Handshake.within_hear? hh).calm.closed
    | expire => rfl
    | step => exact s.connection.closed_step x
  | read hr => exact (Connection.reads_of_read? hr).2.beside.within.calm.closed
  | write hw => exact (Connection.beside_write? hw).within.calm.closed
  | @call _ q _ _ _ _ _ hc =>
    have hq := s.connection.closed_closeStep x q
    rwa [hc] at hq
  | close | arrive | hangUp | failWrites => rfl

/-- What the parties to a connection hand out by a router that is shut down. -/
theorem Served.Step.handed (hs : s.Step x es y t) (hx : x.router.closed = true)
    (hm : .handed h ∈ es) :
    IsNotice x.router h ∨
      ∃ g, s.connection.admission = .greeting g ∧ h.endpoint = s.connection.peer := by
  cases hs with
  | service hs =>
    cases hs with
    | hear | expire => simp at hm
    | step => exact Connection.handed_of_mem_events hx (by simpa using hm)
  | read | write | hangUp | failWrites => cases hm
  | call => exact .inl (Closing.isNotice_of_mem_events hx hm)
  | close | arrive => simp at hm

namespace Traffic

variable {w v u : Traffic σ}

/-- Something that happens at a router with connections, or is done to its tables. -/
inductive Onward (w : Traffic σ) : Traffic σ → Prop
  | traffic {v : Traffic σ} (h : Step w v) : Onward w v
  /-- The router is sent an envelope that is still JSON. -/
  | inject (b : Bytes) (source : String) :
      Onward w { w with
        exchange := (w.exchange.inject b source).1
        log := w.log ++ ((Envelope.ofJson b).toOption.toList.flatMap fun m =>
          (routeHandings w.exchange.router m source).map (none, .handed ·)) }
  | operate (op : Relay.Operation) :
      Onward w { w with
        exchange := op.apply w.exchange
        log := w.log ++ (op.handings w.exchange.router).map (none, .handed ·) }

/-- What a router that is shut down still hands out: news for the uplink, and what a peer is told
that is not admitted yet. -/
def Late (w : Traffic σ) (k : Option Nat) (h : Handing) : Prop :=
  IsNotice w.exchange.router h ∨
    ∃ j s g, k = some j ∧ w.served[j]? = some s ∧ s.connection.admission = .greeting g ∧
      h.endpoint = s.connection.peer

theorem Onward.late (ho : Onward w v) (hw : w.exchange.router.closed = true) :
    v.exchange.router.closed = true ∧
      ∃ es, v.log = w.log ++ es ∧ ∀ k h, (k, .handed h) ∈ es → w.Late k h := by
  -- Whatever is routed is handed to nobody.
  have hrouted (m : Envelope) (source : String) :
      routeHandings w.exchange.router m source = [] := routeHandings_of_closed hw m source
  cases ho with
  | traffic ho =>
    cases ho with
    | connect => exact ⟨hw, [], by simp, by simp⟩
    | @party k s t es y hk hs =>
      refine ⟨hs.closed.trans hw, _, rfl, fun j h hm => ?_⟩
      obtain ⟨e, he, hje⟩ := List.mem_map.1 hm
      cases hje
      rcases hs.handed hw he with hn | ⟨g, hg, hp⟩
      · exact .inl hn
      · exact .inr ⟨k, s, g, rfl, hk, hg, hp⟩
    | sent m source =>
      refine ⟨(closed_route m source).trans hw, [], by simp [hrouted], by simp⟩
    | fetch hf => exact ⟨(calm_fetch hf).closed.trans hw, [], by simp, by simp⟩
    | forward p =>
      refine ⟨(calm_forward p).closed.trans hw, [], ?_, by simp⟩
      have hp : w.exchange.forwardHandings p = [] := by
        unfold forwardHandings
        split
        · exact hrouted _ _
        · rfl
      simp [hp]
    | aside ha => exact ⟨ha.calm.closed.trans hw, [], by simp, by simp⟩
  | inject b source =>
    refine ⟨?_, [], by simp [hrouted], by simp⟩
    unfold Exchange.inject
    split
    · exact (closed_route _ source).trans hw
    · exact hw
  | operate op =>
    refine ⟨op.closed_apply hw, _, rfl, fun k h hm => ?_⟩
    obtain ⟨a, ha, he⟩ := List.mem_map.1 hm
    cases he
    exact .inl (Relay.Operation.isNotice_of_mem_handings ha)

/-- However it goes on, a router that is shut down hands out nothing else. -/
theorem late_of_closed (hw : w.exchange.router.closed = true)
    (hv : Relation.ReflTransGen Onward w v) :
    ∃ es, v.log = w.log ++ es ∧ ∀ k h, (k, .handed h) ∈ es →
      ∃ u, Relation.ReflTransGen Onward w u ∧ u.Late k h := by
  suffices hall : v.exchange.router.closed = true ∧ ∃ es, v.log = w.log ++ es ∧
      ∀ k h, (k, .handed h) ∈ es → ∃ u, Relation.ReflTransGen Onward w u ∧ u.Late k h from hall.2
  induction hv with
  | refl => exact ⟨hw, [], by simp, by simp⟩
  | @tail u v hu ho ih =>
    obtain ⟨hclosed, es, hlog, hes⟩ := ih
    obtain ⟨hclosed', fs, hlog', hfs⟩ := ho.late hclosed
    refine ⟨hclosed', es ++ fs, by rw [hlog', hlog, List.append_assoc], fun k h hm => ?_⟩
    rcases List.mem_append.1 hm with hm | hm
    · exact hes k h hm
    · exact ⟨u, hu, hfs k h hm⟩

/-- A router with an uplink and a route that is not local, which is shut down. -/
def shutHall : Exchange Unit :=
  let x : Exchange Unit :=
    { endpoints := [.mailbox { complaint := "gone" }, .mailbox { complaint := "gone" }] }
  ((x.mapRouter (·.setUplink 0)).register "a" 1 false).mapRouter Router.shutdown

/-- What comes of the removal of the route. -/
def cleared : Traffic Unit where
  exchange := (Relay.Operation.unregister "a").apply shutHall
  log := ((Relay.Operation.unregister "a").handings shutHall.router).map (none, .handed ·)

theorem onward_cleared : Onward { exchange := shutHall } cleared := .operate (.unregister "a")

theorem cleared_late : shutHall.router.closed = true ∧
    Relation.ReflTransGen Onward { exchange := shutHall } cleared ∧
    ∃ es, cleared.log = es ∧ ∀ k h, (k, .handed h) ∈ es →
      ∃ u, Relation.ReflTransGen Onward { exchange := shutHall } u ∧ u.Late k h := by
  have hx : shutHall.router.closed = true := by decide +kernel
  have hr : Relation.ReflTransGen Onward { exchange := shutHall } cleared := .single onward_cleared
  exact ⟨hx, hr, by simpa using late_of_closed (w := { exchange := shutHall }) hx hr⟩

/-- The router is shut down, and yet the uplink is handed an envelope. -/
theorem cleared_not_silent : shutHall.router.closed = true ∧
    Relation.ReflTransGen Onward { exchange := shutHall } cleared ∧
    (shutHall.incoming 0).map (fun m => (m.command, m.source)) = [] ∧
    (cleared.exchange.incoming 0).map (fun m => (m.command, m.source)) =
      [(some "routeunannounce", some "a")] :=
  ⟨by decide +kernel, .single onward_cleared, by decide +kernel, by decide +kernel⟩

end Traffic

end Switchboard
