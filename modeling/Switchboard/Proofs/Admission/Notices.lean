import Switchboard.Proofs.Admission.Conservation
import Switchboard.Proofs.Wire.Writing

/-! What is made known of the route of a connection: that it is there, that it is gone, and, if it
was bound, that it was torn down; each of them once. It is told by the log of all that was handed
out, and what the log says is what the inboxes got. -/
namespace Switchboard

variable {σ : Type} {x : Exchange σ} {w : Traffic σ} {s : Served} {ev : List Event} {ph : Phase}
  {φ : Nat → Phase} {g : Grant} {b : Binding} {k : Nat} {m : Envelope}

namespace Traffic

open Exchange (Hands hands_handAll hands_fetch hands_forward hands_of_endpoint endpoints_route)

variable {v : Traffic σ} {front back : List (Option Nat × Event)} {entry : Option Nat × Event}

/-- What the parties to all connections make known of a route, in order. What a client says of a
route is not among it, its own or that of another: it is forwarded like all that clients send. -/
def notices (w : Traffic σ) (uplink : Nat) (route : String) : List Envelope :=
  w.log.filterMap fun e =>
    if e.1.isSome then (e.2.notice? uplink).filter (·.source = some route) else none

/-- What comes of some connections in time. -/
abbrev Later : Traffic σ → Traffic σ → Prop := Relation.ReflTransGen Step

theorem handings_logged (hs : List Handing) :
    Event.handings ((hs.map fun h => ((none : Option Nat), Event.handed h)).map Prod.snd) = hs := by
  rw [List.map_map]
  exact Event.handings_handed hs

/-- Where the log says that anything was handed out, each inbox got what was handed to it, and
nothing else. -/
theorem Step.hands (h : w.Step v) : ∃ es, v.log = w.log ++ es ∧
    (Event.handings (es.map Prod.snd) ≠ [] →
      ∀ d, Hands d (Event.handings (es.map Prod.snd)) w.exchange v.exchange) := by
  cases h with
  | @party k _ _ es _ hk h =>
    have hes : (es.map ((some k, ·) : Event → Option Nat × Event)).map Prod.snd = es := by
      simp [Function.comp_def]
    refine ⟨es.map (some k, ·), rfl, fun hne d => ?_⟩
    rw [hes] at hne ⊢
    exact h.hands hne
  | sent m source =>
    refine ⟨_, rfl, fun _ d => ?_⟩
    rw [handings_logged]
    exact hands_of_endpoint (by rw [endpoints_route])
  | forward p =>
    refine ⟨_, rfl, fun _ d => ?_⟩
    rw [handings_logged]
    exact hands_forward _ p
  | connect | fetch | aside => exact ⟨[], (List.append_nil _).symm, fun hne => absurd rfl hne⟩

/-- What stands in the log at some place was handed out in a step on the way, in which each inbox
got what the log says was handed to it, and nothing else. -/
def Given (x : Exchange σ) (w : Traffic σ) (front : List (Option Nat × Event))
    (entry : Option Nat × Event) : Prop :=
  ∃ u v es, Reachable x u ∧ u.Step v ∧ v.Later w ∧ v.log = u.log ++ es ∧ u.log <+: front ∧
    front ++ [entry] <+: v.log ∧
      ∀ d, Hands d (Event.handings (es.map Prod.snd)) u.exchange v.exchange

theorem Given.later (h : Given x w front entry) (hs : w.Step v) : Given x v front entry := by
  obtain ⟨u, u', es, hu, hstep, hlater, hrest⟩ := h
  exact ⟨u, u', es, hu, hstep, hlater.tail hs, hrest⟩

/-- Whatever the log says was handed out, it was so. -/
theorem given_of_handed {hand : Handing} (h : Reachable x w) (hw : w.log = front ++ entry :: back)
    (he : entry.2.handing? = some hand) : Given x w front entry := by
  induction h generalizing back with
  | start => simp at hw
  | @step w v h hs ih =>
    obtain ⟨es, hlog, hhands⟩ := hs.hands
    have hnow (mid : List (Option Nat × Event)) (hfront : front = w.log ++ mid)
        (hes : es = mid ++ entry :: back) : Given x v front entry := by
      have hmem : hand ∈ Event.handings (es.map Prod.snd) :=
        List.mem_filterMap.2 ⟨entry.2, List.mem_map_of_mem (by simp [hes]), he⟩
      exact ⟨w, v, es, h, hs, .refl, hlog, hfront ▸ List.prefix_append _ _,
        ⟨back, by rw [hw, List.append_assoc, List.singleton_append]⟩,
        hhands (List.ne_nil_of_mem hmem)⟩
    rcases List.append_eq_append_iff.1 (hlog.symm.trans hw) with ⟨mid, hfront, hes⟩ |
      ⟨rest, hbefore, hback⟩
    · exact hnow mid hfront hes
    · cases rest with
      | nil => exact hnow [] (by simpa using hbefore.symm) hback.symm
      | cons e rest =>
        obtain ⟨rfl, rfl⟩ := List.cons.inj hback
        exact (ih hbefore).later hs

end Traffic

theorem Phase.source_of_notice (h : m ∈ ph.notices) :
    ∃ g, ph.grant? = some g ∧ m.source = some g.route := by
  have hs : ∀ g : Grant, ∀ m ∈ [Handshake.announcement g, Exchange.unannouncement g.route,
      Connection.disposal g.route (some g.token)], m.source = some g.route := by
    simp [Handshake.announcement, Exchange.unannouncement, Connection.disposal]
  cases ph with
  | fresh => cases h
  | granted g => cases h
  | stored g => cases h
  | _ g =>
    refine ⟨g, rfl, hs g m ?_⟩
    simp [notices] at h ⊢
    tauto

theorem Event.called_mem_iff : .called ∈ ev ↔ ev.any isCalled = true := by
  rw [List.any_eq_true]
  refine ⟨fun h => ⟨_, h, rfl⟩, ?_⟩
  rintro ⟨e, he, hc⟩
  cases e <;> cases hc
  exact he

/-- How the phase of a connection that is over and was closed tells what was made known. -/
theorem Standing.over (h : Standing x s ev ph) (hret : s.Returned) (hc : .called ∈ ev) :
    ev.countP Event.isClosed = 1 ∧
      (ph = .fresh ∨ ∃ g, ph = .revoked g ∨ ph = .withdrawn g) := by
  have hd : s.connection.guard.closed = true :=
    h.counted.called (Event.called_mem_iff.1 hc)
  have ho := hret.countP
  obtain ⟨hr, ht⟩ := h.released hret.1 hd ho
  constructor
  · have hcl := h.counted.closers
    rw [Served.closers, hret.1, ho, hd] at hcl
    simpa [Admission.isClosing] using hcl
  · have hfits := hret.1 ▸ h.fits
    cases hfits with
    | nothing => exact .inl rfl
    | revoked g => exact .inr ⟨g, .inl rfl⟩
    | withdrawn g => exact .inr ⟨g, .inr rfl⟩
    | failing hf => cases hf
    | lost g hf => cases hf
    | _ => simp [Phase.token?] at ht

namespace Sound

/-- Nobody but the parties to a connection makes anything known of its route. -/
theorem notices_eq (h : Sound x φ w) (hopen : x.router.closed = false)
    (hu : x.router.uplink = some b) (hg : (φ k).grant? = some g) :
    w.notices b.endpoint g.route = (φ k).notices := by
  have hrec (j : Nat) : Event.notices b.endpoint (w.events j) = (φ j).notices :=
    (h.recorded j).notices b (h.closed.trans hopen) (h.uplink.trans hu)
  have hsrc : ∀ j e m, (some j, e) ∈ w.log → e.notice? b.endpoint = some m →
      ∃ g', (φ j).grant? = some g' ∧ m.source = some g'.route := by
    intro j e m he hm
    apply Phase.source_of_notice
    rw [← hrec j]
    exact List.mem_filterMap.2 ⟨e, List.mem_filterMap.2 ⟨_, he, if_pos rfl⟩, hm⟩
  rw [← hrec k, Traffic.notices, Event.notices, Traffic.events, List.filterMap_filterMap]
  apply List.filterMap_congr
  rintro ⟨j, e⟩ he
  cases j with
  | none => simp
  | some j =>
    cases hm : e.notice? b.endpoint with
    | none =>
      by_cases hjk : j = k <;> simp [hjk, hm]
    | some m =>
      obtain ⟨g', hg', hms⟩ := hsrc j e m he hm
      by_cases hjk : j = k
      · subst j
        obtain rfl : g = g' := Option.some.inj (hg.symm.trans hg')
        simp [hm, hms]
      · have hne := (h.distinct j k g' g hg' hg hjk).1
        simp [hms, hjk, hne]

end Sound

/-- What a connection that was closed has made known of itself. -/
structure Concluded (x : Exchange σ) (w : Traffic σ) (uplink k : Nat) : Prop where
  /-- One call has closed it. -/
  closed : (w.events k).countP Event.isClosed = 1
  bound : ∀ g, .granted g ∈ w.events k → .bound g.route ∈ w.events k →
    w.notices uplink g.route = [Handshake.announcement g, Exchange.unannouncement g.route,
      Connection.disposal g.route (some g.token)]
  unbound : ∀ g, .granted g ∈ w.events k → .bound g.route ∉ w.events k →
    w.notices uplink g.route = [Handshake.announcement g, Exchange.unannouncement g.route]
  /-- Who is not admitted has nothing to be made known. -/
  refused : (∀ g, .granted g ∉ w.events k) →
    Event.notices uplink (w.events k) = [] ∧ ∀ r, .bound r ∉ w.events k
  /-- All that the log says was handed out has got into the inboxes, that of the uplink among them:
  what is made known is known there. -/
  inbox : ∀ front entry back h, w.log = front ++ entry :: back → entry.2.handing? = some h →
    Traffic.Given x w front entry

/-- However its steps come between those of others, a connection that is closed is closed once,
and its end is made known once. -/
theorem concluded_of_returned (h : Traffic.Reachable x w) (hopen : x.router.closed = false)
    (hu : x.router.uplink = some b) (hk : w.served[k]? = some s) (hret : s.Returned)
    (hc : .called ∈ w.events k) : Concluded x w b.endpoint k := by
  obtain ⟨φ, hs⟩ := sound_of_reachable h
  have hst := hs.standing k s hk
  have hrec := hst.recorded
  obtain ⟨hone, hph⟩ := hst.over hret hc
  have hnot := fun g => hs.notices_eq (k := k) (g := g) hopen hu
  constructor
  case closed => exact hone
  case bound =>
    intro g hg hb
    have hgr := hrec.granted_mem_iff.1 hg
    have hbd := hrec.bound_mem_iff.1 hb
    rw [hnot g hgr]
    obtain hph | ⟨g', hph | hph⟩ := hph <;> rw [hph] at hgr hbd ⊢
    · cases hgr
    · cases hgr
      rfl
    · cases hbd
  case unbound =>
    intro g hg hb
    have hgr := hrec.granted_mem_iff.1 hg
    have hbd := fun h => hb (hrec.bound_mem_iff.2 h)
    rw [hnot g hgr]
    obtain hph | ⟨g', hph | hph⟩ := hph <;> rw [hph] at hgr hbd ⊢
    · cases hgr
    · cases hgr
      exact absurd rfl hbd
    · cases hgr
      rfl
  case refused =>
    intro hg
    have hgr := fun g h => hg g (hrec.granted_mem_iff.2 h)
    obtain hph | ⟨g', hph | hph⟩ := hph <;> rw [hph] at hgr
    · rw [hrec.notices b (hs.closed.trans hopen) (hs.uplink.trans hu), hph]
      refine ⟨rfl, ?_⟩
      intro r hr
      have hbd := hrec.bound_mem_iff.1 hr
      rw [hph] at hbd
      cases hbd
    · exact absurd rfl (hgr g')
    · exact absurd rfl (hgr g')
  case inbox => exact fun _ _ _ _ hw he => Traffic.given_of_handed h hw he

theorem visited_returned : (visit?.get visit?_isSome).2.2.Returned := by
  have ha : (visit?.get visit?_isSome).2.2.connection.admission = .finished := by cbv
  have hc : (visit?.get visit?_isSome).2.2.calls = [.finished true] := by decide +kernel
  exact ⟨ha, by simp [hc]⟩

theorem visited_called : .called ∈ visited.events 0 :=
  Event.called_mem_iff.2 (by decide +kernel)

theorem visited_concluded : Traffic.Reachable hall visited ∧ hall.router.closed = false ∧
    (∃ b, hall.router.uplink = some b ∧ b.endpoint = 0) ∧
    (∃ s, visited.served[0]? = some s ∧ s.Returned) ∧ .called ∈ visited.events 0 ∧
    Concluded hall visited 0 0 :=
  ⟨visited_reachable, rfl, ⟨_, rfl, rfl⟩, ⟨_, rfl, visited_returned⟩, visited_called,
    concluded_of_returned visited_reachable rfl rfl rfl visited_returned visited_called⟩

end Switchboard
