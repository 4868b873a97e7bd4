import Switchboard.Proofs.Admission.Account
import Switchboard.Proofs.Feed.Course
import Switchboard.Proofs.Feed.Neighbours
import Switchboard.Proofs.Relay.Bound
import Switchboard.Proofs.Relay.Delivery

/-! What is handed out and granted around a connection, by how far its service is. Whatever the
router hands out, it hands to what is bound; the service alone hands its client anything directly. -/
namespace Switchboard

variable {σ : Type} {x y : Exchange σ} {r : Router} {c : Connection} {hs : List Handing} {k : Nat}
  {m : Envelope} {route source name : String} {b : Binding}

open Exchange

/-- The router knows all receivers of some envelopes: they are bound under a route, or as the
uplink. -/
def Router.Reaches (r : Router) (hs : List Handing) : Prop :=
  ∀ h ∈ hs, ∃ slot b, r.binding? slot = some b ∧ b.endpoint = h.endpoint

theorem Leads.exists_slot {goal : Option String} (h : Leads r source goal name b) :
    ∃ slot, r.binding? slot = some b := by
  cases h with
  | uplink _ hu => exact ⟨none, hu⟩
  | registered _ hb => exact ⟨some name, hb⟩
  | through _ _ _ hb => exact ⟨some name, hb⟩
  | unknown _ _ _ _ hu => exact ⟨none, hu⟩
  | default _ hb => exact ⟨some name, hb⟩
  | noDefault _ _ hu => exact ⟨none, hu⟩

namespace Router

theorem reaches_nil (r : Router) : r.Reaches [] := by simp [Reaches]

theorem reaches_uplink (r : Router) (m : Envelope) : r.Reaches (uplinkHandings r m) := by
  intro h hm
  unfold uplinkHandings at hm
  cases hu : r.uplink with
  | none => simp [hu] at hm
  | some b =>
    rw [hu] at hm
    obtain rfl := List.mem_singleton.1 hm
    exact ⟨none, b, hu, rfl⟩

theorem reaches_route (r : Router) (m : Envelope) (source : String) :
    r.Reaches (routeHandings r m source) := by
  unfold routeHandings
  generalize sourced m source = m
  simp only
  split_ifs
  · exact reaches_nil r
  · exact reaches_nil r
  · exact reaches_uplink r m
  · intro h hm
    cases hd : r.resolve? m.route source with
    | none => simp [hd] at hm
    | some d =>
      obtain ⟨name, b⟩ := d
      rw [hd] at hm
      obtain rfl := List.mem_singleton.1 hm
      obtain ⟨slot, hb⟩ := (leads_of_resolve? hd).exists_slot
      exact ⟨slot, b, hb, rfl⟩

theorem reaches_unregister (r : Router) (route : String) :
    r.Reaches (unregisterHandings r route) := by
  unfold unregisterHandings
  split
  · split
    · exact reaches_nil r
    · exact reaches_uplink r _
  · exact reaches_nil r

theorem reaches_operation (r : Router) (op : Relay.Operation) : r.Reaches (op.handings r) := by
  cases op with
  | unregister route => exact reaches_unregister r route
  | withdraw route token => exact reaches_uplink r _
  | _ => exact reaches_nil r

/-- An endpoint that is not bound is not reached. -/
theorem Bindings.not_bound {slot : Option String} (h : r.Bindings k none)
    (hb : r.binding? slot = some b) : b.endpoint ≠ k := by
  cases slot with
  | none => exact (h.uplink b hb).2
  | some route =>
    intro he
    cases (h.routes route b hb).2 he

end Router

namespace Exchange

theorem reaches_forward (x : Exchange σ) (p : Nat) : x.router.Reaches (x.forwardHandings p) := by
  unfold forwardHandings
  split
  · exact Router.reaches_route _ _ _
  · exact Router.reaches_nil _

theorem Around.reaches {own : Option String} (h : x.Around k own hs y) : x.router.Reaches hs := by
  cases h with
  | sent m source => exact Router.reaches_route _ _ _
  | operate op ho => exact Router.reaches_operation _ op
  | aside hr he => exact Router.reaches_nil _

end Exchange

theorem Closing.reaches_events (x : Exchange σ) (c : Connection) (q : Closing) :
    x.router.Reaches (Event.handings (q.events x c)) := by
  cases q with
  | cancelled route =>
    cases route with
    | none => exact Router.reaches_nil _
    | some route =>
      rw [events, Event.handings_handed]
      exact Router.reaches_unregister _ route
  | unregistered route =>
    rw [events, Event.handings_routeEvents]
    exact Router.reaches_route _ _ _
  | _ => exact Router.reaches_nil _

namespace Admission

/-- The handshake is under way, and the client has had no answer. -/
def isUnanswered : Admission → Bool
  | .greeting (.ended _) => false
  | .greeting _ => true
  | _ => false

/-- What is granted, and the envelope that asked for it, as long as the handshake is under way. -/
def asked? : Admission → Option (Envelope × Grant)
  | .greeting (.granted first g) | .greeting (.stored first g) | .greeting (.announced first g) =>
    some (first, g)
  | _ => none

/-- Something is granted that the uplink was not told of. -/
def isUntold : Admission → Bool
  | .greeting (.granted _ _) | .greeting (.stored _ _) => true
  | _ => false

/-- The route under which the handshake has admitted the client. -/
def admits? : Admission → Option String
  | .greeting (.ended (.ok route)) => some route
  | _ => none

theorem isUnanswered_of_asked? {a : Admission} {v : Envelope × Grant} (h : a.asked? = some v) :
    a.isUnanswered = true := by
  unfold asked? at h
  split at h
  · rfl
  · rfl
  · rfl
  · cases h

theorem told_of_admits? {a : Admission} (h : a.admits? = some route) : a.isUntold = false := by
  unfold admits? at h
  split at h
  · rfl
  · cases h

end Admission

/-- What the router grants to an envelope that presents a token. -/
def Exchange.Grants (x : Exchange σ) (first : Envelope) (g : Grant) : Prop :=
  ∃ token, first.command? = .ok (some (.authenticate token)) ∧ (x.authenticate token).2 = .ok g

theorem Exchange.Grants.route_ne_uplinkRoute {first : Envelope} {g : Grant}
    (h : x.Grants first g) : g.route ≠ uplinkRoute := by
  obtain ⟨token, -, hg⟩ := h
  obtain ⟨-, hr, -⟩ := authenticate_ok (y := (x.authenticate token).1) (Prod.ext rfl hg)
  rw [hr]
  exact Identity.processRoute_ne_uplinkRoute _

theorem Handshake.grants_of_judge {first : Envelope} {g : Grant}
    (h : judge x k first = (y, .granted first g)) : x.Grants first g := by
  unfold judge at h
  split at h
  · split at h
    · cases h
      exact ⟨_, ‹_›, by simp [*]⟩
    · cases h
  · cases h
  · cases h
  · cases h

/-- An envelope can be sent only to an endpoint that listens. -/
theorem Exchange.listens_of_send (h : x.send k m = (y, .ok ())) : x.listens k = true := by
  obtain ⟨e, he⟩ := send_report x k m
  rw [h] at he
  by_contra hl
  rw [if_neg hl] at he
  cases he

/-- How a step takes the service of the peer `k` from one point to another, with what is handed out
in it and what is granted. -/
inductive Advance (x : Exchange σ) (k : Nat) :
    Admission → Admission → List Handing → List Grant → Prop
  | aside {a : Admission} {hs : List Handing} (hr : x.router.Reaches hs) : Advance x k a a hs []
  | heard (m : Envelope) : Advance x k (.greeting .awaiting) (.greeting (.received m)) [] []
  | granted {first : Envelope} {g : Grant} (hg : x.Grants first g) :
      Advance x k (.greeting (.received first)) (.greeting (.granted first g)) [] [g]
  | stored (first : Envelope) (g : Grant) :
      Advance x k (.greeting (.granted first g)) (.greeting (.stored first g)) [] []
  | announced (first : Envelope) (g : Grant) :
      Advance x k (.greeting (.stored first g)) (.greeting (.announced first g))
        (routeHandings x.router (Handshake.announcement g) g.route) []
  | welcomed {first : Envelope} {g : Grant} (hl : x.listens k = true) :
      Advance x k (.greeting (.announced first g)) (.greeting (.ended (.ok g.route)))
        [⟨k, Handshake.welcome first g⟩] []
  /-- The client was told what it is to be told, or it is not admitted. -/
  | past {a b : Admission} {hs : List Handing} (ha : a.isUntold = false)
      (hb : b.isUnanswered = false) (hn : b.admits? = none) : Advance x k a b hs []

theorem Fits.bound_of_unanswered {ph : Phase} {a : Admission} (h : Fits ph a)
    (hu : a.isUnanswered = true) : ph.bound? = none := by
  cases h with
  | bound | closing | unregistered | disposed | revoked => cases hu
  | _ => rfl

namespace Advance

variable {a a' : Admission} {es : List Event} {old more : List Grant} {first : Envelope}
  {g : Grant}

theorem aside_plain (hr : x.router.Reaches (Event.handings es))
    (he : ∀ e ∈ es, e.isPlain = true) :
    Advance x k a a (Event.handings es) (es.filterMap Event.grant?) := by
  rw [(Event.plain he).2]
  exact .aside hr

theorem past_plain (ha : a.isUntold = false) (hb : a'.isUnanswered = false)
    (hn : a'.admits? = none) (he : ∀ e ∈ es, e.isPlain = true) :
    Advance x k a a' (Event.handings es) (es.filterMap Event.grant?) := by
  rw [(Event.plain he).2]
  exact .past ha hb hn

/-- Before the client has an answer, it is the router alone that hands out anything. -/
theorem unanswered (h : Advance x k a a' hs more) (hu : a'.isUnanswered = true) :
    a.isUnanswered = true ∧ x.router.Reaches hs := by
  cases h with
  | aside hr => exact ⟨hu, hr⟩
  | heard | granted | stored => exact ⟨rfl, Router.reaches_nil _⟩
  | announced first g => exact ⟨rfl, Router.reaches_route _ _ _⟩
  | welcomed => cases hu
  | past _ hb =>
    rw [hb] at hu
    cases hu

/-- Until then, all that was granted is what the service is about to grant. -/
theorem grants (h : Advance x k a a' hs more) (hu : a'.isUnanswered = true)
    (hg : old = (a.asked?.map Prod.snd).toList) :
    old ++ more = (a'.asked?.map Prod.snd).toList := by
  subst hg
  cases h with
  | welcomed => cases hu
  | past _ hb =>
    rw [hb] at hu
    cases hu
  | aside => exact List.append_nil _
  | _ => rfl

theorem asked (h : Advance x k a a' hs more) (hq : a'.asked? = some (first, g)) :
    a.asked? = some (first, g) ∨ a = .greeting (.received first) ∧ x.Grants first g := by
  cases h with
  | granted hg =>
    cases hq
    exact .inr ⟨rfl, hg⟩
  | past _ hb _ =>
    rw [Admission.isUnanswered_of_asked? hq] at hb
    cases hb
  | aside => exact .inl hq
  | stored | announced => exact .inl hq
  | heard | welcomed => cases hq

/-- Whoever is admitted has just been told. -/
theorem admits (h : Advance x k a a' hs more) (hr : a'.admits? = some route) :
    a.admits? = some route ∨ ∃ first g, a = .greeting (.announced first g) ∧ g.route = route ∧
      hs = [⟨k, Handshake.welcome first g⟩] ∧ x.listens k = true := by
  cases h with
  | @welcomed first g hl =>
    cases hr
    exact .inr ⟨first, g, rfl, rfl, rfl, hl⟩
  | past _ _ hn =>
    rw [hn] at hr
    cases hr
  | aside => exact .inl hr
  | _ => cases hr

/-- The uplink is told what was granted. -/
theorem told (h : Advance x k a a' hs more) (hu : a'.isUntold = false) :
    a.isUntold = false ∧ more = [] ∨ ∃ first g, a = .greeting (.stored first g) ∧ more = [] ∧
      hs = routeHandings x.router (Handshake.announcement g) g.route := by
  cases h with
  | announced first g => exact .inr ⟨first, g, rfl, rfl, rfl⟩
  | past ha => exact .inl ⟨ha, rfl⟩
  | aside => exact .inl ⟨hu, rfl⟩
  | heard | welcomed => exact .inl ⟨rfl, rfl⟩
  | granted | stored => cases hu

end Advance

namespace Connection

/-- The service judges the first envelope. -/
theorem advance_judge {first : Envelope} (ha : c.admission = .greeting (.received first)) :
    Advance x c.peer c.admission (c.step x).2.admission (Event.handings (c.events x))
      ((c.events x).filterMap Event.grant?) := by
  have hst : c.step x = ((Handshake.judge x c.peer first).1,
      { c with admission := .greeting (Handshake.judge x c.peer first).2 }) :=
    step_greeting ha (by simp)
  rcases Handshake.judge_cases x c.peer first with ⟨token, y, g, hx, ho, hj⟩ | ⟨text, e, ho, hj⟩
  · have he : c.events x = [.granted g] := by simp [events, ha, ho, hst, hj]
    rw [he, hst, hj, ha]
    exact .granted (Handshake.grants_of_judge hj)
  · have he : ∀ e ∈ c.events x, e.isPlain = true := by
      simp only [events, ha, ho]
      split <;> simp [Event.isPlain]
    rw [hst, hj, ha]
    exact .past_plain rfl rfl rfl he

theorem advance_greeting {h : Handshake} (ha : c.admission = .greeting h) (hw : h ≠ .awaiting) :
    Advance x c.peer c.admission (c.step x).2.admission (Event.handings (c.events x))
      ((c.events x).filterMap Event.grant?) := by
  have hst := step_greeting (x := x) ha
  cases h with
  | awaiting => exact absurd rfl hw
  | received first => exact advance_judge ha
  | granted first g =>
    rw [hst (by simp), events, ha]
    exact .stored first g
  | stored first g =>
    rw [hst (by simp), events, ha, Event.handings_routeEvents,
      (Event.plain (Event.plain_routeEvents _ _ _)).2]
    exact .announced first g
  | announced first g =>
    rw [hst (by simp), events, ha]
    simp only [Handshake.step]
    split
    · exact .welcomed (listens_of_send ‹_›)
    · exact .past rfl rfl rfl
  | ended r =>
    rw [step, events, ha]
    cases r <;> exact .past rfl rfl rfl

/-- What a step of the service hands out and grants goes with how far it takes the service. -/
theorem advance_step (hw : c.admission ≠ .greeting .awaiting) (hf : c.admission ≠ .finished) :
    Advance x c.peer c.admission (c.step x).2.admission (Event.handings (c.events x))
      ((c.events x).filterMap Event.grant?) := by
  cases ha : c.admission with
  | greeting h => exact ha ▸ advance_greeting ha fun he => hw (he ▸ ha)
  | admitted route =>
    rw [step, events, ha]
    simp only [bindRoute]
    split
    · exact .past rfl rfl rfl
    · exact .past rfl rfl rfl
  | refused =>
    rw [step, events, ha]
    exact .past rfl rfl rfl
  | closing q =>
    rw [events, ha]
    refine .past_plain rfl ?_ ?_ (Event.plain_closing _ _ _)
    · rw [step, ha]
      cases q <;> rfl
    · rw [step, ha]
      cases q <;> rfl
  | unbound =>
    rw [step, events, ha]
    exact .past_plain rfl rfl rfl (Event.plain_handed _)
  | finished => exact absurd ha hf

end Connection

/-- What a party to the connection hands out and grants goes with how far it takes the service. -/
theorem Served.Step.advance {s t : Served} {es : List Event} (h : s.Step x es y t) :
    Advance x s.connection.peer s.connection.admission t.connection.admission (Event.handings es)
      (es.filterMap Event.grant?) := by
  cases h with
  | service hs =>
    cases hs with
    | hear ha hh =>
      rw [ha]
      rcases Handshake.hear?_cases hh with ⟨m, rfl⟩ | rfl
      · exact .heard m
      · exact .past rfl rfl rfl
    | expire ha hh =>
      rw [ha]
      exact .past rfl rfl rfl
    | step hw hf => exact Connection.advance_step hw hf
  | read hr =>
    have hb := (Connection.reads_of_read? hr).2.beside
    simp only [hb.admission]
    exact .aside (Router.reaches_nil _)
  | write hw =>
    have hb := Connection.beside_write? hw
    simp only [hb.admission]
    exact .aside (Router.reaches_nil _)
  | @call _ q _ _ n _ _ hc =>
    have hn : n.admission = s.connection.admission := by
      have hf := (s.connection.closeStep_fixed x q).2.2
      rwa [hc] at hf
    simp only [hn]
    exact .aside_plain (q.reaches_events x _) (Event.plain_closing _ _ _)
  | _ => exact .aside (Router.reaches_nil _)

end Switchboard
