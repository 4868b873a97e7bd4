import Switchboard.Proofs.Feed.Conveyance
import Switchboard.Proofs.Relay.Order
import Switchboard.Proofs.Service.Disposals

/-! What the parties to a connection say of the end of routes. Of its own accord a connection ends
no route but the one it was granted: it retracts that when it closes, and has it disposed of. -/
namespace Switchboard

namespace Envelope

/-- The news that a route is gone. -/
def Retracts (m : Envelope) (route : String) : Prop :=
  m.command = some Command.routeUnannounceName ∧ m.source = some route

/-- An envelope by which a route comes to an end elsewhere: it is retracted, or disposed of. -/
def Ends (m : Envelope) (route : String) : Prop := m.Retracts route ∨ m.disposed? = some route

end Envelope

variable {σ : Type} {x y : Exchange σ} {f f' : Feed σ} {ph : Phase} {g : Grant} {h : Handing}
  {c : Connection} {q : Closing} {s t : Served} {es : List Event} {r route : String} {m : Envelope}
  {r₀ : Router} {heard fed : List Envelope} {queue : Queue}

namespace Envelope

theorem not_ends_of_command (hc : m.command = none) : ¬m.Ends route := by
  rintro (⟨hr, -⟩ | hd)
  · rw [hc] at hr
    cases hr
  · simp [disposed?, command?, hc] at hd

theorem not_ends_failure (m : Envelope) (text : String) : ¬(m.failure text).Ends route :=
  not_ends_of_command rfl

theorem not_ends_announcement (g : Grant) : ¬(Handshake.announcement g).Ends route := by
  rintro (⟨hr, -⟩ | hd)
  · have hne : Command.routeAnnounceName ≠ Command.routeUnannounceName := by decide
    exact hne (Option.some.inj hr)
  · have hnone : (Handshake.announcement g).disposed? = none := rfl
    rw [hnone] at hd
    cases hd

theorem eq_of_ends_unannouncement (h : (Exchange.unannouncement r).Ends route) : route = r := by
  rcases h with ⟨-, hs⟩ | hd
  · exact (Option.some.inj hs).symm
  · have hnone : (Exchange.unannouncement r).disposed? = none := rfl
    rw [hnone] at hd
    cases hd

theorem eq_of_ends_disposal {token : Option String}
    (h : (Connection.disposal r token).Ends route) : route = r := by
  rcases h with ⟨hc, -⟩ | hd
  · have hne : Command.disposeName ≠ Command.routeUnannounceName := by decide
    exact absurd (Option.some.inj hc) hne
  · have hsome : (Connection.disposal r token).disposed? = some r := rfl
    rw [hsome] at hd
    exact (Option.some.inj hd).symm

end Envelope

namespace Exchange

/-- Routing hands out the envelope itself, or nothing. -/
theorem envelope_of_mem_routeHandings {source : String} (hm : h ∈ routeHandings r₀ m source) :
    h.envelope = sourced m source := by
  rcases Relay.routeHandings_cases r₀ m source with he | ⟨d, he⟩
  · rw [he] at hm
    cases hm
  · rw [he] at hm
    rw [List.mem_singleton.1 hm]

theorem sourced_of_source {source : String} (hs : m.source.isSome) : sourced m source = m := by
  unfold sourced
  cases hm : m.source with
  | none => simp [hm] at hs
  | some s => simp

/-- What is about routes goes up, whoever says it of which route. -/
theorem routeHandings_of_isControl {source : String} (hc : IsControl m) (hs : m.source.isSome)
    (hopen : r₀.closed = false) (hup : source ≠ uplinkRoute) :
    routeHandings r₀ m source = uplinkHandings r₀ m := by
  simp [routeHandings, sourced_of_source hs, hc, hopen, hup]

theorem envelope_of_mem_uplinkHandings (hm : h ∈ uplinkHandings r₀ m) : h.envelope = m := by
  unfold uplinkHandings at hm
  cases hu : r₀.uplink with
  | none => simp [hu] at hm
  | some b =>
    rw [hu] at hm
    rw [List.mem_singleton.1 hm]

end Exchange

/-- The route that a call to close the connection is still to end. -/
def Closing.route? : Closing → Option String
  | marked route | cancelled route => route
  | unregistered route => some route
  | disposed _ | finished _ => none

theorem Closing.eq_of_ends (hm : .handed h ∈ q.events x c) (hr : h.envelope.Ends r) :
    q.route? = some r := by
  cases q with
  | cancelled route =>
    cases route with
    | none => simp [events] at hm
    | some route =>
      obtain ⟨a, ha, he⟩ := List.mem_map.1 hm
      obtain rfl := Event.handed.inj he
      unfold Exchange.unregisterHandings at ha
      split at ha
      · split at ha
        · cases ha
        · rw [Exchange.envelope_of_mem_uplinkHandings ha] at hr
          rw [Envelope.eq_of_ends_unannouncement hr]
          rfl
      · cases ha
  | unregistered route =>
    simp only [events, Exchange.routeEvents, List.mem_cons, reduceCtorEq, List.mem_map,
      false_or] at hm
    obtain ⟨a, ha, he⟩ := hm
    obtain rfl := Event.handed.inj he
    rw [Exchange.envelope_of_mem_routeHandings ha, Exchange.sourced_of_source rfl] at hr
    rw [Envelope.eq_of_ends_disposal hr]
    rfl
  | marked | disposed | finished => simp [events] at hm

theorem Connection.route?_closeStep (x : Exchange σ) (c : Connection) (q : Closing)
    (hr : (c.closeStep x q).2.2.route? = some r) : q.route? = some r := by
  cases q with
  | cancelled route =>
    cases route with
    | none => cases hr
    | some route => exact hr
  | disposed token => cases token <;> cases hr
  | unregistered route => cases hr
  | marked route => exact hr
  | finished => cases hr

theorem Guard.route?_beginClose {gd : Guard} (hr : gd.beginClose.2.route? = some r) :
    gd.closed = false ∧ gd.route = some r := by
  unfold beginClose at hr
  split at hr
  · cases hr
  · exact ⟨by simpa using ‹¬gd.closed = true›, hr⟩

/-- A route that is granted is never that of the uplink. -/
theorem Connection.route_of_granted (hm : .granted g ∈ c.events x) : g.route ≠ uplinkRoute := by
  unfold events at hm
  split at hm
  · rename_i first ha
    have hstep : (c.step x).2.admission = .greeting (Handshake.judge x c.peer first).2 := by
      rw [step_greeting ha (by simp)]
      rfl
    split at hm
    · split at hm <;> simp at hm
    · rename_i first' g' _ hgranted
      rcases Handshake.judge_cases x c.peer first with ⟨token, y, g₀, hy, -, hj⟩ | ⟨text, e, -, hj⟩
      · obtain ⟨-, hroute, -⟩ := Exchange.authenticate_ok hy
        rw [hstep, hj] at hgranted
        cases hgranted
        rw [Event.granted.inj (List.mem_singleton.1 hm), hroute]
        exact Identity.processRoute_ne_uplinkRoute _
      · rw [hstep, hj] at hgranted
        cases hgranted
    · cases hm
  · simp [Exchange.routeEvents] at hm
  · simp at hm
  · split at hm <;> simp at hm
  · simp at hm
  · have hplain := Event.plain_closing x c _ _ hm
    cases hplain
  · simp at hm
  · cases hm

namespace Feed

/-- The connection was granted a route. -/
def Owns (f : Feed σ) (route : String) : Prop := ∃ g, .granted g ∈ f.events ∧ g.route = route

/-- What a connection has to do with the end of routes. -/
structure Modest (f : Feed σ) : Prop where
  granted : ∀ g, .granted g ∈ f.events → g.route ≠ uplinkRoute
  /-- The calls that close it end the route that it was granted. -/
  calls : ∀ q ∈ f.served.calls, ∀ r, q.route? = some r → f.Owns r
  /-- So does all that its parties have handed out. -/
  handed : ∀ h, .handed h ∈ f.events → ∀ r, h.envelope.Ends r → f.Owns r

theorem Owns.mono (h : f.Owns r) (he : ∀ e ∈ f.events, e ∈ f'.events) : f'.Owns r := by
  obtain ⟨g, hg, hr⟩ := h
  exact ⟨g, he _ hg, hr⟩

namespace Sound

theorem owns_of_grant (hs : Sound x f ph heard fed queue) (hg : ph.grant? = some g) :
    f.Owns g.route := by
  refine ⟨g, ?_, rfl⟩
  rw [Event.granted_mem_iff, hs.course.grants, hg]
  exact List.mem_singleton_self g

/-- The guard of a connection that is open names the route of its grant. -/
theorem owns_guarded (hs : Sound x f ph heard fed queue)
    (ho : f.served.connection.guard.closed = false)
    (hr : f.served.connection.guard.route = some r) : f.Owns r := by
  rw [(hs.course.running ho).route] at hr
  cases ph <;> cases hr <;> exact hs.owns_of_grant rfl

/-- Whatever the service hands out ends no route but that of its grant. -/
theorem owns_served (hs : Sound x f ph heard fed queue)
    (hm : .handed h ∈ f.served.connection.events f.exchange) (hr : h.envelope.Ends r) :
    f.Owns r := by
  have hf := hs.course.fits
  unfold Connection.events at hm
  split at hm
  · split at hm
    · split at hm
      · rw [Event.handed.inj (List.mem_singleton.1 hm)] at hr
        exact absurd hr (Envelope.not_ends_failure _ _)
      · cases hm
    · simp at hm
    · cases hm
  · simp only [Exchange.routeEvents, List.mem_cons, reduceCtorEq, List.mem_map, false_or] at hm
    obtain ⟨a, ha, he⟩ := hm
    obtain rfl := Event.handed.inj he
    rw [Exchange.envelope_of_mem_routeHandings ha, Exchange.sourced_of_source rfl] at hr
    exact absurd hr (Envelope.not_ends_announcement _)
  · rw [Event.handed.inj (List.mem_singleton.1 hm)] at hr
    exact absurd hr (Envelope.not_ends_of_command rfl)
  · split at hm <;> simp at hm
  · simp at hm
  · rename_i q ha
    have hq := Closing.eq_of_ends hm hr
    rw [ha] at hf
    cases hf with
    | failing hf => cases hf <;> cases hq
    | lost g hf => cases hf <;> cases hq
  · obtain ⟨a, ha, he⟩ := List.mem_map.1 hm
    obtain rfl := Event.handed.inj he
    unfold Connection.withdrawHandings at ha
    split at ha
    · rename_i route hroute
      rw [Exchange.envelope_of_mem_uplinkHandings ha] at hr
      obtain rfl := Envelope.eq_of_ends_unannouncement hr
      obtain ⟨v, hv, -, hvr, -⟩ := Exchange.peer?_of_voice hs.voice
      have hpeer : f.exchange.peer? f.served.connection.peer = some v := hv
      rw [hpeer, Option.bind_some, hvr] at hroute
      cases ph <;> cases hroute <;> exact hs.owns_of_grant rfl
    · cases ha
  · cases hm

end Sound

theorem modest_start (x : Exchange σ) (grace : Duration) (maxFrame : Nat) :
    Modest { exchange := x.meet, served := .new x.endpoints.length grace maxFrame } where
  granted _ hg := absurd hg List.not_mem_nil
  calls _ hq := absurd hq List.not_mem_nil
  handed _ hm := absurd hm List.not_mem_nil

namespace Modest

/-- What has happened stays so, and all that is new is the connection's own. -/
theorem more (h : Modest f) {f' : Feed σ} (he : f'.events = f.events ++ es)
    (hg : ∀ g, .granted g ∈ es → g.route ≠ uplinkRoute)
    (hc : ∀ q ∈ f'.served.calls, q ∈ f.served.calls ∨ ∀ r, q.route? = some r → f.Owns r)
    (hn : ∀ a, .handed a ∈ es → ∀ r, a.envelope.Ends r → f.Owns r) : Modest f' := by
  have hmono {r : String} (ho : f.Owns r) : f'.Owns r :=
    ho.mono fun e hm => he ▸ List.mem_append_left es hm
  constructor
  · intro g hgranted
    rw [he, List.mem_append] at hgranted
    rcases hgranted with hold | hnew
    · exact h.granted g hold
    · exact hg g hnew
  · intro q hq r hr
    rcases hc q hq with hold | hnew
    · exact hmono (h.calls q hold r hr)
    · exact hmono (hnew r hr)
  · intro a ha r hr
    rw [he, List.mem_append] at ha
    rcases ha with hold | hnew
    · exact hmono (h.handed a hold r hr)
    · exact hmono (hn a hnew r hr)

/-- A step that has nothing to do with calls and hands nothing out. -/
theorem same (h : Modest f) {f' : Feed σ} (he : f'.events = f.events)
    (hc : f'.served.calls = f.served.calls) : Modest f' := by
  have hevents : f'.events = f.events ++ [] := by rw [he, List.append_nil]
  exact h.more hevents (fun _ hm => absurd hm List.not_mem_nil) (fun _ hq => .inl (hc ▸ hq))
    fun _ hm => absurd hm List.not_mem_nil

theorem close (h : Modest f) (hs : Sound x f ph heard fed queue) {gd : Guard} {cl : Closing}
    (hb : f.served.connection.guard.beginClose = (gd, cl)) {f' : Feed σ}
    (he : f'.events = f.events ++ [.called]) (hc : f'.served.calls = f.served.calls ++ [cl]) :
    Modest f' := by
  refine h.more he (by simp) (fun q hq => ?_) (by simp)
  rw [hc, List.mem_append, List.mem_singleton] at hq
  rcases hq with hold | rfl
  · exact .inl hold
  · refine .inr fun r hr => ?_
    have hr : f.served.connection.guard.beginClose.2.route? = some r := by rw [hb, hr]
    obtain ⟨ho, hg⟩ := Guard.route?_beginClose hr
    exact hs.owns_guarded ho hg

theorem party (h : Modest f) (hs : Sound x f ph heard fed queue)
    (hst : f.served.Step f.exchange es y t) :
    Modest { f with exchange := y, served := t, events := f.events ++ es } := by
  cases hst with
  | service hsv =>
    refine h.more rfl (fun g hg => ?_) (fun _ hq => .inl hq) fun a ha r hr => ?_
    · cases hsv with
      | step _ _ => exact Connection.route_of_granted (by simpa using hg)
      | hear | expire => simp at hg
    · cases hsv with
      | step _ _ => exact hs.owns_served (by simpa using ha) hr
      | hear | expire => simp at ha
  | close hb => exact h.close hs hb rfl rfl
  | @call k q d _ _ hk ho hcall =>
    refine h.more rfl (fun g hg => ?_) (fun a ha => ?_) fun a ha r hr => ?_
    · cases Event.plain_closing f.exchange f.served.connection q _ hg
    · rcases List.mem_or_eq_of_mem_set ha with hold | rfl
      · exact .inl hold
      · refine .inr fun r hr => h.calls q (List.mem_of_getElem? hk) r ?_
        refine Connection.route?_closeStep f.exchange f.served.connection q ?_
        rw [hcall]
        exact hr
    · exact h.calls q (List.mem_of_getElem? hk) r (Closing.eq_of_ends ha hr)
  | arrive r _ => exact h.more rfl (by simp) (fun _ hq => .inl hq) (by simp)
  | read | write | hangUp | failWrites => exact h.same (List.append_nil _) rfl

theorem step (h : Modest f) (hs : Sound x f ph heard fed queue) (hst : f.Step f') :
    Modest f' := by
  cases hst with
  | party hp => exact h.party hs hp
  | watch side _ _ hb => exact h.close hs hb rfl rfl
  | fetch | forward | sent | operate | aside => exact h.same rfl rfl

end Modest

/-- In every reachable state, whatever the parties to the connection have handed out ends no route
but the one it was granted. -/
theorem modest_of_reachable (hx : x.Tidy) (h : Reachable x f) : Modest f := by
  induction h with
  | start grace maxFrame => exact modest_start x grace maxFrame
  | step hr hst ih =>
    obtain ⟨ph, heard, fed, queue, hs⟩ := sound_of_reachable hx hr
    exact ih.step hs hst

end Feed

end Switchboard
