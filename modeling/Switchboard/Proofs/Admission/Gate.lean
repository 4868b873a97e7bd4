import Switchboard.Proofs.Admission.Gated
import Switchboard.Proofs.Admission.Play

/-! A client whose first envelope does not get it admitted leaves nothing behind, whatever else it
sends and whoever closes the connection. -/
namespace Switchboard

variable {σ : Type} {x y z : Exchange σ} {t u : Served} {c d : Connection} {es fs : List Event}
  {m : Envelope}

/-- An envelope that gets its sender admitted. -/
def Admits (r : Router) (m : Envelope) : Prop :=
  ∃ token, m.command? = .ok (some (.authenticate token)) ∧ token ≠ "" ∧
    (r.accepted.get? token).isSome

theorem Handshake.admits_of_objection (h : objection x m = none) : Admits x.router m := by
  unfold objection at h
  split at h
  · rename_i token hc
    refine ⟨token, hc, ?_⟩
    unfold Exchange.authenticate at h
    by_cases ht : token = ""
    · simp [ht] at h
    · cases hg : x.router.accepted.get? token with
      | none => simp [ht, hg] at h
      | some i => exact ⟨ht, rfl⟩
  · cases h
  · cases h

/-- The first envelope got the client admitted, and it came in time. -/
structure Passed (r : Router) (limit : Nat) (es : List Event) (t : Served) : Prop where
  first : ∃ m, Frame.first? limit (Event.received es) = some m ∧ Admits r m
  inTime : .expired ∉ es
  heard : t.connection.admission ≠ .greeting .awaiting

theorem Closing.expired_not_mem (q : Closing) : .expired ∉ q.events x c := by
  cases q with
  | cancelled r => cases r <;> simp [events]
  | unregistered r => simp [events, Exchange.routeEvents]
  | _ => simp [events]

theorem Connection.expired_not_mem (x : Exchange σ) (c : Connection) : .expired ∉ c.events x := by
  unfold events
  split
  · split
    · split <;> simp
    · simp
    · simp
  · simp [Exchange.routeEvents]
  · simp
  · split <;> simp
  · simp
  · exact Closing.expired_not_mem _
  · simp
  · simp

theorem Passed.step {r : Router} {limit : Nat} (h : Passed r limit es t) (hs : t.Step y fs z u) :
    Passed r limit (es ++ fs) u := by
  obtain ⟨⟨m, hm, hr⟩, hin, hheard⟩ := h
  have hlater : .expired ∉ fs ∧ u.connection.admission ≠ .greeting .awaiting := by
    cases hs with
    | service hs =>
      cases hs with
      | hear ha _ => exact absurd ha hheard
      | expire ha _ => exact absurd ha hheard
      | step ha _ =>
        have hf := t.connection.step_fixed y
        exact ⟨by simpa using t.connection.expired_not_mem y, hf.2.2 ha⟩
    | read hr =>
      exact ⟨by simp, (Connection.reads_of_read? hr).2.beside.admission ▸ hheard⟩
    | write hw => exact ⟨by simp, (Connection.beside_write? hw).admission ▸ hheard⟩
    | @call _ q _ _ _ _ _ hc =>
      have hf := t.connection.closeStep_fixed y q
      rw [hc] at hf
      exact ⟨q.expired_not_mem, hf.2.2 ▸ hheard⟩
    | _ => exact ⟨by simp, hheard⟩
  refine ⟨⟨m, Frame.first?_received hm fs, hr⟩, fun hmem => ?_, hlater.2⟩
  rcases List.mem_append.1 hmem with hmem | hmem
  · exact hin hmem
  · exact hlater.1 hmem

namespace Gated

/-- The first envelope is judged: it is refused, or it is one that is let pass. -/
theorem judge (h : Gated x es y t) (ha : t.connection.admission = .greeting (.received m))
    (hs : t.connection.Serves y fs z d) :
    Gated x (es ++ .served :: fs) z { t with connection := d } ∨
      Passed x.router t.connection.maxFrame (es ++ .served :: fs) { t with connection := d } := by
  have hstep := Served.Step.service hs
  cases hs with
  | hear he _ => simp [ha] at he
  | expire he _ => simp [ha] at he
  | step hn _ =>
    have hst : t.connection.step y = ((Handshake.judge y t.connection.peer m).1,
        { t.connection with
          admission := .greeting (Handshake.judge y t.connection.peer m).2 }) :=
      Connection.step_greeting ha nofun
    rcases Handshake.judge_cases y t.connection.peer m with
      ⟨token, w, g, hx, ho, hj⟩ | ⟨text, e, ho, hj⟩
    · obtain ⟨p, -, -, hover, -⟩ := h.client
      refine .inr ⟨⟨m, Frame.first?_received (hover.received ha) _, ?_⟩, ?_, ?_⟩
      · exact h.within.router ▸ Handshake.admits_of_objection ho
      · have hex := t.connection.expired_not_mem y
        simpa [(h.early (by simp [ha, Admission.stage])).1] using hex
      · exact (t.connection.step_fixed y).2.2 hn
    · have he : t.connection.events y = if m.requestId.isSome
          then [.handed ⟨t.connection.peer, m.failure text⟩] else [] := by
        simp [Connection.events, ha, ho]
      rw [he, hst, hj] at hstep
      rw [he, hst, hj]
      exact .inl (h.reject ha hstep)

theorem service (h : Gated x es y t) (hs : t.connection.Serves y fs z d) :
    Gated x (es ++ .served :: fs) z { t with connection := d } ∨
      Passed x.router t.connection.maxFrame (es ++ .served :: fs) { t with connection := d } := by
  have hfits := h.standing.fits
  generalize haq : t.connection.admission = a at hfits
  cases hfits with
  | received m => exact h.judge haq hs
  | failing hf => exact .inl (h.fail (haq ▸ hf) hs)
  | awaiting =>
    have hstep := Served.Step.service hs
    cases hs with
    | hear _ hh =>
      unfold Handshake.hear? at hh
      split at hh <;> cases hh
      · exact .inl (h.hear haq ‹_› hstep)
      · exact .inl (h.give_up haq hstep (by simp [Event.isMute]) (Nat.le_refl 1))
    | expire _ _ =>
      exact .inl (h.give_up haq hstep (by simp [Event.isMute]) (Nat.le_refl 1))
    | step hn _ => exact absurd haq hn
  | nothing =>
    cases hs with
    | hear he _ => simp [haq] at he
    | expire he _ => simp [haq] at he
    | step _ hn => exact absurd haq hn

/-- Each step keeps out whom the first envelope does not get admitted. -/
theorem step (h : Gated x es y t) (hs : t.Step y fs z u) :
    Gated x (es ++ fs) z u ∨ Passed x.router t.connection.maxFrame (es ++ fs) u := by
  cases hs with
  | service hs => exact h.service hs
  | @read _ d hr =>
    have hrd := Connection.reads_of_read? hr
    have hb := hrd.2.beside
    obtain ⟨p, hpeer, hopen, hover, hwired⟩ := h.client
    obtain ⟨p', hpeer', hin, hopen', hover'⟩ := hover.read hpeer hopen hrd.1 hrd.2
    refine .inl (h.beside (.read hr) hb.within hb.peer hb.maxFrame hb.guard hb.admission (by simp)
      ⟨p', hpeer', hopen', ?_, ?_⟩)
    · simpa using hover'
    · rw [hin, hrd.2.outlet]
      exact hwired
  | @write _ d hw =>
    have hb := Connection.beside_write? hw
    obtain ⟨p, hpeer, hopen, hover, hwired⟩ := h.client
    obtain ⟨⟨p', hpeer', hout, hwired'⟩, hi⟩ := hwired.write hpeer hw
    refine .inl (h.beside (.write hw) hb.within hb.peer hb.maxFrame hb.guard hb.admission (by simp)
      ⟨p', hpeer', hout ▸ hopen, ?_, hwired'⟩)
    rw [hout, List.append_nil]
    exact hover.frame (by rw [hi]) hb.maxFrame (fun ha => hb.admission ▸ ha)
      fun m ha => hb.admission ▸ ha
  | close hb => exact .inl (h.close hb)
  | call hk ho hc => exact .inl (h.call hk ho hc)
  | arrive r he =>
    obtain ⟨p, hpeer, hopen, hover, hwired⟩ := h.client
    refine .inl (h.beside (.arrive r he) (.refl y) rfl rfl rfl rfl (by simp)
      ⟨p, hpeer, hopen, ?_, hwired⟩)
    rw [Event.arrivals_append]
    exact hover.arrive r
  | hangUp =>
    exact .inl (h.still .hangUp rfl rfl rfl rfl (by simp) (.inl ⟨rfl, by simp⟩) h.closed
      (by simp))
  | failWrites text =>
    exact .inl (h.still (.failWrites text) rfl rfl rfl rfl (by simp) (.inl ⟨rfl, by simp⟩) h.closed
      (by simp))

end Gated

theorem Exchange.endpoints_meet {j : Nat} (hj : j ≠ x.endpoints.length) :
    x.meet.endpoints[j]? = x.endpoints[j]? := by
  rcases Nat.lt_or_gt_of_ne hj with hlt | hgt
  · exact List.getElem?_append_left hlt
  · rw [List.getElem?_eq_none (by simpa [meet] using hgt), List.getElem?_eq_none (by omega)]

theorem Gated.new (x : Exchange σ) (grace : Duration) (maxFrame : Nat) :
    Gated x.meet [] x.meet (.new x.endpoints.length grace maxFrame) where
  standing := .new x grace maxFrame
  within := .refl _
  unrouted := by simp
  early _ := ⟨by simp, rfl⟩
  answered := .inl rfl
  closed h := absurd h (by simp [Served.new, Admission.stage])
  bounded := Nat.le_refl 8
  client := by
    refine ⟨{}, ?_, rfl, ?_, .nothing []⟩
    · simp [Exchange.peer?, Exchange.meet, Served.new, Endpoint.peer?]
    · exact .silent rfl (by simp [Served.new]) fun _ => ⟨[], rfl, fun b => rfl⟩

/-- Whatever a new connection has come to, it was kept out or let pass. -/
theorem gated_of_run {grace : Duration} {maxFrame : Nat}
    (hr : (Served.new x.endpoints.length grace maxFrame).Run x.meet es y t) :
    (t.connection.peer = x.endpoints.length ∧ t.connection.maxFrame = maxFrame) ∧
      (Gated x.meet es y t ∨ Passed x.router maxFrame es t) := by
  induction hr with
  | refl => exact ⟨⟨rfl, rfl⟩, .inl (.new x grace maxFrame)⟩
  | tail _ hs ih =>
    obtain ⟨⟨hp, hm⟩, hg | hp'⟩ := ih
    · refine ⟨⟨hs.fixed.1.trans hp, hs.fixed.2.trans hm⟩, ?_⟩
      have hstep := hg.step hs
      rwa [hm] at hstep
    · exact ⟨⟨hs.fixed.1.trans hp, hs.fixed.2.trans hm⟩, .inr (hp'.step hs)⟩

/-- A connection to `x` that came to nothing. -/
structure Rebuffed (x : Exchange σ) (maxFrame : Nat) (es : List Event) (y : Exchange σ)
    (t : Served) : Prop where
  /-- All tables are as they were. -/
  router : y.router = x.router
  /-- Nobody but the client is handed anything. -/
  others : ∀ j, j ≠ x.endpoints.length → y.endpoints[j]? = x.endpoints[j]?
  unrouted : ∀ m source, .routed m source ∉ es
  /-- The client is answered at most, and only if its first envelope asks for it. -/
  answered : Answered x.endpoints.length maxFrame es
  written : t.connection.outlet.written = [] ∨ ∃ h ∈ Event.handings es,
    Frame.encode Frame.maxBody h.envelope = .ok t.connection.outlet.written
  /-- It is given nothing. -/
  papers : y.papers x.endpoints.length = some (none, none)
  unnamed : t.connection.guard.route = none
  closed : t.connection.admission = .finished → t.connection.guard.closed = true
  /-- The service can always go on, and does so a few times only, until it has returned. -/
  ends : t.connection.admission = .finished ∨ ∃ fs z d, t.connection.Serves y fs z d
  bounded : es.countP Event.isServed ≤ 8

theorem Connection.serves_or_finished (x : Exchange σ) (c : Connection) :
    c.admission = .finished ∨ ∃ es y d, c.Serves x es y d := by
  by_cases hf : c.admission = .finished
  · exact .inl hf
  · by_cases ha : c.admission = .greeting .awaiting
    · cases hh : Handshake.hear? x c.peer with
      | none => exact .inr ⟨_, _, _, .expire ha hh⟩
      | some v => exact .inr ⟨_, _, _, .hear ha hh⟩
    · exact .inr ⟨_, _, _, .step ha hf⟩

/-- No client gets anything whose first envelope does not get it admitted, or that says none in
time; whatever the bytes are that it sends, and in whatever order the parties make their steps. -/
theorem rebuffed_of_run {grace : Duration} {maxFrame : Nat}
    (hr : (Served.new x.endpoints.length grace maxFrame).Run x.meet es y t)
    (hm : .expired ∈ es ∨ ∀ m, Frame.first? maxFrame (Event.received es) = some m →
      ¬Admits x.router m) : Rebuffed x maxFrame es y t := by
  obtain ⟨⟨hp, hmax⟩, hg | ⟨⟨m, hfirst, hadm⟩, hin, -⟩⟩ := gated_of_run hr
  · obtain ⟨p, hpeer, -, -, hwired⟩ := hg.client
    have hans := hg.answered
    have hpapers := hg.standing.papers
    rw [hp] at hpapers
    rw [hp, hmax] at hans
    constructor
    case router => exact hg.within.router
    case others =>
      intro j hj
      rw [hg.within.endpoints j (hp ▸ hj)]
      exact Exchange.endpoints_meet hj
    case unrouted => exact hg.unrouted
    case answered => exact hans
    case written => exact hwired.written_cases
    case papers => exact hpapers
    case unnamed => exact hg.standing.guarded
    case closed =>
      intro hf
      exact hg.closed (by simp [hf, Admission.stage])
    case ends => exact t.connection.serves_or_finished y
    case bounded =>
      have hb := hg.bounded
      omega
  · rcases hm with he | hm
    · exact absurd he hin
    · exact absurd hadm (hm m hfirst)

/-- A client presents a token to a router that accepts none, is told so, and is not let in. -/
def rebuff? : Option (List Event × Exchange Unit × Served) :=
  (Served.new 0 (.ofSeconds 5) 100).play? (Exchange.meet {})
    [.arrive (.data [0, 0, 0, 37, 131, 167, 99, 111, 109, 109, 97, 110, 100, 172, 97, 117, 116, 104,
      101, 110, 116, 105, 99, 97, 116, 101, 165, 114, 101, 113, 105, 100, 161, 49, 164, 100, 97,
      116, 97, 161, 116]), .read, .read, .service, .service, .write, .service, .service, .service,
      .service, .service, .service]

theorem rebuff?_isSome : rebuff?.isSome := by decide +kernel

theorem nothing_admits (m : Envelope) : ¬Admits {} m := by
  rintro ⟨token, -, -, h⟩
  cases h

theorem rebuff_rebuffed :
    let v := rebuff?.get rebuff?_isSome
    (Served.new 0 (.ofSeconds 5) 100).Run (Exchange.meet {}) v.1 v.2.1 v.2.2 ∧
      (∀ m, Frame.first? 100 (Event.received v.1) = some m → ¬Admits {} m) ∧
      Rebuffed {} 100 v.1 v.2.1 v.2.2 := by
  intro v
  have hr := Served.run_of_play? (Option.some_get rebuff?_isSome).symm
  exact ⟨hr, fun m _ => nothing_admits m,
    rebuffed_of_run hr (.inr fun m _ => nothing_admits m)⟩

end Switchboard
