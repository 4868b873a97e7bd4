import Switchboard.Proofs.Admission.Teardown

/-! Whatever party makes a step, its connection stays in one of the phases. -/
namespace Switchboard

variable {σ : Type} {x y : Exchange σ} {s t : Served} {d : Connection} {ev es : List Event}
  {ph : Phase} {g : Grant}

open Event

/-- How far a handshake is tells the phase, as long as it has not failed. -/
theorem Fits.greeting {hs : Handshake} (h : Fits ph (.greeting hs)) :
    match hs with
    | .awaiting | .received _ => ph = .fresh
    | .granted _ g => ph = .granted g
    | .stored _ g => ph = .stored g
    | .announced _ g => ph = .announced g
    | .ended (.ok route) => ∃ g, ph = .announced g ∧ route = g.route
    | .ended (.error _) => True := by
  cases h with
  | failing hf =>
    cases hf
    trivial
  | lost g hf =>
    cases hf
    trivial
  | welcomed g => exact ⟨g, rfl, rfl⟩
  | _ => rfl

namespace Standing

/-- The service goes on in its phase, and does nothing that counts. -/
theorem proceed {a : Admission} (h : Standing x s ev ph) (hc : x.Calm y) (hf : Fits ph a)
    (hw : a.isClosing = s.connection.admission.isClosing) (hq : ∀ e ∈ es, e.IsQuiet) :
    ∃ qh, Standing y { s with connection.admission := a } (ev ++ .served :: es) qh ∧
      Effect x y s.connection.peer ph qh := by
  have hqs : ∀ e ∈ .served :: es, e.IsQuiet := by
    intro e he
    rcases List.mem_cons.1 he with rfl | he
    · exact served_isQuiet
    · exact hq e he
  exact h.advance_effect hc rfl rfl rfl rfl hf hw hqs

/-- The pumps of the connection go on, beside its service. -/
theorem beside (h : Standing x s ev ph) (hb : s.connection.Beside x y d) :
    ∃ qh, Standing y { s with connection := d } (ev ++ []) qh ∧
      Effect x y s.connection.peer ph qh := by
  have hf : Fits ph d.admission := by
    rw [hb.admission]
    exact h.fits
  have hw : d.admission.isClosing = s.connection.admission.isClosing := by rw [hb.admission]
  have hr : d.guard.route = s.connection.guard.route := by rw [hb.guard]
  have hd : d.guard.closed = s.connection.guard.closed := by rw [hb.guard]
  exact h.advance_effect hb.within.calm hb.peer hr hd rfl hf hw (fun _ he => nomatch he)

/-- The first envelope is refused, and the client is told of it if it wants an answer. -/
theorem reject {first : Envelope} {text : String} {e : Error} (h : Standing x s ev .fresh)
    (ha : s.connection.admission = .greeting (.received first)) :
    Standing (Handshake.reject x s.connection.peer first text)
        { s with connection.admission := .greeting (.ended (.error e)) }
        (ev ++ .served :: if first.requestId.isSome
          then [.handed ⟨s.connection.peer, first.failure text⟩] else []) .fresh ∧
      Effect x (Handshake.reject x s.connection.peer first text) s.connection.peer
        .fresh .fresh := by
  have hq : ∀ e ∈ (if first.requestId.isSome
      then [Event.handed ⟨s.connection.peer, first.failure text⟩] else []), e.IsQuiet := by
    intro e he
    split at he
    · obtain rfl := List.mem_singleton.1 he
      exact handed_isQuiet (by simp [Exchange.IsControl, Envelope.failure])
    · cases he
  have hc := (Handshake.within_reject x s.connection.peer first text).calm
  refine ⟨h.advance hc rfl rfl rfl rfl (.failing (.ended e)) ?_ ?_, effect_of_calm hc rfl rfl rfl⟩
  · simp [ha, Admission.isClosing]
  · simpa [served_isQuiet] using hq

/-- From a connection that was granted nothing, there is nothing to take back. -/
theorem withdraw_fresh (h : Standing x s ev .fresh) :
    s.connection.withdraw x = x ∧ s.connection.withdrawHandings x = [] := by
  obtain ⟨p, hp, hr, -⟩ := Exchange.peer?_of_papers h.papers
  obtain ⟨b, t, r⟩ := p
  obtain rfl : r = none := hr
  simp [Connection.withdraw, Connection.withdrawHandings, hp]

/-- The service judges the first envelope. -/
theorem judge {first : Envelope} (h : Standing x s ev .fresh)
    (ha : s.connection.admission = .greeting (.received first)) :
    ∃ qh, Standing (s.connection.step x).1 { s with connection := (s.connection.step x).2 }
        (ev ++ .served :: s.connection.events x) qh ∧
      Effect x (s.connection.step x).1 s.connection.peer .fresh qh := by
  have hst : s.connection.step x =
      ((Handshake.judge x s.connection.peer first).1,
        { s.connection with
          admission := .greeting (Handshake.judge x s.connection.peer first).2 }) := by
    simp [Connection.step, ha, Handshake.step]
  rcases Handshake.judge_cases x s.connection.peer first with
    ⟨token, y, g, hx, ho, hj⟩ | ⟨text, e, ho, hj⟩
  · have he : s.connection.events x = [.granted g] := by
      simp [Connection.events, ha, ho, hst, hj]
    rw [he, hst, hj]
    exact ⟨.granted g, h.grant ha hx⟩
  · have he : s.connection.events x = if first.requestId.isSome
        then [.handed ⟨s.connection.peer, first.failure text⟩] else [] := by
      simp [Connection.events, ha, ho]
    rw [he, hst, hj]
    exact ⟨.fresh, h.reject ha⟩

/-- The client is told that it is admitted, if it can be told. -/
theorem answer {first : Envelope} (h : Standing x s ev (.announced g))
    (ha : s.connection.admission = .greeting (.announced first g)) :
    let out := (Handshake.announced first g).step x s.connection.peer
    Standing out.1 { s with connection.admission := .greeting out.2 }
        (ev ++ [.served, .handed ⟨s.connection.peer, Handshake.welcome first g⟩]) (.announced g) ∧
      Effect x out.1 s.connection.peer (.announced g) (.announced g) := by
  intro out
  have hf : Fits (.announced g) (.greeting out.2) := by
    simp only [out, Handshake.step]
    split
    · exact .welcomed g
    · exact .lost g (.ended _)
  have hc : x.Calm out.1 := (Handshake.within_step_announced g).calm
  refine ⟨h.advance hc rfl rfl rfl rfl hf ?_ ?_, effect_of_calm hc rfl rfl rfl⟩
  · simp [ha, Admission.isClosing]
  · have hq : IsQuiet (.handed ⟨s.connection.peer, Handshake.welcome first g⟩) :=
      handed_isQuiet (by simp [Exchange.IsControl, Handshake.welcome, Envelope.response])
    simp [served_isQuiet, hq]

/-- The service makes a step of its own while it tells the peer that it is admitted. -/
theorem greeting {hs : Handshake} (h : Standing x s ev ph)
    (ha : s.connection.admission = .greeting hs) (hw : hs ≠ .awaiting)
    (hn : ∀ g, ph.grant? = some g → g.route ≠ uplinkRoute) :
    (∃ qh, Standing (s.connection.step x).1 { s with connection := (s.connection.step x).2 }
        (ev ++ .served :: s.connection.events x) qh ∧
      Effect x (s.connection.step x).1 s.connection.peer ph qh) ∧
    (s.connection.step x).2.peer = s.connection.peer := by
  have hf := (ha ▸ h.fits : Fits ph (.greeting hs)).greeting
  have hst := Connection.step_greeting (x := x) ha
  cases hs with
  | awaiting => exact absurd rfl hw
  | received first =>
    obtain rfl : ph = .fresh := hf
    exact ⟨h.judge ha, by rw [hst nofun]⟩
  | granted first g =>
    obtain rfl : ph = .granted g := hf
    rw [hst nofun, Connection.events, ha]
    exact ⟨⟨.stored g, h.store ha⟩, rfl⟩
  | stored first g =>
    obtain rfl : ph = .stored g := hf
    rw [hst nofun, Connection.events, ha]
    exact ⟨⟨.announced g, h.announce ha (hn g rfl)⟩, rfl⟩
  | announced first g =>
    obtain rfl : ph = .announced g := hf
    rw [hst nofun, Connection.events, ha]
    exact ⟨⟨.announced g, h.answer ha⟩, rfl⟩
  | ended r =>
    rw [Connection.step, Connection.events, ha]
    cases r with
    | ok route =>
      obtain ⟨g, rfl, rfl⟩ := hf
      refine ⟨h.proceed (.refl x) (.admitted g) ?_ (by simp), rfl⟩
      simp [ha, Admission.isClosing]
    | error e =>
      have hf := (ha ▸ h.fits : Fits ph (.greeting (.ended (.error e))))
      refine ⟨h.proceed (.refl x) (hf.failing_again (.ended e) .refused) ?_ (by simp), rfl⟩
      simp [ha, Admission.isClosing]

/-- The close call of the service makes a step. -/
theorem closing {c : Closing} (h : Standing x s ev ph)
    (ha : s.connection.admission = .closing c) :
    (∃ qh, Standing (s.connection.step x).1 { s with connection := (s.connection.step x).2 }
        (ev ++ .served :: s.connection.events x) qh ∧
      Effect x (s.connection.step x).1 s.connection.peer ph qh) ∧
    (s.connection.step x).2.peer = s.connection.peer := by
  have hf : Fits ph (.closing c) := ha ▸ h.fits
  have hfail : Failing (.closing c) := by
    cases hf with
    | failing hf => exact hf
    | lost g hf => exact hf
  rw [Connection.step, Connection.events, ha]
  cases hfail with
  | marked =>
    -- Both streams are told here, so the guard changes along with the admission.
    have hc := hf.failing_again .marked .cancelled
    refine ⟨h.advance_effect (.refl x) rfl rfl rfl rfl hc ?_ ?_, rfl⟩
    · simp [ha, Connection.closeStep, Admission.isClosing, Closing.isOpen]
    · simp [served_isQuiet, Closing.events]
  | cancelled => exact ⟨⟨ph, h.service_closed ha⟩, rfl⟩
  | closed closedIt =>
    refine ⟨h.proceed (.refl x) (hf.failing_again (.closed closedIt) .unbound) ?_ ?_, rfl⟩
    · simp [ha, Admission.isClosing, Closing.isOpen]
    · simp [Closing.events]

/-- The service of a connection makes a step. -/
theorem service (h : Standing x s ev ph) (hn : ∀ g, ph.grant? = some g → g.route ≠ uplinkRoute)
    (hs : s.connection.Serves x es y d) :
    (∃ qh, Standing y { s with connection := d } (ev ++ .served :: es) qh ∧
      Effect x y s.connection.peer ph qh) ∧
    d.peer = s.connection.peer := by
  cases hs with
  | @hear _ hs ha hh =>
    obtain rfl : ph = .fresh := (ha ▸ h.fits : Fits ph (.greeting .awaiting)).greeting
    have hf : Fits .fresh (.greeting hs) := by
      obtain ⟨m, rfl⟩ | rfl := Handshake.hear?_cases hh
      · exact .received m
      · exact .failing (.ended _)
    refine ⟨h.proceed (Handshake.within_hear? hh).calm hf ?_ (by simp), rfl⟩
    simp [ha, Admission.isClosing]
  | expire ha hh =>
    obtain rfl : ph = .fresh := (ha ▸ h.fits : Fits ph (.greeting .awaiting)).greeting
    refine ⟨h.proceed (.refl x) (.failing (.ended _)) ?_ ?_, rfl⟩
    · simp [ha, Admission.isClosing]
    · simp [expired_isQuiet]
  | step hw hd =>
    cases ha : s.connection.admission with
    | greeting hs => exact h.greeting ha (fun he => hw (he ▸ ha)) hn
    | admitted route =>
      obtain ⟨g, rfl, rfl⟩ : ∃ g, ph = .announced g ∧ route = g.route := by
        have hf := ha ▸ h.fits
        cases hf with
        | admitted g => exact ⟨g, rfl, rfl⟩
        | failing hf => cases hf
        | lost g hf => cases hf
      rw [Connection.step, Connection.events, ha]
      by_cases hc : s.connection.guard.closed = true
      · simp only [Connection.bindRoute, if_pos hc]
        refine ⟨h.proceed (.refl x) (.lost g .unbound) ?_ (by simp), trivial⟩
        simp [ha, Admission.isClosing]
      · simp only [Connection.bindRoute, if_neg hc]
        exact ⟨⟨.bound g, h.bind ha (Bool.eq_false_iff.2 hc)⟩, trivial⟩
    | refused =>
      rw [Connection.step, Connection.events, ha]
      exact ⟨⟨ph, h.refuse ha rfl⟩, rfl⟩
    | closing c => exact h.closing ha
    | unbound =>
      rw [Connection.step, Connection.events, ha]
      have hf := ha ▸ h.fits
      cases hf with
      | failing _ =>
        rw [h.withdraw_fresh.1, h.withdraw_fresh.2]
        refine ⟨h.proceed (.refl x) .nothing ?_ (by simp), rfl⟩
        simp [ha, Admission.isClosing]
      | lost g _ => exact ⟨⟨.withdrawn g, h.withdraw ha⟩, rfl⟩
    | finished => exact absurd ha hd

end Standing

/-- Each step of a party keeps a connection in one of its phases, and does to the exchange what the
change of phase allows. -/
theorem standing_step (h : Standing x s ev ph)
    (hn : ∀ g, ph.grant? = some g → g.route ≠ uplinkRoute) (hs : s.Step x es y t) :
    (∃ qh, Standing y t (ev ++ es) qh ∧ Effect x y s.connection.peer ph qh) ∧
      t.connection.peer = s.connection.peer := by
  cases hs with
  | service hs => exact h.service hn hs
  | read hr =>
    have hb := (Connection.reads_of_read? hr).2.beside
    exact ⟨h.beside hb, hb.peer⟩
  | write hr =>
    have hb := Connection.beside_write? hr
    exact ⟨h.beside hb, hb.peer⟩
  | close hb => exact ⟨h.close hb, rfl⟩
  | call hk ho hs => exact h.call hk ho hs
  | arrive r _ =>
    exact ⟨h.advance_effect (.refl x) rfl rfl rfl rfl h.fits rfl
      (by simp [arrived_isQuiet]), rfl⟩
  | hangUp => exact ⟨h.advance_effect (.refl x) rfl rfl rfl rfl h.fits rfl (by simp), rfl⟩
  | failWrites text =>
    exact ⟨h.advance_effect (.refl x) rfl rfl rfl rfl h.fits rfl (by simp), rfl⟩

end Switchboard
