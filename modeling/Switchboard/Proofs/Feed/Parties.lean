import Switchboard.Proofs.Feed.Sound

/-! Whatever step a party to the connection makes, all that the client has said stays where it is in
order, or goes on to the service. -/
namespace Switchboard

variable {σ : Type} {x y : Exchange σ} {f : Feed σ} {c d : Connection} {ph qh : Phase} {g : Grant}
  {heard heard' fed : List Envelope} {q q' : Queue} {es : List Event} {a : Admission}

/-- Writing is nothing to what the peer has to say, nor to reading. -/
theorem Connection.quiet_of_write? (h : c.write? x = some (y, d)) :
    y.voice c.peer = x.voice c.peer ∧ d.intake = c.intake := by
  unfold write? at h
  split at h
  · cases h
  · split at h
    · cases h
    · split at h
      · cases h
        exact ⟨Exchange.voice_modifyPeer fun _ => rfl, rfl⟩
      · split at h
        · cases h
        · cases h
          exact ⟨Exchange.voice_modifyPeer fun _ => rfl, rfl⟩
        · simp only at h
          split at h
          · cases h
            exact ⟨Exchange.voice_modifyPeer fun _ => rfl, rfl⟩
          · split at h <;> cases h
            · exact ⟨Exchange.voice_modifyPeer fun _ => rfl, rfl⟩
            · refine ⟨Eq.trans (Exchange.voice_modifyPeer ?_)
                (Exchange.voice_modifyPeer ?_), rfl⟩
              · exact fun _ => rfl
              · exact fun _ => rfl

theorem Guard.cancelled_beginClose (g : Guard) : g.beginClose.1.cancelled = g.cancelled := by
  unfold beginClose
  split <;> rfl

/-- The next step of a call that closes the connection touches nothing of it but that both sides of
the stream may be told. -/
theorem Connection.closeStep_eq (x : Exchange σ) (c : Connection) (q : Closing) :
    (c.closeStep x q).2.1 = c ∨ (c.closeStep x q).2.1 = { c with guard.cancelled := true } := by
  cases q with
  | marked r => exact .inr rfl
  | cancelled r => cases r <;> exact .inl rfl
  | disposed token => cases token <;> exact .inl rfl
  | _ => exact .inl rfl

namespace Feed

/-- After a step of a party that neither makes a call to close the connection nor is one. -/
def after (f : Feed σ) (y : Exchange σ) (d : Connection) (es : List Event) : Feed σ :=
  { f with exchange := y, served := { f.served with connection := d }, events := f.events ++ es }

namespace Sound

theorem said_after (h : Sound x f ph heard fed q) (he : Event.arrivals es = [])
    (hm : d.maxFrame = f.served.connection.maxFrame)
    (hi : d.intake = f.served.connection.intake)
    (ht : f.served.connection.guard.cancelled = true → d.guard.cancelled = true) :
    Said d.maxFrame (Event.arrivals (f.events ++ es)) d.intake d.guard.cancelled
      (heard ++ fed ++ q.items) := by
  rw [Event.arrivals_append, he, List.append_nil, hm, hi]
  exact h.said.cancel ht

theorem read (h : Sound x f ph heard fed q)
    (hr : f.served.connection.read? f.exchange = some (y, d)) :
    ∃ q', Sound x (f.after y d []) ph heard fed q' := by
  obtain ⟨more, r, ho, hitems, hv, hs⟩ := h.said.read h.voice h.isOpen hr
  obtain ⟨hw, hp, hm, hg, ha⟩ := (Connection.reads_of_read? hr).2.beside
  have hrouter : Router.Keeps f.peer ph.bound? True f.exchange.router y.router :=
    hw.router ▸ .refl _
  refine ⟨r, h.go hrouter (fun hc => ⟨hg ▸ hc, trivial⟩) hp hv ho ?_ ?_ ?_ .stay⟩
  · show Said d.maxFrame _ d.intake d.guard.cancelled _
    rw [List.append_nil, hm, hg, hitems, ← List.append_assoc]
    exact hs
  · show Hearing ph d.admission heard
    rw [ha]
    exact h.hearing
  · exact h.course.beside hg ha rfl

theorem write (h : Sound x f ph heard fed q)
    (hw : f.served.connection.write? f.exchange = some (y, d)) :
    Sound x (f.after y d []) ph heard fed q := by
  obtain ⟨hv, hi⟩ := Connection.quiet_of_write? hw
  obtain ⟨hwithin, hp, hm, hg, ha⟩ := Connection.beside_write? hw
  have hapart : f.exchange.Apart f.peer ph.bound? True y := .of_router hv hwithin.router
  refine h.apart hapart (fun hc => ⟨hg ▸ hc, trivial⟩) hp rfl
    (h.said_after rfl hm hi fun ht => hg ▸ ht) ?_ (h.course.beside hg ha rfl) .stay
  show Hearing ph d.admission heard
  rw [ha]
  exact h.hearing

/-- A call to close begins. -/
theorem close {gd : Guard} {cl : Closing} (h : Sound x f ph heard fed q) (seen : List Side)
    (hb : f.served.connection.guard.beginClose = (gd, cl)) :
    Sound x { f with
      served := {
        connection := { f.served.connection with guard := gd }
        calls := f.served.calls ++ [cl] }
      seen
      events := f.events ++ [.called] } ph heard fed q := by
  have hclosed := f.served.connection.guard.closed_beginClose
  have hcancelled := f.served.connection.guard.cancelled_beginClose
  rw [hb] at hclosed hcancelled
  have hg : (f.events ++ [Event.called]).filterMap Event.grant? = ph.grant?.toList :=
    h.course.grants_append (by simp [Event.isPlain])
  refine h.apart (.refl _) (fun ho => ?_) rfl rfl
    (h.said_after rfl rfl rfl fun ht => hcancelled.trans ht) h.hearing
    (.shut hclosed h.course.fits hg) .stay
  exact absurd (hclosed.symm.trans ho) (by simp)

/-- A call to close makes a step. -/
theorem call {k : Nat} {cl dl : Closing} (h : Sound x f ph heard fed q)
    (hk : f.served.calls[k]? = some cl)
    (hs : f.served.connection.closeStep f.exchange cl = (y, d, dl)) :
    Sound x { f with
      exchange := y
      served := { connection := d, calls := f.served.calls.set k dl }
      events := f.events ++ cl.events f.exchange f.served.connection } ph heard fed q := by
  have hclosed := h.course.closed_of_call hk
  have hplain := Event.plain_closing f.exchange f.served.connection cl
  have hy : f.exchange.Apart f.peer ph.bound? False
      (f.served.connection.closeStep f.exchange cl).1 := Exchange.apart_closeStep _ _ cl
  have hd := f.served.connection.closeStep_eq f.exchange cl
  rw [hs] at hy hd
  have hgrants := h.course.grants_append hplain
  have harr := (Event.plain hplain).1
  rcases hd with rfl | rfl
  · refine h.apart hy (fun ho => absurd (hclosed.symm.trans ho) nofun) rfl rfl
      (h.said_after harr rfl rfl id) h.hearing (.shut hclosed h.course.fits hgrants) .stay
  · refine h.apart hy (fun ho => absurd (hclosed.symm.trans ho) nofun) rfl rfl
      (h.said_after harr rfl rfl fun _ => rfl) h.hearing
      (.shut hclosed h.course.fits hgrants) .stay

/-- The service goes on with another admission. -/
theorem serve (h : Sound x f ph heard fed q)
    (hr : Router.Keeps f.peer ph.bound? True f.exchange.router y.router)
    (hv : y.voice f.peer = some (q', qh.papers)) (ho : q'.isOpen = true)
    (hsaid : heard' ++ fed ++ q'.items = heard ++ fed ++ q.items) (hh : Hearing qh a heard')
    (hf : Fits qh a) (he : Event.arrivals es = [])
    (hg : ph.grant?.toList ++ es.filterMap Event.grant? = qh.grant?.toList)
    (hq : ph.Onward qh)
    (ha : f.served.connection.guard.closed = true ∨ a.isEarly = true) :
    Sound x (f.after y { f.served.connection with admission := a } (.served :: es)) qh heard' fed
      q' := by
  refine h.go hr (fun hc => ⟨hc, trivial⟩) rfl hv ho ?_ hh (h.course.serve hf hg hq.bound_eq ha) hq
  rw [hsaid]
  exact h.said_after he rfl rfl id

/-- The service goes on, and neither the peer nor its pump has to do with it. -/
theorem proceed (h : Sound x f ph heard fed q)
    (hy : f.exchange.Apart f.peer ph.bound? True y) (hp : qh.papers = ph.papers)
    (hg : qh.grant? = ph.grant?) (hq : ph.Onward qh) (hf : Fits qh a) (hj : a.isJudged = true)
    (he : ∀ e ∈ es, e.isPlain = true)
    (ha : f.served.connection.guard.closed = true ∨ a.isEarly = true) :
    Sound x (f.after y { f.served.connection with admission := a } (.served :: es)) qh heard fed
      q := by
  obtain ⟨harr, hgrant⟩ := Event.plain he
  refine h.serve hy.router (by rw [hy.voice, h.voice, hp]) h.isOpen rfl
    (h.hearing.later hg hj) hf harr ?_ hq ha
  rw [hgrant, hg, List.append_nil]

/-- The service goes on in closing the connection. -/
theorem shut {gd : Guard} (h : Sound x f ph heard fed q) (hc : gd.closed = true)
    (ht : f.served.connection.guard.cancelled = true → gd.cancelled = true) (hf : Fits ph a)
    (hj : a.isJudged = true) (he : ∀ e ∈ es, e.isPlain = true) :
    Sound x (f.after f.exchange { f.served.connection with guard := gd, admission := a }
      (.served :: es)) ph heard fed q := by
  have hplain := Event.plain_cons (e := .served) rfl he
  exact h.apart (.refl _) (fun ho => absurd (hc.symm.trans ho) nofun) rfl rfl
    (h.said_after (Event.plain hplain).1 rfl rfl ht) (h.hearing.later rfl hj)
    (.shut hc hf (h.course.grants_append hplain)) .stay

/-- The first envelope is heard. -/
theorem hear {m : Envelope} (h : Sound x f .fresh heard fed q)
    (ha : f.served.connection.admission = .greeting .awaiting)
    (hh : f.exchange.hear f.peer = .envelope m y) :
    ∃ q', Sound x (f.after y { f.served.connection with admission := .greeting (.received m) }
      [.served]) .fresh [m] fed q' := by
  obtain ⟨rest, hrest, hv⟩ := Exchange.voice_hear h.voice hh
  have hheard := h.hearing.silent ha
  have hfed : fed = [] := by
    cases h.flow
    rfl
  have hrouter : Router.Keeps f.peer none True f.exchange.router y.router :=
    (Exchange.within_hear hh).router ▸ .refl _
  refine ⟨{ q with items := rest }, h.serve hrouter hv h.isOpen ?_ ?_ (.received m) rfl rfl
    .stay (.inr rfl)⟩
  · rw [hheard, hfed, hrest]
    rfl
  · exact ⟨nofun, fun m' hm => by cases hm; rfl, fun _ => nofun⟩

/-- The service judges the first envelope. -/
theorem judge {first : Envelope} (h : Sound x f .fresh heard fed q)
    (ha : f.served.connection.admission = .greeting (.received first)) :
    ∃ qh, Sound x (f.after (f.served.connection.step f.exchange).1
      (f.served.connection.step f.exchange).2
      (.served :: f.served.connection.events f.exchange)) qh heard fed q := by
  have hheard := h.hearing.received first ha
  have hst : f.served.connection.step f.exchange =
      ((Handshake.judge f.exchange f.peer first).1,
        { f.served.connection with
          admission := .greeting (Handshake.judge f.exchange f.peer first).2 }) :=
    Connection.step_greeting ha (by simp)
  rcases Handshake.judge_cases f.exchange f.peer first with
    ⟨token, y, g, hx, ho, hj⟩ | ⟨text, e, ho, hj⟩
  · have he : f.served.connection.events f.exchange = [.granted g] := by
      simp [Connection.events, ha, ho, hst, hj]
    obtain ⟨token, hcommand, -, -⟩ := Handshake.admits_of_objection ho
    have hapart : f.exchange.Apart f.peer none True y := Exchange.apart_authenticate hx
    rw [he, hst, hj]
    refine ⟨.granted g, h.serve hapart.router (hapart.voice.trans h.voice) h.isOpen rfl ?_
      (.granted first g) rfl rfl (.free rfl rfl) (.inr rfl)⟩
    exact ⟨by simp, by simp, fun _ _ => ⟨first, token, hheard, hcommand⟩⟩
  · have he : f.served.connection.events f.exchange = if first.requestId.isSome
        then [.handed ⟨f.peer, first.failure text⟩] else [] := by
      simp [Connection.events, ha, ho, peer]
    rw [he, hst, hj]
    refine ⟨.fresh, h.proceed (Exchange.apart_reject _ _ _ _) rfl rfl .stay
      (.failing (.ended e)) rfl ?_ (.inr rfl)⟩
    split <;> simp [Event.isPlain]

/-- The client is told that it is admitted, if it can be told. -/
theorem answer (h : Sound x f (.announced g) heard fed q) (first : Envelope) :
    let out := (Handshake.announced first g).step f.exchange f.peer
    Sound x (f.after out.1 { f.served.connection with admission := .greeting out.2 }
      [.served, .handed ⟨f.peer, Handshake.welcome first g⟩]) (.announced g) heard fed q := by
  intro out
  have hy : f.exchange.Apart f.peer none True out.1 := Exchange.apart_answer f.exchange _ first g
  have hended : ∃ r, out.2 = .ended r ∧ Fits (.announced g) (.greeting (.ended r)) := by
    simp only [out, Handshake.step]
    split
    · exact ⟨_, rfl, .welcomed g⟩
    · exact ⟨_, rfl, .lost g (.ended _)⟩
  obtain ⟨r, hr, hf⟩ := hended
  rw [hr]
  exact h.proceed hy rfl rfl .stay hf rfl (by simp [Event.isPlain])
    (.inr rfl)

/-- The handshake is over. -/
theorem conclude {r : Except Error String} (h : Sound x f ph heard fed q)
    (ha : f.served.connection.admission = .greeting (.ended r)) :
    ∃ qh, Sound x (f.after (f.served.connection.step f.exchange).1
      (f.served.connection.step f.exchange).2
      (.served :: f.served.connection.events f.exchange)) qh heard fed q := by
  have hf : Fits ph (.greeting (.ended r)) := ha ▸ h.course.fits
  simp only [Connection.step, Connection.events, ha]
  cases r with
  | ok route =>
    obtain ⟨g, rfl, rfl⟩ := hf.greeting
    exact ⟨.announced g, h.proceed (.refl _) rfl rfl .stay (.admitted g) rfl (by simp) (.inr rfl)⟩
  | error e =>
    exact ⟨ph, h.proceed (.refl _) rfl rfl .stay (hf.failing_again (.ended e) .refused) rfl
      (by simp) (.inr rfl)⟩

/-- The service makes a step of the handshake. -/
theorem greeting {hs : Handshake} (h : Sound x f ph heard fed q)
    (ha : f.served.connection.admission = .greeting hs) (hw : hs ≠ .awaiting) :
    ∃ qh q', Sound x (f.after (f.served.connection.step f.exchange).1
      (f.served.connection.step f.exchange).2
      (.served :: f.served.connection.events f.exchange)) qh heard fed q' := by
  have hf := (ha ▸ h.course.fits : Fits ph (.greeting hs)).greeting
  have hst := Connection.step_greeting (x := f.exchange) ha
  cases hs with
  | awaiting => exact absurd rfl hw
  | received first =>
    obtain rfl : ph = .fresh := hf
    obtain ⟨qh, hq⟩ := h.judge ha
    exact ⟨qh, q, hq⟩
  | granted first g =>
    obtain rfl : ph = .granted g := hf
    rw [hst (by simp), Connection.events, ha]
    have hv := Exchange.voice_modifyPeer_papers h.voice g.route g.token
    exact ⟨.stored g, q, h.serve (.refl _) hv h.isOpen rfl
      (h.hearing.later rfl rfl) (.stored first g) rfl rfl (.free rfl rfl) (.inr rfl)⟩
  | stored first g =>
    obtain rfl : ph = .stored g := hf
    rw [hst (by simp), Connection.events, ha]
    exact ⟨.announced g, q, h.proceed (Exchange.apart_route _ _) rfl rfl (.free rfl rfl)
      (.announced first g) rfl (Event.plain_routeEvents _ _ _) (.inr rfl)⟩
  | announced first g =>
    obtain rfl : ph = .announced g := hf
    rw [hst (by simp), Connection.events, ha]
    exact ⟨.announced g, q, h.answer first⟩
  | ended r =>
    obtain ⟨qh, hq⟩ := h.conclude ha
    exact ⟨qh, q, hq⟩

/-- The route is bound: from here on the pump fetches what the peer says. -/
theorem bind (h : Sound x f (.announced g) heard fed q)
    (hopen : f.served.connection.guard.closed = false) :
    Sound x (f.after (f.exchange.register g.route f.peer false)
      { f.served.connection with
        admission := .finished
        guard.route := some g.route } [.served, .bound g.route]) (.bound g) heard fed q := by
  obtain ⟨hl, hs, hn, -, -⟩ := h.course.running hopen
  have hclosed : (f.exchange.router.register g.route f.peer false).closed =
      f.exchange.router.closed := (Router.rest_register _ _ _ _).2.2
  have hgrants : (f.events ++ [Event.served, .bound g.route]).filterMap Event.grant? = [g] :=
    h.course.grants_append (by simp [Event.isPlain])
  constructor
  case course => exact ⟨.bound g, hgrants, fun _ => ⟨hl, hs, hn, rfl, .inr ⟨rfl, rfl⟩⟩⟩
  case said => exact h.said_after rfl rfl rfl id
  case hearing => exact h.hearing.later rfl rfl
  case voice => exact h.voice
  case isOpen => exact h.isOpen
  case bindings => exact Router.bindings_register h.bindings g.route false
  case flow =>
    cases h.flow with
    | idle _ hk hr =>
      exact .bound (Router.serves_register hk g.route false) rfl (fun _ => rfl)
        (by simpa [after] using hr)
  case down => exact fun hx => hclosed.trans (h.down hx)

/-- The close call of the service makes a step. -/
theorem closing {cl : Closing} (h : Sound x f ph heard fed q)
    (ha : f.served.connection.admission = .closing cl) :
    Sound x (f.after (f.served.connection.step f.exchange).1
      (f.served.connection.step f.exchange).2
      (.served :: f.served.connection.events f.exchange)) ph heard fed q := by
  have hclosed : f.served.connection.guard.closed = true :=
    h.course.closed_of_late (by rw [ha]; rfl) (by rw [ha]; nofun)
  have hf : Fits ph (.closing cl) := ha ▸ h.course.fits
  have hfail : Failing (.closing cl) := by
    cases hf with
    | failing hf => exact hf
    | lost g hf => exact hf
  rw [Connection.step, Connection.events, ha]
  cases hfail with
  | marked =>
    -- Both sides of the stream are told here, so the guard changes along with the admission.
    exact h.shut hclosed (fun _ => rfl) (hf.failing_again .marked .cancelled) rfl
      (Event.plain_closing _ _ _)
  | cancelled =>
    exact h.proceed (.refl _) rfl rfl .stay (hf.failing_again .cancelled (.closed true)) rfl
      (Event.plain_closing _ _ _) (.inl hclosed)
  | closed closedIt =>
    exact h.proceed (.refl _) rfl rfl .stay (hf.failing_again (.closed closedIt) .unbound) rfl
      (Event.plain_closing _ _ _) (.inl hclosed)

/-- The service closes the connection of a client that it does not admit. -/
theorem refuse {gd : Guard} {cl : Closing} (h : Sound x f ph heard fed q)
    (ha : f.served.connection.admission = .refused)
    (hb : f.served.connection.guard.beginClose = (gd, cl)) :
    Sound x (f.after f.exchange
      { f.served.connection with guard := gd, admission := .closing cl } [.served, .called])
      ph heard fed q := by
  have hclosed := f.served.connection.guard.closed_beginClose
  have hcancelled := f.served.connection.guard.cancelled_beginClose
  rw [hb] at hclosed hcancelled
  have hf : Fits ph .refused := ha ▸ h.course.fits
  have hbound : ph.bound? = none := by
    cases hf with
    | failing _ => rfl
    | lost g _ => rfl
  have hfail : Failing (.closing cl) := by
    unfold Guard.beginClose at hb
    split at hb
    · cases hb
      exact .closed false
    · rename_i hopen
      cases hb
      rw [(h.course.running (Bool.eq_false_iff.2 hopen)).route, hbound]
      exact .marked
  exact h.shut hclosed (fun ht => hcancelled.trans ht) (hf.failing_again .refused hfail) rfl
    (by simp [Event.isPlain])

/-- What the client was given is taken back. -/
theorem withdraw (h : Sound x f ph heard fed q) (ha : f.served.connection.admission = .unbound) :
    ∃ qh, Sound x (f.after (f.served.connection.withdraw f.exchange)
      { f.served.connection with admission := .finished }
      (.served :: (f.served.connection.withdrawHandings f.exchange).map .handed)) qh heard fed
      q := by
  have hclosed : f.served.connection.guard.closed = true :=
    h.course.closed_of_late (by rw [ha]; rfl) (by rw [ha]; nofun)
  have hy : f.exchange.Apart f.peer ph.bound? True (f.served.connection.withdraw f.exchange) :=
    Exchange.apart_withdraw _ _
  have hf : Fits ph .unbound := ha ▸ h.course.fits
  cases hf with
  | failing _ =>
    exact ⟨.fresh, h.proceed hy rfl rfl .stay .nothing rfl
      (Event.plain_handed _) (.inl hclosed)⟩
  | lost g _ =>
    exact ⟨.withdrawn g, h.proceed hy rfl rfl (.free rfl rfl) (.withdrawn g) rfl
      (Event.plain_handed _) (.inl hclosed)⟩

theorem service (h : Sound x f ph heard fed q)
    (hs : f.served.connection.Serves f.exchange es y d) :
    ∃ qh heard' q', Sound x (f.after y d (.served :: es)) qh heard' fed q' := by
  cases hs with
  | hear ha hh =>
    obtain rfl : ph = .fresh := (ha ▸ h.course.fits : Fits ph (.greeting .awaiting)).greeting
    unfold Handshake.hear? at hh
    split at hh
    · cases hh
      obtain ⟨q', hq⟩ := h.hear ha ‹_›
      exact ⟨.fresh, _, q', hq⟩
    · cases hh
      exact ⟨.fresh, heard, q, h.proceed (.refl _) rfl rfl .stay (.failing (.ended _)) rfl
        (by simp) (.inr rfl)⟩
    · cases hh
  | expire ha hh =>
    obtain rfl : ph = .fresh := (ha ▸ h.course.fits : Fits ph (.greeting .awaiting)).greeting
    exact ⟨.fresh, heard, q, h.proceed (.refl _) rfl rfl .stay (.failing (.ended _)) rfl
      (by simp [Event.isPlain]) (.inr rfl)⟩
  | step hw hn =>
    cases ha : f.served.connection.admission with
    | greeting hs =>
      obtain ⟨qh, q', hq⟩ := h.greeting ha fun he => hw (he ▸ ha)
      exact ⟨qh, heard, q', hq⟩
    | admitted route =>
      obtain ⟨g, rfl, rfl⟩ : ∃ g, ph = .announced g ∧ route = g.route := by
        have hf := ha ▸ h.course.fits
        cases hf with
        | admitted g => exact ⟨g, rfl, rfl⟩
        | failing hf => cases hf
        | lost g hf => cases hf
      rw [Connection.step, Connection.events, ha]
      by_cases hc : f.served.connection.guard.closed = true
      · simp only [Connection.bindRoute, if_pos hc]
        exact ⟨.announced g, heard, q, h.proceed (.refl _) rfl rfl .stay (.lost g .unbound) rfl
          (by simp) (.inl hc)⟩
      · simp only [Connection.bindRoute, if_neg hc]
        exact ⟨.bound g, heard, q, h.bind (Bool.eq_false_iff.2 hc)⟩
    | refused =>
      rw [Connection.step, Connection.events, ha]
      exact ⟨ph, heard, q, h.refuse ha rfl⟩
    | closing cl => exact ⟨ph, heard, q, h.closing ha⟩
    | unbound =>
      rw [Connection.step, Connection.events, ha]
      obtain ⟨qh, hq⟩ := h.withdraw ha
      exact ⟨qh, heard, q, hq⟩
    | finished => exact absurd ha hn

/-- Whatever party makes a step, the envelopes stay in order. -/
theorem party {t : Served} (h : Sound x f ph heard fed q) (hs : f.served.Step f.exchange es y t) :
    ∃ qh heard' q', Sound x { f with exchange := y, served := t, events := f.events ++ es }
      qh heard' fed q' := by
  cases hs with
  | service hs => exact h.service hs
  | read hr =>
    obtain ⟨q', hq⟩ := h.read hr
    exact ⟨ph, heard, q', hq⟩
  | write hw => exact ⟨ph, heard, q, h.write hw⟩
  | close hb => exact ⟨ph, heard, q, h.close f.seen hb⟩
  | call hk _ hc => exact ⟨ph, heard, q, h.call hk hc⟩
  | arrive r _ =>
    refine ⟨ph, heard, q, h.apart (.refl _) (fun ho => ⟨ho, trivial⟩) rfl rfl ?_ h.hearing
      (h.course.beside rfl rfl rfl) .stay⟩
    rw [Event.arrivals_append]
    exact h.said.arrive r
  | hangUp =>
    refine ⟨ph, heard, q, h.apart (.refl _) (fun ho => ⟨ho, trivial⟩) rfl rfl ?_ h.hearing
      (h.course.beside rfl rfl rfl) .stay⟩
    rw [List.append_nil]
    exact h.said.hangUp
  | failWrites text =>
    exact ⟨ph, heard, q, h.apart (.refl _) (fun ho => ⟨ho, trivial⟩) rfl rfl
      (h.said_after rfl rfl rfl id) h.hearing (h.course.beside rfl rfl rfl) .stay⟩

end Sound

end Feed

end Switchboard
