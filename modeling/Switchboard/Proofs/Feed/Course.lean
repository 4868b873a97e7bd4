import Switchboard.Proofs.Admission.Gate
import Switchboard.Proofs.Feed.Run

/-! How far a connection is: what it has been granted, what of the client's envelopes the service
has heard, and that nobody has begun to close it as long as it is open. -/
namespace Switchboard

variable {σ : Type} {x y : Exchange σ} {s t : Served} {c d : Connection} {seen sides : List Side}
  {es fs : List Event} {ph qh : Phase} {a : Admission} {g : Grant} {heard : List Envelope}
  {k : Nat} {own : Option String}

namespace Event

/-- The event is neither a grant nor something that arrives. -/
def isPlain : Event → Bool
  | granted _ | arrived _ => false
  | _ => true

theorem plain (h : ∀ e ∈ es, e.isPlain = true) :
    arrivals es = [] ∧ es.filterMap grant? = [] := by
  constructor
  · refine List.filterMap_eq_nil_iff.2 fun e he => ?_
    have hp := h e he
    cases e with
    | arrived r => cases hp
    | _ => rfl
  · refine List.filterMap_eq_nil_iff.2 fun e he => ?_
    have hp := h e he
    cases e with
    | granted g => cases hp
    | _ => rfl

theorem plain_handed (hs : List Handing) : ∀ e ∈ hs.map handed, e.isPlain = true := by
  simp [isPlain]

theorem plain_routeEvents (r : Router) (m : Envelope) (source : String) :
    ∀ e ∈ Exchange.routeEvents r m source, e.isPlain = true := by
  simp [Exchange.routeEvents, isPlain]

theorem plain_closing (x : Exchange σ) (c : Connection) (q : Closing) :
    ∀ e ∈ q.events x c, e.isPlain = true := by
  cases q with
  | cancelled r => cases r <;> simp [Closing.events, isPlain]
  | unregistered r => exact plain_routeEvents _ _ _
  | _ => simp [Closing.events, isPlain]

theorem plain_cons {e : Event} (he : e.isPlain = true) (h : ∀ e ∈ es, e.isPlain = true) :
    ∀ a ∈ e :: es, a.isPlain = true := by
  simpa [he] using h

end Event

/-- The service is not past the point where the route is bound or given up. -/
def Admission.isEarly : Admission → Bool
  | .greeting _ | .admitted _ | .refused => true
  | _ => false

/-- The first envelope has been judged, or never will be. -/
def Admission.isJudged : Admission → Bool
  | .greeting .awaiting | .greeting (.received _) => false
  | _ => true

/-- Nobody has begun to close the connection. -/
structure Running (s : Served) (seen : List Side) (ph : Phase) : Prop where
  calls : s.calls = []
  seen : seen = []
  cancelled : s.connection.guard.cancelled = false
  route : s.connection.guard.route = ph.bound?
  admission : s.connection.admission.isEarly = true ∨
    s.connection.admission = .finished ∧ ph.bound?.isSome

/-- How far a connection is, by its phase and by what has happened. -/
structure Course (s : Served) (seen : List Side) (es : List Event) (ph : Phase) : Prop where
  fits : Fits ph s.connection.admission
  grants : es.filterMap Event.grant? = ph.grant?.toList
  running : s.connection.guard.closed = false → Running s seen ph

namespace Course

theorem new (peer : Nat) (grace : Duration) (maxFrame : Nat) :
    Course (.new peer grace maxFrame) [] [] .fresh where
  fits := .awaiting
  grants := rfl
  running _ := ⟨rfl, rfl, rfl, rfl, .inl rfl⟩

theorem closed (h : Course s seen es ph) (hn : ¬Running s seen ph) :
    s.connection.guard.closed = true := by
  cases hc : s.connection.guard.closed with
  | true => rfl
  | false => exact absurd (h.running hc) hn

/-- A call that is under way has closed the connection. -/
theorem closed_of_call (h : Course s seen es ph) {q : Closing} (hq : s.calls[k]? = some q) :
    s.connection.guard.closed = true := by
  refine h.closed fun hr => ?_
  rw [hr.calls] at hq
  cases hq

theorem closed_of_late (h : Course s seen es ph) (he : s.connection.admission.isEarly = false)
    (hf : s.connection.admission ≠ .finished) : s.connection.guard.closed = true := by
  refine h.closed fun hr => ?_
  rcases hr.admission with ha | ⟨ha, -⟩
  · rw [he] at ha
    cases ha
  · exact hf ha

theorem grants_append (h : Course s seen es ph) (hf : ∀ e ∈ fs, e.isPlain = true) :
    (es ++ fs).filterMap Event.grant? = ph.grant?.toList := by
  rw [List.filterMap_append, h.grants, (Event.plain hf).2, List.append_nil]

/-- What goes on at either side of the stream is nothing to the service. -/
theorem beside (h : Course s seen es ph) (hg : d.guard = s.connection.guard)
    (ha : d.admission = s.connection.admission) (hf : fs.filterMap Event.grant? = []) :
    Course { s with connection := d } seen (es ++ fs) ph where
  fits := by
    rw [ha]
    exact h.fits
  grants := by rw [List.filterMap_append, h.grants, hf, List.append_nil]
  running hc := by
    obtain ⟨hl, hs, hn, hr, hw⟩ := h.running (hg ▸ hc)
    exact ⟨hl, hs, hg ▸ hn, hg ▸ hr, ha ▸ hw⟩

/-- The connection is closed, and may be in any state that fits. -/
theorem shut (hc : t.connection.guard.closed = true) (hf : Fits qh t.connection.admission)
    (hg : es.filterMap Event.grant? = qh.grant?.toList) : Course t sides es qh where
  fits := hf
  grants := hg
  running ho := by
    rw [hc] at ho
    cases ho

/-- The service goes on. -/
theorem serve (h : Course s seen es ph) (hf : Fits qh a)
    (hg : ph.grant?.toList ++ fs.filterMap Event.grant? = qh.grant?.toList)
    (hb : qh.bound? = ph.bound?) (ha : s.connection.guard.closed = true ∨ a.isEarly = true) :
    Course { s with connection.admission := a } seen (es ++ fs) qh where
  fits := hf
  grants := by rw [List.filterMap_append, h.grants, hg]
  running hc := by
    obtain ⟨hl, hs, hn, hr, -⟩ := h.running hc
    refine ⟨hl, hs, hn, hr.trans hb.symm, ?_⟩
    rcases ha with ha | ha
    · exact absurd (ha.symm.trans hc) nofun
    · exact .inl ha

end Course

/-- What the service has heard of the client: nothing yet, or the first envelope, which must be a
command to authenticate if anything is granted. -/
structure Hearing (ph : Phase) (a : Admission) (heard : List Envelope) : Prop where
  silent : a = .greeting .awaiting → heard = []
  received : ∀ m, a = .greeting (.received m) → heard = [m]
  granted : ∀ g, ph.grant? = some g →
    ∃ m token, heard = [m] ∧ m.command? = .ok (some (.authenticate token))

namespace Hearing

/-- Once the first envelope is judged, all depends on the grant. -/
theorem later (h : Hearing ph a heard) {b : Admission} (hg : qh.grant? = ph.grant?)
    (hj : b.isJudged = true) : Hearing qh b heard where
  silent hb := by
    subst hb
    cases hj
  received m hb := by
    subst hb
    cases hj
  granted g hq := h.granted g (hg ▸ hq)

end Hearing

namespace Exchange

/-- The calls that close the connection may cancel the pump. -/
theorem apart_closeStep (x : Exchange σ) (c : Connection) (q : Closing) :
    Apart k own False x (c.closeStep x q).1 := by
  cases q with
  | cancelled r =>
    cases r with
    | none => exact (Apart.refl x).weaken nofun
    | some r => exact (apart_apply (.unregister r) nofun).weaken nofun
  | unregistered r => exact (apart_route _ r).weaken nofun
  | disposed token =>
    cases token with
    | none => exact (Apart.refl x).weaken nofun
    | some token =>
      exact (apart_apply (.accept (x.router.accepted.erase token) x.minted) nofun).weaken nofun
  | _ => exact (Apart.refl x).weaken nofun

theorem apart_authenticate {token : String} (h : x.authenticate token = (y, .ok g)) :
    Apart k own True x y := by
  obtain ⟨rfl, -, -⟩ := authenticate_ok h
  exact (apart_apply (.accept (x.router.accept g.token g.identity).accepted (x.minted + 2))
    nofun).weaken fun _ => nofun

theorem apart_withdraw (x : Exchange σ) (c : Connection) :
    Apart k own True x (c.withdraw x) := by
  unfold Connection.withdraw
  split
  · exact (apart_apply (.withdraw _ _) nofun).weaken fun _ => nofun
  · exact .refl x

theorem apart_reject (x : Exchange σ) (peer : Nat) (first : Envelope) (text : String) :
    Apart k own True x (Handshake.reject x peer first text) := by
  unfold Handshake.reject
  split
  · exact apart_send _
  · exact .refl x

theorem apart_answer (x : Exchange σ) (peer : Nat) (first : Envelope) (g : Grant) :
    Apart k own True x ((Handshake.announced first g).step x peer).1 := by
  have hs : Apart k own True x (x.send peer (Handshake.welcome first g)).1 := apart_send _
  simp only [Handshake.step]
  split <;> rename_i he <;> rwa [he] at hs

end Exchange

end Switchboard
