import Switchboard.Proofs.Admission.Account
import Switchboard.Proofs.Feed.Parties
import Switchboard.Proofs.Relay.Independence

/-! The two ends of the queue that a connection is written from: what gets into the inbox of its
peer, whoever hands it out, and what the writer makes of it. -/
namespace Switchboard

variable {σ : Type} {x y : Exchange σ} {c d : Connection} {hs : List Handing}
  {p : Peer} {j k : Nat}

namespace Frame

/-- The frame of an envelope, if it makes one. -/
def frame? (m : Envelope) : Option Bytes := (encode maxBody m).toOption

def fits (m : Envelope) : Bool := (frame? m).isSome

/-- The frames of some envelopes in order, but for those that make none. -/
def frames (ms : List Envelope) : Bytes := (ms.filterMap frame?).flatten

theorem frame?_of_ok {m : Envelope} {b : Bytes} (h : encode maxBody m = .ok b) :
    frame? m = some b := by
  simp [frame?, h, Except.toOption]

theorem frame?_of_error {m : Envelope} {e : WireError} (h : encode maxBody m = .error e) :
    frame? m = none := by
  simp [frame?, h, Except.toOption]

@[simp] theorem frames_nil : frames [] = [] := rfl

theorem frames_append (ms ns : List Envelope) : frames (ms ++ ns) = frames ms ++ frames ns := by
  simp [frames]

theorem frames_cons (m : Envelope) (ms : List Envelope) :
    frames (m :: ms) = (frame? m).getD [] ++ frames ms := by
  cases h : frame? m <;> simp [frames, h]

theorem frame?_ne_nil {m : Envelope} {b : Bytes} (h : frame? m = some b) : b ≠ [] := by
  unfold frame? encode at h
  simp only at h
  split at h <;> cases h
  exact List.append_ne_nil_of_left_ne_nil (List.cons_ne_nil _ _) _

theorem frames_eq_nil_iff {ms : List Envelope} :
    frames ms = [] ↔ ∀ m ∈ ms, fits m = false := by
  induction ms with
  | nil => simp
  | cons m ms ih =>
    rw [frames_cons, List.append_eq_nil_iff, ih, List.forall_mem_cons]
    cases h : frame? m with
    | none => simp [fits, h]
    | some b => simp [fits, h, frame?_ne_nil h]

/-- Nothing is lost by splitting at the first envelope that makes no frame. -/
theorem frames_split (ms : List Envelope) :
    frames (ms.takeWhile fits) ++ frames (ms.dropWhile fits) = frames ms := by
  rw [← frames_append, List.takeWhile_append_dropWhile]

end Frame

namespace Exchange

theorem incoming_of_peer? (h : x.peer? k = some p) : x.incoming k = p.inbox.items := by
  simp [incoming, endpoint_of_peer? h, Endpoint.incoming]

theorem listens_of_peer? (h : x.peer? k = some p) : x.listens k = p.inbox.isOpen :=
  listens_eq (endpoint_of_peer? h)

/-- What gets into the inbox of an endpoint of some envelopes that are handed out. -/
def received (x : Exchange σ) (hs : List Handing) (k : Nat) : List Envelope :=
  ((x.taken hs).filter (·.endpoint = k)).map Handing.envelope

/-- Nothing happens to the inbox of an endpoint but that it gets what is handed to it. -/
structure Hands (k : Nat) (hs : List Handing) (x y : Exchange σ) : Prop where
  incoming : y.incoming k = x.incoming k ++ x.received hs k
  listens : y.listens k = x.listens k

@[simp] theorem received_nil : x.received [] k = [] := rfl

theorem received_of_shut (h : x.listens k = false) : x.received hs k = [] := by
  simp only [received, taken, List.map_eq_nil_iff, List.filter_eq_nil_iff, List.mem_filter,
    decide_eq_true_eq]
  intro a ha hk
  rw [hk, h] at ha
  exact Bool.false_ne_true ha.2

theorem hands_handAll (hs : List Handing) (x : Exchange σ) : Hands k hs x (x.handAll hs) :=
  ⟨incoming_handAll hs x k, listens_handAll hs x k⟩

theorem hands_of_endpoint (h : y.endpoints[k]? = (x.handAll hs).endpoints[k]?) :
    Hands k hs x y := by
  have hh := hands_handAll (k := k) hs x
  constructor
  · rw [Exchange.incoming, h]
    exact hh.incoming
  · rw [Exchange.listens, h]
    exact hh.listens

/-- What only touches the peer and not its inbox hands it nothing. -/
theorem hands_modifyPeer {f : Peer → Peer} (h : ∀ p, (f p).inbox = p.inbox) :
    Hands k [] x (x.modifyPeer j f) := by
  constructor
  · rw [received_nil, List.append_nil]
    apply incoming_modify
    intro e
    cases e with
    | peer p => exact congrArg Queue.items (h p)
    | mailbox b => rfl
    | service s => rfl
  · apply listens_modify
    intro e
    cases e with
    | peer p => exact congrArg Queue.isOpen (h p)
    | mailbox b => rfl
    | service s => rfl

theorem hands_hear {m : Envelope} (h : x.hear j = .envelope m y) : Hands k [] x y := by
  unfold hear at h
  split at h
  · cases h
  · split at h <;> cases h
    constructor
    · rw [received_nil, List.append_nil]
      exact incoming_withOutgoing x j k _
    · exact listens_withOutgoing x j k _

theorem Accounts.hands (h : Accounts k hs x y) (hj : j ≠ k) : Hands j hs x y :=
  hands_of_endpoint (h j hj)

/-- A pump that takes an envelope hands out nothing. -/
theorem hands_fetch {p : Nat} {u : Pump} (hu : x.router.pumps[p]? = some u)
    (hy : x.fetch p = .held y) : Hands k [] x y := by
  obtain ⟨m, z, hz, rfl⟩ := fetch_heard hu hy
  exact ⟨(hands_hear hz).incoming, (hands_hear hz).listens⟩

theorem hands_forward (x : Exchange σ) (p : Nat) :
    Hands k (x.forwardHandings p) x (x.forward p).1 := by
  cases hu : x.router.pumps[p]? with
  | none =>
    rw [forwardHandings, forward, hu]
    exact hands_handAll [] x
  | some u =>
    rw [forwardHandings_eq hu]
    cases hm : u.held with
    | none =>
      rw [forward_eq hu, hm]
      exact hands_handAll [] x
    | some m => exact hands_of_endpoint (by rw [endpoints_forward hu hm]; rfl)

end Exchange

open Exchange

namespace Relay

variable {e : Entry}

theorem Step.taken_handed (h : Step x e y) : x.taken e.handed = e.handed := by
  cases h <;> simp [taken]

/-- Whatever happens at an exchange, an inbox that nobody takes from gets what it is handed. -/
theorem Step.hands (h : Step x e y) (hc : e.turn ≠ .consume k) (hs : e.turn ≠ .shut k) :
    Hands k e.handed x y := by
  have hnone : consumedBy k [e] = [] := by
    unfold consumedBy
    rw [List.flatMap_singleton]
    split
    · rw [if_neg]
      rintro rfl
      exact hc ‹_›
    · rw [if_neg]
      rintro rfl
      exact hs ‹_›
    · rfl
  constructor
  · have hin := h.incoming k
    rw [hnone, handedTo, List.flatMap_singleton, List.nil_append] at hin
    rw [received, h.taken_handed]
    exact hin.symm
  · refine (congrArg View.listening (h.view_eq k)).trans ?_
    unfold View.next
    split
    case h_3 j he =>
      have hne : j ≠ k := fun hj => hs (hj ▸ he)
      simp [hne, view]
    all_goals rfl

end Relay

theorem Closing.hands (x : Exchange σ) (c : Connection) (q : Closing) :
    Hands k (Event.handings (q.events x c)) x (c.closeStep x q).1 :=
  (Closing.accounts x c q).hands (Nat.succ_ne_self k).symm

namespace Handshake

theorem hands_reject (x : Exchange σ) (peer : Nat) (first : Envelope) (text : String) :
    Hands k (if first.requestId.isSome then [⟨peer, first.failure text⟩] else []) x
      (reject x peer first text) := by
  unfold reject
  split
  · rw [send_fst]
    exact hands_handAll [⟨peer, first.failure text⟩] x
  · exact hands_handAll [] x

theorem hands_hear? {h : Handshake} {peer : Nat} (hh : hear? x peer = some (y, h)) :
    Hands k [] x y := by
  unfold hear? at hh
  split at hh
  · cases hh
    exact hands_hear ‹_›
  · cases hh
    exact hands_handAll [] x
  · cases hh

theorem hands_announced {peer : Nat} (first : Envelope) (g : Grant) :
    Hands k [⟨peer, welcome first g⟩] x ((announced first g).step x peer).1 := by
  have hsend := hands_handAll (k := k) [⟨peer, welcome first g⟩] x
  rw [handAll_singleton, ← send_fst] at hsend
  simp only [step]
  split <;> rename_i he <;> rwa [he] at hsend

theorem hands_judge (x : Exchange σ) (c : Connection) (first : Envelope)
    (ha : c.admission = .greeting (.received first)) :
    Hands k (Event.handings (c.events x)) x (c.step x).1 := by
  have hst : c.step x = ((judge x c.peer first).1,
      { c with admission := .greeting (judge x c.peer first).2 }) :=
    Connection.step_greeting ha nofun
  rcases judge_cases x c.peer first with ⟨token, y, g, hx, ho, hj⟩ | ⟨text, e, ho, hj⟩
  · obtain ⟨rfl, -, -⟩ := authenticate_ok hx
    have he : c.events x = [.granted g] := by simp [Connection.events, ha, ho, hst, hj]
    rw [he, hst, hj]
    exact hands_of_endpoint rfl
  · have he : c.events x = if first.requestId.isSome
        then [.handed ⟨c.peer, first.failure text⟩] else [] := by
      simp [Connection.events, ha, ho]
    have hr := hands_reject (k := k) x c.peer first text
    have hout : (c.step x).1 = reject x c.peer first text := by rw [hst, hj, refuse]
    rw [he, hout]
    by_cases hreq : first.requestId.isSome = true
    · rw [if_pos hreq] at hr ⊢
      exact hr
    · rw [if_neg hreq] at hr ⊢
      exact hr

end Handshake

namespace Connection

/-- What a step of the service puts into the inbox of the peer is what the log says. -/
theorem hands_step (x : Exchange σ) (c : Connection) :
    Hands k (Event.handings (c.events x)) x (c.step x).1 := by
  cases ha : c.admission with
  | greeting h =>
    cases h with
    | received first => exact Handshake.hands_judge x c first ha
    | granted first g =>
      rw [step_greeting ha (by simp), events, ha]
      exact hands_modifyPeer fun _ => rfl
    | stored first g =>
      rw [step_greeting ha (by simp), events, ha, Event.handings_routeEvents]
      exact hands_of_endpoint (by rw [Handshake.step, endpoints_route])
    | announced first g =>
      rw [step_greeting ha (by simp), events, ha]
      exact Handshake.hands_announced first g
    | _ =>
      simp only [step, events, ha]
      exact hands_of_endpoint rfl
  | admitted route =>
    rw [step, events, ha]
    by_cases hc : c.guard.closed = true
    · simp only [bindRoute, if_pos hc]
      exact hands_of_endpoint rfl
    · simp only [bindRoute, if_neg hc]
      exact hands_of_endpoint rfl
  | closing q =>
    rw [events, ha]
    have hq := q.hands x c (k := k)
    rw [step, ha]
    cases q <;> exact hq
  | unbound =>
    simp only [step, events, ha, Event.handings_handed]
    exact (c.withdraw_accounts x).hands (Nat.succ_ne_self k).symm
  | _ =>
    simp only [step, events, ha]
    exact hands_of_endpoint rfl

/-- The service has nothing to do with writing, and what it has told both sides it has told them. -/
theorem step_writes (x : Exchange σ) (c : Connection) :
    (c.step x).2.outlet = c.outlet ∧
      (c.guard.cancelled = true → (c.step x).2.guard.cancelled = true) := by
  cases ha : c.admission with
  | greeting h =>
    by_cases hh : ∃ r, h = .ended r
    · obtain ⟨r, rfl⟩ := hh
      rw [step, ha]
      cases r <;> exact ⟨rfl, id⟩
    · rw [step_greeting ha fun r hr => hh ⟨r, hr⟩]
      exact ⟨rfl, id⟩
  | admitted route =>
    rw [step, ha]
    simp only [bindRoute]
    split <;> exact ⟨rfl, id⟩
  | refused =>
    rw [step, ha]
    exact ⟨rfl, fun hc => c.guard.cancelled_beginClose.trans hc⟩
  | closing q =>
    rw [step, ha]
    cases q with
    | marked r => exact ⟨rfl, fun _ => rfl⟩
    | cancelled r => cases r <;> exact ⟨rfl, id⟩
    | disposed token => cases token <;> exact ⟨rfl, id⟩
    | _ => exact ⟨rfl, id⟩
  | _ =>
    rw [step, ha]
    exact ⟨rfl, id⟩

theorem failing_flush (o : Outlet) (ms : List Envelope) : (flush o ms).failing = o.failing := by
  induction ms generalizing o with
  | nil => rfl
  | cons m ms ih =>
    unfold flush
    split
    · exact ih _
    · rfl

/-- What is flushed are the frames up to the first envelope that makes none. -/
theorem flush_eq (o : Outlet) (ms : List Envelope) (hf : o.failing = none) :
    flush o ms =
      { o with written := o.written ++ Frame.frames (ms.takeWhile Frame.fits), shut := true } := by
  induction ms generalizing o with
  | nil => simp [flush]
  | cons m ms ih =>
    cases hm : Frame.encode Frame.maxBody m with
    | error e => simp [flush, hm, Frame.fits, Frame.frame?_of_error hm]
    | ok b =>
      have hframe := Frame.frame?_of_ok hm
      have hfits : Frame.fits m = true := by simp [Frame.fits, hframe]
      have hflush : flush o (m :: ms) = flush { o with written := o.written ++ b } ms := by
        simp only [flush, hm, hf]
      have hrest := hflush.trans (ih { o with written := o.written ++ b } hf)
      rw [hrest, List.takeWhile_cons_of_pos hfits, Frame.frames_cons, hframe]
      simp

/-- The steps of writing to a stream that does not fail. -/
inductive Writes (x : Exchange σ) (c : Connection) (p : Peer) : Exchange σ → Connection → Prop
  /-- The next envelope is written, if it makes a frame. -/
  | taken {m : Envelope} {q : Queue} (hc : c.guard.cancelled = false)
      (hq : p.inbox.take = .envelope m q) :
      Writes x c p (x.modifyPeer c.peer fun p => { p with inbox := q })
        { c with outlet.written := c.outlet.written ++ Frame.frames [m] }
  /-- Writing ends, with what is still there. -/
  | ended (hc : c.guard.cancelled = true ∨ p.inbox.take = .ended) :
      Writes x c p (x.modifyPeer c.peer fun p => { p with inbox := p.inbox.close })
        { c with outlet := { c.outlet with
          written := c.outlet.written ++ Frame.frames (p.inbox.items.takeWhile Frame.fits)
          shut := true
          result := some (.ok ()) } }

theorem writes_of_write? (h : c.write? x = some (y, d)) (hf : d.outlet.failing = none) :
    c.outlet.failing = none ∧ c.outlet.result = none ∧
      ∃ p, x.peer? c.peer = some p ∧ Writes x c p y d := by
  unfold write? at h
  split at h
  · cases h
  · have hr : c.outlet.result = none := Option.not_isSome_iff_eq_none.1 ‹_›
    split at h
    · cases h
    · rename_i p hp
      suffices hw : c.outlet.failing = none ∧ Writes x c p y d from
        ⟨hw.1, hr, p, hp, hw.2⟩
      split at h
      · cases h
        have hfail : c.outlet.failing = none := (failing_flush _ _).symm.trans hf
        refine ⟨hfail, ?_⟩
        rw [flush_eq _ _ hfail]
        exact .ended (.inl ‹_›)
      · have hc : c.guard.cancelled = false := Bool.eq_false_iff.2 ‹_›
        split at h
        · cases h
        · rename_i hq
          cases h
          have hfail : c.outlet.failing = none := (failing_flush _ _).symm.trans hf
          refine ⟨hfail, ?_⟩
          rw [flush_eq _ _ hfail, ← Queue.take_ended hq]
          exact .ended (.inr hq)
        · rename_i m q hq
          have htaken := Writes.taken (x := x) hc hq
          simp only at h
          split at h
          · cases h
            refine ⟨hf, ?_⟩
            rwa [Frame.frames_cons, Frame.frame?_of_error ‹_›, Option.getD_none, Frame.frames_nil,
              List.append_nil, List.append_nil] at htaken
          · split at h <;> cases h
            · refine ⟨hf, ?_⟩
              rwa [Frame.frames_cons, Frame.frame?_of_ok ‹_›, Option.getD_some, Frame.frames_nil,
                List.append_nil] at htaken
            · exact absurd (‹c.outlet.failing = some _›.symm.trans hf) nofun

/-- And whenever writing has such a step, it takes it. -/
theorem write?_of_writes (hf : c.outlet.failing = none) (hr : c.outlet.result = none)
    (hp : x.peer? c.peer = some p) (h : Writes x c p y d) : c.write? x = some (y, d) := by
  unfold write?
  simp only [hr, hp, Option.isSome_none, Bool.false_eq_true, if_false]
  cases h with
  | @taken m q hc hq =>
    simp only [hc, Bool.false_eq_true, if_false, hq]
    cases hm : Frame.encode Frame.maxBody m with
    | error e => simp [Frame.frames_cons, Frame.frame?_of_error hm]
    | ok b => simp [hf, hr, Frame.frames_cons, Frame.frame?_of_ok hm]
  | ended hc =>
    by_cases hcancel : c.guard.cancelled = true
    · simp only [hcancel, if_true, flush_eq _ _ hf, endOutlet]
    · have hq := hc.resolve_left hcancel
      simp only [hcancel, Bool.false_eq_true, if_false, hq, Queue.take_ended hq, flush_eq _ _ hf,
        endOutlet]

end Connection

/-- Whatever a party hands out, each inbox gets what is handed to it, if it is open, and nothing
else. -/
theorem Served.Step.hands {s t : Served} {es : List Event} (h : s.Step x es y t)
    (hne : Event.handings es ≠ []) : Hands k (Event.handings es) x y := by
  cases h with
  | service h =>
    cases h with
    | step => exact s.connection.hands_step x
    | hear | expire => exact absurd rfl hne
  | @call _ q _ _ _ _ _ h =>
    have hh := q.hands x s.connection (k := k)
    rwa [h] at hh
  | _ => exact absurd rfl hne

end Switchboard
