import Switchboard.Proofs.Admission.Stream

/-! The one envelope that a client may be sent before it is admitted, from its inbox to its
stream. -/
namespace Switchboard

variable {σ : Type} {x y : Exchange σ} {c d : Connection} {m : Envelope} {p : Peer}
  {hs : List Handing}

/-- How far an envelope for the client has come: it waits, it is written, or it was dropped. -/
inductive Wired : List Handing → List Envelope → Bytes → Prop
  | nothing (hs : List Handing) : Wired hs [] []
  | waiting (h : Handing) : Wired [h] [h.envelope] []
  | written (h : Handing) {b : Bytes} (hb : Frame.encode Frame.maxBody h.envelope = .ok b) :
      Wired [h] [] b

/-- What is still to be written when the connection ends is written or dropped. -/
theorem Wired.flush {items : List Envelope} {o : Outlet} (h : Wired hs items o.written) :
    Wired hs [] (Connection.flush o items).written := by
  obtain ⟨w, failing, shut, result⟩ := o
  cases h with
  | nothing => exact .nothing hs
  | waiting h =>
    simp only [Connection.flush]
    split
    · exact .written h ‹_›
    · exact .nothing [h]
  | written h hb => exact .written h hb

theorem Queue.take_ended {q : Queue} (h : q.take = .ended) : q.items = [] := by
  unfold take at h
  split at h
  · cases h
  · assumption

/-- The first envelope that is handed out comes to an empty inbox. -/
theorem Wired.push {q : Queue} {b : Bytes} (h : Wired [] q.items b) (a : Handing) :
    Wired [a] ((q.push? a.envelope).getD q).items b := by
  obtain ⟨items, isOpen, ended⟩ := q
  simp only at h
  cases h
  cases isOpen with
  | true => exact .waiting a
  | false => exact .nothing [a]

/-- What waits is an envelope that was handed out, and nothing is written yet. -/
theorem Wired.of_cons {rest : List Envelope} {b : Bytes} (h : Wired hs (m :: rest) b) :
    ∃ h, hs = [h] ∧ m = h.envelope ∧ rest = [] ∧ b = [] := by
  cases h with
  | waiting h => exact ⟨h, rfl, rfl, rfl, rfl⟩

theorem Wired.write (h : Wired hs p.inbox.items c.outlet.written) (hp : x.peer? c.peer = some p)
    (hw : c.write? x = some (y, d)) :
    (∃ p', y.peer? c.peer = some p' ∧ p'.outbox = p.outbox ∧
      Wired hs p'.inbox.items d.outlet.written) ∧ d.intake = c.intake := by
  unfold Connection.write? at hw
  split at hw
  · cases hw
  · simp only [hp] at hw
    split at hw
    · cases hw
      exact ⟨⟨_, Exchange.peer?_modifyPeer hp _, rfl, h.flush⟩, rfl⟩
    · split at hw
      · cases hw
      · cases hw
        rw [Queue.take_ended ‹_›] at h
        exact ⟨⟨_, Exchange.peer?_modifyPeer hp _, rfl, h.flush⟩, rfl⟩
      · rename_i m q hq
        rw [(Queue.take_envelope hq).1] at h
        obtain ⟨a, rfl, rfl, hrest, hb⟩ := h.of_cons
        have hy := Exchange.peer?_modifyPeer hp fun p => { p with inbox := q }
        split at hw
        · cases hw
          refine ⟨⟨_, hy, rfl, ?_⟩, rfl⟩
          simp only [hrest, hb]
          exact .nothing [a]
        · split at hw <;> cases hw
          · refine ⟨⟨_, hy, rfl, ?_⟩, rfl⟩
            simp only [hrest, hb, List.nil_append]
            exact .written a ‹_›
          · refine ⟨⟨_, Exchange.peer?_modifyPeer hy _, rfl, ?_⟩, rfl⟩
            simp only [Queue.close, hb]
            exact .nothing [a]

theorem Wired.written_cases {items : List Envelope} {b : Bytes} (h : Wired hs items b) :
    b = [] ∨ ∃ a ∈ hs, Frame.encode Frame.maxBody a.envelope = .ok b := by
  cases h with
  | nothing => exact .inl rfl
  | waiting h => exact .inl rfl
  | written a hb => exact .inr ⟨a, List.mem_singleton_self a, hb⟩

end Switchboard
