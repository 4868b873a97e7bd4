import Switchboard.Proofs.Admission.Step
import Switchboard.Proofs.Frame.Body

/-! The first envelope of a client: which one it is depends on the bytes of its stream alone, and
not on how they come in pieces. -/
namespace Switchboard

variable {limit : Nat} {b c body rest : Bytes} {m : Envelope} {e : WireError}

namespace Frame

/-- The first envelope among the frames at the front of some bytes; frames that do not decode are
passed over, and nothing is found behind one that cannot be taken. -/
def first? (limit : Nat) (b : Bytes) : Option Envelope :=
  match _h : body? limit b with
  | .ok (some (body, rest)) =>
    match Envelope.ofMessagePack body with
    | .ok m => some m
    | .error _ => first? limit rest
  | _ => none
termination_by b.length
decreasing_by exact length_lt_of_body? ‹_›

theorem first?_of_decoded (h : body? limit b = .ok (some (body, rest)))
    (hm : Envelope.ofMessagePack body = .ok m) : first? limit b = some m := by
  unfold first?
  split <;> simp_all

theorem first?_of_undecoded (h : body? limit b = .ok (some (body, rest)))
    (he : Envelope.ofMessagePack body = .error e) : first? limit b = first? limit rest := by
  rw [first?]
  split <;> simp_all

theorem first?_append (h : first? limit b = some m) (c : Bytes) :
    first? limit (b ++ c) = some m := by
  fun_induction first? limit b with
  | case1 b body rest hb m' hm =>
    rw [first?_of_decoded (body?_append hb c) hm, ← h]
  | case2 b body rest hb e he ih =>
    rw [first?_of_undecoded (body?_append hb c) he, ih h]
  | case3 b hb => cases h

end Frame

/-- What a stream brings before it fails. -/
def Read.untilFailure : List Read → Bytes
  | .data b :: rs => b ++ untilFailure rs
  | _ => []

namespace Read

theorem untilFailure_data (bs : List Bytes) (rs : List Read) :
    untilFailure (bs.map .data ++ rs) = bs.flatten ++ untilFailure rs := by
  induction bs with
  | nil => rfl
  | cons b bs ih => simp [untilFailure, ih]

/-- What arrives later comes behind what is there, if it comes at all. -/
theorem untilFailure_append (rs ss : List Read) :
    ∃ b, untilFailure (rs ++ ss) = untilFailure rs ++ b := by
  induction rs with
  | nil => exact ⟨untilFailure ss, rfl⟩
  | cons r rs ih =>
    cases r with
    | data b =>
      obtain ⟨c, hc⟩ := ih
      exact ⟨c, by simp [untilFailure, hc]⟩
    | failure text => exact ⟨[], by simp [untilFailure]⟩

end Read

namespace Event

def arrived? : Event → Option Read
  | arrived r => some r
  | _ => none

def arrivals (es : List Event) : List Read := es.filterMap arrived?

/-- The bytes that a client sent, up to a failure of its stream. -/
def received (es : List Event) : Bytes := Read.untilFailure (arrivals es)

end Event

/-- Once there is a first envelope, it stays the first. -/
theorem Frame.first?_received {es : List Event} (h : first? limit (Event.received es) = some m)
    (fs : List Event) : first? limit (Event.received (es ++ fs)) = some m := by
  obtain ⟨b, hb⟩ := Read.untilFailure_append (Event.arrivals es) (Event.arrivals fs)
  rw [Event.received, Event.arrivals, List.filterMap_append]
  exact hb ▸ first?_append h b

theorem Queue.take_envelope {q r : Queue} (h : q.take = .envelope m r) :
    q.items = m :: r.items ∧ r = { q with items := r.items } := by
  unfold take at h
  split at h
  · cases h
    exact ⟨‹_›, rfl⟩
  · split at h <;> cases h

namespace Exchange

variable {σ : Type} {x y : Exchange σ} {k : Nat} {p : Peer}

theorem peer?_modifyPeer (h : x.peer? k = some p) (f : Peer → Peer) :
    (x.modifyPeer k f).peer? k = some (f p) := by
  have he := endpoint_of_peer? h
  simp [peer?, modifyPeer, modify, he, Endpoint.peer?]

/-- A peer that is sent an envelope has it in its inbox, if anybody takes from there. -/
theorem peer?_send (h : x.peer? k = some p) (m : Envelope) :
    (x.send k m).1.peer? k = some { p with inbox := (p.inbox.push? m).getD p.inbox } := by
  have he := endpoint_of_peer? h
  rw [send_fst]
  simp [peer?, modify, he, Endpoint.peer?, Endpoint.holding, Endpoint.withIncoming,
    Endpoint.incoming]

theorem peer?_hear (h : x.peer? k = some p) (hh : x.hear k = .envelope m y) :
    ∃ rest, p.outbox.items = m :: rest ∧
      y.peer? k = some { p with outbox := { p.outbox with items := rest } } := by
  have he := endpoint_of_peer? h
  simp only [hear, he] at hh
  split at hh
  · cases hh
    obtain ⟨hi, hq⟩ := Queue.take_envelope ‹_›
    refine ⟨_, hi, ?_⟩
    rw [hq]
    simp [peer?, modify, he, Endpoint.peer?, Endpoint.withOutgoing, Endpoint.outgoing]
  · cases hh
  · cases hh

end Exchange

/-- What a client has said so far is understood: nothing that has been decoded, or a first envelope,
which waits to be heard or is about to be judged. -/
inductive Overheard (arrivals : List Read) (c : Connection) (q : Queue) : Prop
  | silent (hq : q.items = []) (hn : ∀ m, c.admission ≠ .greeting (.received m))
      (ht : c.intake.result = none → ∃ taken : List Bytes,
        arrivals = taken.map .data ++ c.intake.reads ∧ ∀ b,
          Frame.first? c.maxFrame (taken.flatten ++ b)
            = Frame.first? c.maxFrame (c.intake.buffer ++ b))
  | spoken (m : Envelope) (hm : Frame.first? c.maxFrame (Read.untilFailure arrivals) = some m)
      (hq : c.admission = .greeting .awaiting → q.items.head? = some m)
      (hr : ∀ m', c.admission = .greeting (.received m') → m' = m)

namespace Overheard

variable {σ : Type} {x y : Exchange σ} {c d : Connection} {q : Queue} {p : Peer}
  {arrivals : List Read}

/-- Whatever does not touch the stream leaves what was understood. -/
theorem frame (h : Overheard arrivals c q)
    (hi : d.intake = { c.intake with ended := d.intake.ended })
    (hm : d.maxFrame = c.maxFrame)
    (hw : d.admission = .greeting .awaiting → c.admission = .greeting .awaiting)
    (hr : ∀ m, d.admission = .greeting (.received m) → c.admission = .greeting (.received m)) :
    Overheard arrivals d q := by
  cases h with
  | silent hq hn ht =>
    refine .silent hq (fun m ha => hn m (hr m ha)) ?_
    rw [hi, hm]
    exact ht
  | spoken m hf hq hm' =>
    exact .spoken m (hm ▸ hf) (fun ha => hq (hw ha)) fun m' ha => hm' m' (hr m' ha)

/-- What is judged is the first envelope of the stream. -/
theorem received (h : Overheard arrivals c q) (ha : c.admission = .greeting (.received m)) :
    Frame.first? c.maxFrame (Read.untilFailure arrivals) = some m := by
  cases h with
  | silent _ hn _ => exact absurd ha (hn m)
  | spoken m' hm _ hr =>
    rw [hr m ha]
    exact hm

/-- The peer's envelope that is heard first is the first one that it sent. -/
theorem hear (h : Overheard arrivals c q) (ha : c.admission = .greeting .awaiting)
    {rest : List Envelope} (hq : q.items = m :: rest) (r : Queue) :
    Overheard arrivals { c with admission := .greeting (.received m) } r := by
  cases h with
  | silent hq' _ _ =>
    rw [hq] at hq'
    cases hq'
  | spoken m₁ hm hq' _ =>
    have he : m = m₁ := by simpa [hq] using hq' ha
    subst he
    exact .spoken m hm nofun fun m' hr => by
      cases hr
      rfl

theorem arrive (h : Overheard arrivals c q) (r : Read) :
    Overheard (arrivals ++ [r])
      { c with intake.reads := c.intake.reads ++ [r] } q := by
  cases h with
  | silent hq hn ht =>
    refine .silent hq hn fun hr => ?_
    obtain ⟨taken, harr, hf⟩ := ht hr
    exact ⟨taken, by simp [harr], hf⟩
  | spoken m hm hq hr =>
    obtain ⟨b, hb⟩ := Read.untilFailure_append arrivals [r]
    exact .spoken m (hb ▸ Frame.first?_append hm b) hq hr

/-- A step of reading understands what there is to understand. -/
theorem read (h : Overheard arrivals c p.outbox) (hp : x.peer? c.peer = some p)
    (ho : p.outbox.isOpen = true) (hr : c.intake.result = none) (hs : c.Reads x y d) :
    ∃ p', y.peer? c.peer = some p' ∧ p'.inbox = p.inbox ∧ p'.outbox.isOpen = true ∧
      Overheard arrivals d p'.outbox := by
  cases hs with
  | @ended intake hres _ _ =>
    refine ⟨_, Exchange.peer?_modifyPeer hp _, rfl, ho, ?_⟩
    cases h with
    | silent hq hn ht =>
      refine .silent hq hn fun hnone => ?_
      have hnone : intake.result = none := hnone
      simp [hnone] at hres
    | spoken m hm hq hm' => exact .spoken m hm hq hm'
  | @taken b reads hb =>
    refine ⟨p, hp, rfl, ho, ?_⟩
    cases h with
    | silent hq hn ht =>
      refine .silent hq hn fun _ => ?_
      obtain ⟨taken, harr, hf⟩ := ht hr
      refine ⟨taken ++ [b], by simp [harr, hb], fun b' => ?_⟩
      simpa using hf (b ++ b')
    | spoken m hm hq hm' => exact .spoken m hm hq hm'
  | @decoded body buffer m hb hm =>
    refine ⟨_, Exchange.peer?_modifyPeer hp _, rfl, ?_, ?_⟩
    · simp [Queue.push?, ho]
    · cases h with
      | silent hq hn ht =>
        obtain ⟨taken, harr, hf⟩ := ht hr
        refine .spoken m ?_ (fun _ => by simp [Queue.push?, ho, hq]) fun m' ha => absurd ha (hn m')
        rw [harr, Read.untilFailure_data, hf]
        exact Frame.first?_append (Frame.first?_of_decoded hb hm) _
      | spoken m₁ hm₁ hq hm' =>
        refine .spoken m₁ hm₁ (fun ha => ?_) hm'
        simp [Queue.push?, ho, hq ha]
  | @skipped body buffer e hb he =>
    refine ⟨p, hp, rfl, ho, ?_⟩
    cases h with
    | silent hq hn ht =>
      refine .silent hq hn fun _ => ?_
      obtain ⟨taken, harr, hf⟩ := ht hr
      refine ⟨taken, harr, fun b => ?_⟩
      rw [hf]
      exact Frame.first?_of_undecoded (Frame.body?_append hb b) he
    | spoken m hm hq hm' => exact .spoken m hm hq hm'

end Overheard

end Switchboard
