import Switchboard.Proofs.Feed.Voice
import Switchboard.Proofs.Frame.Scan

/-! What the reading side of a stream makes of what arrives: the envelopes of all frames that
decode, in order, whatever the pieces are that they come in. -/
namespace Switchboard

/-- No frame that can be taken will follow: the client has closed its side, the stream has failed,
or a length is too large. -/
inductive Read.Over (limit : Nat) (arrivals : List Read) (hungUp : Bool) : Prop
  | hungUp (h : hungUp = true)
  | failed {text : String} (h : .failure text ∈ arrivals)
  | oversized {e : WireError}
      (h : Frame.body? limit (Frame.scan limit (untilFailure arrivals)).2 = .error e)

/-- `said` is what a client has said so far, of what has arrived from it. -/
structure Said (limit : Nat) (arrivals : List Read) (i : Intake) (cancelled : Bool)
    (said : List Envelope) : Prop where
  front : said <+: (Frame.scan limit (Read.untilFailure arrivals)).1
  /-- As long as reading goes on, the buffer holds what is left of the bytes that were read. -/
  reading : i.result = none → ∃ taken : List Bytes, arrivals = taken.map .data ++ i.reads ∧
    Frame.scan limit taken.flatten =
      (said ++ (Frame.scan limit i.buffer).1, (Frame.scan limit i.buffer).2)
  ended : i.result.isSome → cancelled = true ∨ Read.Over limit arrivals i.ended

variable {σ : Type} {x y : Exchange σ} {c d : Connection} {limit : Nat} {arrivals : List Read}
  {i : Intake} {cancelled : Bool} {said more : List Envelope} {taken : List Bytes} {q : Queue}
  {papers : Option String × Option String}

theorem Read.Over.arrive {hungUp : Bool} (h : Read.Over limit arrivals hungUp) (r : Read) :
    Read.Over limit (arrivals ++ [r]) hungUp := by
  cases h with
  | hungUp h => exact .hungUp h
  | failed h => exact .failed (List.mem_append_left _ h)
  | @oversized e h =>
    obtain ⟨b, hb⟩ := untilFailure_append arrivals [r]
    have hall : Frame.body? limit (Frame.scan limit (untilFailure (arrivals ++ [r]))).2 =
        .error e := by
      rw [hb, Frame.scan_append_of_error h]
      exact Frame.body?_append_error h b
    exact .oversized hall

/-- What the bytes that were read determine is the front of what all bytes do. -/
theorem front_of_taken {reads : List Read} (ha : arrivals = taken.map .data ++ reads)
    (hs : (Frame.scan limit taken.flatten).1 = said ++ more) :
    said <+: (Frame.scan limit (Read.untilFailure arrivals)).1 := by
  rw [ha, Read.untilFailure_data]
  have hprefix : (Frame.scan limit taken.flatten).1 <+:
      (Frame.scan limit (taken.flatten ++ Read.untilFailure reads)).1 := Frame.scan_prefix _ _
  rw [hs] at hprefix
  exact (List.prefix_append said more).trans hprefix

namespace Said

theorem of_taken (taken : List Bytes) (hr : i.result = none)
    (ha : arrivals = taken.map .data ++ i.reads)
    (hs : Frame.scan limit taken.flatten =
      (said ++ (Frame.scan limit i.buffer).1, (Frame.scan limit i.buffer).2)) :
    Said limit arrivals i cancelled said where
  front := front_of_taken ha (congrArg Prod.fst hs)
  reading _ := ⟨taken, ha, hs⟩
  ended h := by simp [hr] at h

theorem new (limit : Nat) : Said limit [] {} false [] := of_taken [] rfl rfl rfl

theorem arrive (h : Said limit arrivals i cancelled said) (r : Read) :
    Said limit (arrivals ++ [r]) { i with reads := i.reads ++ [r] } cancelled said where
  front := by
    obtain ⟨b, hb⟩ := Read.untilFailure_append arrivals [r]
    rw [hb]
    exact h.front.trans (Frame.scan_prefix _ b)
  reading hr := by
    obtain ⟨taken, ha, hs⟩ := h.reading hr
    exact ⟨taken, by simp [ha], hs⟩
  ended hr := (h.ended hr).imp_right fun ho => ho.arrive r

theorem hangUp (h : Said limit arrivals i cancelled said) :
    Said limit arrivals { i with ended := true } cancelled said :=
  ⟨h.front, h.reading, fun _ => .inr (.hungUp rfl)⟩

theorem cancel {told : Bool} (h : Said limit arrivals i cancelled said)
    (ht : cancelled = true → told = true) : Said limit arrivals i told said :=
  ⟨h.front, h.reading, fun hr => (h.ended hr).imp_left ht⟩

/-- Reading comes to an end for one of its reasons only. -/
theorem halt (h : Said c.maxFrame arrivals c.intake c.guard.cancelled said)
    (hr : c.intake.result = none) (hh : c.Halts) :
    c.guard.cancelled = true ∨ Read.Over c.maxFrame arrivals c.intake.ended := by
  obtain ⟨taken, ha, hs⟩ := h.reading hr
  cases hh with
  | cancelled h => exact .inl h
  | hungUp h => exact .inr (.hungUp h)
  | failed h =>
    have hmem : Read.failure _ ∈ c.intake.reads := h ▸ List.mem_cons_self
    exact .inr (.failed (ha ▸ List.mem_append_right _ hmem))
  | @refused e hb =>
    have hstuck : Frame.scan c.maxFrame c.intake.buffer = ([], c.intake.buffer) := by
      refine Frame.scan_of_stuck fun v => ?_
      rw [hb]
      nofun
    have hleft : (Frame.scan c.maxFrame taken.flatten).2 = c.intake.buffer := by
      rw [hs, hstuck]
    rw [← hleft] at hb
    have hall : Frame.body? c.maxFrame
        (Frame.scan c.maxFrame (Read.untilFailure arrivals)).2 = .error e := by
      rw [ha, Read.untilFailure_data, Frame.scan_append_of_error hb]
      exact Frame.body?_append_error hb _
    exact .inr (.oversized hall)

/-- A step of reading puts what it decodes at the end of what the peer has to say. -/
theorem read (h : Said c.maxFrame arrivals c.intake c.guard.cancelled said)
    (hv : x.voice c.peer = some (q, papers)) (ho : q.isOpen = true)
    (hr : c.read? x = some (y, d)) :
    ∃ more r, r.isOpen = true ∧ r.items = q.items ++ more ∧
      y.voice c.peer = some (r, papers) ∧
      Said c.maxFrame arrivals d.intake c.guard.cancelled (said ++ more) := by
  obtain ⟨hnone, hs⟩ := Connection.reads_of_read? hr
  obtain ⟨taken, ha, ht⟩ := h.reading hnone
  cases hs with
  | @ended intake hsome he hh =>
    refine ⟨[], q.finish, ho, (List.append_nil _).symm,
      Exchange.voice_modifyPeer_outbox hv Queue.finish, ?_⟩
    rw [List.append_nil]
    refine ⟨h.front, fun hn => ?_, fun _ => ?_⟩
    · rw [hn] at hsome
      cases hsome
    · rw [he]
      exact h.halt hnone hh
  | @taken b reads hb =>
    refine ⟨[], q, ho, (List.append_nil _).symm, hv, ?_⟩
    rw [List.append_nil]
    refine of_taken (taken ++ [b]) hnone (by simp [ha, hb]) ?_
    rw [List.flatten_append, List.flatten_singleton, Frame.scan_append, ht,
      Frame.scan_append c.intake.buffer, List.append_assoc]
  | @decoded body rest m hb hm =>
    refine ⟨[m], { q with items := q.items ++ [m] }, ho, rfl, ?_, of_taken taken hnone ha ?_⟩
    · have hpush := Exchange.voice_modifyPeer_outbox hv fun q => (q.push? m).getD q
      simpa [Queue.push?, ho] using hpush
    · rw [ht, Frame.scan_of_decoded hb hm]
      simp
  | @skipped body rest e hb he =>
    refine ⟨[], q, ho, (List.append_nil _).symm, hv, ?_⟩
    rw [List.append_nil]
    exact of_taken taken hnone ha (by rw [ht, Frame.scan_of_undecoded hb he])

end Said

/-- What it means that reading has not ended and cannot go on. -/
theorem Connection.waits_of_read? (hr : c.intake.result = none) (h : c.read? x = none) :
    c.guard.cancelled = false ∧ Frame.body? c.maxFrame c.intake.buffer = .ok none ∧
      c.intake.reads = [] ∧ c.intake.ended = false := by
  unfold read? at h
  rw [hr] at h
  split at h
  · cases ‹(none : Option (Except Error Unit)).isSome = true›
  · split at h
    · cases h
    · split at h
      · cases h
      · unfold readMore? at h
        split at h
        · cases h
        · cases h
        · split at h
          · cases h
          · exact ⟨by simpa using ‹¬c.guard.cancelled = true›, ‹_›, ‹_›,
              by simpa using ‹¬c.intake.ended = true›⟩
      · split at h <;> cases h

/-- When there is nothing to read and reading goes on, all that the client has sent is said, and
more may come. -/
theorem Said.complete (h : Said c.maxFrame arrivals c.intake c.guard.cancelled said)
    (hr : c.intake.result = none) (hn : c.read? x = none) :
    said = (Frame.scan c.maxFrame (Read.untilFailure arrivals)).1 ∧
      ¬Read.Over c.maxFrame arrivals c.intake.ended := by
  obtain ⟨-, hbody, hreads, hended⟩ := Connection.waits_of_read? hr hn
  obtain ⟨taken, ha, ht⟩ := h.reading hr
  have hstuck : Frame.scan c.maxFrame c.intake.buffer = ([], c.intake.buffer) := by
    refine Frame.scan_of_stuck fun v => ?_
    rw [hbody]
    nofun
  have hall : Read.untilFailure arrivals = taken.flatten := by
    rw [ha, Read.untilFailure_data, hreads]
    exact List.append_nil _
  rw [hall, ht, hstuck]
  refine ⟨(List.append_nil _).symm, fun ho => ?_⟩
  cases ho with
  | hungUp ho =>
    rw [hended] at ho
    cases ho
  | failed ho =>
    rw [ha, hreads, List.append_nil] at ho
    obtain ⟨b, -, hb⟩ := List.mem_map.1 ho
    cases hb
  | oversized ho =>
    rw [hall, ht, hstuck, hbody] at ho
    cases ho

end Switchboard
