import Switchboard.Proofs.Frame.Body

/-! All the envelopes among the frames at the front of some bytes, and how they grow with the
bytes. -/
namespace Switchboard.Frame

variable {limit : Nat} {b body rest : Bytes} {m : Envelope} {e : WireError}

/-- The envelopes of the frames at the front of some bytes, and the bytes behind the last frame.
Frames that do not decode are passed over, and nothing is found behind one that cannot be taken. -/
def scan (limit : Nat) (b : Bytes) : List Envelope × Bytes :=
  match _h : body? limit b with
  | .ok (some (body, rest)) =>
    match Envelope.ofMessagePack body with
    | .ok m => (m :: (scan limit rest).1, (scan limit rest).2)
    | .error _ => scan limit rest
  | _ => ([], b)
termination_by b.length
decreasing_by all_goals exact length_lt_of_body? ‹_›

theorem scan_of_decoded (h : body? limit b = .ok (some (body, rest)))
    (hm : Envelope.ofMessagePack body = .ok m) :
    scan limit b = (m :: (scan limit rest).1, (scan limit rest).2) := by
  rw [scan]
  split <;> simp_all

theorem scan_of_undecoded (h : body? limit b = .ok (some (body, rest)))
    (he : Envelope.ofMessagePack body = .error e) : scan limit b = scan limit rest := by
  rw [scan]
  split <;> simp_all

theorem scan_of_stuck (h : ∀ v, body? limit b ≠ .ok (some v)) : scan limit b = ([], b) := by
  rw [scan]
  split
  · exact absurd ‹_› (h _)
  · rfl

/-- A length that is too large stays so, whatever follows. -/
theorem body?_append_error (h : body? limit b = .error e) (c : Bytes) :
    body? limit (b ++ c) = .error e := by
  simp only [body?] at h
  split at h
  · cases h
  · rename_i hhead
    have hle : headSize ≤ b.length := by
      rw [List.length_take] at hhead
      omega
    have htake : (b ++ c).take headSize = b.take headSize := List.take_append_of_le_length hle
    split at h
    · rename_i hsize
      rw [body?, htake, if_neg hhead, if_pos hsize, Except.error.inj h]
    · split at h <;> cases h

/-- More bytes join what is behind the last frame. -/
theorem scan_append (b c : Bytes) :
    scan limit (b ++ c) = ((scan limit b).1 ++ (scan limit ((scan limit b).2 ++ c)).1,
      (scan limit ((scan limit b).2 ++ c)).2) := by
  fun_induction scan limit b with
  | case1 b body rest hb m hm ih =>
    rw [scan_of_decoded (body?_append hb c) hm, ih]
    rfl
  | case2 b body rest hb e he ih => rw [scan_of_undecoded (body?_append hb c) he, ih]
  | case3 b hb => rfl

theorem scan_prefix (b c : Bytes) : (scan limit b).1 <+: (scan limit (b ++ c)).1 := by
  rw [scan_append]
  exact List.prefix_append _ _

/-- Where a length is too large, nothing more is found. -/
theorem scan_append_of_error (h : body? limit (scan limit b).2 = .error e) (c : Bytes) :
    scan limit (b ++ c) = ((scan limit b).1, (scan limit b).2 ++ c) := by
  have hstuck : scan limit ((scan limit b).2 ++ c) = ([], (scan limit b).2 ++ c) := by
    refine scan_of_stuck fun v => ?_
    rw [body?_append_error h c]
    nofun
  rw [scan_append, hstuck, List.append_nil]

end Switchboard.Frame
