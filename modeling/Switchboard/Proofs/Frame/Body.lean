import Mathlib
import Switchboard.Frame
import Switchboard.Proofs.Bytes

/-! The body at the front of some bytes: when it is there, and that what follows does not matter. -/
namespace Switchboard.Frame

variable {limit : Nat} {b body frame rest : Bytes} {e : Envelope} {err : WireError}

/-- What a frame is: a length within the limit, as many bytes, and whatever follows. -/
theorem body?_eq_some_iff : body? limit b = .ok (some (body, rest)) ↔
    ∃ head, head.length = headSize ∧ Bytes.toNat head = body.length ∧ body.length ≤ limit ∧
      b = head ++ (body ++ rest) := by
  constructor
  · intro h
    simp only [body?] at h
    split at h
    · cases h
    · split at h
      · cases h
      · split at h
        · cases h
        · obtain ⟨rfl, rfl⟩ := Prod.mk.inj (Option.some.inj (Except.ok.inj h))
          refine ⟨b.take headSize, ?_, ?_, ?_, ?_⟩
          · have hle : (b.take headSize).length ≤ headSize := List.length_take_le _ _
            omega
          · simp only [List.length_take]
            omega
          · simp only [List.length_take]
            omega
          · simp only [List.take_append_drop]
  · rintro ⟨head, hl, hn, hle, rfl⟩
    have htake : (head ++ (body ++ rest)).take headSize = head := List.take_left' hl
    have hdrop : (head ++ (body ++ rest)).drop headSize = body ++ rest := List.drop_left' hl
    simp only [body?, htake, hdrop, hl, hn]
    rw [if_neg (Nat.lt_irrefl _), if_neg (Nat.not_lt.2 hle), if_neg (by simp), List.take_left,
      List.drop_left]

/-- A frame is taken off the front once it is all there, and what follows does not matter. -/
theorem body?_append (h : body? limit b = .ok (some (body, rest))) (c : Bytes) :
    body? limit (b ++ c) = .ok (some (body, rest ++ c)) := by
  obtain ⟨head, hl, hn, hle, rfl⟩ := body?_eq_some_iff.1 h
  exact body?_eq_some_iff.2 ⟨head, hl, hn, hle, by simp⟩

theorem length_lt_of_body? (h : body? limit b = .ok (some (body, rest))) :
    rest.length < b.length := by
  obtain ⟨head, hl, -, -, rfl⟩ := body?_eq_some_iff.1 h
  simp [hl, headSize]
  omega

/-- An envelope that fits under a limit of 32 bits makes one frame, with its MessagePack in it. -/
theorem body?_of_encode (hlimit : limit < 0x100000000) (h : encode limit e = .ok frame)
    (c : Bytes) : body? limit (frame ++ c) = .ok (some (e.toMessagePack, c)) := by
  simp only [encode] at h
  split at h
  · cases h
  · rename_i hle
    obtain rfl := Except.ok.inj h
    have hn : e.toMessagePack.length < 256 ^ headSize := by
      simp only [headSize]
      omega
    refine body?_eq_some_iff.2 ⟨_, Bytes.length_ofNat _ _, Bytes.toNat_ofNat_of_lt hn,
      Nat.le_of_not_lt hle, ?_⟩
    simp [ofBody]

theorem length_of_encode (h : encode limit e = .ok frame) :
    frame.length = headSize + e.toMessagePack.length := by
  simp only [encode] at h
  split at h
  · cases h
  · obtain rfl := Except.ok.inj h
    simp [ofBody]

end Switchboard.Frame
