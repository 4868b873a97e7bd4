import Mathlib
import Switchboard.Id

/-! Ids of different numbers are different, and there is no dot in them. -/
namespace Switchboard.Id

/-- Number of a hexadecimal digit. -/
def digit (c : Char) : Nat := if c.isDigit then c.toNat - 48 else c.toNat - 87

/-- Number of some hexadecimal digits, the most significant first. -/
def number (cs : List Char) : Nat := cs.foldl (fun n c => n * 16 + digit c) 0

theorem digit_digitChar : ∀ n < 16, digit (Nat.digitChar n) = n := by decide

theorem number_append (cs : List Char) (c : Char) :
    number (cs ++ [c]) = number cs * 16 + digit c := by
  simp [number]

theorem number_toDigits (n : Nat) : number (Nat.toDigits 16 n) = n := by
  induction n using Nat.strongRecOn with
  | ind n ih =>
    rw [Nat.toDigits_eq_if (by decide)]
    split
    · simpa [number] using digit_digitChar n ‹_›
    · rw [number_append, ih (n / 16) (by omega), digit_digitChar _ (Nat.mod_lt _ (by decide))]
      omega

theorem number_zeros (k : Nat) (cs : List Char) :
    number (List.replicate k '0' ++ cs) = number cs := by
  have hz : (List.replicate k '0').foldl (fun n c => n * 16 + digit c) 0 = 0 := by
    induction k with
    | zero => rfl
    | succ k ih => simpa [List.replicate_succ, digit] using ih
  simp [number, List.foldl_append, hz]

theorem ofNat_injective : Function.Injective ofNat := by
  intro m n h
  have hl : (ofNat m).toList = (ofNat n).toList := congrArg String.toList h
  simp only [ofNat, padded, String.toList_append, String.toList_ofList] at hl
  have hn := congrArg number (List.append_cancel_left hl)
  simpa [number_zeros, number_toDigits] using hn

theorem mem_toDigits {c : Char} (n : Nat) (h : c ∈ Nat.toDigits 16 n) :
    ∃ d < 16, Nat.digitChar d = c := by
  induction n using Nat.strongRecOn with
  | ind n ih =>
    rw [Nat.toDigits_eq_if (by decide)] at h
    split at h
    · exact ⟨n, ‹_›, (List.mem_singleton.1 h).symm⟩
    · rcases List.mem_append.1 h with h | h
      · exact ih (n / 16) (by omega) h
      · exact ⟨n % 16, Nat.mod_lt n (by decide), (List.mem_singleton.1 h).symm⟩

theorem dotless (n : Nat) : '.' ∉ (ofNat n).toList := by
  have hdigit : ∀ d < 16, Nat.digitChar d ≠ '.' := by decide
  simp only [ofNat, stem, padded, String.toList_append, String.toList_ofList, List.mem_append,
    not_or]
  refine ⟨by decide, ?_, ?_⟩
  · intro hdot
    exact absurd (List.eq_of_mem_replicate hdot) (by decide)
  · intro hdot
    obtain ⟨d, hd, he⟩ := mem_toDigits n hdot
    exact hdigit d hd he

end Switchboard.Id
