import Mathlib
import Switchboard.MessagePack.Reader
import Switchboard.MessagePack.Writer
import Switchboard.Proofs.Bytes

/-! The head of every value is read back, whichever of its forms was the shortest. -/
namespace Switchboard.MessagePack

variable {n width : Nat} {head : Nat → Head} {front : Bytes}

theorem take?_append (h : front.length = n) (rest : Bytes) :
    take? n (front ++ rest) = some (front, rest) := by
  subst h
  simp [take?]

theorem natOf?_ofNat (h : n < 256 ^ width) (rest : Bytes) :
    natOf? width (Bytes.ofNat width n ++ rest) = some (n, rest) := by
  simp [natOf?, take?_append (Bytes.length_ofNat width n), Bytes.toNat_ofNat_of_lt h]

/-- A negative number is written as what two's complement makes of it. -/
theorem intOf?_ofNat {bound : Nat} (hbound : bound = 256 ^ width) (hn : 0 < n) (h : 2 * n ≤ bound)
    (rest : Bytes) :
    intOf? width (Bytes.ofNat width (bound - n) ++ rest) = some (-(n : Int), rest) := by
  have hlt : bound - n < 256 ^ width := by omega
  simp only [intOf?, natOf?_ofNat hlt, Option.map_some, Nat.pow_eq, ← hbound]
  congr 2
  omega

theorem sizedHead_ofNat (width : Nat) (head : Nat → Head) (h : n < 256 ^ width) (rest : Bytes) :
    sizedHead head width (Bytes.ofNat width n ++ rest) = some (head n, rest) := by
  simp [sizedHead, natOf?_ofNat h]

/-- Markers of 8, 16 and 32 bits announce the same kind of head. -/
theorem head?_sized {m8 m16 m32 : UInt8} (h8 : ∀ b, head? (m8 :: b) = sizedHead head 1 b)
    (h16 : ∀ b, head? (m16 :: b) = sizedHead head 2 b)
    (h32 : ∀ b, head? (m32 :: b) = sizedHead head 4 b) (h : n < 0x100000000) (rest : Bytes) :
    head? (sized m8 m16 m32 n ++ rest) = some (head n, rest) := by
  unfold sized
  split_ifs with hn hn
  · rw [List.cons_append, h8, sizedHead_ofNat _ head hn]
  · rw [List.cons_append, h16, sizedHead_ofNat _ head hn]
  · rw [List.cons_append, h32, sizedHead_ofNat _ head h]

theorem toNat_marker (h : n < 0x100) : (UInt8.ofNat n).toNat = n :=
  UInt8.toNat_ofNat_of_lt' h

theorem head?_writeNat (h : n < 0x10000000000000000) (rest : Bytes) :
    head? (writeNat n ++ rest) = some (.unsigned n, rest) := by
  unfold writeNat
  split_ifs with hn hn
  · simp [head?, toNat_marker (hn.trans (by decide)), hn]
  · exact head?_sized (fun _ => rfl) (fun _ => rfl) (fun _ => rfl) hn rest
  · exact sizedHead_ofNat 8 .unsigned h rest

theorem head?_signed (width : Nat) {m : UInt8} {bound : Nat}
    (hm : ∀ b, head? (m :: b) = (intOf? width b).map fun (n, rest) => (.signed n, rest))
    (hbound : bound = 256 ^ width) (hn : 0 < n) (h : 2 * n ≤ bound) (rest : Bytes) :
    head? (m :: Bytes.ofNat width (bound - n) ++ rest) = some (.signed (-(n : Int)), rest) := by
  rw [List.cons_append, hm, intOf?_ofNat hbound hn h]
  rfl

theorem head?_writeNegative (hn : 0 < n) (h : n ≤ 0x8000000000000000) (rest : Bytes) :
    head? (writeNegative n ++ rest) = some (.signed (-(n : Int)), rest) := by
  unfold writeNegative
  split_ifs with h0 h8 h16 h32
  · have hm := toNat_marker (n := 0x100 - n) (by omega)
    rw [List.singleton_append, head?]
    simp only [hm]
    rw [if_neg (by omega), if_neg (by omega), if_neg (by omega), if_neg (by omega),
      if_pos (by omega)]
    congr 3
    omega
  · exact head?_signed 1 (fun _ => rfl) rfl hn (by omega) rest
  · exact head?_signed 2 (fun _ => rfl) rfl hn (by omega) rest
  · exact head?_signed 4 (fun _ => rfl) rfl hn (by omega) rest
  · exact head?_signed 8 (fun _ => rfl) rfl hn (by omega) rest

theorem length_ofText (s : String) : (Bytes.ofText s).length = s.utf8ByteSize := by
  simp [Bytes.ofText]

theorem head?_writeString {s : String} (h : s.utf8ByteSize < 0x100000000) (rest : Bytes) :
    head? (writeString s ++ rest) = some (.text s.utf8ByteSize, Bytes.ofText s ++ rest) := by
  rw [← length_ofText] at h ⊢
  simp only [writeString, List.append_assoc]
  split_ifs with hn
  · have hm := toNat_marker (n := 0xa0 + (Bytes.ofText s).length) (by omega)
    rw [List.singleton_append, head?]
    simp only [hm]
    rw [if_neg (by omega), if_neg (by omega), if_neg (by omega), if_pos (by omega)]
    simp
  · exact head?_sized (fun _ => rfl) (fun _ => rfl) (fun _ => rfl) h _

theorem head?_containerHead {fixed m16 m32 : UInt8}
    (hfixed : ∀ n < 0x10, ∀ b, head? ((fixed + UInt8.ofNat n) :: b) = some (head n, b))
    (h16 : ∀ b, head? (m16 :: b) = sizedHead head 2 b)
    (h32 : ∀ b, head? (m32 :: b) = sizedHead head 4 b) (h : n < 0x100000000) (rest : Bytes) :
    head? (containerHead fixed m16 m32 n ++ rest) = some (head n, rest) := by
  unfold containerHead
  split_ifs with hn hn
  · exact hfixed n hn rest
  · rw [List.cons_append, h16, sizedHead_ofNat _ head hn]
  · rw [List.cons_append, h32, sizedHead_ofNat _ head h]

theorem head?_array (h : n < 0x100000000) (rest : Bytes) :
    head? (containerHead 0x90 0xdc 0xdd n ++ rest) = some (.array n, rest) := by
  refine head?_containerHead (fun n hn b => ?_) (fun _ => rfl) (fun _ => rfl) h rest
  interval_cases n <;> rfl

theorem head?_map (h : n < 0x100000000) (rest : Bytes) :
    head? (containerHead 0x80 0xde 0xdf n ++ rest) = some (.map n, rest) := by
  refine head?_containerHead (fun n hn b => ?_) (fun _ => rfl) (fun _ => rfl) h rest
  interval_cases n <;> rfl

end Switchboard.MessagePack
