import Mathlib
import Switchboard.Bytes

/-! Numbers in bytes are read back as they were written, and the bytes of plain text. -/
namespace Switchboard.Bytes

variable {s : String}

theorem foldl_toNat (b : Bytes) (n : Nat) :
    b.foldl (fun n x => n * 256 + x.toNat) n = n * 256 ^ b.length + toNat b := by
  induction b generalizing n with
  | nil => simp [toNat]
  | cons x b ih =>
    rw [toNat, List.foldl_cons, List.foldl_cons, ih, ih (0 * 256 + x.toNat), List.length_cons,
      Nat.pow_succ]
    ring

theorem toNat_cons (x : UInt8) (b : Bytes) :
    toNat (x :: b) = x.toNat * 256 ^ b.length + toNat b := by
  have h := foldl_toNat b x.toNat
  simpa [toNat] using h

/-- So many bytes hold no greater number. -/
theorem toNat_lt (b : Bytes) : b.toNat < 256 ^ b.length := by
  induction b with
  | nil => simp [toNat]
  | cons x b ih =>
    have hx : x.toNat + 1 ≤ 256 := x.toNat_lt
    calc toNat (x :: b) = x.toNat * 256 ^ b.length + toNat b := toNat_cons x b
      _ < x.toNat * 256 ^ b.length + 256 ^ b.length := Nat.add_lt_add_left ih _
      _ = (x.toNat + 1) * 256 ^ b.length := (Nat.succ_mul _ _).symm
      _ ≤ 256 * 256 ^ b.length := Nat.mul_le_mul_right _ hx
      _ = 256 ^ (x :: b).length := by rw [List.length_cons, Nat.pow_succ, Nat.mul_comm]

/-- The lowest bytes of a number give what is left of it modulo their number's power. -/
theorem toNat_ofNat (width n : Nat) : toNat (ofNat width n) = n % 256 ^ width := by
  induction width with
  | zero => simp [ofNat, toNat, Nat.mod_one]
  | succ width ih =>
    have hdigit : (UInt8.ofNat (n / Nat.pow 256 width)).toNat = n / 256 ^ width % 256 := by
      simp [UInt8.toNat_ofNat']
    rw [ofNat, toNat_cons, hdigit, length_ofNat, ih, Nat.pow_succ, Nat.mod_mul]
    ring

theorem toNat_ofNat_of_lt {width n : Nat} (h : n < 256 ^ width) : toNat (ofNat width n) = n := by
  rw [toNat_ofNat, Nat.mod_eq_of_lt h]

theorem ofText_append (s t : String) : ofText (s ++ t) = ofText s ++ ofText t := by
  simp [ofText, String.toByteArray_append]

theorem ofText_eq_flatMap (s : String) : ofText s = s.toList.flatMap String.utf8EncodeChar := by
  obtain ⟨cs, rfl⟩ : ∃ cs, s = String.ofList cs := ⟨s.toList, String.ofList_toList.symm⟩
  simp [ofText, List.utf8Encode]

/-- Characters below 128 have a byte each, of the same number. -/
theorem ofText_ofList {cs : List Char} (h : ∀ c ∈ cs, c.toNat < 128) :
    ofText (String.ofList cs) = cs.map fun c => UInt8.ofNat c.toNat := by
  rw [ofText_eq_flatMap, String.toList_ofList]
  induction cs with
  | nil => rfl
  | cons c cs ih =>
    have hc : c.toNat ≤ 127 := Nat.le_of_lt_succ (h c (by simp))
    have henc : String.utf8EncodeChar c = [UInt8.ofNat c.toNat] := by
      simp [String.utf8EncodeChar, hc]
    rw [List.flatMap_cons, henc, ih fun d hd => h d (by simp [hd])]
    rfl

/-- A byte below 128 stands for a character of its own. -/
theorem toNat_of_mem_utf8EncodeChar {c : Char} {x : UInt8} (h : x ∈ String.utf8EncodeChar c)
    (hx : x.toNat < 128) : c.toNat = x.toNat := by
  have hc : c.val.toNat = c.toNat := rfl
  unfold String.utf8EncodeChar at h
  dsimp only at h
  split_ifs at h
  all_goals
    simp only [List.mem_cons, List.not_mem_nil, or_false] at h
    rcases h with rfl | rfl | rfl | rfl <;>
      (rw [UInt8.toNat_ofNat'] at hx ⊢; omega)

theorem dot_mem_ofText : 46 ∈ ofText s ↔ '.' ∈ s.toList := by
  rw [ofText_eq_flatMap, List.mem_flatMap]
  constructor
  · rintro ⟨c, hc, hdot⟩
    have hn : c.toNat = '.'.toNat := toNat_of_mem_utf8EncodeChar hdot (by decide)
    rwa [← Char.toNat_inj.1 hn]
  · exact fun h => ⟨'.', h, by decide⟩

/-- Bytes among which there is no control character. -/
def ControlFree (b : Bytes) : Prop := ∀ x ∈ b, 32 ≤ x

instance (b : Bytes) : Decidable (ControlFree b) := List.decidableBAll _ b

theorem ControlFree.append {b c : Bytes} (hb : ControlFree b) (hc : ControlFree c) :
    ControlFree (b ++ c) :=
  List.forall_mem_append.2 ⟨hb, hc⟩

theorem ControlFree.cons {x : UInt8} {b : Bytes} (hx : 32 ≤ x) (hb : ControlFree b) :
    ControlFree (x :: b) :=
  List.forall_mem_cons.2 ⟨hx, hb⟩

/-- A character of one byte that is no control character. -/
def Printable (c : Char) : Prop := 32 ≤ c.toNat ∧ c.toNat < 128

def Plain (s : String) : Prop := ∀ c ∈ s.toList, Printable c

theorem plain_ofList {cs : List Char} (h : ∀ c ∈ cs, Printable c) : Plain (String.ofList cs) := by
  simpa [Plain] using h

theorem Plain.append {t : String} (hs : Plain s) (ht : Plain t) : Plain (s ++ t) := by
  intro c hc
  rcases List.mem_append.1 (String.toList_append ▸ hc) with hc | hc
  · exact hs c hc
  · exact ht c hc

theorem Plain.controlFree (h : Plain s) : ControlFree (ofText s) := by
  rw [← String.ofList_toList (s := s), ofText_ofList fun c hc => (h c hc).2]
  intro x hx
  obtain ⟨c, hc, rfl⟩ := List.mem_map.1 hx
  obtain ⟨hlow, hhigh⟩ := h c hc
  rw [UInt8.le_iff_toNat_le, UInt8.toNat_ofNat_of_lt' (hhigh.trans (by decide))]
  exact hlow

end Switchboard.Bytes
