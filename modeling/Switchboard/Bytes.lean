/-! Byte strings, the text they may hold, and numbers written in them. -/
namespace Switchboard

abbrev Bytes := List UInt8

namespace Bytes

variable {b : Bytes} {s t : String}

/-- The UTF-8 bytes of a text. -/
def ofText (s : String) : Bytes := s.toByteArray.data.toList

/-- The text that the bytes are the UTF-8 form of. -/
def text? (b : Bytes) : Option String := String.fromUTF8? ⟨b.toArray⟩

@[simp] theorem text?_ofText (s : String) : (ofText s).text? = some s := by
  have h : s.toByteArray.IsValidUTF8 := s.isValidUTF8
  simp [text?, ofText, String.fromUTF8?, h, String.fromUTF8]

theorem ofText_of_text? (h : b.text? = some s) : ofText s = b := by
  unfold text? String.fromUTF8? at h
  split at h
  · injection h with h
    subst h
    simp [ofText, String.fromUTF8]
  · simp at h

theorem ofText_injective (h : ofText s = ofText t) : s = t := by
  have := congrArg text? h
  simpa using this

/-- Unsigned number of the bytes, most significant first. -/
def toNat (b : Bytes) : Nat := b.foldl (fun n x => n * 256 + x.toNat) 0

/-- The lowest `width` bytes of a number, most significant first. -/
def ofNat : (width n : Nat) → Bytes
  | 0, _ => []
  | width + 1, n => UInt8.ofNat (n / Nat.pow 256 width) :: ofNat width n

@[simp] theorem length_ofNat (width n : Nat) : (ofNat width n).length = width := by
  induction width with
  | zero => rfl
  | succ width ih => simp [ofNat, ih]

/-- Number of a hexadecimal digit. -/
def hexDigit? (x : UInt8) : Option Nat :=
  if 48 ≤ x ∧ x ≤ 57 then some (x.toNat - 48)
  else if 97 ≤ x ∧ x ≤ 102 then some (x.toNat - 87)
  else if 65 ≤ x ∧ x ≤ 70 then some (x.toNat - 55)
  else none

def isDigit (x : UInt8) : Bool := 48 ≤ x && x ≤ 57

/-- Everything up to and including the first newline, and what follows it. -/
def splitLine? : Bytes → Option (Bytes × Bytes)
  | [] => none
  | x :: rest =>
    if x = 10 then some ([10], rest)
    else (splitLine? rest).map fun (line, after) => (x :: line, after)

end Switchboard.Bytes
