import Mathlib
import Switchboard.Json.Printer
import Switchboard.Json.Reader
import Switchboard.Proofs.Bytes

/-! Text that is written between quotes is read back, and holds no control characters. -/
namespace Switchboard.Json

variable {b rest : Bytes} {s : String}

theorem hexUnit?_hexByte : ∀ n < 32,
    hexUnit? 48 48 (hexByte (n / 16)) (hexByte (n % 16)) = some n := by
  decide

theorem encoded_of_control : ∀ n < 32, encoded n = [UInt8.ofNat n] := by
  decide

theorem content?_control {x : UInt8} (h : x < 32) (b : Bytes) :
    content? (92 :: 117 :: 48 :: 48 :: hexByte (x.toNat / 16) :: hexByte (x.toNat % 16) :: b)
      = prepend [x] (content? b) := by
  have hn : x.toNat < 32 := h
  have hl : isLowSurrogate x.toNat = false := by
    simp [isLowSurrogate]
    omega
  have hh : isHighSurrogate x.toNat = false := by
    simp [isHighSurrogate]
    omega
  rw [content?]
  simp [hexUnit?_hexByte _ hn, hl, hh, encoded_of_control _ hn]

/-- Each byte of a text is read back as it was written. -/
theorem content?_escaped (x : UInt8) (b : Bytes) :
    content? (escaped x ++ b) = prepend [x] (content? b) := by
  unfold escaped
  by_cases h34 : x = 34
  · simp [h34, content?, escape?]
  by_cases h92 : x = 92
  · simp [h92, content?, escape?]
  by_cases h8 : x = 8
  · simp [h8, content?, escape?]
  by_cases h9 : x = 9
  · simp [h9, content?, escape?]
  by_cases h10 : x = 10
  · simp [h10, content?, escape?]
  by_cases h12 : x = 12
  · simp [h12, content?, escape?]
  by_cases h13 : x = 13
  · simp [h13, content?, escape?]
  by_cases hc : x < 32
  · simpa [h34, h92, h8, h9, h10, h12, h13, hc] using content?_control hc b
  · simp [h34, h92, h8, h9, h10, h12, h13, hc, content?]

theorem content?_flatMap (content rest : Bytes) :
    content? (content.flatMap escaped ++ 34 :: rest) = some (content, rest) := by
  induction content with
  | nil => simp [content?]
  | cons x content ih =>
    rw [List.flatMap_cons, List.append_assoc, content?_escaped, ih]
    rfl

theorem text?_renderString (s : String) (rest : Bytes) :
    text? ((Bytes.ofText s).flatMap escaped ++ 34 :: rest) = some (s, rest) := by
  simp [text?, content?_flatMap]

theorem value_string (room : Nat) (s : String) (rest : Bytes) :
    value room (renderString s ++ rest) = .ok (.string s, rest) := by
  unfold value
  simp [renderString, skipSpace, isSpace, text?_renderString, wellFormedOr]

theorem le_hexByte : ∀ n < 16, 32 ≤ hexByte n := by decide

/-- What is written for a byte of a text holds no controls. -/
theorem controlFree_escaped (x : UInt8) : Bytes.ControlFree (escaped x) := by
  unfold escaped
  split_ifs with h34 h92 h8 h9 h10 h12 h13 hc
  case pos | pos | pos | pos | pos | pos | pos => decide
  case pos =>
    have hx : x.toNat < 32 := hc
    have hhigh := le_hexByte (x.toNat / 16) (by omega)
    have hlow := le_hexByte (x.toNat % 16) (by omega)
    exact .append (b := [92, 117, 48, 48]) (by decide) (.cons hhigh (.cons hlow (by decide)))
  case neg => exact .cons (UInt8.not_lt.1 hc) (by decide)

end Switchboard.Json
