import Mathlib
import Switchboard.Json.Number
import Switchboard.Json.Printer
import Switchboard.Proofs.Bytes

/-! Integers are read back from their decimal digits. -/
namespace Switchboard.Json

variable {n : Nat} {x : UInt8} {rest : Bytes}

/-- The decimal digits of a number. -/
def digits (n : Nat) : Bytes := (Nat.toDigits 10 n).map fun c => UInt8.ofNat c.toNat

theorem ascii_of_isDigit {c : Char} (h : c.isDigit = true) : 48 ≤ c.toNat ∧ c.toNat ≤ 57 := by
  simp only [Char.isDigit, Bool.and_eq_true, decide_eq_true_eq] at h
  exact h

theorem isDigit_of_mem_toDigits {c : Char} (h : c ∈ Nat.toDigits 10 n) :
    48 ≤ c.toNat ∧ c.toNat ≤ 57 :=
  ascii_of_isDigit (Nat.isDigit_of_mem_toDigits (by decide) (by decide) h)

theorem ofText_repr (n : Nat) : Bytes.ofText n.repr = digits n := by
  apply Bytes.ofText_ofList
  intro c hc
  have := isDigit_of_mem_toDigits hc
  omega

theorem renderInt_ofNat (n : Nat) : renderInt n = digits n := by
  simp [renderInt, Int.toString_eq_repr, Int.repr, ofText_repr]

theorem renderInt_negSucc (n : Nat) : renderInt (.negSucc n) = 45 :: digits (n + 1) := by
  have hminus : Bytes.ofText "-" = [45] := by decide +kernel
  simp [renderInt, Int.toString_eq_repr, Int.repr, ofText_repr, Bytes.ofText_append, hminus]

theorem isDigit_of_mem_digits (h : x ∈ digits n) : Bytes.isDigit x = true := by
  obtain ⟨c, hc, rfl⟩ := List.mem_map.1 h
  obtain ⟨hlow, hhigh⟩ := isDigit_of_mem_toDigits hc
  have hn : (UInt8.ofNat c.toNat).toNat = c.toNat :=
    UInt8.toNat_ofNat_of_lt' (hhigh.trans_lt (by decide))
  simp [Bytes.isDigit, UInt8.le_iff_toNat_le, hn, hlow, hhigh]

theorem digits_ne_nil (n : Nat) : digits n ≠ [] := by
  simp [digits, Nat.toDigits_ne_nil]

theorem ne_of_isDigit {y : UInt8} (hx : Bytes.isDigit x = true) (hy : Bytes.isDigit y = false) :
    x ≠ y := by
  rintro rfl
  simp [hx] at hy

theorem exists_cons_digits (n : Nat) :
    ∃ x ds, digits n = x :: ds ∧ Bytes.isDigit x = true := by
  obtain ⟨x, ds, hd⟩ := List.exists_cons_of_ne_nil (digits_ne_nil n)
  exact ⟨x, ds, hd, isDigit_of_mem_digits (n := n) (by simp [hd])⟩

/-- The last digit, behind those of the tenth part. -/
theorem digits_of_le (h : 10 ≤ n) :
    digits n = digits (n / 10) ++ [UInt8.ofNat (Nat.digitChar (n % 10)).toNat] := by
  have hn : ¬n < 10 := by omega
  simp [digits, Nat.toDigits_eq_if (b := 10) (by decide) (n := n), hn]

theorem digits_of_lt (h : n < 10) : digits n = [UInt8.ofNat (Nat.digitChar n).toNat] := by
  simp [digits, Nat.toDigits_eq_if (b := 10) (by decide) (n := n), h]

theorem ofDigits_concat (ds : List Nat) (d : Nat) :
    ofDigits (ds ++ [d]) = ofDigits ds * 10 + d := by
  simp [ofDigits]

theorem digitsOf_digitChar : ∀ n < 10, digitsOf [UInt8.ofNat (Nat.digitChar n).toNat] = [n] := by
  decide

theorem ofDigits_digits (n : Nat) : ofDigits (digitsOf (digits n)) = n := by
  induction n using Nat.strongRecOn with
  | ind n ih =>
    by_cases hn : n < 10
    · rw [digits_of_lt hn, digitsOf_digitChar n hn]
      simp [ofDigits]
    · have hlast := digitsOf_digitChar (n % 10) (Nat.mod_lt n (by decide))
      have hsplit (a b : Bytes) : digitsOf (a ++ b) = digitsOf a ++ digitsOf b := List.map_append
      rw [digits_of_le (by omega), hsplit, hlast, ofDigits_concat, ih (n / 10) (by omega)]
      omega

theorem digitChar_ne_zero : ∀ n < 10, n ≠ 0 → UInt8.ofNat (Nat.digitChar n).toNat ≠ 48 := by
  decide

/-- No zero stands in front, but for zero itself. -/
theorem head_digits (h : n ≠ 0) : (digits n).head? ≠ some 48 := by
  induction n using Nat.strongRecOn with
  | ind n ih =>
    by_cases hn : n < 10
    · rw [digits_of_lt hn]
      simpa using digitChar_ne_zero n hn h
    · have htenth := ih (n / 10) (by omega) (by omega)
      rw [digits_of_le (by omega), List.head?_append_of_ne_nil _ (digits_ne_nil _)]
      exact htenth

/-- Text behind a number that does not make it another one. -/
def EndsNumber (rest : Bytes) : Prop :=
  ∀ x, rest.head? = some x → Bytes.isDigit x = false ∧ x ≠ 46 ∧ x ≠ 101 ∧ x ≠ 69

/-- What ends digits that stand before it. -/
def EndsDigits (rest : Bytes) : Prop := ∀ x, rest.head? = some x → Bytes.isDigit x = false

theorem EndsNumber.endsDigits (h : EndsNumber rest) : EndsDigits rest := fun x hx => (h x hx).1

theorem spanDigits_append {b : Bytes} (h : ∀ x ∈ b, Bytes.isDigit x = true)
    (hrest : EndsDigits rest) : spanDigits (b ++ rest) = (b, rest) := by
  have hempty : rest.takeWhile Bytes.isDigit = [] ∧ rest.dropWhile Bytes.isDigit = rest := by
    cases rest with
    | nil => simp
    | cons x rest => simp [hrest x rfl]
  rw [spanDigits, List.span_eq_takeWhile_dropWhile, List.takeWhile_append_of_pos h,
    List.dropWhile_append_of_pos h, hempty.1, hempty.2, List.append_nil]

/-- At least one digit. -/
def Digits (b : Bytes) : Prop := b ≠ [] ∧ ∀ x ∈ b, Bytes.isDigit x = true

/-- Digits before the point: no zero stands in front of others. -/
def Whole (b : Bytes) : Prop := Digits b ∧ (b.head? = some 48 → b = [48])

theorem whole_digits (n : Nat) : Whole (digits n) := by
  refine ⟨⟨digits_ne_nil n, fun x => isDigit_of_mem_digits⟩, fun hzero => ?_⟩
  obtain rfl : n = 0 := by
    by_contra hn
    exact head_digits hn hzero
  rfl

theorem integerDigits?_append {b : Bytes} (h : Whole b) (hrest : EndsDigits rest) :
    integerDigits? (b ++ rest) = some (b, rest) := by
  obtain ⟨⟨hne, hdigits⟩, hzero⟩ := h
  rw [integerDigits?, spanDigits_append hdigits hrest]
  split
  · rename_i heq
    exact absurd (Prod.ext_iff.1 heq).1 hne
  · rename_i x ds _ heq
    have heq : b = 48 :: x :: ds := (Prod.ext_iff.1 heq).1
    simp [heq] at hzero
  · rename_i heq
    rw [← heq]

theorem fraction?_of_ne (h : rest.head? ≠ some 46) : fraction? rest = some ([], rest) := by
  unfold fraction?
  split
  · exact absurd rfl h
  · rfl

theorem exponent?_of_ends (h : EndsNumber rest) : exponent? rest = some (none, rest) := by
  cases rest with
  | nil => rfl
  | cons x rest =>
    obtain ⟨-, -, h101, h69⟩ := h x rfl
    simp [exponent?, h101, h69]

theorem number?_digits (h : EndsNumber rest) (isNegative : Bool) :
    number? isNegative (digits n ++ rest)
      = (wholeNumber isNegative (digitsOf (digits n))).map (·, rest) := by
  have hpoint : rest.head? ≠ some 46 := fun hx => (h 46 hx).2.1 rfl
  simp only [number?, integerDigits?_append (whole_digits n) h.endsDigits,
    fraction?_of_ne hpoint, exponent?_of_ends h, Option.bind_eq_bind, Option.bind_some]
  cases wholeNumber isNegative (digitsOf (digits n)) <;> rfl

theorem number?_nat (h : EndsNumber rest) (hn : n < 0x10000000000000000) :
    number? false (digits n ++ rest) = some (.int n, rest) := by
  simp [number?_digits h, wholeNumber, ofDigits_digits, hn]

theorem number?_neg (h : EndsNumber rest) (hpos : 0 < n) (hn : n ≤ 0x8000000000000000) :
    number? true (digits n ++ rest) = some (.int (-n), rest) := by
  simp [number?_digits h, wholeNumber, ofDigits_digits, hpos, hn]

end Switchboard.Json
