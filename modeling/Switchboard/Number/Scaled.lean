import Switchboard.Number.Double

/-! Reading a decimal number into a double with one rounding for its digits and one per scaling. -/
namespace Switchboard.Scaled

/-- The digits kept of a decimal number: as many leading ones as fit 64 bits. -/
structure Digits where
  kept : Nat
  /-- Power of ten that the kept digits are to be multiplied by. -/
  exponent : Int

def limit : Nat := 0x10000000000000000

/-- Digits before the point. From the first that no longer fits, each counts as a zero. -/
def integerPart : List Nat → Nat → Digits
  | [], kept => ⟨kept, 0⟩
  | d :: rest, kept =>
    if kept * 10 + d < limit then integerPart rest (kept * 10 + d)
    else ⟨kept, rest.length + 1⟩

/-- Digits after the point. From the first that no longer fits, all are ignored. -/
def fractionPart : List Nat → Digits → Digits
  | [], n => n
  | d :: rest, n =>
    if n.kept * 10 + d < limit then fractionPart rest ⟨n.kept * 10 + d, n.exponent - 1⟩
    else n

/-- The double nearest to a power of ten that has one. -/
def powerOfTen (k : Nat) : Double := (Double.nearest false (Nat.pow 10 k) 1).getD ⟨0⟩

def times (x y : Double) : Option Double :=
  Double.nearest false (x.significand * y.significand * Nat.pow 2 (x.scale + y.scale))
    (Nat.pow 2 2148)

def dividedBy (x y : Double) : Option Double :=
  Double.nearest false (x.significand * Nat.pow 2 x.scale) (y.significand * Nat.pow 2 y.scale)

/-- Divides by `10 ^ k`, in steps of `10 ^ 308` and a last smaller one. -/
def shrink (x : Double) (k : Nat) : Option Double :=
  if k ≤ 308 then dividedBy x (powerOfTen k)
  else if x.significand = 0 then some x
  else (dividedBy x (powerOfTen 308)).bind (shrink · (k - 308))
termination_by k

/-- The magnitude of the kept digits times their power of ten; `none` when it is too large. -/
def magnitude (n : Digits) : Option Double :=
  (Double.nearest false n.kept 1).bind fun x =>
    if n.exponent < 0 then shrink x n.exponent.natAbs
    else if n.exponent ≤ 308 then times x (powerOfTen n.exponent.natAbs)
    else if n.kept = 0 then some x
    else none

def negate (x : Double) : Double := ⟨x.bits ^^^ 0x8000000000000000⟩

/-- The double that a decimal number is read as. -/
def read (isNegative : Bool) (integer fraction : List Nat) (exponent : Int) : Option Double :=
  let n := fractionPart fraction (integerPart integer 0)
  (magnitude ⟨n.kept, n.exponent + exponent⟩).map fun x => if isNegative then negate x else x

end Switchboard.Scaled
