/-! Binary floating point numbers of 64 bits, in exact arithmetic on naturals. -/
namespace Switchboard

/-- A double, kept as the 64 bits of its interchange form. -/
structure Double where
  bits : UInt64
deriving DecidableEq, Repr

namespace Double

def negative (x : Double) : Bool := x.bits.toNat / 0x8000000000000000 = 1

def exponentBits (x : Double) : Nat := x.bits.toNat / 0x10000000000000 % 0x800

def fractionBits (x : Double) : Nat := x.bits.toNat % 0x10000000000000

/-- Neither infinite nor not-a-number. -/
def isFinite (x : Double) : Bool := x.exponentBits != 2047

/-- The significand `m` of the magnitude `m · 2 ^ (scale - 1074)`. -/
def significand (x : Double) : Nat :=
  if x.exponentBits = 0 then x.fractionBits else 0x10000000000000 + x.fractionBits

/-- The exponent of the magnitude, counted from that of the least positive double. -/
def scale (x : Double) : Nat := x.exponentBits - 1

/-- The quotient rounded to a natural, a half going to the even neighbour. -/
def roundQuotient (num den : Nat) : Nat :=
  let q := num / den
  let r := num % den
  if 2 * r < den then q
  else if den < 2 * r then q + 1
  else if q % 2 = 0 then q else q + 1

/-- The `scale` at which `num / den` has 53 binary digits, or zero if it has fewer at the least. -/
def scaleOf (num den : Nat) : Nat :=
  let e := num.log2 + 1074 - den.log2
  let e := if num * Nat.pow 2 1074 < den * Nat.pow 2 e then e - 1 else e
  e - 52

/-- The double nearest to `num / den`, a half going to the even one; `none` beyond the largest. -/
def nearest (negative : Bool) (num den : Nat) : Option Double :=
  let s := if num = 0 then 0 else scaleOf num den
  let m := roundQuotient (num * Nat.pow 2 1074) (den * Nat.pow 2 s)
  let bits := s * 0x10000000000000 + m
  if bits < 2047 * 0x10000000000000 then
    some ⟨UInt64.ofNat (bits + if negative then 0x8000000000000000 else 0)⟩
  else none

/-- The double of the same value as a number of 32 bits in interchange form. -/
def ofSingleBits (bits : UInt32) : Double :=
  let n := bits.toNat
  let sign := n / 0x80000000 * 0x8000000000000000
  let e := n / 0x800000 % 0x100
  let f := n % 0x800000
  if e = 255 then ⟨UInt64.ofNat (sign + 2047 * 0x10000000000000 + f * 0x20000000)⟩
  else
    let m := if e = 0 then f else 0x800000 + f
    match nearest false (m * Nat.pow 2 (e - 1)) (Nat.pow 2 149) with
    | some x => ⟨UInt64.ofNat (sign + x.bits.toNat)⟩
    | none => ⟨0⟩

end Switchboard.Double
