import Switchboard.Number.Double

/-! The shortest decimal that reads back as a given double. -/
namespace Switchboard

/-- The decimal `digits · 10 ^ exponent`. -/
structure Decimal where
  digits : Nat
  exponent : Int
deriving DecidableEq, Repr

namespace Decimal

/-- Number of decimal digits, none for zero. -/
def width (n : Nat) : Nat := if n = 0 then 0 else (Nat.toDigits 10 n).length

/-- The same decimal without zeros at its end; at most `fuel` of them are removed. -/
def trim : Nat → Decimal → Decimal
  | 0, x => x
  | fuel + 1, x => if x.digits % 10 = 0 then trim fuel ⟨x.digits / 10, x.exponent + 1⟩ else x

/-- The interval of numbers that round to a positive double, in units of `2 ^ -1076`. -/
structure Interval where
  low : Nat
  mid : Nat
  high : Nat
  /-- Whether the ends round to the double too. -/
  closed : Bool

def unit : Nat := Nat.pow 2 1076

def intervalOf (x : Double) : Interval :=
  let m := x.significand
  let u := Nat.pow 2 x.scale
  let below := if x.fractionBits = 0 ∧ 1 < x.exponentBits then 1 else 2
  ⟨(4 * m - below) * u, 4 * m * u, (4 * m + 2) * u, m % 2 = 0⟩

def Interval.contains (i : Interval) (n den : Nat) : Bool :=
  if i.closed then i.low * den ≤ n && n ≤ i.high * den else i.low * den < n && n < i.high * den

/-- The exponent of the leading digit of a positive number, in units of `2 ^ -1076`. -/
def leading (mid : Nat) : Int :=
  if unit ≤ mid then (width (mid / unit) : Int) - 1
  else - (width ((unit + mid - 1) / mid - 1) : Int)

/-- The better of a number's two neighbours on the grid of `10 ^ g`, if one lies in the interval. -/
def onGrid (i : Interval) (g : Int) : Option Decimal :=
  let num := if g < 0 then Nat.pow 10 g.natAbs else 1
  let den := if g < 0 then 1 else Nat.pow 10 g.natAbs
  let d := i.mid * num / (unit * den)
  let below := i.contains (d * unit * den) num
  let above := i.contains ((d + 1) * unit * den) num
  match below, above with
  | false, false => none
  | true, false => some ⟨d, g⟩
  | false, true => some ⟨d + 1, g⟩
  | true, true =>
    let twice := 2 * (i.mid * num)
    let middle := (2 * d + 1) * unit * den
    if twice < middle then some ⟨d, g⟩
    else if middle < twice then some ⟨d + 1, g⟩
    else if d % 2 = 0 then some ⟨d, g⟩ else some ⟨d + 1, g⟩

/-- The first hit on the grids of `count`, `count + 1`, … digits. -/
def search (i : Interval) (lead : Int) : (fuel count : Nat) → Decimal
  | 0, count => ⟨i.mid / unit, count⟩
  | fuel + 1, count =>
    match onGrid i (lead - count) with
    | some x => trim 20 x
    | none => search i lead fuel (count + 1)

/-- The shortest decimal that reads back as the magnitude of a finite double. -/
def shortest (x : Double) : Decimal :=
  if x.significand = 0 then ⟨0, 0⟩
  else
    let i := intervalOf x
    search i (leading i.mid) 20 0

/-- The bounds between which a number is written without an exponent. -/
structure Layout where
  leastPlain : Int
  greatestPlain : Int

/-- A decimal with `point` digits before its point, or in exponent form outside the bounds. -/
def render (layout : Layout) (x : Decimal) : String :=
  let ds := Nat.toDigits 10 x.digits
  let lead : Int := x.exponent + ds.length - 1
  if lead < layout.leastPlain ∨ layout.greatestPlain < lead then
    let tail := if ds.length = 1 then [] else '.' :: ds.drop 1
    let sign := if lead < 0 then "-" else "+"
    String.ofList (ds.take 1 ++ tail) ++ "e" ++ sign ++ toString lead.natAbs
  else if lead < 0 then
    "0." ++ String.ofList (List.replicate (lead.natAbs - 1) '0' ++ ds)
  else
    let point := lead.natAbs + 1
    let whole := ds.take point ++ List.replicate (point - ds.length) '0'
    let part := ds.drop point
    String.ofList (whole ++ '.' :: if part.isEmpty then ['0'] else part)

end Switchboard.Decimal
