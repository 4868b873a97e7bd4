import Switchboard.Bytes
import Switchboard.Number.Scaled

/-! Numbers in JSON text. -/
namespace Switchboard.Json

/-- A number read: an integer of 64 bits where possible, else a double. -/
inductive Number where
  | int (n : Int)
  | double (x : Double)
deriving DecidableEq, Repr

def digitsOf (b : Bytes) : List Nat := b.map fun x => x.toNat - 48

/-- The number that decimal digits denote. -/
def ofDigits (ds : List Nat) : Nat := ds.foldl (fun n d => n * 10 + d) 0

/-- The digits at the front, and what follows them. -/
def spanDigits (b : Bytes) : Bytes × Bytes := b.span Bytes.isDigit

/-- Digits before the point: a single zero or digits without a zero in front. -/
def integerDigits? (b : Bytes) : Option (Bytes × Bytes) :=
  match spanDigits b with
  | ([], _) => none
  | (48 :: _ :: _, _) => none
  | (ds, rest) => some (ds, rest)

/-- At least one digit. -/
def someDigits? (b : Bytes) : Option (Bytes × Bytes) :=
  match spanDigits b with
  | ([], _) => none
  | (ds, rest) => some (ds, rest)

/-- The digits behind a point, none if no point stands here. -/
def fraction? : Bytes → Option (Bytes × Bytes)
  | 46 :: rest => someDigits? rest
  | b => some ([], b)

/-- The exponent, if one stands here. -/
def exponent? : Bytes → Option (Option Int × Bytes)
  | x :: rest =>
    if x = 101 ∨ x = 69 then
      let (isNegative, rest) := match rest with
        | 43 :: rest => (false, rest)
        | 45 :: rest => (true, rest)
        | rest => (false, rest)
      (someDigits? rest).map fun (ds, rest) =>
        let n := ofDigits (digitsOf ds)
        (some (if isNegative then -(n : Int) else n), rest)
    else some (none, x :: rest)
  | [] => some (none, [])

/-- The value of whole digits: minus zero and what does not fit 64 bits are doubles. -/
def wholeNumber (isNegative : Bool) (ds : List Nat) : Option Number :=
  let n := ofDigits ds
  if isNegative then
    if 0 < n ∧ n ≤ 0x8000000000000000 then some (.int (-n))
    else (Scaled.read true ds [] 0).map .double
  else if n < 0x10000000000000000 then some (.int n)
  else (Scaled.read false ds [] 0).map .double

/-- The number at the front of a text, behind its sign; `none` if malformed or too large. -/
def number? (isNegative : Bool) (b : Bytes) : Option (Number × Bytes) := do
  let (whole, rest) ← integerDigits? b
  let (part, rest) ← fraction? rest
  let (exponent, rest) ← exponent? rest
  if part.isEmpty && exponent.isNone then
    let n ← wholeNumber isNegative (digitsOf whole)
    return (n, rest)
  else
    let x ← Scaled.read isNegative (digitsOf whole) (digitsOf part) (exponent.getD 0)
    return (.double x, rest)

/-- Passes over a number without looking at its size. -/
def skipNumber? (b : Bytes) : Option Bytes := do
  let (_, rest) ← integerDigits? b
  let (_, rest) ← fraction? rest
  let (_, rest) ← exponent? rest
  return rest

end Switchboard.Json
