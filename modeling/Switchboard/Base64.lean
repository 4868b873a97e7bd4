import Switchboard.Bytes

/-! Base64 in its alphabet for URLs, without padding. -/
namespace Switchboard.Base64

/-- The number of a letter of the alphabet. -/
def sextet? (x : UInt8) : Option Nat :=
  if 65 ≤ x ∧ x ≤ 90 then some (x.toNat - 65)
  else if 97 ≤ x ∧ x ≤ 122 then some (x.toNat - 71)
  else if 48 ≤ x ∧ x ≤ 57 then some (x.toNat + 4)
  else if x = 45 then some 62
  else if x = 95 then some 63
  else none

/-- The letter of a number. -/
def letter (n : Nat) : UInt8 :=
  if n < 26 then UInt8.ofNat (n + 65)
  else if n < 52 then UInt8.ofNat (n + 71)
  else if n < 62 then UInt8.ofNat (n - 4)
  else if n = 62 then 45
  else 95

def encode : Bytes → Bytes
  | [] => []
  | [x] => [letter (x.toNat / 4), letter (x.toNat % 4 * 16)]
  | [x, y] =>
    let n := x.toNat * 256 + y.toNat
    [letter (n / 1024), letter (n / 16 % 64), letter (n % 16 * 4)]
  | x :: y :: z :: rest =>
    let n := (x.toNat * 256 + y.toNat) * 256 + z.toNat
    letter (n / 262144) :: letter (n / 4096 % 64) :: letter (n / 64 % 64) :: letter (n % 64) ::
      encode rest

/-- Refuses other letters, a single one at the end, and bits left over that are not zero. -/
def decode? : Bytes → Option Bytes
  | [] => some []
  | [_] => none
  | [a, b] => do
    let n := (← sextet? a) * 64 + (← sextet? b)
    if n % 16 = 0 then return [UInt8.ofNat (n / 16)] else none
  | [a, b, c] => do
    let n := ((← sextet? a) * 64 + (← sextet? b)) * 64 + (← sextet? c)
    if n % 4 = 0 then return [UInt8.ofNat (n / 1024), UInt8.ofNat (n / 4 % 256)] else none
  | a :: b :: c :: d :: rest => do
    let n := (((← sextet? a) * 64 + (← sextet? b)) * 64 + (← sextet? c)) * 64 + (← sextet? d)
    let more ← decode? rest
    return UInt8.ofNat (n / 65536) :: UInt8.ofNat (n / 256 % 256) ::
      UInt8.ofNat (n % 256) :: more

end Switchboard.Base64
