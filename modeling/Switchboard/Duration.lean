/-! Lengths of time, and how messages show them. -/
namespace Switchboard

/-- A length of time in nanoseconds. -/
structure Duration where
  nanos : Nat
deriving DecidableEq, Repr, Inhabited

namespace Duration

def ofMillis (n : Nat) : Duration := ⟨n * 1000000⟩

def ofSeconds (n : Nat) : Duration := ⟨n * 1000000000⟩

def millis (d : Duration) : Nat := d.nanos / 1000000

def seconds (d : Duration) : Nat := d.nanos / 1000000000

/-- A number of units of `10 ^ places` nanoseconds, without zeros behind its last digit. -/
def decimal (places nanos : Nat) : String :=
  let part := nanos % Nat.pow 10 places
  let digits := Nat.toDigits 10 (Nat.pow 10 places + part) |>.drop 1
  let shown := (digits.reverse.dropWhile (· == '0')).reverse
  toString (nanos / Nat.pow 10 places) ++ if shown.isEmpty then "" else "." ++ String.ofList shown

/-- The length in the largest unit that makes it at least one. -/
def text (d : Duration) : String :=
  if 1000000000 ≤ d.nanos then decimal 9 d.nanos ++ "s"
  else if 1000000 ≤ d.nanos then decimal 6 d.nanos ++ "ms"
  else if 1000 ≤ d.nanos then decimal 3 d.nanos ++ "µs"
  else decimal 0 d.nanos ++ "ns"

end Switchboard.Duration
