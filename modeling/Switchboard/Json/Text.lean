import Switchboard.Bytes

/-! Text between quotes in JSON. -/
namespace Switchboard.Json

/-- The number of four hexadecimal digits. -/
def hexUnit? (a b c d : UInt8) : Option Nat := do
  let a ← Bytes.hexDigit? a
  let b ← Bytes.hexDigit? b
  let c ← Bytes.hexDigit? c
  let d ← Bytes.hexDigit? d
  return ((a * 16 + b) * 16 + c) * 16 + d

/-- What a letter stands for behind a backslash. -/
def escape? (x : UInt8) : Option UInt8 :=
  if x = 34 ∨ x = 92 ∨ x = 47 then some x
  else if x = 98 then some 8
  else if x = 102 then some 12
  else if x = 110 then some 10
  else if x = 114 then some 13
  else if x = 116 then some 9
  else none

def isHighSurrogate (n : Nat) : Bool := 0xD800 ≤ n && n ≤ 0xDBFF

def isLowSurrogate (n : Nat) : Bool := 0xDC00 ≤ n && n ≤ 0xDFFF

def encoded (n : Nat) : Bytes := String.utf8EncodeChar (Char.ofNat n)

/-- Puts bytes in front of what a reader found. -/
def prepend (b : Bytes) (found : Option (Bytes × Bytes)) : Option (Bytes × Bytes) :=
  found.map fun (content, rest) => (b ++ content, rest)

/-- The content of a text up to its closing quote, escapes undone, and what follows the quote. -/
def content? : Bytes → Option (Bytes × Bytes)
  | [] => none
  | 34 :: rest => some ([], rest)
  | 92 :: 117 :: a :: b :: c :: d :: rest =>
    match hexUnit? a b c d with
    | none => none
    | some n =>
      if isLowSurrogate n then none
      else if isHighSurrogate n then
        match rest with
        | 92 :: 117 :: e :: f :: g :: h :: rest =>
          match hexUnit? e f g h with
          | none => none
          | some m =>
            if isLowSurrogate m then
              prepend (encoded (0x10000 + (n - 0xD800) * 1024 + (m - 0xDC00))) (content? rest)
            else none
        | _ => none
      else prepend (encoded n) (content? rest)
  | 92 :: x :: rest =>
    match escape? x with
    | none => none
    | some y => prepend [y] (content? rest)
  | x :: rest => if x < 32 ∨ x = 92 then none else prepend [x] (content? rest)

/-- The text up to its closing quote, and what follows the quote. -/
def text? (b : Bytes) : Option (String × Bytes) := do
  let (content, rest) ← content? b
  let s ← Bytes.text? content
  return (s, rest)

/-- Passes over a text to behind its closing quote; neither surrogates nor UTF-8 are checked. -/
def skipText? : Bytes → Option Bytes
  | [] => none
  | 34 :: rest => some rest
  | 92 :: 117 :: a :: b :: c :: d :: rest =>
    if (hexUnit? a b c d).isSome then skipText? rest else none
  | 92 :: x :: rest => if (escape? x).isSome then skipText? rest else none
  | x :: rest => if x < 32 ∨ x = 92 then none else skipText? rest

end Switchboard.Json
