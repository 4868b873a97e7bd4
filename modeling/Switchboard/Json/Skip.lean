import Switchboard.Json.Number
import Switchboard.Json.Text

/-! Passing over a value that nobody asked for. -/
namespace Switchboard.Json

def isSpace (x : UInt8) : Bool := x = 32 || x = 9 || x = 10 || x = 13

def skipSpace (b : Bytes) : Bytes := b.dropWhile isSpace

/-- What follows a given beginning. -/
def after? : (beginning b : Bytes) → Option Bytes
  | [], b => some b
  | x :: beginning, y :: b => if x = y then after? beginning b else none
  | _ :: _, [] => none

inductive Bracket where
  | square
  | curly
deriving DecidableEq

/-- Where a pass stands: before a value, or behind one. -/
inductive Place where
  | before
  | behind
deriving DecidableEq

/-- Passes over the name of a member and its colon. -/
def skipName? (b : Bytes) : Option Bytes :=
  match skipSpace b with
  | 34 :: rest =>
    match skipText? rest with
    | none => none
    | some rest =>
      match skipSpace rest with
      | 58 :: rest => some rest
      | _ => none
  | _ => none

/-- Passes over a value inside the brackets still open; each round consumes something. -/
def skip? : (fuel : Nat) → List Bracket → Place → Bytes → Option Bytes
  | 0, _, _, _ => none
  | _ + 1, [], .behind, b => some b
  | fuel + 1, .square :: opened, .behind, b =>
    match skipSpace b with
    | 44 :: rest => skip? fuel (.square :: opened) .before rest
    | 93 :: rest => skip? fuel opened .behind rest
    | _ => none
  | fuel + 1, .curly :: opened, .behind, b =>
    match skipSpace b with
    | 44 :: rest => (skipName? rest).bind (skip? fuel (.curly :: opened) .before ·)
    | 125 :: rest => skip? fuel opened .behind rest
    | _ => none
  | fuel + 1, opened, .before, b =>
    match skipSpace b with
    | 91 :: rest =>
      match skipSpace rest with
      | 93 :: rest => skip? fuel opened .behind rest
      | rest => skip? fuel (.square :: opened) .before rest
    | 123 :: rest =>
      match skipSpace rest with
      | 125 :: rest => skip? fuel opened .behind rest
      | rest => (skipName? rest).bind (skip? fuel (.curly :: opened) .before ·)
    | 110 :: rest => (after? [117, 108, 108] rest).bind (skip? fuel opened .behind ·)
    | 116 :: rest => (after? [114, 117, 101] rest).bind (skip? fuel opened .behind ·)
    | 102 :: rest => (after? [97, 108, 115, 101] rest).bind (skip? fuel opened .behind ·)
    | 34 :: rest => (skipText? rest).bind (skip? fuel opened .behind ·)
    | 45 :: rest => (skipNumber? rest).bind (skip? fuel opened .behind ·)
    | rest => (skipNumber? rest).bind (skip? fuel opened .behind ·)

/-- What follows the value at the front. -/
def skipValue? (b : Bytes) : Option Bytes := skip? (2 * b.length + 2) [] .before b

end Switchboard.Json
