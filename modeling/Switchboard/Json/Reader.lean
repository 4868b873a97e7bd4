import Switchboard.Json.Fault
import Switchboard.Json.Skip
import Switchboard.Record

/-! Reading JSON, left to right: of several faults the first is reported. -/
namespace Switchboard.Json

/-- What a reader that knows no other fault has found. -/
def wellFormedOr {α : Type} : Option α → Except Fault α
  | some x => .ok x
  | none => .error .malformed

def Number.value : Number → Value
  | .int n => .int n
  | .double x => .double x

def Number.found : Number → Found
  | .int n => .int n
  | .double x => .double x

/-- Elements up to the closing bracket, read by `element`. -/
def elements (element : Bytes → Except Fault (Value × Bytes)) :
    (fuel : Nat) → (first : Bool) → Bytes → Except Fault (List Value × Bytes)
  | 0, _, _ => .error .malformed
  | fuel + 1, first, b =>
    match first, skipSpace b with
    | _, 93 :: rest => .ok ([], rest)
    | true, rest => do
      let (v, rest) ← element rest
      let (vs, rest) ← elements element fuel false rest
      return (v :: vs, rest)
    | false, 44 :: rest => do
      let (v, rest) ← element rest
      let (vs, rest) ← elements element fuel false rest
      return (v :: vs, rest)
    | false, _ => .error .malformed

/-- The name of a member, up to its colon and over it. -/
def memberName (b : Bytes) : Except Fault (String × Bytes) :=
  match skipSpace b with
  | 34 :: rest => do
    let (key, rest) ← wellFormedOr (text? rest)
    match skipSpace rest with
    | 58 :: rest => return (key, rest)
    | _ => .error .malformed
  | _ => .error .malformed

/-- Members up to the closing brace, put into those read before them. -/
def members (element : Bytes → Except Fault (Value × Bytes)) :
    (fuel : Nat) → (first : Bool) → List (String × Value) → Bytes →
      Except Fault ((List (String × Value)) × Bytes)
  | 0, _, _, _ => .error .malformed
  | fuel + 1, first, sofar, b =>
    match first, skipSpace b with
    | _, 125 :: rest => .ok (sofar, rest)
    | true, rest => do
      let (key, rest) ← memberName rest
      let (v, rest) ← element rest
      members element fuel false (Value.put key v sofar) rest
    | false, 44 :: rest => do
      let (key, rest) ← memberName rest
      let (v, rest) ← element rest
      members element fuel false (Value.put key v sofar) rest
    | false, _ => .error .malformed

/-- The value at the front, with at most `room` containers inside one another. -/
def value : (room : Nat) → Bytes → Except Fault (Value × Bytes)
  | room, b =>
    match skipSpace b with
    | 110 :: rest => do
      let rest ← wellFormedOr (after? [117, 108, 108] rest)
      return (.null, rest)
    | 116 :: rest => do
      let rest ← wellFormedOr (after? [114, 117, 101] rest)
      return (.bool true, rest)
    | 102 :: rest => do
      let rest ← wellFormedOr (after? [97, 108, 115, 101] rest)
      return (.bool false, rest)
    | 34 :: rest => do
      let (s, rest) ← wellFormedOr (text? rest)
      return (.string s, rest)
    | 91 :: rest =>
      match room with
      | 0 => .error .malformed
      | room + 1 => do
        let (vs, rest) ← elements (value room) (rest.length + 1) true rest
        return (.array vs, rest)
    | 123 :: rest =>
      match room with
      | 0 => .error .malformed
      | room + 1 => do
        let (ms, rest) ← members (value room) (rest.length + 1) true [] rest
        return (.object ms, rest)
    | 45 :: rest => do
      let (n, rest) ← wellFormedOr (number? true rest)
      return (n.value, rest)
    | rest => do
      let (n, rest) ← wellFormedOr (number? false rest)
      return (n.value, rest)

/-- How many containers may stand inside one another in a text. -/
def maxDepth : Nat := 127

/-- The fault of finding something else than what was wanted at the front. -/
def misfit (wanted : String) (b : Bytes) : Fault :=
  let fault (found : Option Found) : Fault :=
    match found with
    | some found => .mistyped found wanted
    | none => .malformed
  match b with
  | 110 :: rest => fault ((after? [117, 108, 108] rest).map fun _ => .null)
  | 116 :: rest => fault ((after? [114, 117, 101] rest).map fun _ => .bool true)
  | 102 :: rest => fault ((after? [97, 108, 115, 101] rest).map fun _ => .bool false)
  | 34 :: rest => fault ((text? rest).map fun (s, _) => .string s)
  | 91 :: _ => fault (some .sequence)
  | 123 :: _ => fault (some .map)
  | 45 :: rest => fault ((number? true rest).map fun (n, _) => n.found)
  | rest => fault ((number? false rest).map fun (n, _) => n.found)

def countOf : Number → Except Fault UInt64
  | .int n => if 0 ≤ n then .ok (UInt64.ofNat n.toNat) else .error (.outOfRange (.int n) "u64")
  | .double x => .error (.mistyped (.double x) "u64")

/-- The content of an optional field: null is the same as leaving the field out. -/
def optional {α : Type} (inner : Bytes → Except Fault (α × Bytes)) (b : Bytes) :
    Except Fault (Option α × Bytes) :=
  match skipSpace b with
  | 110 :: rest => do
    let rest ← wellFormedOr (after? [117, 108, 108] rest)
    return (none, rest)
  | rest => do
    let (x, rest) ← inner rest
    return (some x, rest)

def textContent (b : Bytes) : Except Fault (String × Bytes) :=
  match b with
  | 34 :: rest => wellFormedOr (text? rest)
  | b => .error (misfit "a string" b)

def countContent (b : Bytes) : Except Fault (UInt64 × Bytes) :=
  match b with
  | 45 :: rest => do
    let (n, rest) ← wellFormedOr (number? true rest)
    return (← countOf n, rest)
  | x :: rest =>
    if Bytes.isDigit x then do
      let (n, rest) ← wellFormedOr (number? false (x :: rest))
      return (← countOf n, rest)
    else .error (misfit "u64" (x :: rest))
  | [] => .error .malformed

def flagContent (b : Bytes) : Except Fault (Bool × Bytes) :=
  match skipSpace b with
  | 116 :: rest => do
    let rest ← wellFormedOr (after? [114, 117, 101] rest)
    return (true, rest)
  | 102 :: rest => do
    let rest ← wellFormedOr (after? [97, 108, 115, 101] rest)
    return (false, rest)
  | b => .error (misfit "a boolean" b)

variable {ρ : Type}

/-- Reads the content of a field into a record. -/
def fieldContent (x : ρ) (b : Bytes) : Field ρ → Except Fault (ρ × Bytes)
  | .text _ _ set => (optional textContent b).map fun (s, rest) => (set s x, rest)
  | .count _ _ set => (optional countContent b).map fun (n, rest) => (set n x, rest)
  | .flag _ _ set => (flagContent b).map fun (c, rest) => (set c x, rest)
  | .data _ _ set => (optional (value (maxDepth - 1)) b).map fun (v, rest) => (set v x, rest)

/-- The fields of a record written as a list, in their order; those not there stay as they are. -/
def fieldList : List (Field ρ) → (first : Bool) → ρ → Bytes → Except Fault (ρ × Bytes)
  | [], _, x, b =>
    match skipSpace b with
    | 93 :: rest => .ok (x, rest)
    | _ => .error .malformed
  | f :: fs, first, x, b =>
    match first, skipSpace b with
    | _, 93 :: rest => .ok (x, rest)
    | true, rest => do
      let (x, rest) ← fieldContent x rest f
      fieldList fs false x rest
    | false, 44 :: rest => do
      let (x, rest) ← fieldContent x rest f
      fieldList fs false x rest
    | false, _ => .error .malformed

/-- A member of a record: a known field once, or one that is passed over. -/
def namedField (layout : Layout ρ) (seen : List String) (x : ρ) (b : Bytes) :
    Except Fault ((List String × ρ) × Bytes) :=
  match skipSpace b with
  | 34 :: rest => do
    let (key, rest) ← wellFormedOr (text? rest)
    let field := layout.find? key
    if field.isSome && seen.contains key then .error (.repeated key)
    match skipSpace rest with
    | 58 :: rest =>
      match field with
      | some f =>
        let (x, rest) ← fieldContent x rest f
        return ((key :: seen, x), rest)
      | none =>
        let rest ← wellFormedOr (skipValue? rest)
        return ((seen, x), rest)
    | _ => .error .malformed
  | _ => .error .malformed

/-- The members of a record up to the closing brace. -/
def namedFields (layout : Layout ρ) :
    (fuel : Nat) → (first : Bool) → List String → ρ → Bytes → Except Fault (ρ × Bytes)
  | 0, _, _, _, _ => .error .malformed
  | fuel + 1, first, seen, x, b =>
    match first, skipSpace b with
    | _, 125 :: rest => .ok (x, rest)
    | true, rest => do
      let ((seen, x), rest) ← namedField layout seen x rest
      namedFields layout fuel false seen x rest
    | false, 44 :: rest => do
      let ((seen, x), rest) ← namedField layout seen x rest
      namedFields layout fuel false seen x rest
    | false, _ => .error .malformed

/-- A record at the front: an object of its fields, or a list of them in order. -/
def record (layout : Layout ρ) (b : Bytes) : Except Fault (ρ × Bytes) :=
  match skipSpace b with
  | [] => .error .malformed
  | 91 :: rest => fieldList layout.fields true layout.blank rest
  | 123 :: rest => namedFields layout (rest.length + 1) true [] layout.blank rest
  | b => .error (misfit layout.title b)

/-- Nothing but space may follow what was read. -/
def complete {α : Type} (found : Except Fault (α × Bytes)) : Except Fault α := do
  let (x, rest) ← found
  if skipSpace rest = [] then return x else .error .malformed

/-- The record that a text holds. -/
def readRecord (layout : Layout ρ) (b : Bytes) : Except Fault ρ := complete (record layout b)

/-- The value that a text holds. -/
def read (b : Bytes) : Except Fault Value := complete (value maxDepth b)

end Switchboard.Json
