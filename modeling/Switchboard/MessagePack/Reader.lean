import Switchboard.Bytes
import Switchboard.Record

/-! Reading MessagePack; bytes behind the value are left alone. -/
namespace Switchboard.MessagePack

/-- What a marker announces, with the number or length that belongs to it. -/
inductive Head where
  | nil
  | bool (b : Bool)
  | unsigned (n : Nat)
  | signed (n : Int)
  | double (x : Double)
  | text (length : Nat)
  | binary (length : Nat)
  | array (count : Nat)
  | map (count : Nat)
  | extension (length : Nat)
deriving DecidableEq, Repr

/-- A given number of bytes from the front. -/
def take? (n : Nat) (b : Bytes) : Option (Bytes × Bytes) :=
  let front := b.take n
  if front.length = n then some (front, b.drop n) else none

/-- An unsigned number of a given number of bytes. -/
def natOf? (width : Nat) (b : Bytes) : Option (Nat × Bytes) :=
  (take? width b).map fun (front, rest) => (front.toNat, rest)

/-- A number of a given number of bytes in two's complement. -/
def intOf? (width : Nat) (b : Bytes) : Option (Int × Bytes) :=
  (natOf? width b).map fun (n, rest) =>
    (if n < Nat.pow 256 width / 2 then (n : Int) else (n : Int) - (Nat.pow 256 width : Nat), rest)

def sizedHead (head : Nat → Head) (width : Nat) (b : Bytes) : Option (Head × Bytes) :=
  (natOf? width b).map fun (n, rest) => (head n, rest)

/-- The head at the front. -/
def head? : Bytes → Option (Head × Bytes)
  | [] => none
  | m :: rest =>
    let n := m.toNat
    if n < 0x80 then some (.unsigned n, rest)
    else if n < 0x90 then some (.map (n - 0x80), rest)
    else if n < 0xa0 then some (.array (n - 0x90), rest)
    else if n < 0xc0 then some (.text (n - 0xa0), rest)
    else if 0xe0 ≤ n then some (.signed ((n : Int) - 256), rest)
    else match n with
      | 0xc0 => some (.nil, rest)
      | 0xc2 => some (.bool false, rest)
      | 0xc3 => some (.bool true, rest)
      | 0xc4 => sizedHead .binary 1 rest
      | 0xc5 => sizedHead .binary 2 rest
      | 0xc6 => sizedHead .binary 4 rest
      | 0xc7 => sizedHead .extension 1 rest
      | 0xc8 => sizedHead .extension 2 rest
      | 0xc9 => sizedHead .extension 4 rest
      | 0xca => (natOf? 4 rest).map fun (n, rest) =>
          (.double (Double.ofSingleBits (UInt32.ofNat n)), rest)
      | 0xcb => (natOf? 8 rest).map fun (n, rest) => (.double ⟨UInt64.ofNat n⟩, rest)
      | 0xcc => sizedHead .unsigned 1 rest
      | 0xcd => sizedHead .unsigned 2 rest
      | 0xce => sizedHead .unsigned 4 rest
      | 0xcf => sizedHead .unsigned 8 rest
      | 0xd0 => (intOf? 1 rest).map fun (n, rest) => (.signed n, rest)
      | 0xd1 => (intOf? 2 rest).map fun (n, rest) => (.signed n, rest)
      | 0xd2 => (intOf? 4 rest).map fun (n, rest) => (.signed n, rest)
      | 0xd3 => (intOf? 8 rest).map fun (n, rest) => (.signed n, rest)
      | 0xd4 => some (.extension 1, rest)
      | 0xd5 => some (.extension 2, rest)
      | 0xd6 => some (.extension 4, rest)
      | 0xd7 => some (.extension 8, rest)
      | 0xd8 => some (.extension 16, rest)
      | 0xd9 => sizedHead .text 1 rest
      | 0xda => sizedHead .text 2 rest
      | 0xdb => sizedHead .text 4 rest
      | 0xdc => sizedHead .array 2 rest
      | 0xdd => sizedHead .array 4 rest
      | 0xde => sizedHead .map 2 rest
      | 0xdf => sizedHead .map 4 rest
      | _ => none

/-- A text of a given number of bytes. -/
def textOf? (length : Nat) (b : Bytes) : Option (String × Bytes) := do
  let (front, rest) ← take? length b
  let s ← front.text?
  return (s, rest)

def items? (item : Bytes → Option (Value × Bytes)) :
    (count : Nat) → Bytes → Option (List Value × Bytes)
  | 0, b => some ([], b)
  | count + 1, b => do
    let (v, b) ← item b
    let (vs, b) ← items? item count b
    return (v :: vs, b)

/-- Members with text for keys, put into those read before them. -/
def members? (item : Bytes → Option (Value × Bytes)) :
    (count : Nat) → List (String × Value) → Bytes → Option (List (String × Value) × Bytes)
  | 0, sofar, b => some (sofar, b)
  | count + 1, sofar, b => do
    let (head, b) ← head? b
    match head with
    | .text length =>
      let (key, b) ← textOf? length b
      let (v, b) ← item b
      members? item count (Value.put key v sofar) b
    | _ => none

/-- The value at the front, with at most `room` containers inside one another. -/
def value? : (room : Nat) → Bytes → Option (Value × Bytes)
  | room, b => do
    let (head, b) ← head? b
    match head with
    | .nil => return (.null, b)
    | .bool c => return (.bool c, b)
    | .unsigned n => return (.int n, b)
    | .signed n => return (.int n, b)
    | .double x => return (if x.isFinite then .double x else .null, b)
    | .text length =>
      let (s, b) ← textOf? length b
      return (.string s, b)
    | .array count =>
      match room with
      | 0 => none
      | room + 1 =>
        let (vs, b) ← items? (value? room) count b
        return (.array vs, b)
    | .map count =>
      match room with
      | 0 => none
      | room + 1 =>
        let (ms, b) ← members? (value? room) count [] b
        return (.object ms, b)
    | .binary _ | .extension _ => none

def skipMany? (skip : Bytes → Option Bytes) : (count : Nat) → Bytes → Option Bytes
  | 0, b => some b
  | count + 1, b => (skip b).bind (skipMany? skip count)

/-- Passes over a value of any kind. -/
def skip? : (room : Nat) → Bytes → Option Bytes
  | room, b => do
    let (head, b) ← head? b
    match head with
    | .nil | .bool _ | .unsigned _ | .signed _ | .double _ => return b
    | .text length | .binary length => (take? length b).map (·.2)
    | .array count =>
      match room with
      | 0 => none
      | room + 1 => skipMany? (skip? room) count b
    | .map count =>
      match room with
      | 0 => none
      | room + 1 => skipMany? (skip? room) (2 * count) b
    | .extension length =>
      match room with
      | 0 => none
      | _ + 1 => (take? (length + 1) b).map (·.2)

/-- How many containers may stand inside one another. -/
def maxDepth : Nat := 1023

def textContent? (b : Bytes) : Option (Option String × Bytes) := do
  let (head, b) ← head? b
  match head with
  | .nil => return (none, b)
  | .text length | .binary length =>
    let (s, b) ← textOf? length b
    return (some s, b)
  | _ => none

def countContent? (b : Bytes) : Option (Option UInt64 × Bytes) := do
  let (head, b) ← head? b
  match head with
  | .nil => return (none, b)
  | .unsigned n => return (some (UInt64.ofNat n), b)
  | .signed n => if 0 ≤ n then return (some (UInt64.ofNat n.natAbs), b) else none
  | _ => none

def flagContent? (b : Bytes) : Option (Bool × Bytes) := do
  let (head, b) ← head? b
  match head with
  | .bool c => return (c, b)
  | _ => none

def dataContent? (b : Bytes) : Option (Option Value × Bytes) := do
  let (head, rest) ← head? b
  match head with
  | .nil => return (none, rest)
  | _ =>
    let (v, rest) ← value? (maxDepth - 1) b
    return (some v, rest)

variable {ρ : Type}

/-- Reads the content of a field into a record. -/
def fieldContent? (x : ρ) (b : Bytes) : Field ρ → Option (ρ × Bytes)
  | .text _ _ set => (textContent? b).map fun (s, rest) => (set s x, rest)
  | .count _ _ set => (countContent? b).map fun (n, rest) => (set n x, rest)
  | .flag _ _ set => (flagContent? b).map fun (c, rest) => (set c x, rest)
  | .data _ _ set => (dataContent? b).map fun (v, rest) => (set v x, rest)

/-- A given number of fields in their order. -/
def fieldList? : List (Field ρ) → (count : Nat) → ρ → Bytes → Option (ρ × Bytes)
  | _, 0, x, b => some (x, b)
  | [], _ + 1, _, _ => none
  | f :: fs, count + 1, x, b => do
    let (x, b) ← fieldContent? x b f
    fieldList? fs count x b

/-- The field that a key names by text or by place, if it names one. -/
def keyOf? (layout : Layout ρ) (b : Bytes) : Option (Option (Field ρ) × Bytes) := do
  let (head, b) ← head? b
  match head with
  | .text length | .binary length =>
    let (name, b) ← take? length b
    return (name.text?.bind layout.find?, b)
  | .unsigned n => return (layout.fields[n]?, b)
  | _ => none

/-- A given number of named fields, each known one at most once. -/
def namedFields? (layout : Layout ρ) :
    (count : Nat) → List String → ρ → Bytes → Option (ρ × Bytes)
  | 0, _, x, b => some (x, b)
  | count + 1, seen, x, b => do
    let (field, b) ← keyOf? layout b
    match field with
    | some f =>
      if seen.contains f.name then none
      else
        let (x, b) ← fieldContent? x b f
        namedFields? layout count (f.name :: seen) x b
    | none =>
      let b ← skip? (maxDepth - 1) b
      namedFields? layout count seen x b

/-- The record at the front: a map of its fields, or a list of them in order. -/
def readRecord? (layout : Layout ρ) (b : Bytes) : Option ρ := do
  let (head, b) ← head? b
  match head with
  | .array count => (fieldList? layout.fields count layout.blank b).map (·.1)
  | .map count => (namedFields? layout count [] layout.blank b).map (·.1)
  | _ => none

end Switchboard.MessagePack
