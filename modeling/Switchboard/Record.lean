import Switchboard.Value

/-! Records with named fields, as both wire formats carry them. -/
namespace Switchboard

/-- One field of a record: its name on the wire, how it is read off a record and how it is set. -/
inductive Field (ρ : Type) where
  | text (name : String) (get : ρ → Option String) (set : Option String → ρ → ρ)
  | count (name : String) (get : ρ → Option UInt64) (set : Option UInt64 → ρ → ρ)
  | flag (name : String) (get : ρ → Bool) (set : Bool → ρ → ρ)
  | data (name : String) (get : ρ → Option Value) (set : Option Value → ρ → ρ)

variable {ρ : Type}

def Field.name : Field ρ → String
  | .text name .. | .count name .. | .flag name .. | .data name .. => name

/-- What is written for a field, if it is written at all. -/
def Field.entry? : Field ρ → ρ → Option Value
  | .text _ get _, x => (get x).map .string
  | .count _ get _, x => (get x).map fun n => .int n.toNat
  | .flag _ get _, x => if get x then some (.bool true) else none
  | .data _ get _, x => get x

/-- A kind of record: its fields in the order they are written, and the record with none set. -/
structure Layout (ρ : Type) where
  title : String
  fields : List (Field ρ)
  blank : ρ

/-- The entries written for a record, in order. -/
def Layout.entries (layout : Layout ρ) (x : ρ) : List (String × Value) :=
  layout.fields.filterMap fun f => (f.entry? x).map (f.name, ·)

/-- The field of a name, with its place in the order. -/
def Layout.find? (layout : Layout ρ) (name : String) : Option (Field ρ) :=
  layout.fields.find? (·.name == name)

end Switchboard
