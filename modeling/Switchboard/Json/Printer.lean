import Switchboard.Bytes
import Switchboard.Json.Fault
import Switchboard.Record

/-! Compact JSON text of values and records. -/
namespace Switchboard.Json

def hexByte (n : Nat) : UInt8 := if n < 10 then UInt8.ofNat (48 + n) else UInt8.ofNat (87 + n)

/-- A byte of a text between quotes; only quotes, backslashes and controls are escaped. -/
def escaped (x : UInt8) : Bytes :=
  if x = 34 then [92, 34]
  else if x = 92 then [92, 92]
  else if x = 8 then [92, 98]
  else if x = 9 then [92, 116]
  else if x = 10 then [92, 110]
  else if x = 12 then [92, 102]
  else if x = 13 then [92, 114]
  else if x < 32 then [92, 117, 48, 48, hexByte (x.toNat / 16), hexByte (x.toNat % 16)]
  else [x]

def renderString (s : String) : Bytes := 34 :: (Bytes.ofText s).flatMap escaped ++ [34]

def renderInt (n : Int) : Bytes := Bytes.ofText (toString n)

/-- Entries with commas between them, each behind a comma unless it is the first. -/
def separated : Bool → List Bytes → Bytes
  | _, [] => []
  | true, x :: rest => x ++ separated false rest
  | false, x :: rest => 44 :: x ++ separated false rest

mutual

def render : Value → Bytes
  | .null => [110, 117, 108, 108]
  | .bool true => [116, 114, 117, 101]
  | .bool false => [102, 97, 108, 115, 101]
  | .int n => renderInt n
  | .double x => Bytes.ofText (doubleText x)
  | .string s => renderString s
  | .array items => 91 :: separated true (renderItems items) ++ [93]
  | .object members => 123 :: separated true (renderMembers members) ++ [125]

def renderItems : List Value → List Bytes
  | [] => []
  | v :: rest => render v :: renderItems rest

def renderMembers : List (String × Value) → List Bytes
  | [] => []
  | (k, v) :: rest => (renderString k ++ 58 :: render v) :: renderMembers rest

end

variable {ρ : Type}

/-- The text of a record: an object of its entries, in the order of its fields. -/
def renderRecord (layout : Layout ρ) (x : ρ) : Bytes := render (.object (layout.entries x))

end Switchboard.Json
