import Switchboard.Number.Shortest
import Switchboard.Text.Quoted

/-! Why a value could not be read as what was wanted. -/
namespace Switchboard.Json

/-- Doubles are written without exponent from `1e-5` up to sixteen digits before the point. -/
def doubleLayout : Decimal.Layout := ⟨-5, 15⟩

/-- The text of a finite double, the shortest that reads back. -/
def doubleText (x : Double) : String :=
  (if x.negative then "-" else "") ++ Decimal.render doubleLayout (Decimal.shortest x)

/-- What stood where something else was wanted. -/
inductive Found where
  | null
  | bool (b : Bool)
  | int (n : Int)
  | double (x : Double)
  | string (s : String)
  | sequence
  | map
deriving DecidableEq, Repr

def Found.text : Found → String
  | .null => "null"
  | .bool b => "boolean `" ++ toString b ++ "`"
  | .int n => "integer `" ++ toString n ++ "`"
  | .double x => "floating point `" ++ doubleText x ++ "`"
  | .string s => "string " ++ Text.quoted s
  | .sequence => "sequence"
  | .map => "map"

/-- A reason for which a value is refused. -/
inductive Fault where
  /-- It is not a value of the format at all. -/
  | malformed
  | mistyped (found : Found) (wanted : String)
  | outOfRange (found : Found) (wanted : String)
  | wrongLength (length : Nat) (wanted : String)
  | missing (field : String)
  | repeated (field : String)
deriving DecidableEq, Repr

def Fault.text : Fault → String
  | .malformed => "<syntax>"
  | .mistyped found wanted => "invalid type: " ++ found.text ++ ", expected " ++ wanted
  | .outOfRange found wanted => "invalid value: " ++ found.text ++ ", expected " ++ wanted
  | .wrongLength n wanted => "invalid length " ++ toString n ++ ", expected " ++ wanted
  | .missing field => "missing field `" ++ field ++ "`"
  | .repeated field => "duplicate field `" ++ field ++ "`"

end Switchboard.Json
