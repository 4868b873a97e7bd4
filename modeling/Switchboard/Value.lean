import Switchboard.Number.Double

/-! The opaque data that an envelope may carry. -/
namespace Switchboard

/-- Data of the two wire formats. -/
inductive Value where
  | null
  | bool (b : Bool)
  | int (n : Int)
  | double (x : Double)
  | string (s : String)
  | array (items : List Value)
  | object (members : List (String × Value))
deriving Repr, Inhabited

/-- A text that may be missing. -/
def Value.optional : Option String → Value
  | some s => .string s
  | none => .null

/-- Puts a member into a list sorted by key, in place of an earlier one of the same key. -/
def Value.put (key : String) (v : Value) : List (String × Value) → List (String × Value)
  | [] => [(key, v)]
  | (k, w) :: rest =>
    if key < k then (key, v) :: (k, w) :: rest
    else if k = key then (key, v) :: rest
    else (k, w) :: put key v rest

namespace Value

mutual

/-- How many containers enclose the innermost one, itself included. -/
def depth : Value → Nat
  | .array items => depthOfItems items + 1
  | .object members => depthOfMembers members + 1
  | _ => 0

def depthOfItems : List Value → Nat
  | [] => 0
  | v :: rest => max (depth v) (depthOfItems rest)

def depthOfMembers : List (String × Value) → Nat
  | [] => 0
  | (_, v) :: rest => max (depth v) (depthOfMembers rest)

end

mutual

/-- Holds no floating point number. -/
def doubleFree : Value → Bool
  | .double _ => false
  | .array items => itemsDoubleFree items
  | .object members => membersDoubleFree members
  | _ => true

def itemsDoubleFree : List Value → Bool
  | [] => true
  | v :: rest => doubleFree v && itemsDoubleFree rest

def membersDoubleFree : List (String × Value) → Bool
  | [] => true
  | (_, v) :: rest => doubleFree v && membersDoubleFree rest

end

/-- Every key is less than all keys after it. -/
def sorted : List (String × Value) → Bool
  | [] => true
  | (k, _) :: rest => rest.all (fun m => k < m.1) && sorted rest

mutual

/-- Integers fit 64 bits, doubles are finite, and members are sorted by distinct keys. -/
def wellFormed : Value → Bool
  | .int n => -0x8000000000000000 ≤ n && n < 0x10000000000000000
  | .double x => x.isFinite
  | .array items => itemsWellFormed items
  | .object members => sorted members && membersWellFormed members
  | _ => true

def itemsWellFormed : List Value → Bool
  | [] => true
  | v :: rest => wellFormed v && itemsWellFormed rest

def membersWellFormed : List (String × Value) → Bool
  | [] => true
  | (_, v) :: rest => wellFormed v && membersWellFormed rest

end

end Switchboard.Value
