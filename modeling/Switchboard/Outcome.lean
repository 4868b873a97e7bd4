import Switchboard.Error

/-! Work that runs on its own, so that its breaking down harms nobody else. -/
namespace Switchboard

/-- How a piece of work ends. -/
inductive Outcome (α : Type) where
  | returned (x : α)
  | failed (e : Error)
  /-- It broke down without an answer. -/
  | crashed
deriving Repr

/-- What is left of a piece of work: breaking down is an error like others. -/
def Outcome.supervised {α : Type} (work : String) : Outcome α → Except Error α
  | .returned x => .ok x
  | .failed e => .error e
  | .crashed => .error (.transport (work ++ " panicked"))

end Switchboard
