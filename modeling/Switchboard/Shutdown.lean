/-! The end of a server's service, and whose doing it was. -/
namespace Switchboard

/-- What ended the service first. -/
structure Cause where
  code : Int
  reason : String
deriving DecidableEq, Repr

structure Shutdown where
  cause : Option Cause := none
  /-- Everybody who waits for the end is told. -/
  triggered : Bool := false
deriving DecidableEq, Repr

namespace Shutdown

/-- The uplink was closed. -/
def closedCode : Int := 0

def failureCode : Int := 1

/-- The settings make no sense. -/
def settingsCode : Int := 2

/-- The first half of a trigger: its cause is recorded if it is the first. -/
def record (s : Shutdown) (c : Cause) : Shutdown × Bool :=
  match s.cause with
  | none => ({ s with cause := some c }, true)
  | some _ => (s, false)

/-- The second half of a trigger. -/
def tell (s : Shutdown) : Shutdown := { s with triggered := true }

def trigger (s : Shutdown) (c : Cause) : Shutdown × Bool :=
  let (s, won) := s.record c
  (s.tell, won)

def code? (s : Shutdown) : Option Int := s.cause.map (·.code)

def reason? (s : Shutdown) : Option String := s.cause.map (·.reason)

/-- The exit code that a waiter returns, once it is told. -/
def awaited? (s : Shutdown) : Option Int :=
  if s.triggered then some (s.code?.getD closedCode) else none

end Shutdown

end Switchboard
