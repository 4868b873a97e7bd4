import Switchboard.Session.Step

/-! Running a session until every fiber waits. Fibers take turns: one runs until it has to wait,
and one that comes to be able to go on joins the end of the row. -/
namespace Switchboard.Session

variable {σ : Type}

def fiber? (s : Session σ) (id : Nat) : Option Fiber :=
  (s.fibers.find? (·.1 = id)).map (·.2)

/-- Puts in what is left of a fiber. -/
def replace (s : Session σ) (id : Nat) : Option Fiber → Session σ
  | some t => { s with fibers := s.fibers.map fun e => if e.1 = id then (id, t) else e }
  | none => { s with fibers := s.fibers.filter (·.1 ≠ id) }

/-- Fibers that wait and could go on, other than the one whose turn it is. -/
def able (h : Handler σ) (s : Session σ) (current : Option Nat) : List (Nat × Fiber) :=
  s.fibers.filter fun (id, t) =>
    !s.ready.contains id && current ≠ some id && (s.step? h id t).isSome

/-- Lets fibers that could go on join the row. -/
def wake (h : Handler σ) (s : Session σ) (current : Option Nat) : Session σ :=
  { s with ready := s.ready ++ (s.able h current).map (·.1) }

/-- Takes the first fiber of the row, if no fiber has its turn. -/
def next (s : Session σ) : Option (Nat × Session σ) :=
  match s.ready with
  | [] => none
  | id :: ready => some (id, { s with ready })

/-- Runs until every fiber waits; `fuel` bounds the number of steps. -/
def run (h : Handler σ) : (fuel : Nat) → (current : Option Nat) → Session σ → Session σ
  | 0, _, s => s
  | fuel + 1, none, s =>
    match s.next with
    | none => s
    | some (id, s) => run h fuel (some id) s
  | fuel + 1, some id, s =>
    match (s.fiber? id).bind (s.step? h id) with
    | none => run h fuel none s
    | some (s, rest) =>
      let current := if rest.isSome then some id else none
      run h fuel current ((s.replace id rest).wake h current)

/-- Bound on the steps of one run. -/
def maxSteps : Nat := 10000000

/-- Lets everything run that can. -/
def settle (h : Handler σ) (s : Session σ) : Session σ :=
  run h maxSteps none (s.wake h none)

/-- The time at which a fiber goes on by itself. -/
def due? (s : Session σ) : Fiber → Option Duration
  | .greet _ _ _ _ due _ | .handshake _ due | .report _ _ _ _ _ _ due => due
  | .work e k =>
    match (s.service? e).bind (·.jobs[k]?) with
    | some ⟨_, .working due _⟩ => some due
    | _ => none
  | .request _ e _ _ (some k) => ((s.service? e).bind (·.calls[k]?)).bind (·.deadline?)
  | _ => none

/-- Puts a fiber behind those that are due no later. -/
def insertDue (x : Nat × Nat) : List (Nat × Nat) → List (Nat × Nat)
  | [] => [x]
  | y :: ys => if y.1 ≤ x.1 then y :: insertDue x ys else x :: y :: ys

/-- Moves the clock; what is due by then goes on in the order of its time. -/
def advance (h : Handler σ) (s : Session σ) (time : Duration) : Session σ :=
  let s := { s with clock := ⟨s.clock.nanos + time.nanos⟩ }
  let timed := (s.able h none).map fun (id, t) => (((s.due? t).getD ⟨0⟩).nanos, id)
  { s with ready := s.ready ++ (timed.foldl (fun row x => insertDue x row) []).map (·.2) }

end Switchboard.Session
