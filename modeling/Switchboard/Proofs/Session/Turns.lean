import Mathlib
import Switchboard.Session.Act

/-! Turns of the fibers of a session in any order, among bytes that come in on a link. A run of
the session is such a course of turns, and so is whatever another order would make of it. -/
namespace Switchboard.Session

variable {σ : Type} {h : Handler σ} {link : Nat} {s t u : Session σ} {b c : Bytes}
  {id j : Nat} {f : Fiber} {rest : Option Fiber}

/-- A step of any fiber, which need not be the next in the row, or some bytes that come in. The row
may change, and time may pass. -/
inductive Turn (h : Handler σ) (link : Nat) (s : Session σ) : Bytes → Session σ → Prop
  | fiber {id : Nat} {f : Fiber} {t : Session σ} {rest : Option Fiber} (hf : s.fiber? id = some f)
      (hs : s.step? h id f = some (t, rest)) : Turn h link s [] (t.replace id rest)
  | row (ready : List Nat) : Turn h link s [] { s with ready }
  | time (clock : Duration) : Turn h link s [] { s with clock }
  | input (b : Bytes) : Turn h link s b (s.receiveUplink link (.data b))

/-- Turns one after the other, with all the bytes that came in. -/
inductive Turns (h : Handler σ) (link : Nat) (s : Session σ) : Bytes → Session σ → Prop
  | refl : Turns h link s [] s
  | tail {b c : Bytes} {t u : Session σ} (hr : Turns h link s b t) (ht : Turn h link t c u) :
      Turns h link s (b ++ c) u

/-- No fiber can go on. -/
def AtRest (h : Handler σ) (s : Session σ) : Prop :=
  ∀ id f, s.fiber? id = some f → s.step? h id f = none

theorem mem_fibers (hf : s.fiber? id = some f) : (id, f) ∈ s.fibers := by
  obtain ⟨e, he, rfl⟩ := Option.map_eq_some_iff.1 hf
  have hid : e.1 = id := by simpa using List.find?_some he
  exact hid ▸ List.mem_of_find?_eq_some he

theorem atRest_of_all (ha : ∀ e ∈ s.fibers, (s.step? h e.1 e.2).isNone = true) : s.AtRest h :=
  fun _ _ hf => Option.isNone_iff_eq_none.1 (ha _ (mem_fibers hf))

namespace Turns

theorem single (ht : Turn h link s b t) : Turns h link s b t := .tail .refl ht

theorem append (hr : Turns h link s b t) (hr' : Turns h link t c u) :
    Turns h link s (b ++ c) u := by
  induction hr' with
  | refl => simpa using hr
  | tail _ ht ih => exact List.append_assoc b _ _ ▸ ih.tail ht

end Turns

/-- Pieces that come in one after the other. -/
theorem turns_input (h : Handler σ) (link : Nat) (s : Session σ) (bs : List Bytes) :
    Turns h link s bs.flatten (bs.foldl (fun s b => s.receiveUplink link (.data b)) s) := by
  induction bs generalizing s with
  | nil => exact .refl
  | cons b bs ih => exact .append (.single (.input b)) (ih _)

/-- The runs of a session are turns of its fibers. -/
theorem turns_run (h : Handler σ) (link fuel : Nat) (current : Option Nat) (s : Session σ) :
    Turns h link s [] (run h fuel current s) := by
  induction fuel generalizing current s with
  | zero => exact .refl
  | succ fuel ih =>
    cases current with
    | none =>
      rw [run]
      split
      · exact .refl
      · rename_i id t hn
        unfold next at hn
        split at hn
        · cases hn
        · cases hn
          exact .append (.single (.row _)) (ih _ _)
    | some id =>
      rw [run]
      split
      · exact ih _ _
      · rename_i t rest hb
        obtain ⟨f, hf, hs⟩ := Option.bind_eq_some_iff.1 hb
        exact .append (.append (.single (.fiber hf hs)) (.single (.row _))) (ih _ _)

theorem turns_settle (h : Handler σ) (link : Nat) (s : Session σ) :
    Turns h link s [] (s.settle h) :=
  .append (.single (.row _)) (turns_run h link _ _ _)

theorem lookup_replace (l : List (Nat × Fiber)) (f : Fiber) (hj : j ≠ id) :
    ((l.map fun e => if e.1 = id then (id, f) else e).find? (·.1 = j)).map (·.2)
      = (l.find? (·.1 = j)).map (·.2) := by
  induction l with
  | nil => rfl
  | cons e l ih =>
    by_cases he : e.1 = id
    · simpa [he, Ne.symm hj] using ih
    · by_cases hej : e.1 = j <;> simp_all

theorem lookup_self (l : List (Nat × Fiber)) (f : Fiber)
    (hf : (l.find? (·.1 = id)).isSome = true) :
    ((l.map fun e => if e.1 = id then (id, f) else e).find? (·.1 = id)).map (·.2) = some f := by
  induction l with
  | nil => cases hf
  | cons e l ih =>
    by_cases he : e.1 = id
    · simp [he]
    · simpa [he] using ih (by simpa [he] using hf)

/-- What a fiber is after a step of one of them. -/
theorem fiber?_replace (hf : (s.fiber? id).isSome) (rest : Option Fiber) (j : Nat) :
    (s.replace id rest).fiber? j = if j = id then rest else s.fiber? j := by
  cases rest with
  | none =>
    unfold fiber? replace
    rw [List.find?_filter]
    by_cases hj : j = id
    · subst hj
      simp
    · rw [if_neg hj]
      congr 2
      funext e
      by_cases he : e.1 = j <;> simp [he, hj]
  | some f =>
    by_cases hj : j = id
    · rw [hj, if_pos rfl]
      exact lookup_self s.fibers f (by simpa [fiber?] using hf)
    · rw [if_neg hj]
      exact lookup_replace s.fibers f hj

theorem fiber?_spawn (hfresh : ∀ e ∈ s.fibers, e.1 < s.started) (f : Fiber) (j : Nat) :
    (s.spawn f).fiber? j = if j = s.started then some f else s.fiber? j := by
  simp only [fiber?, spawn, List.find?_append]
  by_cases hj : j = s.started
  · subst hj
    have hnone : s.fibers.find? (·.1 = s.started) = none := by
      refine List.find?_eq_none.2 fun e he => ?_
      have := hfresh e he
      simp
      omega
    simp [hnone]
  · have : ¬ s.started = j := fun h => hj h.symm
    cases s.fibers.find? (·.1 = j) <;> simp [hj, this]

end Switchboard.Session
