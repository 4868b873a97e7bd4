import Mathlib
import Switchboard.Session.Step

/-! The end of a service: many may want it at once and many may wait for it, each in steps of their
own, but the first cause that is recorded is the one that everybody is told. -/
namespace Switchboard

namespace Shutdown

variable {u v : Shutdown} {c d : Cause} {code : Int}

theorem record_of_none (h : u.cause = none) (c : Cause) :
    u.record c = ({ u with cause := some c }, true) := by
  simp [record, h]

theorem record_of_some (h : u.cause = some d) (c : Cause) : u.record c = (u, false) := by
  simp [record, h]

theorem code?_eq_some_iff : u.code? = some code ↔ ∃ c, u.cause = some c ∧ c.code = code :=
  Option.map_eq_some_iff

/-- What is on record stays there, and who is told is not untold. -/
structure Later (u v : Shutdown) : Prop where
  cause : ∀ c, u.cause = some c → v.cause = some c
  triggered : u.triggered = true → v.triggered = true

theorem Later.refl (u : Shutdown) : Later u u := ⟨fun _ h => h, fun h => h⟩

theorem later_record (u : Shutdown) (c : Cause) : Later u (u.record c).1 := by
  cases hu : u.cause with
  | none =>
    rw [record_of_none hu]
    exact ⟨fun d hd => by simp [hu] at hd, fun h => h⟩
  | some d =>
    rw [record_of_some hu]
    exact .refl u

theorem later_tell (u : Shutdown) : Later u u.tell := ⟨fun _ h => h, fun _ => rfl⟩

theorem Later.isSome (h : Later u v) (hu : u.cause.isSome = true) : v.cause.isSome = true := by
  obtain ⟨c, hc⟩ := Option.isSome_iff_exists.1 hu
  rw [h.cause c hc]
  rfl

/-- Who ends a service. -/
inductive Caller where
  /-- The reader of the uplink, when reading has ended. -/
  | reader (result : Except Error Unit)
  | writer (result : Except Error Unit)
  | other (c : Cause)

/-- Why a caller ends the service; writing that is done ends nothing. -/
def Caller.cause? : Caller → Option Cause
  | reader result => some (Link.readCause result)
  | writer result => Link.writeCause? result
  | other c => some c

/-- How far a call is. -/
inductive Stage where
  | asked
  /-- The cause is recorded, or another one was before it. -/
  | recorded (won : Bool)
  /-- Everybody is told, and the caller knows whether the call has won. -/
  | returned (won : Bool)
deriving DecidableEq

/-- A call that ends the service. -/
structure Call where
  caller : Caller
  cause : Cause
  stage : Stage := .asked

namespace Call

def won (x : Call) : Bool :=
  match x.stage with
  | .asked => false
  | .recorded won | .returned won => won

/-- A call as it should be: it knows of a cause on record, of its own if it has won. -/
structure Fits (u : Shutdown) (x : Call) : Prop where
  caused : x.caller.cause? = some x.cause
  cause : x.won = true → u.cause = some x.cause
  decided : x.stage ≠ .asked → u.cause.isSome = true
  returned : ∀ won, x.stage = .returned won → u.triggered = true

theorem Fits.later {x : Call} (h : x.Fits u) (hl : Later u v) : x.Fits v where
  caused := h.caused
  cause hw := hl.cause _ (h.cause hw)
  decided hs := hl.isSome (h.decided hs)
  returned won hs := hl.triggered (h.returned won hs)

end Call

/-- Somebody who waits for the end, and then looks for the exit code. -/
inductive Waiter where
  | waiting
  | told
  | returned (code : Int)
deriving DecidableEq

/-- A waiter as it should be: it goes on when it is told, and returns the code on record. -/
structure Waiter.Fits (u : Shutdown) (w : Waiter) : Prop where
  told : w = .told → u.triggered = true
  code : ∀ code, w = .returned code → u.code? = some code

theorem Waiter.Fits.later {w : Waiter} (h : w.Fits u) (hl : Later u v) : w.Fits v where
  told hw := hl.triggered (h.told hw)
  code code hw := by
    obtain ⟨c, hc, hcode⟩ := code?_eq_some_iff.1 (h.code code hw)
    exact code?_eq_some_iff.2 ⟨c, hl.cause c hc, hcode⟩

/-- A service with all who end it or wait for its end, each by a handle of their own. -/
structure Handles where
  shutdown : Shutdown := {}
  calls : List Call := []
  waiters : List Waiter := []

namespace Handles

variable {s t : Handles} {k : Nat} {x y : Call} {caller : Caller} {w : Waiter} {won : Bool}

/-- What can happen next. -/
inductive Step (s : Handles) : Handles → Prop
  | call {caller : Caller} {c : Cause} (hc : caller.cause? = some c) :
      Step s { s with calls := s.calls ++ [{ caller, cause := c }] }
  | record {k : Nat} {caller : Caller} {c : Cause} (hk : s.calls[k]? = some ⟨caller, c, .asked⟩) :
      Step s { s with
        shutdown := (s.shutdown.record c).1
        calls := s.calls.set k ⟨caller, c, .recorded (s.shutdown.record c).2⟩ }
  | tell {k : Nat} {caller : Caller} {c : Cause} {won : Bool}
      (hk : s.calls[k]? = some ⟨caller, c, .recorded won⟩) :
      Step s { s with
        shutdown := s.shutdown.tell
        calls := s.calls.set k ⟨caller, c, .returned won⟩ }
  | wait : Step s { s with waiters := s.waiters ++ [.waiting] }
  | hear {k : Nat} (hk : s.waiters[k]? = some .waiting) (ht : s.shutdown.triggered = true) :
      Step s { s with waiters := s.waiters.set k .told }
  | look {k : Nat} (hk : s.waiters[k]? = some .told) :
      Step s { s with waiters := s.waiters.set k (.returned (s.shutdown.code?.getD closedCode)) }

/-- What can come of it in time. -/
abbrev Run : Handles → Handles → Prop := Relation.ReflTransGen Step

/-- A call whose steps come one right after the other. -/
theorem run_trigger (hk : s.calls[k]? = some ⟨caller, c, .asked⟩) :
    Run s { s with
      shutdown := (s.shutdown.trigger c).1
      calls := s.calls.set k ⟨caller, c, .returned (s.shutdown.trigger c).2⟩ } := by
  have hlt := (List.getElem?_eq_some_iff.1 hk).1
  have hrecord : Run s _ := .tail .refl (.record hk)
  have htell := hrecord.tail (.tell (List.getElem?_set_self hlt))
  rw [List.set_set] at htell
  exact htell

theorem Step.later (h : Step s t) : Later s.shutdown t.shutdown := by
  cases h with
  | record _ => exact later_record _ _
  | tell _ => exact later_tell _
  | _ => exact .refl _

/-- The call that was the first to be recorded. -/
def Winner (s : Handles) (k : Nat) (caller : Caller) (c : Cause) : Prop :=
  ∃ stage, s.calls[k]? = some ⟨caller, c, stage⟩ ∧ Call.won ⟨caller, c, stage⟩ = true

theorem winner_of_set {j : Nat} (ht : t.calls = s.calls.set j x) (hj : s.calls[j]? = some y)
    (hx : y.won = true → x.caller = y.caller ∧ x.cause = y.cause ∧ x.won = true)
    (h : s.Winner k caller c) : t.Winner k caller c := by
  obtain ⟨stage, hk, hw⟩ := h
  by_cases hjk : j = k
  · subst hjk
    obtain rfl : y = ⟨caller, c, stage⟩ := Option.some.inj (hj.symm.trans hk)
    obtain ⟨_, _, stage⟩ := x
    obtain ⟨rfl, rfl, hwon⟩ := hx hw
    refine ⟨stage, ?_, hwon⟩
    rw [ht, List.getElem?_set_self (List.getElem?_eq_some_iff.1 hj).1]
  · refine ⟨stage, ?_, hw⟩
    rw [ht, List.getElem?_set_ne hjk, hk]

/-- A call that has won has won for ever. -/
theorem Step.winner (h : Step s t) (hw : s.Winner k caller c) : t.Winner k caller c := by
  cases h with
  | call _ =>
    obtain ⟨stage, hk, hwon⟩ := hw
    refine ⟨stage, ?_, hwon⟩
    rw [List.getElem?_append_left (List.getElem?_eq_some_iff.1 hk).1, hk]
  | record hj => exact winner_of_set rfl hj (by simp [Call.won]) hw
  | tell hj => exact winner_of_set rfl hj (fun h => ⟨rfl, rfl, h⟩) hw
  | _ => exact hw

/-- What holds at any moment. -/
structure Sound (s : Handles) : Prop where
  calls : ∀ x ∈ s.calls, x.Fits s.shutdown
  waiters : ∀ w ∈ s.waiters, w.Fits s.shutdown
  /-- One call has won if there is a cause on record, and none before. -/
  once : s.calls.countP Call.won = if s.shutdown.cause.isSome then 1 else 0
  /-- Nobody is told before a cause is on record. -/
  triggered : s.shutdown.triggered = true → s.shutdown.cause.isSome = true

theorem sound_new : Sound {} where
  calls := by simp
  waiters := by simp
  once := rfl
  triggered := by simp

theorem Sound.setCall (h : Sound s) (hl : Later s.shutdown u) (hx : x.Fits u)
    (hcount : (s.calls.set k x).countP Call.won = if u.cause.isSome then 1 else 0)
    (ht : u.triggered = true → u.cause.isSome = true) :
    Sound { s with shutdown := u, calls := s.calls.set k x } where
  calls y hy := by
    rcases List.mem_or_eq_of_mem_set hy with hy | rfl
    · exact (h.calls y hy).later hl
    · exact hx
  waiters w hw := (h.waiters w hw).later hl
  once := hcount
  triggered := ht

theorem Sound.setWaiter (h : Sound s) (hw : w.Fits s.shutdown) :
    Sound { s with waiters := s.waiters.set k w } where
  calls := h.calls
  waiters v hv := by
    rcases List.mem_or_eq_of_mem_set hv with hv | rfl
    · exact h.waiters v hv
    · exact hw
  once := h.once
  triggered := h.triggered

/-- The first call whose cause is recorded wins, and no other does. -/
theorem Sound.record (h : Sound s) (hk : s.calls[k]? = some ⟨caller, c, .asked⟩) :
    Sound { s with
      shutdown := (s.shutdown.record c).1
      calls := s.calls.set k ⟨caller, c, .recorded (s.shutdown.record c).2⟩ } := by
  obtain ⟨hlt, hget⟩ := List.getElem?_eq_some_iff.1 hk
  have hcaused : caller.cause? = some c := (h.calls _ (List.mem_of_getElem? hk)).caused
  have hl := later_record s.shutdown c
  cases hs : s.shutdown.cause with
  | none =>
    rw [record_of_none hs] at hl ⊢
    refine h.setCall hl ⟨hcaused, fun _ => rfl, fun _ => rfl, by simp⟩ ?_ fun _ => rfl
    have hnone : s.calls.countP Call.won = 0 := by simpa [hs] using h.once
    simp [List.countP_set hlt, hget, hnone, Call.won]
  | some d =>
    rw [record_of_some hs] at hl ⊢
    refine h.setCall hl ⟨hcaused, by simp [Call.won], by simp [hs], by simp⟩ ?_ h.triggered
    simp [List.countP_set hlt, hget, h.once, Call.won]

/-- Also a call that has not won tells everybody, but not before the winner's cause is on record. -/
theorem Sound.tell (h : Sound s) (hk : s.calls[k]? = some ⟨caller, c, .recorded won⟩) :
    Sound { s with
      shutdown := s.shutdown.tell
      calls := s.calls.set k ⟨caller, c, .returned won⟩ } := by
  obtain ⟨hlt, hget⟩ := List.getElem?_eq_some_iff.1 hk
  have hfits := h.calls _ (List.mem_of_getElem? hk)
  have hcause : s.shutdown.cause.isSome = true := hfits.decided (by simp)
  refine h.setCall (later_tell _) ⟨hfits.caused, hfits.cause, fun _ => hcause, fun _ _ => rfl⟩ ?_
    fun _ => hcause
  have hpos : won = true → 0 < s.calls.countP Call.won := fun hw =>
    List.countP_pos_iff.2 ⟨_, List.mem_of_getElem? hk, hw⟩
  have honce := h.once
  cases won <;> simp_all [List.countP_set hlt, Call.won, Shutdown.tell]

theorem Sound.step (h : Sound s) (hst : Step s t) : Sound t := by
  cases hst with
  | call hc =>
    refine ⟨fun x hx => ?_, h.waiters, ?_, h.triggered⟩
    · rcases List.mem_append.1 hx with hx | hx
      · exact h.calls x hx
      · obtain rfl := List.mem_singleton.1 hx
        exact ⟨hc, by simp [Call.won], by simp, by simp⟩
    · rw [List.countP_append, h.once]
      rfl
  | record hk => exact h.record hk
  | tell hk => exact h.tell hk
  | wait =>
    refine ⟨h.calls, fun w hw => ?_, h.once, h.triggered⟩
    rcases List.mem_append.1 hw with hw | hw
    · exact h.waiters w hw
    · obtain rfl := List.mem_singleton.1 hw
      exact ⟨by simp, by simp⟩
  | hear _ ht => exact h.setWaiter ⟨fun _ => ht, by simp⟩
  | look hk =>
    have ht := (h.waiters _ (List.mem_of_getElem? hk)).told rfl
    obtain ⟨c, hc⟩ := Option.isSome_iff_exists.1 (h.triggered ht)
    refine h.setWaiter ⟨by simp, fun code hcode => ?_⟩
    obtain rfl := Waiter.returned.inj hcode
    simp [code?, hc]

theorem Sound.run (h : Sound s) (hst : Run s t) : Sound t := by
  induction hst with
  | refl => exact h
  | tail _ hst ih => exact ih.step hst

theorem Run.winner (h : Run s t) (hw : s.Winner k caller c) : t.Winner k caller c := by
  induction h with
  | refl => exact hw
  | tail _ hst ih => exact hst.winner ih

theorem Sound.exists_winner (h : Sound s) (hc : s.shutdown.cause.isSome = true) :
    ∃ k caller c, s.Winner k caller c := by
  have honce : s.calls.countP Call.won = 1 := by rw [h.once, if_pos hc]
  obtain ⟨⟨caller, c, stage⟩, hmem, hw⟩ := List.countP_pos_iff.1 (honce ▸ Nat.one_pos)
  obtain ⟨k, hk⟩ := List.getElem?_of_mem hmem
  exact ⟨k, caller, c, stage, hk, hw⟩

/-- What it means to have been first. -/
structure Prevails (s : Handles) (k : Nat) (caller : Caller) (c : Cause) : Prop where
  winner : s.Winner k caller c
  /-- Of all calls this one alone returns that it has won. -/
  alone : s.calls.countP Call.won = 1
  caused : caller.cause? = some c
  code : s.shutdown.code? = some c.code
  reason : s.shutdown.reason? = some c.reason
  waiters : ∀ code, .returned code ∈ s.waiters → code = c.code
  /-- Who waits is not kept waiting, and returns no other code; a server that waits neither. -/
  awaited : s.shutdown.triggered = true → s.shutdown.awaited? = some c.code ∧
    ∀ (σ : Type) (z : Session σ) call n router, z.shutdownAt n = s.shutdown →
      ∃ z', z.stepAwait call n router = some (Session.answer z' call (.code c.code), none)
  /-- A failure of the uplink is no good end. -/
  failed : ∀ e, caller = .reader (.error e) ∨ caller = .writer (.error e) → c.code = 1
  closed : caller = .reader (.ok ()) → c.code = 0

theorem Sound.prevails (h : Sound s) (hw : s.Winner k caller c) : s.Prevails k caller c := by
  obtain ⟨stage, hk, hwon⟩ := hw
  have hfits := h.calls _ (List.mem_of_getElem? hk)
  have hcause : s.shutdown.cause = some c := hfits.cause hwon
  have hcaused : caller.cause? = some c := hfits.caused
  have hcode : s.shutdown.code? = some c.code := by simp [code?, hcause]
  constructor
  case winner => exact ⟨stage, hk, hwon⟩
  case alone => rw [h.once, hcause]; rfl
  case caused => exact hcaused
  case code => exact hcode
  case reason => simp [reason?, hcause]
  case waiters =>
    intro code hm
    have := (h.waiters _ hm).code code rfl
    exact Option.some.inj (this.symm.trans hcode)
  case awaited =>
    intro ht
    have hawaited : s.shutdown.awaited? = some c.code := by simp [awaited?, ht, hcode]
    refine ⟨hawaited, fun σ z call n router hz => ?_⟩
    simp only [Session.stepAwait, hz, hawaited, Option.map_some]
    exact ⟨_, rfl⟩
  case failed =>
    rintro e (rfl | rfl)
    · exact congrArg Cause.code (Option.some.inj hcaused).symm
    · exact congrArg Cause.code (Option.some.inj hcaused).symm
  case closed =>
    rintro rfl
    exact congrArg Cause.code (Option.some.inj hcaused).symm

/-- However many end a service and in whatever order their steps come, as soon as a cause is on
record it is that of the one call that wins, and stays so. Nobody is told of an end before that, so
nobody who waits for the end returns another code. -/
theorem first_cause_prevails (h : Run {} s) :
    ((∃ x ∈ s.calls, x.stage ≠ .asked) →
      ∃ k caller c, ∀ t, Run s t → t.Prevails k caller c) ∧
    (s.shutdown.triggered = true → s.shutdown.code?.isSome = true ∧
      ∃ x ∈ s.calls, x.stage ≠ .asked) ∧
    ∀ x ∈ s.calls, ∀ won, x.stage = .returned won → s.shutdown.triggered = true := by
  have hs : Sound s := sound_new.run h
  refine ⟨?_, fun ht => ?_, fun x hx => (hs.calls x hx).returned⟩
  · rintro ⟨x, hx, hstage⟩
    obtain ⟨k, caller, c, hw⟩ := hs.exists_winner ((hs.calls x hx).decided hstage)
    exact ⟨k, caller, c, fun t ht => (hs.run ht).prevails (ht.winner hw)⟩
  · have hcause := hs.triggered ht
    obtain ⟨k, caller, c, stage, hk, hw⟩ := hs.exists_winner hcause
    refine ⟨by simpa [code?] using hcause, _, List.mem_of_getElem? hk, ?_⟩
    rintro rfl
    cases hw

/-- A write fails while the input ends: the failure is on record first, but the end of the input is
first to tell. -/
def race : Handles where
  shutdown := { cause := some ⟨1, "upstream write failed"⟩, triggered := true }
  calls := [
    ⟨.reader (.ok ()), ⟨0, "upstream input closed"⟩, .returned false⟩,
    ⟨.writer (.error (.wire (.stream "x"))), ⟨1, "upstream write failed"⟩, .recorded true⟩]
  waiters := [.returned 1]

theorem race_run : Run {} race := by
  have hreader : Run {} _ := .tail .refl (@Step.call _ (.reader (.ok ())) _ rfl)
  have hwriter := hreader.tail (@Step.call _ (.writer (.error (.wire (.stream "x")))) _ rfl)
  have hfirst := hwriter.tail (@Step.record _ 1 _ _ rfl)
  have hsecond := hfirst.tail (@Step.record _ 0 _ _ rfl)
  have hwait := hsecond.tail .wait
  have htell := hwait.tail (@Step.tell _ 0 _ _ _ rfl)
  have hhear := htell.tail (@Step.hear _ 0 rfl rfl)
  exact hhear.tail (@Step.look _ 0 rfl)

theorem race_prevails : ∃ k caller c, race.Prevails k caller c ∧ c.code = 1 := by
  obtain ⟨hfirst, -, -⟩ := first_cause_prevails race_run
  obtain ⟨k, caller, c, hall⟩ := hfirst ⟨_, List.mem_cons_self, by simp⟩
  have hrace := hall race .refl
  exact ⟨k, caller, c, hrace, (hrace.waiters 1 (by simp [race])).symm⟩

end Handles

end Shutdown

end Switchboard
