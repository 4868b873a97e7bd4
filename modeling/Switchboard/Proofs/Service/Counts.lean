import Switchboard.Agent
import Switchboard.Proofs.Service.Disposals

/-! What the agent counts when routes are disposed of. A disposal releases the count of a route, but
a command that was delivered before it and is handled after it starts the count anew; nothing
releases that, if the route is not disposed of again. -/
namespace Switchboard

namespace Agent

variable {a : Agent} {route q : String} {n : Nat}

/-- What the table has for a route with so many commands to count. -/
def entry (n : Nat) : Option Nat := if n = 0 then none else some n

theorem count_of_entry (h : a.counts.get? route = entry n) : a.count route = n := by
  rw [count, h, entry]
  split
  · exact Eq.symm ‹_›
  · rfl

theorem get?_tally_self (h : a.counts.get? route = entry n) :
    (a.tally route).counts.get? route = entry (n + 1) := by
  simp [tally, count_of_entry h, entry]

theorem get?_tally_of_ne (hq : q ≠ route) :
    (a.tally q).counts.get? route = a.counts.get? route := by
  simp [tally, Ne.symm hq]

theorem get?_dispose_self : (handler.dispose a route).counts.get? route = entry 0 := by
  simp [handler, entry]

theorem get?_dispose_of_ne (hq : q ≠ route) :
    (handler.dispose a q).counts.get? route = a.counts.get? route := by
  simp [handler, Ne.symm hq]

/-- A command that counts for a route. -/
def countsFor (route : String) (m : Envelope) : Bool := m.isWork && counted m = route

end Agent

namespace Service

open scoped List

open Agent (countsFor counted entry)

variable {s t u : Service Agent} {ds fs : List Deed} {route : String} {n : Nat}

/-- The commands of a route that the agent was given. -/
def handledFor (route : String) (ds : List Deed) : List Envelope :=
  ((handled (events ds)).map (·.1)).filter (counted · = route)

theorem handledFor_append (route : String) (ds fs : List Deed) :
    handledFor route (ds ++ fs) = handledFor route ds ++ handledFor route fs := by
  simp only [handledFor, events_append, handled_append, List.map_append, List.filter_append]

theorem filter_countsFor (route : String) (ms : List Envelope) :
    (ms.filter (·.isWork)).filter (counted · = route) = ms.filter (countsFor route) := by
  rw [List.filter_filter]
  congr 1
  funext m
  exact Bool.and_comm _ _

/-- A move that does not release a route adds to its count the commands that are handled. -/
theorem Move.counts (hm : Move Agent.handler s ds t) (hn : route ∉ releases ds)
    (hs : s.state.counts.get? route = entry n) :
    t.state.counts.get? route = entry (n + (handledFor route ds).length) := by
  cases hm with
  | @release q _ hl ht =>
    obtain ⟨q, hq, rfl⟩ := dispose_cases ht
    obtain rfl := Loop.disposing.inj (hl.symm.trans hq)
    have hne : q ≠ route := by
      rintro rfl
      exact hn (by simp [releases])
    exact (Agent.get?_dispose_of_ne hne).trans hs
  | @other es _ hst hl hk =>
    rcases hst.handles with hnone | ⟨now, m, hone, hstate⟩
    · simpa [handledFor, hnone, hk hnone] using hs
    · have ht : t.state = s.state.tally (counted m) := hstate
      rw [ht]
      by_cases hc : counted m = route
      · subst route
        simpa [handledFor, hone] using Agent.get?_tally_self hs
      · rw [Agent.get?_tally_of_ne hc]
        simpa [handledFor, hone, hc] using hs

theorem Moves.counts (hr : Moves Agent.handler s ds t) (hn : route ∉ releases ds)
    (hs : s.state.counts.get? route = entry n) :
    t.state.counts.get? route = entry (n + (handledFor route ds).length) := by
  induction hr with
  | refl => exact hs
  | tail hr hm ih =>
    rw [releases_append, List.mem_append, not_or] at hn
    rw [handledFor_append, List.length_append, ← Nat.add_assoc]
    exact hm.counts hn.2 (ih hn.1)

/-- After the last disposal of a route, its count is that of the commands delivered since, and of
those delivered before it that were handled too late: in any order of the steps, these are the
commands whose jobs had not come to the handler when the route was released. -/
theorem counts_disposed {before after : List Envelope} {d : Envelope}
    (hr : Moves Agent.handler s ds t) (hs : s.Sound) (hi : s.Idle) (ht : t.Idle)
    (hdelivered : delivered (events ds) = before ++ d :: after)
    (hd : d.disposed? = some route) (hafter : ∀ m ∈ after, m.disposed? ≠ some route) :
    ∃ earlier later late, ds = earlier ++ .released route :: later ∧ route ∉ releases later ∧
      handledFor route earlier ++ late ~ before.filter (countsFor route) ∧
      handledFor route later ~ late ++ after.filter (countsFor route) ∧
      t.state.counts.get? route = entry (late.length + (after.filter (countsFor route)).length) := by
  obtain ⟨earlier, u, later, rfl, hn, hl, hbefore, hlater⟩ :=
    hr.parted hs hi ht hdelivered hd hafter
  have hbefore := hbefore.filter (counted · = route)
  have hlater := hlater.filter (counted · = route)
  rw [List.filter_append, filter_countsFor] at hbefore hlater
  have hnone : (u.relieved Agent.handler route).state.counts.get? route = entry 0 :=
    Agent.get?_dispose_self
  have hcount := hl.counts hn hnone
  rw [Nat.zero_add] at hcount
  refine ⟨earlier, later, u.waiting.filter (counted · = route), rfl, hn, hbefore, hlater, ?_⟩
  rw [hcount, ← List.length_append]
  exact congrArg entry hlater.length_eq

/-- An agent's service, which nothing has been delivered to. -/
def bureau : Service Agent := { route := "bureau", loop := .running, state := {} }

/-- A command and the disposal of its route, delivered one after the other. -/
def farewell : List Envelope :=
  [{ command := some Agent.pingName, source := some "r" }, Envelope.ofCommand (.dispose "r")]

/-- The loop takes in both, and the handler has disposed of the route before the job has come to the
handler with the command. -/
def late? : Option (List Deed × Service Agent) :=
  bureau.deeds? Agent.handler (farewell.map .deliver ++
    [.receive, .begin 0, .receive, .dispose, .receive, .work ⟨0⟩ 0, .answer 0])

theorem late?_isSome : late?.isSome := by decide +kernel

def late : List Deed × Service Agent := late?.get late?_isSome

theorem late_moves : Moves Agent.handler bureau late.1 late.2 :=
  moves_of_deeds? (Option.some_get late?_isSome).symm

theorem bureau_sound : bureau.Sound := ⟨by simp [bureau], rfl, rfl⟩

theorem late_counted : bureau.Sound ∧ bureau.Idle ∧ late.2.Idle ∧
    Moves Agent.handler bureau late.1 late.2 ∧ delivered (events late.1) = farewell ∧
    ∃ earlier later late', late.1 = earlier ++ .released "r" :: later ∧ "r" ∉ releases later ∧
      handledFor "r" earlier ++ late' ~ (farewell.take 1).filter (countsFor "r") ∧
      handledFor "r" later ~ late' ++ [].filter (countsFor "r") ∧
      late.2.state.counts.get? "r" =
        entry (late'.length + ([].filter (countsFor "r")).length) := by
  have hi : bureau.Idle := by decide +kernel
  have ht : late.2.Idle := by decide +kernel
  have hd : delivered (events late.1) =
      farewell.take 1 ++ Envelope.ofCommand (.dispose "r") :: [] := rfl
  exact ⟨bureau_sound, hi, ht, late_moves, hd,
    counts_disposed late_moves bureau_sound hi ht hd rfl (by simp)⟩

/-- A disposal does not always release the count of its route: a command that was delivered before
it can be counted after it, and then the agent keeps track of the route. -/
theorem exists_tracked : ∃ (s : Service Agent) (ds : List Deed) (t : Service Agent)
    (before : List Envelope) (d : Envelope), s.Sound ∧ s.Idle ∧ s.state.tracked = 0 ∧
      Moves Agent.handler s ds t ∧ t.Idle ∧ delivered (events ds) = before ++ [d] ∧
      d.disposed? = some "r" ∧ t.state.counts.get? "r" = some 1 ∧ t.state.tracked = 1 :=
  ⟨bureau, late.1, late.2, farewell.take 1, Envelope.ofCommand (.dispose "r"), bureau_sound,
    by decide +kernel, rfl, late_moves, by decide +kernel, rfl, rfl, by decide +kernel,
    by decide +kernel⟩

end Service

end Switchboard
