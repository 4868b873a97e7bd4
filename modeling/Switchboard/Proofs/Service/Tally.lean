import Switchboard.Proofs.Service.Counts

/-! What the agent answers about its counts, after any calls of its handler: it has counted the
commands of each source since the last disposal of that route, whatever became of them. -/
namespace Switchboard

namespace Agent

/-- A call of the handler. -/
inductive Call where
  | handle (now : Duration) (c : Identity) (m : Envelope)
  | dispose (route : String)

namespace Call

/-- The route that a call is about. -/
def route : Call → String
  | handle _ _ m => counted m
  | dispose route => route

/-- A command that came from a route. -/
def isCommandOf (route : String) : Call → Bool
  | handle _ _ m => counted m = route
  | dispose _ => false

def isDisposalOf (route : String) : Call → Bool
  | handle .. => false
  | dispose q => q = route

end Call

variable {a : Agent} {call : Call} {calls : List Call} {route : String}

/-- The agent after a call. -/
def perform (a : Agent) : Call → Agent
  | .handle now c m => (handler.handle a now c m).1
  | .dispose route => handler.dispose a route

/-- The agent after some calls, one after the other. -/
def after (a : Agent) (calls : List Call) : Agent := calls.foldl perform a

/-- How many commands came from a route since it was last disposed of. -/
def commands (route : String) (calls : List Call) : Nat :=
  (calls.rtakeWhile fun call => !call.isDisposalOf route).countP (·.isCommandOf route)

@[simp] theorem after_concat (a : Agent) (calls : List Call) (call : Call) :
    a.after (calls ++ [call]) = (a.after calls).perform call := by
  simp [after]

theorem commands_concat_dispose (route : String) (calls : List Call) :
    commands route (calls ++ [.dispose route]) = 0 := by
  simp [commands, Call.isDisposalOf]

theorem commands_concat_handle (now : Duration) (c : Identity) (m : Envelope) (calls : List Call) :
    commands (counted m) (calls ++ [.handle now c m]) = commands (counted m) calls + 1 := by
  simp [commands, Call.isDisposalOf, Call.isCommandOf, List.countP_append]

theorem commands_concat_of_ne (h : call.route ≠ route) :
    commands route (calls ++ [call]) = commands route calls := by
  have hd : call.isDisposalOf route = false ∧ call.isCommandOf route = false := by
    cases call with
    | handle now c m => exact ⟨rfl, decide_eq_false h⟩
    | dispose q => exact ⟨decide_eq_false h, rfl⟩
  simp [commands, hd, List.countP_append]

theorem commands_le_length (route : String) (calls : List Call) :
    commands route calls ≤ calls.length :=
  (List.countP_le_length).trans (List.rtakeWhile_suffix _ calls).length_le

/-- A call leaves the entries of all other routes alone. -/
theorem get?_perform_of_ne (h : call.route ≠ route) :
    (a.perform call).counts.get? route = a.counts.get? route := by
  cases call with
  | handle now c m => exact get?_tally_of_ne h
  | dispose q => exact get?_dispose_of_ne h

/-- The table has an entry for each route that commands came from since its last disposal. -/
theorem get?_after (h : a.counts.entries = []) (calls : List Call) (route : String) :
    (a.after calls).counts.get? route = entry (commands route calls) := by
  induction calls using List.reverseRecOn with
  | nil => simp [after, Registry.get?, h, Registry.find, commands, entry]
  | append_singleton calls call ih =>
    rw [after_concat]
    by_cases hr : call.route = route
    · cases call with
      | handle now c m =>
        obtain rfl : counted m = route := hr
        rw [commands_concat_handle]
        exact get?_tally_self ih
      | dispose q =>
        obtain rfl : q = route := hr
        rw [commands_concat_dispose]
        exact get?_dispose_self
    · rw [commands_concat_of_ne hr, get?_perform_of_ne hr]
      exact ih

theorem route_mem_of_commands (h : commands route calls ≠ 0) : route ∈ calls.map Call.route := by
  obtain ⟨call, hmem, hcall⟩ := List.countP_pos_iff.1 (Nat.pos_of_ne_zero h)
  refine List.mem_map.2 ⟨call, (List.rtakeWhile_suffix _ calls).mem hmem, ?_⟩
  cases call with
  | handle now c m => exact of_decide_eq_true hcall
  | dispose q => cases hcall

/-- The count that is answered is that of the commands up to the request itself. -/
theorem outcome_stats {m : Envelope} (hm : m.command = some statsName)
    (h : a.counts.get? (counted m) = entry (commands (counted m) calls)) (now : Duration)
    (c : Identity) :
    (handler.handle a now c m).2.outcome = .returned (some (.object
      [("commands", .int (commands (counted m) (calls ++ [.handle now c m]))),
        ("route", .string (counted m))])) := by
  have hne : statsName ≠ pingName := by decide
  have hcount : (a.tally (counted m)).count (counted m)
      = commands (counted m) (calls ++ [.handle now c m]) := by
    rw [commands_concat_handle]
    exact count_of_entry (get?_tally_self h)
  simp only [handler, answer, hm, if_neg hne, if_pos, stats, hcount]

theorem tracked_eq (h : ∀ route, a.counts.get? route = entry (commands route calls)) :
    a.tracked =
      ((calls.map Call.route).toFinset.filter fun route => commands route calls ≠ 0).card := by
  have hmem (route : String) : route ∈ a.counts.keys ↔ commands route calls ≠ 0 := by
    rw [← Registry.get?_ne_none_iff, h, entry]
    split <;> simp [*]
  rw [tracked, Registry.size, ← List.length_map (·.1),
    ← List.toFinset_card_of_nodup a.counts.distinct]
  congr 1
  ext route
  rw [List.mem_toFinset, Finset.mem_filter, List.mem_toFinset]
  exact (hmem route).trans (iff_and_self.2 route_mem_of_commands)

/-- What an agent says about its counts after some calls. -/
structure Tallied (calls : List Call) (a : Agent) : Prop where
  /-- A request for the count of its source is counted itself. -/
  answered : ∀ now c m, m.command = some statsName →
    (handler.handle a now c m).2.outcome = .returned (some (.object
      [("commands", .int (commands (counted m) (calls ++ [.handle now c m]))),
        ("route", .string (counted m))]))
  /-- So long as there are fewer than `2 ^ 64` calls, the counts are numbers of 64 bits. -/
  narrow : calls.length < 2 ^ 64 → ∀ route, commands route calls < 2 ^ 64
  tracked : a.tracked =
    ((calls.map Call.route).toFinset.filter fun route => commands route calls ≠ 0).card
  count : ∀ route, a.count route = commands route calls
  /-- Commands of one route and its disposal do not change the count of another. -/
  apart : ∀ call route, call.route ≠ route → (a.perform call).count route = a.count route

/-- From a start without counts, the agent counts the commands of each source since the last
disposal of that route, failed ones and unknown ones too. -/
theorem tallied_after (started : Duration) (calls : List Call) :
    Tallied calls (after { started } calls) := by
  have hget := get?_after (a := { started }) rfl calls
  constructor
  case answered => exact fun now c m hm => outcome_stats hm (hget _) now c
  case narrow => exact fun h route => (commands_le_length route calls).trans_lt h
  case tracked => exact tracked_eq hget
  case count => exact fun route => count_of_entry (hget route)
  case apart =>
    intro call route hne
    rw [Agent.count, Agent.count, get?_perform_of_ne hne]

/-- Two sources that turn to the agent, one with a command that it does not know; a route that
nothing came from is disposed of, and so is one of theirs. -/
def visits : List Call :=
  [.handle ⟨0⟩ {} { command := some "dance", source := some "r" },
    .handle ⟨0⟩ {} { command := some pingName },
    .dispose "q", .dispose "r", .handle ⟨0⟩ {} { source := some "r" }]

theorem visits_tallied :
    (handler.handle (after {} visits) ⟨0⟩ {}
        { command := some statsName, source := some "r" }).2.outcome =
      .returned (some (.object [("commands", .int 2), ("route", .string "r")])) ∧
    (after {} visits).tracked = 2 ∧ (after {} visits).count "" = 1 := by
  obtain ⟨hanswer, -, htracked, hcount, -⟩ := tallied_after ⟨0⟩ visits
  exact ⟨hanswer _ _ _ rfl, htracked.trans (by decide +kernel), hcount ""⟩

end Agent

end Switchboard
