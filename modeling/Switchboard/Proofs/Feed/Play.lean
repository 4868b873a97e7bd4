import Switchboard.Proofs.Feed.Run
import Switchboard.Proofs.Admission.Play

/-! The steps around a connection as acts that can be played, and rest as something that can be
told. -/
namespace Switchboard.Feed

variable {σ : Type} {x : Exchange σ} {f g : Feed σ}

/-- A move of a party to the connection, or something that a pump does. -/
inductive Act where
  | party (m : Move)
  | watch (side : Side)
  | fetch (p : Nat)
  | forward (p : Nat)

/-- Whether it was seen that a side of the stream has ended, if it has. -/
def isWatched (f : Feed σ) (side : Side) : Bool :=
  (Session.sideResult f.served.connection side).isNone || side ∈ f.seen

/-- What comes of an act, if it can be done. -/
def act? (f : Feed σ) : Act → Option (Feed σ)
  | .party m => (f.served.move? f.exchange m).map fun (es, y, t) =>
    { f with exchange := y, served := t, events := f.events ++ es }
  | .watch side =>
    if f.isWatched side then none
    else
      let (guard, c) := f.served.connection.guard.beginClose
      some { f with
        served := {
          connection := { f.served.connection with guard }
          calls := f.served.calls ++ [c] }
        seen := f.seen ++ [side]
        events := f.events ++ [.called] }
  | .fetch p =>
    match f.exchange.router.pumps[p]?, f.exchange.fetch p with
    | some { held := none, .. }, .held y => some { f with exchange := y }
    | _, _ => none
  | .forward p =>
    some { f with exchange := (f.exchange.forward p).1, routed := f.routed ++ f.carried p }

theorem act?_watch {side : Side} (h : f.act? (.watch side) = some g) :
    (Session.sideResult f.served.connection side).isSome ∧ side ∉ f.seen ∧
      g = { f with
        served := {
          connection :=
            { f.served.connection with guard := f.served.connection.guard.beginClose.1 }
          calls := f.served.calls ++ [f.served.connection.guard.beginClose.2] }
        seen := f.seen ++ [side]
        events := f.events ++ [.called] } := by
  by_cases hw : f.isWatched side = true
  · simp [act?, hw] at h
  · simp only [act?, if_neg hw] at h
    cases h
    simp only [isWatched, Bool.or_eq_true, decide_eq_true_eq, not_or, Bool.not_eq_true,
      Option.isNone_eq_false_iff] at hw
    exact ⟨hw.1, hw.2, rfl⟩

theorem act?_fetch {p : Nat} (h : f.act? (.fetch p) = some g) :
    ∃ u y, f.exchange.router.pumps[p]? = some u ∧ u.held = none ∧
      f.exchange.fetch p = .held y ∧ g = { f with exchange := y } := by
  simp only [act?] at h
  split at h
  · cases h
    exact ⟨_, _, ‹_›, rfl, ‹_›, rfl⟩
  · cases h

theorem step_of_act? {a : Act} (h : f.act? a = some g) : f.Step g := by
  cases a with
  | party m =>
    obtain ⟨⟨es, y, t⟩, hm, rfl⟩ := Option.map_eq_some_iff.1 h
    exact .party (Served.step_of_move? hm)
  | watch side =>
    obtain ⟨he, hn, rfl⟩ := act?_watch h
    exact .watch side he hn rfl
  | fetch p =>
    obtain ⟨u, y, hu, hidle, hy, rfl⟩ := act?_fetch h
    exact .fetch hu hidle hy
  | forward p =>
    cases h
    exact .forward p

def acts? (f : Feed σ) : List Act → Option (Feed σ)
  | [] => some f
  | a :: as => do (← f.act? a).acts? as

theorem reachable_of_acts? {as : List Act} (hf : Reachable x f) (h : f.acts? as = some g) :
    Reachable x g := by
  induction as generalizing f with
  | nil =>
    cases h
    exact hf
  | cons a as ih =>
    obtain ⟨f', ha, h⟩ := Option.bind_eq_some_iff.1 h
    exact ih (hf.step (step_of_act? ha)) h

/-- Whether a pump has nothing to do, if it is a pump of the peer. -/
def isIdle (f : Feed σ) (p : Nat) : Bool :=
  match f.exchange.router.pumps[p]? with
  | none => true
  | some u =>
    if u.endpoint = f.peer then
      u.held.isNone && match f.exchange.fetch p with
        | .held _ => false
        | _ => true
    else true

theorem isIdle_iff (f : Feed σ) (p : Nat) : f.isIdle p = true ↔
    ∀ u, f.exchange.router.pumps[p]? = some u → u.endpoint = f.peer →
      u.held = none ∧ ∀ y, f.exchange.fetch p ≠ .held y := by
  unfold isIdle
  cases f.exchange.router.pumps[p]? with
  | none => simp
  | some u =>
    by_cases hu : u.endpoint = f.peer
    · cases f.exchange.fetch p <;> simp [hu]
    · simp [hu]

theorem serve?_eq_none_iff {c : Connection} {y : Exchange σ} :
    c.serve? y = none ↔ c.admission = .finished := by
  unfold Connection.serve?
  split
  · split <;> simp_all
  · simp_all
  · simp_all

/-- At rest nobody can do anything that has to do with the connection, unless somebody closes it
or the client goes on. -/
theorem atRest_iff (f : Feed σ) : f.AtRest ↔
    f.served.connection.serve? f.exchange = none ∧ f.served.connection.read? f.exchange = none ∧
      (f.isWatched .reading ∧ f.isWatched .writing) ∧
      ∀ p < f.exchange.router.pumps.length, f.isIdle p := by
  have hwatched (side : Side) : f.isWatched side ↔
      ((Session.sideResult f.served.connection side).isSome → side ∈ f.seen) := by
    unfold isWatched
    cases Session.sideResult f.served.connection side <;> simp
  constructor
  · intro h
    refine ⟨serve?_eq_none_iff.2 h.served, h.read, ⟨?_, ?_⟩, fun p _ => ?_⟩
    · exact (hwatched _).2 (h.watched .reading)
    · exact (hwatched _).2 (h.watched .writing)
    · exact (f.isIdle_iff p).2 (h.pumped p)
  · rintro ⟨hs, hr, ⟨hreading, hwriting⟩, hp⟩
    refine ⟨serve?_eq_none_iff.1 hs, hr, fun side => ?_, fun p u hu => ?_⟩
    · cases side with
      | reading => exact (hwatched _).1 hreading
      | writing => exact (hwatched _).1 hwriting
    · exact (f.isIdle_iff p).1 (hp p (List.getElem?_eq_some_iff.1 hu).1) u hu

instance (f : Feed σ) : Decidable f.AtRest := decidable_of_iff _ f.atRest_iff.symm

end Switchboard.Feed
