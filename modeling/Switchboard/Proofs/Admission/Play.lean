import Switchboard.Proofs.Admission.Traffic

/-! The steps of the parties as moves that can be played. -/
namespace Switchboard

variable {σ : Type} {x y z : Exchange σ} {c d : Connection} {s t u : Served} {es fs : List Event}
  {k : Nat}

/-- A move of a party to a connection. -/
inductive Move where
  | service
  | read
  | write
  | close
  | call (k : Nat)
  | arrive (r : Read)
  | hangUp
  | failWrites (text : String)

/-- The next step of the service, if it has not returned. -/
def Connection.serve? (x : Exchange σ) (c : Connection) :
    Option (List Event × Exchange σ × Connection) :=
  match c.admission with
  | .greeting .awaiting =>
    match Handshake.hear? x c.peer with
    | some (y, h) => some ([], y, { c with admission := .greeting h })
    | none => some ([.expired], x, { c with admission := .greeting (.expired c.grace) })
  | .finished => none
  | _ => some (c.events x, c.step x)

theorem Connection.serves_iff : c.Serves x es y d ↔ c.serve? x = some (es, y, d) := by
  constructor
  · intro h
    cases h with
    | hear ha hh => simp [serve?, ha, hh]
    | expire ha hh => simp [serve?, ha, hh]
    | step ha hf =>
      unfold serve?
      split
      · exact absurd ‹_› ha
      · exact absurd ‹_› hf
      · rfl
  · intro h
    unfold serve? at h
    split at h
    · split at h <;> cases h
      · exact .hear ‹_› ‹_›
      · exact .expire ‹_› ‹_›
    · cases h
    · obtain ⟨rfl, hst⟩ := Prod.mk.inj (Option.some.inj h)
      have hs := Serves.step (x := x) (c := c) ‹_› ‹_›
      rwa [hst] at hs

namespace Served

/-- What comes of a move, if it can be made. -/
def move? (x : Exchange σ) (s : Served) : Move → Option (List Event × Exchange σ × Served)
  | .service => (s.connection.serve? x).map fun (es, y, d) =>
    (.served :: es, y, { s with connection := d })
  | .read => (s.connection.read? x).map fun (y, d) => ([], y, { s with connection := d })
  | .write => (s.connection.write? x).map fun (y, d) => ([], y, { s with connection := d })
  | .close =>
    let (guard, c) := s.connection.guard.beginClose
    some ([.called], x,
      { connection := { s.connection with guard }, calls := s.calls ++ [c] })
  | .call k =>
    match s.calls[k]? with
    | some c =>
      if c.isOpen then
        let (y, n, d) := s.connection.closeStep x c
        some (c.events x s.connection, y, { connection := n, calls := s.calls.set k d })
      else none
    | none => none
  | .arrive r =>
    if s.connection.intake.ended then none
    else some ([.arrived r], x,
      { s with connection.intake.reads := s.connection.intake.reads ++ [r] })
  | .hangUp => some ([], x, { s with connection.intake.ended := true })
  | .failWrites text => some ([], x, { s with connection.outlet.failing := some text })

theorem step_of_move? {m : Move} (h : s.move? x m = some (es, y, t)) : s.Step x es y t := by
  cases m with
  | service =>
    obtain ⟨⟨fs, z, d⟩, hs, he⟩ := Option.map_eq_some_iff.1 h
    cases he
    exact .service (Connection.serves_iff.2 hs)
  | read =>
    obtain ⟨⟨z, d⟩, hs, he⟩ := Option.map_eq_some_iff.1 h
    cases he
    exact .read hs
  | write =>
    obtain ⟨⟨z, d⟩, hs, he⟩ := Option.map_eq_some_iff.1 h
    cases he
    exact .write hs
  | close =>
    cases h
    exact .close rfl
  | call k =>
    simp only [move?] at h
    split at h
    · split at h <;> cases h
      exact .call ‹_› ‹_› rfl
    · cases h
  | arrive r =>
    simp only [move?] at h
    split at h <;> cases h
    exact .arrive r (Bool.eq_false_iff.2 ‹_›)
  | hangUp =>
    cases h
    exact .hangUp
  | failWrites text =>
    cases h
    exact .failWrites text

/-- Every step is a move, and every move is a step. -/
theorem step_iff_move? : s.Step x es y t ↔ ∃ m, s.move? x m = some (es, y, t) := by
  refine ⟨fun h => ?_, fun ⟨m, h⟩ => step_of_move? h⟩
  cases h with
  | service h => exact ⟨.service, by simp [move?, Connection.serves_iff.1 h]⟩
  | read h => exact ⟨.read, by simp [move?, h]⟩
  | write h => exact ⟨.write, by simp [move?, h]⟩
  | close h => exact ⟨.close, by simp [move?, h]⟩
  | @call k _ _ _ _ hk ho h => exact ⟨.call k, by simp [move?, hk, ho, h]⟩
  | arrive r he => exact ⟨.arrive r, by simp [move?, he]⟩
  | hangUp => exact ⟨.hangUp, rfl⟩
  | failWrites text => exact ⟨.failWrites text, rfl⟩

/-- What comes of moves that are made one after the other. -/
def play? (x : Exchange σ) (s : Served) : List Move → Option (List Event × Exchange σ × Served)
  | [] => some ([], x, s)
  | m :: ms => do
    let (es, y, t) ← s.move? x m
    let (fs, z, u) ← t.play? y ms
    return (es ++ fs, z, u)

theorem Run.head (h : s.Step x es y t) (hr : Run y t fs z u) : Run x s (es ++ fs) z u := by
  induction hr with
  | refl => simpa using (Run.refl (x := x) (s := s)).tail h
  | tail _ hs ih =>
    rw [← List.append_assoc]
    exact ih.tail hs

theorem run_of_play? {ms : List Move} (h : s.play? x ms = some (es, y, t)) :
    s.Run x es y t := by
  induction ms generalizing x s es with
  | nil =>
    cases h
    exact .refl
  | cons m ms ih =>
    obtain ⟨⟨es', z, u⟩, hm, h⟩ := Option.bind_eq_some_iff.1 h
    obtain ⟨⟨fs, z', u'⟩, hp, h⟩ := Option.bind_eq_some_iff.1 h
    cases h
    exact .head (step_of_move? hm) (ih hp)

end Served

namespace Traffic

variable {w : Traffic σ}

/-- The parties to one connection may make as many steps as they want. -/
theorem Reachable.run (h : Reachable x w) (hk : w.served[k]? = some s)
    (hr : s.Run w.exchange es y t) :
    Reachable x {
      exchange := y
      served := w.served.set k t
      log := w.log ++ es.map (some k, ·) } := by
  have hlt := (List.getElem?_eq_some_iff.1 hk).1
  induction hr with
  | refl =>
    have hset : w.served.set k s = w.served := by
      obtain ⟨hlt, rfl⟩ := List.getElem?_eq_some_iff.1 hk
      exact List.set_getElem_self hlt
    simpa [hset] using h
  | @tail _ _ _ _ t _ hr hs ih =>
    have hk' : (w.served.set k t)[k]? = some t := List.getElem?_set_self hlt
    simpa using ih.step (.party hk' hs)

end Traffic

end Switchboard
