import Switchboard.Proofs.Admission.Step

/-! The log of a connection is exact: what its parties hand to the endpoints of others is what they
are said to hand out, neither more nor less. -/
namespace Switchboard

variable {σ : Type} {x y z : Exchange σ} {c d : Connection} {s t : Served} {es : List Event}
  {j k : Nat} {hs : List Handing}

def Event.handing? : Event → Option Handing
  | .handed h => some h
  | _ => none

/-- Everything that is handed out, in order. -/
def Event.handings (es : List Event) : List Handing := es.filterMap handing?

namespace Event

theorem handings_append (es fs : List Event) :
    handings (es ++ fs) = handings es ++ handings fs := List.filterMap_append

@[simp] theorem handings_handed (hs : List Handing) : handings (hs.map handed) = hs := by
  induction hs with
  | nil => rfl
  | cons h hs ih => exact congrArg _ ih

@[simp] theorem handings_routeEvents (r : Router) (m : Envelope) (source : String) :
    handings (Exchange.routeEvents r m source) = Exchange.routeHandings r m source :=
  handings_handed _

end Event

namespace Exchange

/-- At all endpoints but one, `y` is what `x` is after some envelopes are handed out. -/
def Accounts (k : Nat) (hs : List Handing) (x y : Exchange σ) : Prop :=
  ∀ j, j ≠ k → y.endpoints[j]? = (x.handAll hs).endpoints[j]?

theorem accounts_of_eq (h : y.endpoints = (x.handAll hs).endpoints) : Accounts k hs x y :=
  fun j _ => by rw [h]

theorem Accounts.append {gs : List Handing} (h : Accounts k hs x y) (h' : Accounts k gs y z) :
    Accounts k (hs ++ gs) x z := by
  intro j hj
  have hy := getElem?_handAll gs (h j hj)
  have hxy : x.handAll (hs ++ gs) = (x.handAll hs).handAll gs := List.foldl_append
  rw [h' j hj, hy, hxy]

theorem Within.accounts (h : Within k x y) : Accounts k [] x y := h.endpoints

/-- Envelopes for the peer itself are of no account elsewhere. -/
theorem Within.accounts_handed (m : Envelope) (h : Within k x y) : Accounts k [⟨k, m⟩] x y :=
  fun j hj => (h.endpoints j hj).trans ((within_holding m).endpoints j hj).symm

end Exchange

open Exchange

theorem Closing.accounts (x : Exchange σ) (c : Connection) (q : Closing) :
    Accounts k (Event.handings (q.events x c)) x (c.closeStep x q).1 := by
  apply accounts_of_eq
  cases q with
  | marked r => rfl
  | cancelled r =>
    cases r with
    | none => rfl
    | some r =>
      rw [events, Event.handings_handed]
      exact endpoints_unregister r
  | unregistered r =>
    rw [events, Event.handings_routeEvents]
    exact endpoints_route _ r
  | disposed t => cases t <;> rfl
  | finished b => rfl

theorem Connection.withdraw_accounts (x : Exchange σ) (c : Connection) :
    Accounts k (c.withdrawHandings x) x (c.withdraw x) := by
  apply accounts_of_eq
  unfold withdraw withdrawHandings
  cases hp : x.peer? c.peer with
  | none => rfl
  | some p =>
    obtain ⟨b, token, route⟩ := p
    cases route with
    | none => rfl
    | some route => exact endpoints_withdraw route token

theorem Handshake.judge_accounts (x : Exchange σ) (c : Connection) (first : Envelope)
    (ha : c.admission = .greeting (.received first)) :
    Accounts c.peer (Event.handings (c.events x)) x (c.step x).1 := by
  have hst : c.step x = ((judge x c.peer first).1,
      { c with admission := .greeting (judge x c.peer first).2 }) :=
    Connection.step_greeting ha nofun
  rcases judge_cases x c.peer first with ⟨token, y, g, hx, ho, hj⟩ | ⟨text, e, ho, hj⟩
  · obtain ⟨rfl, -, -⟩ := Exchange.authenticate_ok hx
    have he : c.events x = [.granted g] := by simp [Connection.events, ha, ho, hst, hj]
    rw [he, hst, hj]
    exact accounts_of_eq rfl
  · have he : c.events x = if first.requestId.isSome
        then [.handed ⟨c.peer, first.failure text⟩] else [] := by
      simp [Connection.events, ha, ho]
    have hw := within_reject x c.peer first text
    rw [he, hst, hj]
    split
    · exact hw.accounts_handed _
    · exact hw.accounts

namespace Connection

theorem step_accounts (x : Exchange σ) (c : Connection) :
    Accounts c.peer (Event.handings (c.events x)) x (c.step x).1 := by
  cases ha : c.admission with
  | greeting h =>
    cases h with
    | received first => exact Handshake.judge_accounts x c first ha
    | awaiting =>
      simp only [step, events, ha]
      exact accounts_of_eq rfl
    | granted first g =>
      rw [step_greeting ha (by simp), events, ha]
      intro j hj
      simp [Handshake.step, modifyPeer, Exchange.modify, Event.handings, Ne.symm hj]
    | stored first g =>
      rw [step_greeting ha (by simp), events, ha, Event.handings_routeEvents]
      exact accounts_of_eq (endpoints_route _ _)
    | announced first g =>
      rw [step_greeting ha (by simp), events, ha]
      exact (Handshake.within_step_announced g).accounts_handed _
    | ended r =>
      simp only [step, events, ha]
      exact accounts_of_eq rfl
  | admitted route =>
    rw [step, events, ha]
    by_cases hc : c.guard.closed = true
    · simp only [bindRoute, if_pos hc]
      exact accounts_of_eq rfl
    · simp only [bindRoute, if_neg hc]
      exact accounts_of_eq rfl
  | refused =>
    simp only [step, events, ha]
    exact accounts_of_eq rfl
  | closing q =>
    rw [events, ha]
    have hq := q.accounts x c (k := c.peer)
    rw [step, ha]
    cases q <;> exact hq
  | unbound =>
    simp only [step, events, ha, Event.handings_handed]
    exact c.withdraw_accounts x
  | finished =>
    simp only [step, events, ha]
    exact accounts_of_eq rfl

theorem serves_accounts (h : c.Serves x es y d) : Accounts c.peer (Event.handings es) x y := by
  cases h with
  | hear _ hh => exact (Handshake.within_hear? hh).accounts
  | expire => exact accounts_of_eq rfl
  | step => exact c.step_accounts x

end Connection

/-- What the parties to a connection hand to others is what the log says. -/
theorem step_accounts (h : s.Step x es y t) :
    Accounts s.connection.peer (Event.handings es) x y := by
  cases h with
  | @service es _ _ h =>
    show Accounts _ (Event.handings es) x y
    exact Connection.serves_accounts h
  | read h => exact (Connection.reads_of_read? h).2.beside.within.accounts
  | write h => exact (Connection.beside_write? h).within.accounts
  | @call _ c _ _ _ _ _ h =>
    have ha := c.accounts x s.connection (k := s.connection.peer)
    rwa [h] at ha
  | _ => exact accounts_of_eq rfl

/-- However long they go on, the log says what they hand to others. -/
theorem run_accounts (h : s.Run x es y t) :
    Accounts s.connection.peer (Event.handings es) x y := by
  suffices hr : Accounts s.connection.peer (Event.handings es) x y ∧
      t.connection.peer = s.connection.peer from hr.1
  induction h with
  | refl => exact ⟨accounts_of_eq rfl, rfl⟩
  | tail _ hs ih =>
    obtain ⟨hacc, hp⟩ := ih
    have hstep := step_accounts hs
    rw [hp] at hstep
    rw [Event.handings_append]
    exact ⟨hacc.append hstep, hs.fixed.1.trans hp⟩

end Switchboard
