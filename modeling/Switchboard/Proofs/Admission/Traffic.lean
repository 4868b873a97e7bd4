import Switchboard.Proofs.Admission.Party
import Switchboard.Proofs.Exchange.Calm

/-! Any number of connections on one router that is otherwise only sent envelopes, with the
parties to all of them and the pumps in any order. -/
namespace Switchboard

namespace Exchange

variable {σ : Type} {x y : Exchange σ}

/-- Something goes on at the endpoints: queues are filled and emptied, ids are used up, and no
peer is admitted. -/
structure Aside (x y : Exchange σ) : Prop where
  router : y.router = x.router
  papers : ∀ k, y.papers k = x.papers k
  minted : x.minted ≤ y.minted

theorem Aside.calm (h : Aside x y) : Calm x y :=
  ⟨by rw [h.router], by rw [h.router], by rw [h.router], by rw [h.router], h.papers, h.minted⟩

/-- What a pump hands out when it routes the envelope that it holds. -/
def forwardHandings (x : Exchange σ) (pump : Nat) : List Handing :=
  match x.router.pumps[pump]? with
  | some { source, held := some m, .. } => routeHandings x.router m source
  | _ => []

/-- An exchange that a peer has been added to, for a new connection. -/
def meet (x : Exchange σ) : Exchange σ := { x with endpoints := x.endpoints ++ [.peer {}] }

end Exchange

/-- A connection that has just been accepted. -/
def Served.new (peer : Nat) (grace : Duration) (maxFrame : Nat) : Served :=
  { connection := { peer, grace, maxFrame } }

structure Traffic (σ : Type) where
  exchange : Exchange σ
  served : List Served := []
  /-- All that has happened, with the connection whose parties did it. -/
  log : List (Option Nat × Event) := []

namespace Traffic

variable {σ : Type}

/-- What the parties to a connection have done. -/
def events (w : Traffic σ) (k : Nat) : List Event :=
  w.log.filterMap fun e => if e.1 = some k then some e.2 else none

inductive Step (w : Traffic σ) : Traffic σ → Prop
  | connect (grace : Duration) (maxFrame : Nat) :
      Step w { w with
        exchange := w.exchange.meet
        served := w.served ++ [.new w.exchange.endpoints.length grace maxFrame] }
  | party {k : Nat} {s t : Served} {es : List Event} {y : Exchange σ} (hk : w.served[k]? = some s)
      (h : s.Step w.exchange es y t) :
      Step w {
        exchange := y
        served := w.served.set k t
        log := w.log ++ es.map (some k, ·) }
  /-- The router is sent an envelope. -/
  | sent (m : Envelope) (source : String) :
      Step w { w with
        exchange := (w.exchange.route m source).1
        log := w.log ++ (Exchange.routeHandings w.exchange.router m source).map
          (none, .handed ·) }
  | fetch {p : Nat} {y : Exchange σ} (h : w.exchange.fetch p = .held y) :
      Step w { w with exchange := y }
  | forward (p : Nat) :
      Step w { w with
        exchange := (w.exchange.forward p).1
        log := w.log ++ (w.exchange.forwardHandings p).map (none, .handed ·) }
  | aside {y : Exchange σ} (h : w.exchange.Aside y) : Step w { w with exchange := y }

/-- What comes of an exchange at which nobody has connected yet. -/
inductive Reachable (x : Exchange σ) : Traffic σ → Prop
  | start : Reachable x { exchange := x }
  | step {w v : Traffic σ} (h : Reachable x w) (hs : Step w v) : Reachable x v

/-- Ids that are not used up yet name no route and are no token. -/
def Fresh (x : Exchange σ) : Prop :=
  ∀ n, x.minted ≤ n →
    x.router.routes.get? (Identity.processRoute (Id.ofNat n)) = none ∧
      x.router.accepted.get? (Id.ofNat n) = none

variable {x : Exchange σ} {w : Traffic σ} {k j : Nat}

theorem events_append (es : List Event) (k j : Nat) (w : Traffic σ) (y : Exchange σ)
    (served : List Served) :
    events { exchange := y, served, log := w.log ++ es.map (some k, ·) } j =
      if k = j then w.events j ++ es else w.events j := by
  by_cases hj : k = j
  · simp [events, hj, List.filterMap_map]
  · simp [events, hj, List.filterMap_map]

theorem events_handed (hs : List Handing) (j : Nat) (w : Traffic σ) (y : Exchange σ) :
    events { w with exchange := y, log := w.log ++ hs.map (none, .handed ·) } j =
      w.events j := by
  simp [events, List.filterMap_map]

end Traffic

end Switchboard
