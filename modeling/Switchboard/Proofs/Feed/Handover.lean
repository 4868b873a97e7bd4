import Switchboard.Proofs.Feed.Run
import Switchboard.Proofs.Relay.Delivery
import Switchboard.Proofs.Wire.Writing

/-! What it takes for an envelope of a client to be routed: its pump holds it and calls the router
with it, which hands it on by its tables. All that is told of what was routed was told in such a
call. -/
namespace Switchboard.Feed

open Exchange

variable {σ : Type} {x : Exchange σ} {f f' : Feed σ} {front back : List (Envelope × String)}
  {m : Envelope} {source : String} {p : Nat}

/-- What comes of a connection in time. -/
abbrev Later : Feed σ → Feed σ → Prop := Relation.ReflTransGen Step

/-- A pump of the peer routes an envelope in the step from one state to the next. -/
structure Forwards (f f' : Feed σ) (p : Nat) (m : Envelope) (source : String) : Prop where
  held : ∃ u, f.exchange.router.pumps[p]? = some u ∧ u.endpoint = f.peer ∧ u.source = source ∧
    u.held = some m
  /-- The pump gives the envelope up and calls the router with it, and that is all it does. -/
  call : f.exchange.forward p = (f.exchange.setPump p none).route m source
  after : f'.exchange = (f.exchange.forward p).1
  /-- Every inbox gets of it what the tables of the router say. -/
  handed : ∀ d, Hands d (routeHandings f.exchange.router m source) f.exchange f'.exchange
  /-- It is consumed, gets into one inbox, or is reported as a failure. -/
  fate : Relay.Fate m source
    (f.exchange.taken (routeHandings f.exchange.router m source)) (f.exchange.forward p).2

theorem forwards_of_held {u : Pump} (hu : f.exchange.router.pumps[p]? = some u)
    (hk : u.endpoint = f.peer) (hm : u.held = some m)
    (he : f'.exchange = (f.exchange.forward p).1) : f.Forwards f' p m u.source := by
  have hcall : f.exchange.forward p = (f.exchange.setPump p none).route m u.source := by
    obtain ⟨source, endpoint, cancelled, held⟩ := u
    subst hm
    rw [Exchange.forward, hu]
  constructor
  case held => exact ⟨u, hu, hk, rfl, hm⟩
  case call => exact hcall
  case after => exact he
  case handed =>
    intro d
    have hh := f.exchange.hands_forward (k := d) p
    rw [forwardHandings_eq hu, hm] at hh
    rw [he]
    exact hh
  case fate =>
    rw [hcall]
    exact Relay.fate_route (f.exchange.setPump p none) m u.source

/-- Nothing is told to be routed but what a pump of the peer routes. -/
theorem Step.routed (h : f.Step f') : f'.routed = f.routed ∨
    ∃ p m source, f'.routed = f.routed ++ [(m, source)] ∧ f.Forwards f' p m source := by
  cases h with
  | forward p =>
    unfold carried
    split
    · rename_i u hu
      by_cases hk : u.endpoint = f.peer
      · cases hm : u.held with
        | none => exact .inl (by simp)
        | some m =>
          exact .inr ⟨p, m, u.source, by simp [hk], forwards_of_held hu hk hm rfl⟩
      · exact .inl (by simp [hk])
    · exact .inl (List.append_nil _)
  | _ => exact .inl rfl

/-- On the way to a state, right after some other envelopes, an envelope is routed. -/
def Called (x : Exchange σ) (f : Feed σ) (front : List (Envelope × String)) (m : Envelope)
    (source : String) : Prop :=
  ∃ e e' p, Reachable x e ∧ e.routed = front ∧ e.Step e' ∧ e.Forwards e' p m source ∧ e'.Later f

theorem Called.later (h : Called x f front m source) (hs : f.Step f') :
    Called x f' front m source := by
  obtain ⟨e, e', p, he, hfront, hstep, hforwards, hlater⟩ := h
  exact ⟨e, e', p, he, hfront, hstep, hforwards, hlater.tail hs⟩

/-- What stands in a list with one more at its end is that one, or stood there before. -/
theorem last_or_before {α : Type} {as front back : List α} {a b : α}
    (h : as ++ [a] = front ++ b :: back) : (as = front ∧ a = b ∧ back = []) ∨
      ∃ rest, back = rest ++ [a] ∧ as = front ++ b :: rest := by
  rcases List.eq_nil_or_concat back with rfl | ⟨rest, last, rfl⟩
  · obtain ⟨hfront, hlast⟩ := List.append_inj' h rfl
    exact .inl ⟨hfront, List.singleton_inj.1 hlast, rfl⟩
  · rw [List.concat_eq_append, ← List.cons_append, ← List.append_assoc] at h
    obtain ⟨hbefore, hlast⟩ := List.append_inj' h rfl
    obtain rfl := List.singleton_inj.1 hlast
    exact .inr ⟨rest, List.concat_eq_append, hbefore⟩

/-- What is told to be routed in the end was routed in a step on the way, by a call of the
router. -/
theorem called_of_routed (h : Reachable x f) (hr : f.routed = front ++ (m, source) :: back) :
    Called x f front m source := by
  induction h generalizing back with
  | start => simp at hr
  | @step f f' h hs ih =>
    rcases hs.routed with hsame | ⟨p, n, via, hlast, hf⟩
    · exact (ih (hsame ▸ hr)).later hs
    · rcases last_or_before (hlast.symm.trans hr) with ⟨hfront, hmn, -⟩ | ⟨rest, -, hbefore⟩
      · obtain ⟨rfl, rfl⟩ := Prod.mk.inj hmn
        exact ⟨f, f', p, h, hfront, hs, hf, .refl⟩
      · exact (ih hbefore).later hs

end Switchboard.Feed
