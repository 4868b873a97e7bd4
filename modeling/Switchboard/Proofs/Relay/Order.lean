import Switchboard.Proofs.Relay.Held

/-! What an endpoint has said is routed in the order it was said, and what one endpoint is handed
of it comes in that order too, nothing of it twice. -/
namespace Switchboard

/-- The same envelope as it was said, but for its token and a source that it lacked. -/
structure Stems (n m : Envelope) : Prop where
  same : n = { m with authToken := n.authToken, source := n.source }
  source : ∀ s, m.source = some s → n.source = some s

instance : Std.Refl Stems := ⟨fun _ => ⟨rfl, fun _ h => h⟩⟩

instance : IsTrans Envelope Stems where
  trans a b c hab hbc := by
    refine ⟨?_, fun s hs => hab.source s (hbc.source s hs)⟩
    have hb := hbc.same
    have ha := hab.same
    rw [hb] at ha
    exact ha

/-- A source is given only to what has none. -/
theorem stems_ite_source (m : Envelope) (source : Option String) :
    Stems (if m.source.isNone then { m with source } else m) m := by
  cases hs : m.source with
  | none => exact ⟨rfl, by simp [hs]⟩
  | some s => exact refl_of Stems m

theorem stems_sourced (m : Envelope) (source : String) : Stems (Exchange.sourced m source) m :=
  stems_ite_source m (some source)

theorem Peer.stems_stamp (p : Peer) (m : Envelope) : Stems (p.stamp m) m := by
  unfold Peer.stamp
  cases p.authToken with
  | none => exact stems_ite_source m p.route
  | some token =>
    have htoken : Stems { m with authToken := some token } m := ⟨rfl, fun _ h => h⟩
    exact trans_of Stems (stems_ite_source _ p.route) htoken

theorem Endpoint.stems_stamp {σ : Type} (e : Endpoint σ) (m : Envelope) : Stems (e.stamp m) m := by
  cases e with
  | peer p => exact p.stems_stamp m
  | mailbox b => exact refl_of Stems m
  | service s => exact refl_of Stems m

namespace Exchange

open List (Forall₂)

variable {σ : Type} {x y : Exchange σ} {j k p : Nat} {u : Pump} {m : Envelope}

theorem waiting_congr (hheld : y.held k = x.held k) (hout : y.outgoing k = x.outgoing k) :
    y.waiting k = x.waiting k := by
  rw [waiting, hheld, hout, waiting]

/-- What an endpoint says joins the end of what is waiting. -/
theorem waiting_push {e : Endpoint σ} {q : Queue} (he : x.endpoints[j]? = some e)
    (hq : e.outgoing.push? m = some q) (k : Nat) :
    (x.modify j (·.withOutgoing q)).waiting k = x.waiting k ++ if j = k then [m] else [] := by
  have hheld : (x.modify j (·.withOutgoing q)).held k = x.held k := rfl
  by_cases hj : j = k
  · subst k
    have hout : (x.modify j (·.withOutgoing q)).outgoing j = x.outgoing j ++ [m] := by
      simp only [Queue.push?, Option.ite_none_right_eq_some, Option.some.injEq] at hq
      simp [outgoing, endpoints_modify_self he, he, ← hq.2]
    rw [waiting, hheld, hout, ← List.append_assoc, if_pos rfl, waiting]
  · rw [if_neg hj, List.append_nil]
    exact waiting_congr hheld (by simp [outgoing, endpoints_modify_of_ne hj])

/-- A pump that takes an envelope stamps it and leaves it where it was. -/
theorem waiting_fetch (hx : x.BoundOnce) (hu : x.router.pumps[p]? = some u) (hidle : u.held = none)
    (hy : x.fetch p = .held y) (k : Nat) : Forall₂ Stems (y.waiting k) (x.waiting k) := by
  obtain ⟨e, rest, he, m, hm, rfl⟩ := fetch_cases hu hy
  generalize hq : ({ e.outgoing with items := rest } : Queue) = q
  have hheld : ((x.modify u.endpoint (·.withOutgoing q)).setPump p (some (e.stamp m))).held k =
      if u.endpoint = k then [e.stamp m] else x.held k :=
    held_setPump (x := x.modify u.endpoint _) hx hu (some (e.stamp m)) k
  by_cases hk : u.endpoint = k
  · subst k
    have hsaid : x.waiting u.endpoint = m :: rest := by
      simp [waiting, held_of_pump hx hu, hidle, outgoing, he, hm]
    have hleft : ((x.modify u.endpoint (·.withOutgoing q)).setPump p
        (some (e.stamp m))).waiting u.endpoint = e.stamp m :: rest := by
      rw [waiting, hheld, outgoing_setPump]
      simp [outgoing, endpoints_modify_self he, ← hq]
    rw [hsaid, hleft]
    exact .cons (e.stems_stamp m) (List.forall₂_refl rest)
  · have hout : ((x.modify u.endpoint (·.withOutgoing q)).setPump p
        (some (e.stamp m))).outgoing k = x.outgoing k := by
      rw [outgoing_setPump]
      simp [outgoing, endpoints_modify_of_ne hk]
    rw [waiting_congr (by simpa [hk] using hheld) hout]
    exact List.forall₂_refl _

/-- What a pump routes is the front of what was waiting. -/
theorem waiting_forward (hx : x.BoundOnce) (hu : x.router.pumps[p]? = some u)
    (hm : u.held = some m) (k : Nat) :
    x.waiting k = (if u.endpoint = k then [m] else []) ++ (x.forward p).1.waiting k := by
  have hout : (x.forward p).1.outgoing k = x.outgoing k :=
    (outgoing_congr (endpoints_forward hu hm) k).trans (outgoing_handAll _ x k)
  have hheld := held_congr (holds_forward hu hm) k
  rw [held_setPump hx hu] at hheld
  by_cases hk : u.endpoint = k
  · subst k
    simp [waiting, held_of_pump hx hu, hm, hheld, hout]
  · rw [if_neg hk, List.nil_append]
    exact (waiting_congr (by simpa [hk] using hheld) hout).symm

end Exchange

namespace Relay

open Exchange
open List (Forall₂ SublistForall₂)

variable {σ : Type} {x y z : Exchange σ} {t : Entry} {log more : List Entry} {s d k : Nat}

theorem forall₂_trans {a b c : List Envelope} (h : Forall₂ Stems a b) (g : Forall₂ Stems b c) :
    Forall₂ Stems a c := by
  induction h generalizing c with
  | nil => exact g
  | cons hab _ ih =>
    cases g with
    | cons hbc g => exact .cons (trans_of Stems hab hbc) (ih g)

theorem produced_append (k : Nat) (log more : List Entry) :
    produced k (log ++ more) = produced k log ++ produced k more := List.filterMap_append

theorem forwarded_append (k : Nat) (log more : List Entry) :
    forwarded k (log ++ more) = forwarded k log ++ forwarded k more := List.filterMap_append

theorem produced_singleton {j : Nat} {m : Envelope} (ht : t.turn = .produce j m) (k : Nat) :
    produced k [t] = if j = k then [m] else [] := by
  by_cases hj : j = k <;> simp [produced, ht, hj]

theorem forwarded_singleton {j : Nat} {source : String} {m : Envelope}
    (ht : t.turn = .forward j source m) (k : Nat) :
    forwarded k [t] = if j = k then [m] else [] := by
  by_cases hj : j = k <;> simp [forwarded, ht, hj]

theorem handedFrom_append (s d : Nat) (log more : List Entry) :
    handedFrom s d (log ++ more) = handedFrom s d log ++ handedFrom s d more :=
  List.flatMap_append

/-- What an endpoint says joins the end of what is waiting, and what its pump routes is the front
of it. -/
theorem Step.waiting (h : Step x t y) (hx : x.BoundOnce) (k : Nat) :
    Forall₂ Stems (forwarded k [t] ++ y.waiting k) (x.waiting k ++ produced k [t]) := by
  have unchanged (hf : forwarded k [t] = []) (hp : produced k [t] = [])
      (hw : y.waiting k = x.waiting k) :
      Forall₂ Stems (forwarded k [t] ++ y.waiting k) (x.waiting k ++ produced k [t]) := by
    rw [hf, hp, hw, List.nil_append, List.append_nil]
    exact List.forall₂_refl _
  cases h with
  | @produce j e m q he hq =>
    rw [waiting_push he hq, produced_singleton rfl]
    exact List.forall₂_refl _
  | consume he hq => exact unchanged rfl rfl (waiting_congr rfl (outgoing_modify fun e => by simp))
  | shut he => exact unchanged rfl rfl (waiting_congr rfl (outgoing_modify fun e => by simp))
  | change j hf => exact unchanged rfl rfl (waiting_congr rfl (outgoing_modify fun e => (hf e).2))
  | fetch hu hidle hy =>
    rw [produced, List.filterMap_cons_none rfl, List.filterMap_nil, List.append_nil]
    exact waiting_fetch hx hu hidle hy k
  | @forward p u m hu hm =>
    rw [waiting_forward hx hu hm k, forwarded_singleton rfl, produced,
      List.filterMap_cons_none rfl, List.filterMap_nil, List.append_nil]
    exact List.forall₂_refl _
  | inject source m =>
    have hout := outgoing_congr (endpoints_route (x := x) m source) k
    rw [outgoing_handAll] at hout
    exact unchanged rfl rfl (waiting_congr (held_congr (holds_route x m source) k) hout)
  | operate op hnew =>
    have hout := outgoing_congr (endpoints_apply op x) k
    rw [outgoing_handAll] at hout
    exact unchanged rfl rfl (waiting_congr (held_apply op x k) hout)

/-- In the course of a run nothing that an endpoint has said is lost before it is routed, and
nothing is routed before what was said earlier. -/
theorem Run.waiting (h : Run x log y) (hx : x.BoundOnce) (k : Nat) :
    Forall₂ Stems (forwarded k log ++ y.waiting k) (x.waiting k ++ produced k log) := by
  induction h with
  | nil x =>
    rw [produced, List.filterMap_nil, List.append_nil]
    exact List.forall₂_refl _
  | @cons x y z t log h hr ih =>
    have hstep : Forall₂ Stems ((forwarded k [t] ++ y.waiting k) ++ produced k log)
        ((x.waiting k ++ produced k [t]) ++ produced k log) :=
      List.rel_append (h.waiting hx k) (List.forall₂_refl _)
    have hrest : Forall₂ Stems (forwarded k [t] ++ (forwarded k log ++ z.waiting k))
        (forwarded k [t] ++ (y.waiting k ++ produced k log)) :=
      List.rel_append (List.forall₂_refl _) (ih (h.boundOnce hx))
    rw [List.append_assoc, List.append_assoc, ← produced_append] at hstep
    rw [← List.append_assoc, ← forwarded_append] at hrest
    exact forall₂_trans hrest hstep

theorem routeHandings_cases (r : Router) (m : Envelope) (source : String) :
    routeHandings r m source = [] ∨
      ∃ d, routeHandings r m source = [⟨d, sourced m source⟩] := by
  unfold routeHandings uplinkHandings
  generalize sourced m source = m
  simp only
  split_ifs
  · exact .inl rfl
  · exact .inl rfl
  · cases r.uplink with
    | none => exact .inl rfl
    | some b => exact .inr ⟨b.endpoint, rfl⟩
  · cases r.resolve? m.route source with
    | none => exact .inl rfl
    | some b => exact .inr ⟨b.2.endpoint, rfl⟩

theorem taken_routeHandings (x : Exchange σ) (m : Envelope) (source : String) :
    x.taken (routeHandings x.router m source) = [] ∨
      ∃ d, x.taken (routeHandings x.router m source) = [⟨d, sourced m source⟩] := by
  rcases routeHandings_cases x.router m source with h | ⟨d, h⟩
  · exact .inl (by simp [h, taken])
  · cases hd : x.listens d with
    | true => exact .inr ⟨d, by simp [h, taken, hd]⟩
    | false => exact .inl (by simp [h, taken, hd])

/-- An endpoint gets what a pump routes once, if at all. -/
theorem Step.handedFrom (h : Step x t y) (s d : Nat) :
    SublistForall₂ Stems (handedFrom s d [t]) (forwarded s [t]) := by
  cases h with
  | @forward p u m hu hm =>
    by_cases hk : u.endpoint = s
    · have hhanded : List.Sublist (((x.taken (routeHandings x.router m u.source)).filter
          (·.endpoint = d)).map Handing.envelope) [sourced m u.source] := by
        rcases taken_routeHandings x m u.source with hr | ⟨j, hr⟩
        · simp [hr]
        · rw [hr]
          exact List.filter_sublist.map Handing.envelope
      have hstems : Forall₂ Stems [sourced m u.source] [m] := .cons (stems_sourced m u.source) .nil
      have hsub : SublistForall₂ Stems _ _ := hhanded.sublistForall₂
      have hsame := List.sublistForall₂_iff.2 ⟨_, hstems, List.Sublist.refl _⟩
      have hall := trans_of (SublistForall₂ Stems) hsub hsame
      simpa [Relay.handedFrom, forwarded, hk] using hall
    · simp [Relay.handedFrom, forwarded, hk, List.SublistForall₂.nil]
  | produce | consume | shut | change | fetch | inject | operate => exact .nil

theorem sublistForall₂_append {a b c d : List Envelope} (h : SublistForall₂ Stems a b)
    (g : SublistForall₂ Stems c d) : SublistForall₂ Stems (a ++ c) (b ++ d) := by
  obtain ⟨l, hl, hsub⟩ := List.sublistForall₂_iff.1 h
  obtain ⟨m, hm, hsub'⟩ := List.sublistForall₂_iff.1 g
  exact List.sublistForall₂_iff.2 ⟨l ++ m, List.rel_append hl hm, hsub.append hsub'⟩

theorem Run.handedFrom_forwarded (h : Run x log y) (s d : Nat) :
    SublistForall₂ Stems (handedFrom s d log) (forwarded s log) := by
  induction h with
  | nil x => exact .nil
  | @cons x y z t log h hr ih =>
    have hall := sublistForall₂_append (h.handedFrom s d) ih
    rw [← handedFrom_append, ← forwarded_append] at hall
    exact hall

/-- What one endpoint is handed of what another says is some of it, in order. -/
theorem Run.handedFrom_said (h : Run x log y) (hx : x.BoundOnce) (s d : Nat) :
    SublistForall₂ Stems (handedFrom s d log) (x.waiting s ++ produced s log) := by
  have hforwarded := h.handedFrom_forwarded s d
  have hprefix : SublistForall₂ Stems (forwarded s log) (forwarded s log ++ y.waiting s) :=
    (List.sublist_append_left _ _).sublistForall₂
  have hsaid := List.sublistForall₂_iff.2 ⟨_, h.waiting hx s, List.Sublist.refl _⟩
  exact trans_of _ hforwarded (trans_of _ hprefix hsaid)

end Relay

end Switchboard
