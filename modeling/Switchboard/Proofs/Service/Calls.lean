import Switchboard.Proofs.Service.Balance
import Switchboard.Proofs.Service.Play

/-! Calls get their own responses: what first decides a call is what it returns. -/
namespace Switchboard

/-- Whether this is a response to the request of an id. -/
def Envelope.answersTo (id : String) (m : Envelope) : Bool :=
  m.isResponse && decide (m.responseId = some id)

/-- The call has neither returned nor given up. -/
def Call.isOpen (c : Call) : Bool :=
  match c.stage with
  | .entered _ | .waiting _ => true
  | _ => false

namespace Service

variable {σ : Type} {h : Handler σ} {s t : Service σ} {es fs : List Event} {m : Envelope}
  {k : Nat} {id : String} {p : Option Nat} {c : Call} {limit : Duration}

/-- A response to the request decides a call, and the end of its time does. -/
def Event.decides (k : Nat) (id : String) : Event → Bool
  | received m => m.answersTo id
  | expired j => j == k
  | _ => false

/-- What a call returns that something has decided. -/
def Event.result (limit : Duration) : Event → Except Error Envelope
  | received m => resultOf m
  | _ => .error (.timeout limit)

/-- What happened after the `k`-th call was begun. -/
def since (k : Nat) : List Event → List Event
  | [] => []
  | .entered _ :: es =>
    match k with
    | 0 => es
    | k + 1 => since k es
  | _ :: es => since k es

/-- What has decided a call: the first event that does. -/
def decision (k : Nat) (id : String) (es : List Event) : Option Event :=
  (since k es).find? (·.decides k id)

theorem since_append (hk : k < (entered es).length) (fs : List Event) :
    since k (es ++ fs) = since k es ++ fs := by
  induction es generalizing k with
  | nil => cases hk
  | cons e es ih =>
    cases e with
    | entered id =>
      cases k with
      | zero => rfl
      | succ k => exact ih (by simpa [entered] using hk)
    | _ => exact ih hk

theorem since_entered (es : List Event) (id : String) :
    since (entered es).length (es ++ [.entered id]) = [] := by
  induction es with
  | nil => rfl
  | cons e es ih => cases e <;> exact ih

theorem decision_append (hk : k < (entered es).length) (fs : List Event) :
    decision k id (es ++ fs) = (decision k id es).or (fs.find? (·.decides k id)) := by
  rw [decision, since_append hk, List.find?_append]
  rfl

theorem entered_append (es fs : List Event) : entered (es ++ fs) = entered es ++ entered fs :=
  List.filterMap_append

theorem returns_append (k : Nat) (es fs : List Event) :
    returns k (es ++ fs) = returns k es ++ returns k fs := List.filterMap_append

/-- How a call stands whose id has the entry `p`: it is decided by the first event that does, its
entry is there until a response comes or it returns, and it returns what was decided. -/
inductive Stands (limit : Duration) (es : List Event) (k : Nat) (p : Option Nat) (c : Call) : Prop
  | undecided (hc : c.isOpen = true) (hm : c.response = none) (hp : p = some k)
      (hd : decision k c.id es = none) (hr : returns k es = [])
  | answered (hc : c.isOpen = true) (m : Envelope) (hm : c.response = some m) (hp : p = none)
      (hd : decision k c.id es = some (.received m)) (hr : returns k es = [])
  | expired (hc : c.stage = .expired) (hp : p = none ∨ p = some k)
      (hd : decision k c.id es = some (.expired k)) (hr : returns k es = [])
  | returned (hc : c.stage = .returned) (hp : p = none) (e : Event)
      (hd : decision k c.id es = some e) (hr : returns k es = [e.result limit])

structure Kept (limit : Duration) (es : List Event) (t : Service σ) : Prop where
  timeout : t.requestTimeout = limit
  ids : t.calls.map (·.id) = entered es
  pending : ∀ id k, t.pending.get? id = some k → (entered es)[k]? = some id
  stands : ∀ k c, t.calls[k]? = some c → Stands limit es k (t.pending.get? c.id) c
  others : ∀ k, t.calls.length ≤ k → returns k es = []

/-- What decides no call, and neither begins nor ends one. -/
def Event.isQuiet : Event → Bool
  | received m => !m.isResponse
  | entered _ | expired _ | returned _ _ => false
  | _ => true

theorem Event.decides_of_isQuiet {e : Event} (he : e.isQuiet = true) (k : Nat) (id : String) :
    e.decides k id = false := by
  cases e with
  | received m =>
    have : m.isResponse = false := by simpa [isQuiet] using he
    simp [decides, Envelope.answersTo, this]
  | expired j => cases he
  | _ => rfl

theorem quiet (hq : ∀ e ∈ fs, e.isQuiet = true) :
    entered fs = [] ∧ ∀ k, returns k fs = [] ∧ ∀ id, fs.find? (·.decides k id) = none := by
  refine ⟨List.filterMap_eq_nil_iff.2 fun e he => ?_, fun k => ⟨List.filterMap_eq_nil_iff.2
    fun e he => ?_, fun id => List.find?_eq_none.2 fun e he => ?_⟩⟩
  · have := hq e he
    cases e <;> first | rfl | cases this
  · have := hq e he
    cases e <;> first | rfl | cases this
  · simp [Event.decides_of_isQuiet (hq e he) k id]

theorem exists_dispatch_eq (hm : ¬ m.isResponse = true) (s : Service σ) :
    ∃ output loop jobs, s.dispatch m = { s with output, loop, jobs } := by
  rcases s.dispatch_cases m with ⟨hr, -⟩ | ⟨route, -, hd⟩ | ⟨-, hd⟩ | ⟨-, hd⟩ | ⟨e, -, hd⟩
  · exact absurd hr hm
  · exact ⟨_, _, _, hd⟩
  · exact ⟨_, _, _, hd⟩
  · exact ⟨_, _, _, hd⟩
  · split at hd
    · obtain ⟨q, he⟩ := s.exists_emit_eq { m.failure e.text with source := some s.route }
      exact ⟨q, _, _, hd.trans he⟩
    · exact ⟨_, _, _, hd⟩

theorem Stands.mono (hst : Stands limit es k p c) (hk : k < (entered es).length)
    (hr : returns k fs = []) (hd : p = some k → fs.find? (·.decides k c.id) = none) :
    Stands limit (es ++ fs) k p c := by
  have hkeep {e : Event} (he : decision k c.id es = some e) :
      decision k c.id (es ++ fs) = some e := by
    rw [decision_append hk, he]
    rfl
  have hret {rs : List (Except Error Envelope)} (he : returns k es = rs) :
      returns k (es ++ fs) = rs := by
    rw [returns_append, hr, he, List.append_nil]
  cases hst with
  | undecided hc hm hp hn hr' =>
    refine .undecided hc hm hp ?_ (hret hr')
    rw [decision_append hk, hn, hd hp]
    rfl
  | answered hc m hm hp hn hr' => exact .answered hc m hm hp (hkeep hn) (hret hr')
  | expired hc hp hn hr' => exact .expired hc hp (hkeep hn) (hret hr')
  | returned hc hp e hn hr' => exact .returned hc hp e (hkeep hn) (hret hr')

namespace Kept

theorem lt (hk : Kept limit es s) (hc : s.calls[k]? = some c) : k < (entered es).length := by
  rw [← hk.ids, List.length_map]
  exact (List.getElem?_eq_some_iff.1 hc).1

theorem entered_get (hk : Kept limit es s) (hc : s.calls[k]? = some c) :
    (entered es)[k]? = some c.id := by
  rw [← hk.ids, List.getElem?_map, hc]
  rfl

theorem exists_call (hk : Kept limit es s) (he : (entered es)[k]? = some id) :
    ∃ c, s.calls[k]? = some c ∧ c.id = id := by
  rw [← hk.ids, List.getElem?_map] at he
  simpa using he

theorem index_eq (hk : Kept limit es s) (hd : (entered es).Nodup) (hc : s.calls[k]? = some c)
    {j : Nat} {d : Call} (hj : s.calls[j]? = some d) (hid : d.id = c.id) : j = k := by
  refine (List.getElem?_inj (hk.lt hj) hd).1 ?_
  rw [hk.entered_get hj, hk.entered_get hc, hid]

/-- What leaves calls and entries alone, and decides no call that has an entry. -/
theorem unmoved (hk : Kept limit es s) (hc : t.calls = s.calls) (hp : t.pending = s.pending)
    (ht : t.requestTimeout = s.requestTimeout) (he : entered fs = [])
    (hr : ∀ k, returns k fs = [])
    (hd : ∀ k id, s.pending.get? id = some k → fs.find? (·.decides k id) = none) :
    Kept limit (es ++ fs) t := by
  refine ⟨ht.trans hk.timeout, ?_, ?_, ?_, ?_⟩
  · rw [entered_append, he, List.append_nil, hc, hk.ids]
  · rw [entered_append, he, List.append_nil, hp]
    exact hk.pending
  · rw [hc, hp]
    intro k c hkc
    exact (hk.stands k c hkc).mono (hk.lt hkc) (hr k) (hd k c.id)
  · rw [hc]
    intro k hl
    rw [returns_append, hk.others k hl, hr, List.append_nil]

theorem aside (hk : Kept limit es s) (hc : t.calls = s.calls) (hp : t.pending = s.pending)
    (ht : t.requestTimeout = s.requestTimeout) (hq : ∀ e ∈ fs, e.isQuiet = true) :
    Kept limit (es ++ fs) t := by
  obtain ⟨he, hq⟩ := quiet hq
  exact hk.unmoved hc hp ht he (fun k => (hq k).1) fun k id _ => (hq k).2 id

/-- What changes one call, and leaves alone what other ids have for entries. -/
theorem change (hk : Kept limit es s) (hd : (entered es).Nodup) (hc : s.calls[k]? = some c)
    {f : Call → Call} (hid : (f c).id = c.id) (hcalls : t.calls = s.calls.modify k f)
    (htime : t.requestTimeout = s.requestTimeout)
    (hpend : ∀ id, id ≠ c.id → t.pending.get? id = s.pending.get? id)
    (hown : t.pending.get? c.id = s.pending.get? c.id ∨ t.pending.get? c.id = none)
    (he : entered fs = [])
    (hfs : ∀ j, j ≠ k → returns j fs = [] ∧ ∀ id, id ≠ c.id → fs.find? (·.decides j id) = none)
    (hnew : Stands limit (es ++ fs) k (t.pending.get? c.id) (f c)) : Kept limit (es ++ fs) t := by
  have hget (j : Nat) : t.calls[j]? = if k = j then some (f c) else s.calls[j]? := by
    rw [hcalls, List.getElem?_modify]
    by_cases hj : k = j
    · subst hj
      simp [hc]
    · simp [hj]
  refine ⟨htime.trans hk.timeout, ?_, ?_, ?_, ?_⟩
  · rw [entered_append, he, List.append_nil, ← hk.ids]
    refine List.ext_getElem? fun j => ?_
    rw [List.getElem?_map, List.getElem?_map, hget]
    split
    · subst j
      simp [hc, hid]
    · rfl
  · rw [entered_append, he, List.append_nil]
    intro id j hj
    by_cases hi : id = c.id
    · subst hi
      rcases hown with ho | ho
      · exact hk.pending _ _ (ho ▸ hj)
      · rw [ho] at hj
        cases hj
    · exact hk.pending _ _ (hpend id hi ▸ hj)
  · intro j d hj
    rw [hget] at hj
    split at hj
    · subst j
      cases hj
      rwa [hid]
    · have hne : d.id ≠ c.id := fun h => ‹¬ k = j› (hk.index_eq hd hc hj h).symm
      obtain ⟨hr, hno⟩ := hfs j (Ne.symm ‹_›)
      rw [hpend d.id hne]
      exact (hk.stands j d hj).mono (hk.lt hj) hr fun _ => hno d.id hne
  · intro j hl
    rw [hcalls, List.length_modify] at hl
    have hj : j ≠ k := by
      have := (List.getElem?_eq_some_iff.1 hc).1
      omega
    rw [returns_append, hk.others j hl, (hfs j hj).1, List.append_nil]

theorem post {now : Duration} (hk : Kept limit es s) (hd : (entered es).Nodup)
    (ht : s.post? now k = some t) : Kept limit (es ++ s.postings k) t := by
  obtain ⟨id, response, m, hc, rfl⟩ := post_cases ht
  have hev : s.postings k = [.said m] := by simp [postings, hc]
  obtain ⟨q, hq⟩ := (s.setCall k (.waiting ⟨now.nanos + s.requestTimeout.nanos⟩)).exists_emit_eq m
  rw [hev, hq]
  refine hk.change hd hc (f := fun c => { c with stage := .waiting _ }) rfl rfl rfl (fun _ _ => rfl)
    (.inl rfl) rfl (fun _ _ => ⟨rfl, fun _ _ => rfl⟩) ?_
  have hst : Stands limit (es ++ [.said m]) k (s.pending.get? id) ⟨id, .entered m, response⟩ :=
    (hk.stands k _ hc).mono (hk.lt hc) rfl fun _ => rfl
  cases hst with
  | undecided _ hm hp hn hr => exact .undecided rfl hm hp hn hr
  | answered _ m hm hp hn hr => exact .answered rfl m hm hp hn hr
  | expired hs => cases hs
  | returned hs => cases hs

theorem expire {now : Duration} (hk : Kept limit es s) (hd : (entered es).Nodup)
    (ht : s.expire? now k = some t) : Kept limit (es ++ [.expired k]) t := by
  obtain ⟨id, deadline, hc, -, rfl⟩ := expire_cases ht
  refine hk.change hd hc (f := fun c => { c with stage := .expired }) rfl rfl rfl (fun _ _ => rfl)
    (.inl rfl) rfl (fun j hj => ⟨rfl, fun _ _ => ?_⟩) ?_
  · simp [Event.decides, Ne.symm hj]
  cases hk.stands k _ hc with
  | undecided _ hm hp hn hr =>
    refine .expired rfl (.inr hp) ?_ ?_
    · rw [decision_append (hk.lt hc), hn]
      simp [Event.decides]
    · rw [returns_append, hr]
      rfl
  | answered _ m hm => cases hm
  | expired hs => cases hs
  | returned hs => cases hs

theorem «return» {result : Except Error Envelope} (hk : Kept limit es s) (hd : (entered es).Nodup)
    (ht : s.return? k = some (result, t)) : Kept limit (es ++ [.returned k result]) t := by
  have hother (j : Nat) (hj : j ≠ k) : returns j [.returned k result] = [] ∧
      ∀ id, [Event.returned k result].find? (·.decides j id) = none := by
    simp [returns, Ne.symm hj, Event.decides]
  rcases return_cases ht with ⟨id, deadline, m, hc, rfl, rfl⟩ | ⟨id, response, hc, rfl, rfl⟩
  · refine hk.change hd hc (f := fun c => { c with stage := .returned }) rfl rfl rfl
      (fun _ _ => rfl) (.inl rfl) rfl
      (fun j hj => ⟨(hother j hj).1, fun id _ => (hother j hj).2 id⟩) ?_
    cases hk.stands k _ hc with
    | undecided _ hm => cases hm
    | answered _ m' hm hp hn hr =>
      cases hm
      refine .returned rfl hp (.received m) ?_ ?_
      · rw [decision_append (hk.lt hc), hn]
        rfl
      · rw [returns_append, hr]
        simp [returns, Event.result]
    | expired hs => cases hs
    | returned hs => cases hs
  · refine hk.change hd hc (f := fun c => { c with stage := .returned }) rfl rfl rfl
      (fun l hl => ?_) (.inr ?_) rfl
      (fun j hj => ⟨(hother j hj).1, fun id _ => (hother j hj).2 id⟩) ?_
    · exact (s.pending.get?_erase id l).trans (if_neg hl)
    · exact (s.pending.get?_erase id id).trans (if_pos rfl)
    cases hk.stands k _ hc with
    | undecided hs => cases hs
    | answered hs => cases hs
    | expired _ hp hn hr =>
      refine .returned rfl ?_ (.expired k) ?_ ?_
      · exact (s.pending.get?_erase id id).trans (if_pos rfl)
      · rw [decision_append (hk.lt hc), hn]
        rfl
      · rw [returns_append, hr]
        simp [returns, Event.result, hk.timeout]
    | returned hs => cases hs

theorem complete (hk : Kept limit es s) (hd : (entered es).Nodup) (hm : m.isResponse = true) :
    Kept limit (es ++ [.received m]) (s.complete m) := by
  obtain ⟨id, hid⟩ : ∃ id, m.responseId = some id := by
    unfold Envelope.isResponse at hm
    simpa [Option.isSome_iff_exists] using (Bool.and_eq_true_iff.1 hm).2
  have hne {j : Nat} {l : String} (hl : l ≠ id) :
      [Event.received m].find? (·.decides j l) = none := by
    simp [Event.decides, Envelope.answersTo, hid, Ne.symm hl]
  unfold Service.complete
  simp only [hid]
  cases hp : s.pending.get? id with
  | none =>
    refine hk.unmoved rfl rfl rfl rfl (fun _ => rfl) fun k l hl => hne ?_
    rintro rfl
    rw [hp] at hl
    cases hl
  | some k =>
    obtain ⟨c, hc, rfl⟩ := hk.exists_call (hk.pending id k hp)
    refine hk.change hd hc (f := fun c => { c with response := some m }) rfl rfl rfl
      (fun l hl => ?_) (.inr ?_) rfl (fun j hj => ⟨rfl, fun l hl => hne hl⟩) ?_
    · simp [hl]
    · simp
    have hnone : ((s.pending.erase c.id).get? c.id) = none := by simp
    rw [hnone]
    cases hk.stands k _ hc with
    | undecided hs _ _ hn hr =>
      refine .answered hs m rfl rfl ?_ ?_
      · rw [decision_append (hk.lt hc), hn]
        simp [Event.decides, Envelope.answersTo, hm, hid]
      · rw [returns_append, hr]
        rfl
    | answered _ _ _ hp' => rw [hp] at hp'; cases hp'
    | expired hs _ hn hr =>
      refine .expired hs (.inl rfl) ?_ ?_
      · rw [decision_append (hk.lt hc), hn]
        rfl
      · rw [returns_append, hr]
        rfl
    | returned _ hp' => rw [hp] at hp'; cases hp'

theorem enter (hk : Kept limit es s) (hd : (entered (es ++ [.entered id])).Nodup) (c : Command)
    (route : Option String) : Kept limit (es ++ [.entered id]) (s.enter id c route) := by
  have hent : entered (es ++ [.entered id]) = entered es ++ [id] := by simp [entered]
  have hlen : s.calls.length = (entered es).length := by rw [← hk.ids, List.length_map]
  have hnew : ∀ l ∈ entered es, l ≠ id := by
    rw [hent] at hd
    simpa using fun l hl => (List.nodup_append.1 hd).2.2 l hl id
  have hret (k : Nat) : returns k (es ++ [.entered id]) = returns k es := by simp [returns]
  refine ⟨hk.timeout, ?_, fun l k hl => ?_, fun k d hd => ?_, fun k hl => ?_⟩
  · rw [hent, ← hk.ids]
    simp [Service.enter]
  · rw [hent]
    replace hl := (s.pending.get?_insert id l s.calls.length).symm.trans hl
    split at hl
    · subst l
      cases hl
      simp [hlen]
    · have := hk.pending l k hl
      rwa [List.getElem?_append_left (List.getElem?_eq_some_iff.1 this).1]
  · show Stands limit _ k ((s.pending.insert id s.calls.length).get? d.id) d
    rw [Registry.get?_insert]
    rcases Nat.lt_or_ge k s.calls.length with hlt | hge
    · have hd : s.calls[k]? = some d := (List.getElem?_append_left hlt).symm.trans hd
      rw [if_neg (hnew _ (List.mem_of_getElem? (hk.entered_get hd)))]
      exact (hk.stands k d hd).mono (hk.lt hd) rfl fun _ => rfl
    · obtain ⟨hk', rfl⟩ : k = s.calls.length ∧ _ = d := by
        have : (s.calls ++ [_])[k]? = some d := hd
        rw [List.getElem?_append_right hge, List.getElem?_singleton] at this
        split at this
        · exact ⟨by omega, Option.some.inj this⟩
        · cases this
      rw [if_pos rfl, hk']
      refine .undecided rfl rfl rfl ?_ ((hret _).trans (hk.others _ (Nat.le_refl _)))
      rw [decision, hlen, since_entered]
      rfl
  · have : s.calls.length < k := by simpa [Service.enter] using hl
    rw [hret, hk.others k this.le]

/-- Only responses that are taken in mean anything to calls. -/
theorem receive (hk : Kept limit es s) (hd : (entered es).Nodup) (ht : s.receive? = some t) :
    Kept limit (es ++ s.receptions) t := by
  rcases receive_cases ht with ⟨m, rest, hl, hi, rfl⟩ | ⟨hl, hi, -, rfl⟩ | ⟨hl, rfl⟩
  · have hev : s.receptions = [.received m] := by simp [receptions, hl, hi]
    have hk' : Kept limit es { s with input := { s.input with items := rest } } :=
      ⟨hk.timeout, hk.ids, hk.pending, hk.stands, hk.others⟩
    rw [hev]
    by_cases hm : m.isResponse = true
    · rw [dispatch, if_pos hm]
      exact hk'.complete hd hm
    · obtain ⟨output, loop, jobs, hdis⟩ := exists_dispatch_eq hm
        { s with input := { s.input with items := rest } }
      rw [hdis]
      exact hk'.aside rfl rfl rfl (by simpa [Event.isQuiet] using hm)
  · have hev : s.receptions = [] := by simp [receptions, hl, hi]
    exact hk.aside rfl rfl rfl (by simp [hev])
  · have hev : s.receptions = [] := by simp [receptions, hl]
    exact hk.aside rfl rfl rfl (by simp [hev])

theorem progress (hk : Kept limit es s) (hd : (entered es).Nodup) (hp : Progress h s fs t) :
    Kept limit (es ++ fs) t := by
  cases hp with
  | receive ht => exact hk.receive hd ht
  | dispose ht =>
    obtain ⟨route, -, rfl⟩ := dispose_cases ht
    exact hk.aside rfl rfl rfl (by simp)
  | begin k ht =>
    obtain ⟨m, -, rfl⟩ := begin_cases ht
    exact hk.aside rfl rfl rfl (by simp)
  | work now k ht =>
    have hq : ∀ e ∈ s.handlings h now k, e.isQuiet = true := by
      unfold handlings
      split <;> simp [Event.isQuiet]
    rcases work_cases ht with ⟨m, stage, -, -, rfl⟩ | ⟨m, due, outcome, -, rfl⟩ <;>
      exact hk.aside rfl rfl rfl hq
  | answer k ht =>
    have hq : ∀ e ∈ s.settlements k, e.isQuiet = true := by
      unfold settlements
      split <;> simp [Event.isQuiet]
    obtain ⟨m, outcome, -, rfl⟩ := answer_cases ht
    split
    · obtain ⟨q, he⟩ := (s.setStage k .finished).exists_emit_eq
        { responseTo m outcome with source := some s.route }
      rw [respondWith]
      exact he ▸ hk.aside rfl rfl rfl hq
    · exact hk.aside rfl rfl rfl hq

theorem step (hk : Kept limit es s) (hst : Step h s fs t) (hd : (entered (es ++ fs)).Nodup) :
    Kept limit (es ++ fs) t := by
  have hd' : (entered es).Nodup := by
    rw [entered_append] at hd
    exact (List.nodup_append.1 hd).1
  cases hst with
  | start ht =>
    obtain ⟨-, rfl⟩ := start_cases ht
    exact hk.aside rfl rfl rfl (by simp)
  | deliver m ht =>
    obtain ⟨-, rfl⟩ := send_cases ht
    exact hk.aside rfl rfl rfl (by simp [Event.isQuiet])
  | progress hp => exact hk.progress hd' hp
  | say c route =>
    obtain ⟨q, he⟩ := s.exists_emit_eq (s.outgoing c route)
    rw [sendCommand, he]
    exact hk.aside rfl rfl rfl (by simp [Event.isQuiet])
  | enter id c route => exact hk.enter hd c route
  | post now k ht => exact hk.post hd' ht
  | expire now k ht => exact hk.expire hd' ht
  | «return» k ht => exact hk.return hd' ht
  | take hq => exact hk.aside rfl rfl rfl (by simp [Event.isQuiet])
  | alter state token => exact hk.aside rfl rfl rfl (by simp)

theorem run (hk : Kept limit [] s) (hr : Run h s es t) (hd : (entered es).Nodup) :
    Kept limit es t := by
  induction hr with
  | refl => exact hk
  | tail hr hst ih =>
    refine (ih ?_).step hst hd
    rw [entered_append] at hd
    exact (List.nodup_append.1 hd).1

end Kept

theorem since_eq (before after : List Event) (id : String) :
    since (entered before).length (before ++ .entered id :: after) = after := by
  rw [List.append_cons, since_append (by simp [entered]), since_entered]
  rfl

theorem setCall_get (hc : s.calls[k]? = some c) (stage : Call.Stage) :
    (s.setCall k stage).calls[k]? = some { c with stage } := by
  simp [setCall, hc]

/-- What a call needs of others in order to return: nothing. -/
theorem exists_return_of_waiting {deadline : Duration} {response : Option Envelope}
    (hc : s.calls[k]? = some ⟨id, .waiting deadline, response⟩) :
    ∃ fs t, Run h s fs t ∧ delivered fs = [] ∧ entered fs = [] ∧ returns k fs ≠ [] := by
  cases response with
  | some m =>
    refine ⟨_, _, .tail .refl (.return k (by rw [return?, hc])), rfl, rfl, ?_⟩
    simp [returns]
  | none =>
    have hx : s.expire? deadline k = some (s.setCall k .expired) := by
      rw [expire?, hc]
      exact if_pos (Nat.le_refl _)
    have hc' := setCall_get hc .expired
    refine ⟨_, _, .tail (.tail .refl (.expire deadline k hx)) (.return k (by rw [return?, hc'])),
      rfl, rfl, ?_⟩
    simp [returns]

theorem exists_return (hc : s.calls[k]? = some c) (hr : c.stage ≠ .returned) :
    ∃ fs t, Run h s fs t ∧ delivered fs = [] ∧ entered fs = [] ∧ returns k fs ≠ [] := by
  obtain ⟨id, stage, response⟩ := c
  cases stage with
  | entered m =>
    have hp : s.post? ⟨0⟩ k
        = some ((s.setCall k (.waiting ⟨0 + s.requestTimeout.nanos⟩)).emit m) := by
      rw [post?, hc]
    obtain ⟨q, hq⟩ := (s.setCall k (.waiting ⟨0 + s.requestTimeout.nanos⟩)).exists_emit_eq m
    have hev : s.postings k = [.said m] := by simp [postings, hc]
    have hc' := setCall_get hc (.waiting ⟨0 + s.requestTimeout.nanos⟩)
    rw [hq] at hp
    obtain ⟨fs, t, hrun, hd, he, hret⟩ := exists_return_of_waiting (h := h)
      (s := { s.setCall k (.waiting ⟨0 + s.requestTimeout.nanos⟩) with output := q }) hc'
    refine ⟨_, t, Run.append (.tail .refl (.post ⟨0⟩ k hp)) hrun, ?_⟩
    rw [hev]
    exact ⟨hd, he, hret⟩
  | waiting deadline => exact exists_return_of_waiting hc
  | expired =>
    refine ⟨_, _, .tail .refl (.return k (by rw [return?, hc])), rfl, rfl, ?_⟩
    simp [returns]
  | returned => exact absurd rfl hr

/-- What the calls return that were made in the course of a run, and what is kept for them. -/
structure Matched (h : Handler σ) (s : Service σ) (es : List Event) (t : Service σ) : Prop where
  own : ∀ before id after, es = before ++ .entered id :: after →
    returns (entered before).length es = [] ∨
      ∃ e, after.find? (·.decides (entered before).length id) = some e ∧
        returns (entered before).length es = [e.result s.requestTimeout]
  first : ∀ before id after m, es = before ++ .entered id :: after →
    after.find? (·.decides (entered before).length id) = some (.received m) →
    (∀ n ∈ received before, n.answersTo id = false) →
      (delivered es).find? (·.answersTo id) = some m
  others : ∀ k, (entered es).length ≤ k → returns k es = []
  entry : ∀ id k, t.pending.get? id = some k → (entered es)[k]? = some id ∧ returns k es = []
  empty : (∀ k < (entered es).length, returns k es ≠ []) → t.pending.entries = []
  ends : ∀ k < (entered es).length, returns k es = [] →
    ∃ fs u, Run h t fs u ∧ delivered fs = [] ∧ entered fs = [] ∧ returns k fs ≠ []

/-- The first event that decides a call is the first response to it, unless it is the end of its
time. -/
theorem find_received (hf : es.find? (·.decides k id) = some (.received m)) :
    (received es).find? (·.answersTo id) = some m := by
  obtain ⟨hm, before, after, rfl, hb⟩ := List.find?_eq_some_iff_append.1 hf
  have hnone : (received before).find? (·.answersTo id) = none := by
    refine List.find?_eq_none.2 fun n hn => ?_
    obtain ⟨e, he, hen⟩ := List.mem_filterMap.1 hn
    cases e <;> cases hen
    simpa [Event.decides] using hb _ he
  have hm : m.answersTo id = true := hm
  rw [received_append, List.find?_append, hnone]
  simp [received, hm]

namespace Kept

theorem blank (hc : s.calls = []) (hp : s.pending.entries = []) :
    Kept s.requestTimeout [] s := by
  refine ⟨rfl, by rw [hc]; rfl, fun id k hk => ?_, fun k c hk => ?_, fun _ _ => rfl⟩
  · simp [Registry.get?, hp, Registry.find] at hk
  · simp [hc] at hk

/-- A call that has an entry has not returned. -/
theorem entry (hk : Kept limit es t) (hg : t.pending.get? id = some k) :
    (entered es)[k]? = some id ∧ returns k es = [] := by
  have he := hk.pending id k hg
  obtain ⟨c, hc, rfl⟩ := hk.exists_call he
  refine ⟨he, ?_⟩
  cases hk.stands k c hc with
  | undecided _ _ _ _ hr => exact hr
  | answered _ _ _ _ _ hr => exact hr
  | expired _ _ _ hr => exact hr
  | returned _ hp => simp [hg] at hp

/-- A call has not returned, or it has returned what came of the event that decided it. -/
theorem own {before after : List Event} (hk : Kept limit (before ++ .entered id :: after) t) :
    returns (entered before).length (before ++ .entered id :: after) = [] ∨
      ∃ e, after.find? (·.decides (entered before).length id) = some e ∧
        returns (entered before).length (before ++ .entered id :: after) = [e.result limit] := by
  have hid : (entered (before ++ .entered id :: after))[(entered before).length]? = some id := by
    simp [entered]
  obtain ⟨c, hc, rfl⟩ := hk.exists_call hid
  have hdec := congrArg (List.find? (·.decides (entered before).length c.id))
    (since_eq before after c.id)
  cases hk.stands _ c hc with
  | undecided _ _ _ _ hr => exact .inl hr
  | answered _ _ _ _ _ hr => exact .inl hr
  | expired _ _ _ hr => exact .inl hr
  | returned _ _ e hde hr => exact .inr ⟨e, hdec ▸ hde, hr⟩

/-- There is no entry left when all calls have returned. -/
theorem empty (hk : Kept limit es t) (hall : ∀ k < (entered es).length, returns k es ≠ []) :
    t.pending.entries = [] := by
  cases he : t.pending.entries with
  | nil => rfl
  | cons e rest =>
    have hg : t.pending.get? e.1 = some e.2 := by simp [Registry.get?, he, Registry.find]
    obtain ⟨hke, hre⟩ := hk.entry hg
    exact absurd hre (hall _ (List.getElem?_eq_some_iff.1 hke).1)

/-- A call that has not returned can still do so. -/
theorem ends (hk : Kept limit es t) (hlt : k < (entered es).length) (hret : returns k es = []) :
    ∃ fs u, Run h t fs u ∧ delivered fs = [] ∧ entered fs = [] ∧ returns k fs ≠ [] := by
  obtain ⟨c, hc, -⟩ := hk.exists_call (List.getElem?_eq_getElem hlt)
  refine exists_return hc fun hst => ?_
  cases hk.stands k c hc with
  | undecided hop | answered hop => simp [Call.isOpen, hst] at hop
  | expired hs => simp [hst] at hs
  | returned _ _ _ _ hr => simp [hret] at hr

end Kept

/-- A response that decides a call is the first one that was delivered for it. -/
theorem delivered_first {before after : List Event} (hs : s.Sound) (hi : s.input.items = [])
    (hr : Run h s (before ++ .entered id :: after) t)
    (hf : after.find? (·.decides k id) = some (.received m))
    (hno : ∀ n ∈ received before, n.answersTo id = false) :
    (delivered (before ++ .entered id :: after)).find? (·.answersTo id) = some m := by
  have hin := (hr.balanced hs).2.input
  rw [hi, List.nil_append, received_append] at hin
  have hnone : (received before).find? (·.answersTo id) = none :=
    List.find?_eq_none.2 fun n hn => by simp [hno n hn]
  have hfirst : (received (.entered id :: after)).find? (·.answersTo id) = some m :=
    find_received hf
  rw [hin, List.append_assoc, List.find?_append, List.find?_append, hnone, hfirst]
  rfl

/-- Each call returns once: the first response to its own request that the service takes in, unless
its time ends before. No entry outlives its call. -/
theorem calls_matched (hs : s.Sound) (hi : s.input.items = []) (hc : s.calls = [])
    (hp : s.pending.entries = []) (hr : Run h s es t) (hd : (entered es).Nodup) :
    Matched h s es t := by
  have hk := (Kept.blank hc hp).run hr hd
  have hlen : t.calls.length = (entered es).length := by rw [← hk.ids, List.length_map]
  refine ⟨?_, ?_, fun k hl => hk.others k (hlen ▸ hl), fun id k => hk.entry, hk.empty,
    fun k hlt hret => hk.ends hlt hret⟩
  · rintro before id after rfl
    exact hk.own
  · rintro before id after m rfl hf hno
    exact delivered_first hs hi hr hf hno

/-- A handler without commands. -/
def idler : Handler Unit where
  handle _ _ _ _ := ((), { outcome := .returned none })
  dispose _ _ := ()

def caller : Service Unit := { route := "caller", loop := .running, state := () }

/-- Two calls; the second has its response first, with an error and then once more. The first
one's response comes when its time is over, after a command that names it and an answer to
nobody. -/
def crossing? : Option (List Event × Service Unit) :=
  caller.acts? idler [
    .enter "x" (.other "ping" none) none, .enter "y" (.other "ping" none) none,
    .post ⟨0⟩ 1, .deliver { responseId := some "y", error := some "no" }, .post ⟨0⟩ 0,
    .deliver { responseId := some "y" }, .deliver { responseId := some "z" },
    .deliver { command := some "ping", responseId := some "x" }, .receive, .return 1, .receive,
    .receive, .receive, .expire (.ofSeconds 5) 0, .deliver { responseId := some "x" }, .receive,
    .return 0]

theorem crossing?_isSome : crossing?.isSome := by decide +kernel

def crossing : List Event × Service Unit := crossing?.get crossing?_isSome

/-- What a caller is told that has no response. -/
def told : Except Error Envelope → String
  | .error e => e.text
  | .ok _ => ""

theorem crossing_matched : caller.Sound ∧ caller.input.items = [] ∧ caller.calls = [] ∧
    caller.pending.entries = [] ∧ Run idler caller crossing.1 crossing.2 ∧
    entered crossing.1 = ["x", "y"] ∧
    [0, 1].map (fun k => (returns k crossing.1).map told) = [["Timeout after 5s"],
      ["Handler error: no"]] ∧
    Matched idler caller crossing.1 crossing.2 := by
  have hs : caller.Sound := ⟨by simp [caller], rfl, rfl⟩
  have hr : Run idler caller crossing.1 crossing.2 :=
    run_of_acts? (Option.some_get crossing?_isSome).symm
  have he : entered crossing.1 = ["x", "y"] := by decide +kernel
  refine ⟨hs, rfl, rfl, rfl, hr, he, by decide +kernel, ?_⟩
  exact calls_matched hs rfl rfl rfl hr (by rw [he]; decide)

end Service

end Switchboard
