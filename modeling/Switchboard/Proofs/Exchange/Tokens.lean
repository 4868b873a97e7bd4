import Switchboard.Proofs.Exchange.Removal
import Switchboard.Proofs.Id
import Switchboard.Proofs.Identity

/-! Where the accepted tokens come from, and whom they stand for, after any calls that accept,
admit and revoke. -/
namespace Switchboard

/-- No id can be read as a token. -/
theorem Identity.ne_ofNat_of_ofToken {token : String} {c : Identity}
    (h : Identity.ofToken token = .ok c) (n : Nat) : token ≠ Id.ofNat n := by
  have hdot : '.' ∈ token.toList := by
    obtain ⟨header, b, padding, signature, -, -, rfl, -⟩ := Identity.ofToken_eq_ok h
    simp [Identity.token]
  rintro rfl
  exact Id.dotless n hdot

namespace Exchange

/-- A call that has to do with the accepted tokens. -/
inductive TokenCall where
  | acceptOwn (token : String)
  | authenticate (token : String)
  | revoke (token : String)
  | withdraw (route : String) (token : Option String)

/-- The token that somebody shows to be accepted. -/
def TokenCall.shown : TokenCall → Option String
  | acceptOwn token | authenticate token => some token
  | _ => none

/-- The token that is accepted no longer. -/
def TokenCall.dropped : TokenCall → Option String
  | revoke token => some token
  | withdraw _ token => token
  | _ => none

/-- A call, with what was granted in it. -/
structure Deed where
  call : TokenCall
  grant : Option Grant

/-- The tokens that a call adds to the accepted ones. -/
def Deed.added : Deed → List String
  | ⟨.acceptOwn token, some g⟩ => [token, g.token]
  | ⟨.authenticate _, some g⟩ => [g.token]
  | _ => []

variable {σ : Type} {x y : Exchange σ} {call : TokenCall} {calls : List TokenCall} {d : Deed}
  {log : List Deed} {token minted : String} {c : Identity} {g : Grant}

def perform (x : Exchange σ) : TokenCall → Exchange σ × Option Grant
  | .acceptOwn token => ((x.acceptOwn token).1, (x.acceptOwn token).2.toOption)
  | .authenticate token => ((x.authenticate token).1, (x.authenticate token).2.toOption)
  | .revoke token => (x.mapRouter (·.revoke token), none)
  | .withdraw route token => (x.withdraw route token, none)

/-- The exchange after some calls, with all that was granted in them. -/
def after (x : Exchange σ) (calls : List TokenCall) : Exchange σ × List Deed :=
  calls.foldl (fun s call => ((s.1.perform call).1, s.2 ++ [⟨call, (s.1.perform call).2⟩])) (x, [])

theorem after_concat (x : Exchange σ) (calls : List TokenCall) (call : TokenCall) :
    x.after (calls ++ [call]) = (((x.after calls).1.perform call).1,
      (x.after calls).2 ++ [⟨call, ((x.after calls).1.perform call).2⟩]) := by
  simp [after]

/-- What a call can do to the accepted tokens and to the ids that are left. -/
inductive Does (x : Exchange σ) : Deed → Exchange σ → Prop
  | idle {call : TokenCall} {y : Exchange σ} (hcall : call.dropped = none)
      (hy : y.router.accepted = x.router.accepted) (hm : x.minted ≤ y.minted) :
      Does x ⟨call, none⟩ y
  | own {token : String} {g : Grant} {y : Exchange σ}
      (hc : Identity.ofToken token = .ok g.identity) (hg : g.token = Id.ofNat (x.minted + 1))
      (hy : y.router.accepted =
        (x.router.accepted.insert token g.identity).insert g.token g.identity)
      (hm : y.minted = x.minted + 2) : Does x ⟨.acceptOwn token, some g⟩ y
  | admitted {token : String} {g : Grant} {y : Exchange σ} (hne : token ≠ "")
      (hc : x.router.accepted.get? token = some g.identity)
      (hg : g.token = Id.ofNat (x.minted + 1))
      (hy : y.router.accepted = x.router.accepted.insert g.token g.identity)
      (hm : y.minted = x.minted + 2) : Does x ⟨.authenticate token, some g⟩ y
  | drop {call : TokenCall} {token : String} {y : Exchange σ} (hcall : call.dropped = some token)
      (hy : y.router.accepted = x.router.accepted.erase token) (hm : y.minted = x.minted) :
      Does x ⟨call, none⟩ y

theorem does_acceptOwn (x : Exchange σ) (token : String) :
    Does x ⟨.acceptOwn token, (x.acceptOwn token).2.toOption⟩ (x.acceptOwn token).1 := by
  unfold acceptOwn
  cases hc : Identity.ofToken token with
  | error e => exact .idle rfl rfl (Nat.le_refl _)
  | ok c =>
    simp only [mint]
    cases hroute : c.route (Id.ofNat x.minted) with
    | error e => exact .idle rfl rfl (Nat.le_succ _)
    | ok route => exact .own hc rfl rfl rfl

theorem does_authenticate (x : Exchange σ) (token : String) :
    Does x ⟨.authenticate token, (x.authenticate token).2.toOption⟩ (x.authenticate token).1 := by
  unfold authenticate
  split
  · exact .idle rfl rfl (Nat.le_refl _)
  · rename_i hne
    cases hc : x.router.accepted.get? token with
    | none => exact .idle rfl rfl (Nat.le_refl _)
    | some c => exact .admitted hne hc rfl rfl rfl

theorem withdraw_none_eq (x : Exchange σ) (route : String) :
    x.withdraw route none = (x.mapRouter (·.retract route)).handAll
      (uplinkHandings x.router (unannouncement route)) :=
  sendUplink_mapRouter_fst (·.retract route) rfl

theorem does_withdraw (x : Exchange σ) (route : String) (token : Option String) :
    Does x ⟨.withdraw route token, none⟩ (x.withdraw route token) := by
  cases token with
  | none =>
    rw [withdraw_none_eq]
    refine .idle rfl ?_ ?_ <;> simp [mapRouter, Router.retract]
  | some token =>
    rw [withdraw_eq]
    refine .drop rfl ?_ ?_ <;> simp [mapRouter, Router.retract, Router.revoke]

theorem perform_does (x : Exchange σ) (call : TokenCall) :
    Does x ⟨call, (x.perform call).2⟩ (x.perform call).1 := by
  cases call with
  | acceptOwn token => exact does_acceptOwn x token
  | authenticate token => exact does_authenticate x token
  | revoke token => exact .drop rfl rfl rfl
  | withdraw route token => exact does_withdraw x route token

@[simp] theorem added_refused (call : TokenCall) : Deed.added ⟨call, none⟩ = [] := by
  cases call <;> rfl

/-- A call adds tokens or drops one, and leaves all others as they are. -/
theorem get?_of_does (h : Does x d y) (token : String) :
    y.router.accepted.get? token =
      if token ∈ d.added then d.grant.map (·.identity)
      else if d.call.dropped = some token then none
      else x.router.accepted.get? token := by
  cases h with
  | idle hcall hy => simp [hcall, hy]
  | own hc hg hy =>
    simp only [hy, Registry.get?_insert, Deed.added, TokenCall.dropped]
    split_ifs <;> simp_all
  | admitted hne hc hg hy =>
    simp only [hy, Registry.get?_insert, Deed.added, TokenCall.dropped]
    split_ifs <;> simp_all
  | drop hcall hy => simp [hcall, hy, eq_comm]

/-- A call has added the token, and none has dropped it since. -/
def Standing (log : List Deed) (token : String) : Prop :=
  ∃ earlier d later, log = earlier ++ d :: later ∧ token ∈ d.added ∧
    ∀ e ∈ later, e.call.dropped ≠ some token

theorem standing_concat : Standing (log ++ [d]) token ↔
    token ∈ d.added ∨ Standing log token ∧ d.call.dropped ≠ some token := by
  constructor
  · rintro ⟨earlier, e, later, hlog, hadded, hlater⟩
    rcases List.eq_nil_or_concat' later with rfl | ⟨later, f, rfl⟩
    · obtain ⟨-, he⟩ := List.append_inj' hlog rfl
      obtain rfl : d = e := List.singleton_inj.1 he
      exact .inl hadded
    · rw [← List.cons_append, ← List.append_assoc] at hlog
      obtain ⟨rfl, hf⟩ := List.append_inj' hlog rfl
      obtain rfl : d = f := List.singleton_inj.1 hf
      exact .inr ⟨⟨earlier, e, later, rfl, hadded, fun e he => hlater e (by simp [he])⟩,
        hlater d (by simp)⟩
  · rintro (hadded | ⟨⟨earlier, e, later, rfl, hadded, hlater⟩, hd⟩)
    · exact ⟨log, d, [], rfl, hadded, by simp⟩
    · refine ⟨earlier, e, later ++ [d], by simp, hadded, ?_⟩
      simpa [or_imp, forall_and] using ⟨hlater, hd⟩

/-- Whom a token stands for by how it came about: the claims of a token that the server was
accepted with, handed on to all that are admitted by it or by a token that was made for them. -/
inductive StandsFor (log : List Deed) : String → Identity → Prop
  | shown {token : String} {g : Grant} {c : Identity} (h : ⟨.acceptOwn token, some g⟩ ∈ log)
      (hc : Identity.ofToken token = .ok c) : StandsFor log token c
  | own {token : String} {g : Grant} {c : Identity} (h : ⟨.acceptOwn token, some g⟩ ∈ log)
      (hc : Identity.ofToken token = .ok c) : StandsFor log g.token c
  | admitted {token : String} {g : Grant} {c : Identity} (h : ⟨.authenticate token, some g⟩ ∈ log)
      (hs : StandsFor log token c) : StandsFor log g.token c

theorem StandsFor.concat (h : StandsFor log token c) (d : Deed) :
    StandsFor (log ++ [d]) token c := by
  induction h with
  | shown h hc => exact .shown (List.mem_append_left _ h) hc
  | own h hc => exact .own (List.mem_append_left _ h) hc
  | admitted h hs ih => exact .admitted (List.mem_append_left _ h) ih

/-- A token was made for somebody who had shown another. -/
def Mints (log : List Deed) (token minted : String) : Prop :=
  ∃ d ∈ log, d.call.shown = some token ∧ ∃ g, d.grant = some g ∧ g.token = minted

/-- The second token is an id that was made up later than the first, if that is one at all. -/
def Later (token minted : String) : Prop :=
  ∃ n, minted = Id.ofNat n ∧ ∀ m, token = Id.ofNat m → m < n

theorem Later.trans {t : String} (h : Later token minted) (h' : Later minted t) :
    Later token t := by
  obtain ⟨n, rfl, hn⟩ := h
  obtain ⟨k, rfl, hk⟩ := h'
  exact ⟨k, rfl, fun m hm => (hn m hm).trans (hk n rfl)⟩

theorem Later.ne (h : Later token minted) : token ≠ minted := by
  rintro rfl
  obtain ⟨n, hn, hlt⟩ := h
  exact Nat.lt_irrefl n (hlt n hn)

/-- What the calls so far leave behind. -/
structure Sound (log : List Deed) (x : Exchange σ) : Prop where
  standing : ∀ token, x.router.accepted.get? token ≠ none ↔ Standing log token
  standsFor : ∀ token c, x.router.accepted.get? token = some c → StandsFor log token c
  /-- Ids among the accepted tokens were made up already. -/
  known : ∀ n, x.router.accepted.get? (Id.ofNat n) ≠ none → n < x.minted
  numbered : ∀ d ∈ log, ∀ g, d.grant = some g → ∃ n < x.minted, g.token = Id.ofNat n
  /-- No two calls made the same token. -/
  single : ∀ d ∈ log, ∀ e ∈ log, ∀ g h, d.grant = some g → e.grant = some h →
    g.token = h.token → d = e
  later : ∀ token minted, Mints log token minted → Later token minted

theorem sound_nil (h : x.router.accepted.entries = []) : Sound [] x := by
  have hnone (token : String) : x.router.accepted.get? token = none := by
    rw [Registry.get?, h, Registry.find]
  constructor
  case standing => simp [hnone, Standing]
  case standsFor => simp [hnone]
  case known => simp [hnone]
  case numbered => simp
  case single => simp
  case later => simp [Mints]

theorem Does.minted_le (h : Does x d y) : x.minted ≤ y.minted := by
  cases h <;> omega

theorem Does.token_eq (h : Does x d y) (hg : d.grant = some g) :
    g.token = Id.ofNat (x.minted + 1) ∧ y.minted = x.minted + 2 := by
  cases h with
  | idle | drop => cases hg
  | own hc hnew hy hm | admitted hne hc hnew hy hm =>
    cases hg
    exact ⟨hnew, hm⟩

theorem exists_grant_of_added (h : token ∈ d.added) : ∃ g, d.grant = some g := by
  obtain ⟨call, grant⟩ := d
  cases grant with
  | none => simp at h
  | some g => exact ⟨g, rfl⟩

theorem Sound.standing_step (h : Sound log x) (hd : Does x d y) (token : String) :
    y.router.accepted.get? token ≠ none ↔ Standing (log ++ [d]) token := by
  rw [get?_of_does hd, standing_concat, ← h.standing]
  split_ifs with hadded hdropped
  · obtain ⟨g, hg⟩ := exists_grant_of_added hadded
    simp [hadded, hg]
  · simp [hadded, hdropped]
  · simp [hadded, hdropped]

theorem Sound.standsFor_step (h : Sound log x) (hd : Does x d y)
    (hc : y.router.accepted.get? token = some c) : StandsFor (log ++ [d]) token c := by
  rw [get?_of_does hd] at hc
  split_ifs at hc with hadded hdropped
  · cases hd with
    | idle | drop => simp at hadded
    | own hread =>
      cases hc
      simp only [Deed.added, List.mem_cons, List.not_mem_nil, or_false] at hadded
      rcases hadded with rfl | rfl
      · exact .shown List.mem_concat_self hread
      · exact .own List.mem_concat_self hread
    | admitted hne hshown =>
      cases hc
      obtain rfl := List.mem_singleton.1 hadded
      exact .admitted List.mem_concat_self ((h.standsFor _ _ hshown).concat _)
  · exact (h.standsFor token c hc).concat d

theorem Sound.known_step (h : Sound log x) (hd : Does x d y) {n : Nat}
    (hn : y.router.accepted.get? (Id.ofNat n) ≠ none) : n < y.minted := by
  rw [get?_of_does hd] at hn
  split_ifs at hn with hadded hdropped
  · cases hd with
    | idle | drop => simp at hadded
    | own hread hg hy hm =>
      simp only [Deed.added, List.mem_cons, List.not_mem_nil, or_false] at hadded
      rcases hadded with he | he
      · exact absurd he.symm (Identity.ne_ofNat_of_ofToken hread n)
      · have := Id.ofNat_injective (he.trans hg)
        omega
    | admitted hne hshown hg hy hm =>
      have := Id.ofNat_injective ((List.mem_singleton.1 hadded).trans hg)
      omega
  · exact absurd rfl hn
  · exact (h.known n hn).trans_le hd.minted_le

theorem Sound.later_step (h : Sound log x) (hd : Does x d y)
    (hmints : Mints (log ++ [d]) token minted) : Later token minted := by
  obtain ⟨e, he, hshown, g, hg, rfl⟩ := hmints
  rcases List.mem_append.1 he with he | he
  · exact h.later _ _ ⟨e, he, hshown, g, hg, rfl⟩
  · obtain rfl := List.mem_singleton.1 he
    refine ⟨x.minted + 1, (hd.token_eq hg).1, fun m hm => ?_⟩
    cases hd with
    | idle | drop => cases hg
    | own hread =>
      cases hshown
      exact absurd hm (Identity.ne_ofNat_of_ofToken hread m)
    | admitted hne hc =>
      cases hshown
      have := h.known m (by simp [← hm, hc])
      omega

theorem Sound.step (h : Sound log x) (hd : Does x d y) : Sound (log ++ [d]) y := by
  have hnew (e : Deed) (he : e ∈ log) (g k : Grant) (hg : d.grant = some g)
      (hk : e.grant = some k) : g.token ≠ k.token := by
    obtain ⟨n, hn, htoken⟩ := h.numbered e he k hk
    rw [(hd.token_eq hg).1, htoken]
    intro heq
    have := Id.ofNat_injective heq
    omega
  constructor
  case standing => exact h.standing_step hd
  case standsFor => exact fun token c => h.standsFor_step hd
  case known => exact fun n => h.known_step hd
  case numbered =>
    intro e he g hg
    rcases List.mem_append.1 he with he | he
    · obtain ⟨n, hn, htoken⟩ := h.numbered e he g hg
      exact ⟨n, hn.trans_le hd.minted_le, htoken⟩
    · obtain rfl := List.mem_singleton.1 he
      obtain ⟨htoken, hm⟩ := hd.token_eq hg
      exact ⟨x.minted + 1, by omega, htoken⟩
  case single =>
    intro e he f hf g k hg hk heq
    simp only [List.mem_append, List.mem_singleton] at he hf
    rcases he with he | rfl <;> rcases hf with hf | rfl
    · exact h.single e he f hf g k hg hk heq
    · exact absurd heq.symm (hnew e he k g hk hg)
    · exact absurd heq (hnew f hf g k hg hk)
    · rfl
  case later => exact fun token minted => h.later_step hd

theorem sound_after (h : x.router.accepted.entries = []) (calls : List TokenCall) :
    Sound (x.after calls).2 (x.after calls).1 := by
  induction calls using List.reverseRecOn with
  | nil => exact sound_nil h
  | append_singleton calls call ih =>
    rw [after_concat]
    exact ih.step (perform_does _ call)

/-- A token that was shown with success is no token that was made. -/
theorem Sound.ne_of_shown (h : Sound log x) (hd : d ∈ log) (hg : d.grant = some g)
    (hc : Identity.ofToken token = .ok c) : token ≠ g.token := by
  obtain ⟨n, -, htoken⟩ := h.numbered d hd g hg
  rw [htoken]
  exact Identity.ne_ofNat_of_ofToken hc n

/-- No token stands for two. -/
theorem Sound.standsFor_unique (h : Sound log x) {e : Identity} (hc : StandsFor log token c)
    (he : StandsFor log token e) : c = e := by
  induction hc generalizing e with
  | shown hmem hread =>
    rename_i token g c
    generalize ht : token = t at he
    cases he with
    | shown hmem' hread' =>
      subst ht
      exact Except.ok.inj (hread.symm.trans hread')
    | own hmem' | admitted hmem' => exact absurd ht (h.ne_of_shown hmem' rfl hread)
  | own hmem hread =>
    rename_i token g c
    generalize ht : g.token = t at he
    cases he with
    | shown hmem' hread' => exact absurd ht.symm (h.ne_of_shown hmem rfl hread')
    | own hmem' hread' =>
      obtain ⟨⟩ := h.single _ hmem _ hmem' _ _ rfl rfl ht
      exact Except.ok.inj (hread.symm.trans hread')
    | admitted hmem' => cases h.single _ hmem _ hmem' _ _ rfl rfl ht
  | admitted hmem hs ih =>
    rename_i token g c
    generalize ht : g.token = t at he
    cases he with
    | shown hmem' hread' => exact absurd ht.symm (h.ne_of_shown hmem rfl hread')
    | own hmem' => cases h.single _ hmem _ hmem' _ _ rfl rfl ht
    | admitted hmem' hs' =>
      obtain ⟨⟩ := h.single _ hmem _ hmem' _ _ rfl rfl ht
      exact ih hs'

/-- What is known of the accepted tokens after some calls. -/
structure Provenance (log : List Deed) (x : Exchange σ) : Prop where
  accepted : ∀ token, x.router.accepted.contains token = true ↔ Standing log token
  /-- A token stands for whom the claims name that it goes back to. -/
  identity : ∀ token c, x.router.accepted.get? token = some c ↔
    Standing log token ∧ StandsFor log token c
  failed : ∀ call, call.shown.isSome → (x.perform call).2 = none →
    (x.perform call).1.router.accepted = x.router.accepted
  admits : ∀ token, (∃ y g, x.authenticate token = (y, .ok g)) ↔
    token ≠ "" ∧ x.router.accepted.contains token = true
  inherits : ∀ token y g, x.authenticate token = (y, .ok g) →
    x.router.accepted.get? token = some g.identity
  /-- Tokens that go back to one that is dropped are as good as before. -/
  outlives : ∀ call token minted, call.dropped = some token →
    Relation.TransGen (Mints log) token minted →
    (x.perform call).1.router.accepted.get? minted = x.router.accepted.get? minted

theorem accepted_of_failed (h : Does x ⟨call, none⟩ y) (hshown : call.shown.isSome) :
    y.router.accepted = x.router.accepted := by
  cases h with
  | idle hcall hy => exact hy
  | drop hcall => cases call <;> simp_all [TokenCall.shown, TokenCall.dropped]

theorem grant_of_dropped (x : Exchange σ) (h : call.dropped = some token) :
    (x.perform call).2 = none := by
  cases call <;> simp_all [TokenCall.dropped, perform]

theorem authenticate_ok_iff (x : Exchange σ) (token : String) :
    (∃ y g, x.authenticate token = (y, .ok g)) ↔
      token ≠ "" ∧ x.router.accepted.contains token = true := by
  unfold authenticate Registry.contains
  by_cases hne : token = ""
  · simp [hne]
  · cases hc : x.router.accepted.get? token <;> simp [hne]

theorem Sound.later_of_transGen (h : Sound log x)
    (hmints : Relation.TransGen (Mints log) token minted) : Later token minted := by
  induction hmints with
  | single hm => exact h.later _ _ hm
  | tail hms hm ih => exact ih.trans (h.later _ _ hm)

/-- From a table without tokens, whatever the calls: the accepted tokens are those that were shown
or made with success and not dropped since, each for the identity that it goes back to. -/
theorem provenance_after (h : x.router.accepted.entries = []) (calls : List TokenCall) :
    Provenance (x.after calls).2 (x.after calls).1 := by
  have hsound := sound_after h calls
  generalize (x.after calls).2 = log, (x.after calls).1 = y at hsound
  constructor
  case accepted =>
    intro token
    rw [Registry.contains, ← hsound.standing, Option.isSome_iff_ne_none]
  case identity =>
    intro token c
    refine ⟨fun hc => ⟨(hsound.standing token).1 (by simp [hc]), hsound.standsFor token c hc⟩, ?_⟩
    rintro ⟨hstanding, hstandsFor⟩
    obtain ⟨e, he⟩ := Option.ne_none_iff_exists'.1 ((hsound.standing token).2 hstanding)
    rw [he, hsound.standsFor_unique hstandsFor (hsound.standsFor token e he)]
  case failed =>
    intro call hshown hnone
    have hdoes := perform_does y call
    rw [hnone] at hdoes
    exact accepted_of_failed hdoes hshown
  case admits => exact authenticate_ok_iff y
  case inherits =>
    intro token z g hg
    have hdoes := does_authenticate y token
    rw [hg] at hdoes
    cases hdoes with
    | admitted hne hc => exact hc
  case outlives =>
    intro call token minted hcall hmints
    have hne := (hsound.later_of_transGen hmints).ne
    have hnone := grant_of_dropped y hcall
    rw [get?_of_does (perform_does y call), hnone]
    simp [hcall, hne]

/-- A server is accepted, a client is admitted by its token and another by that client's; then both
the server's token and the first client's are dropped. -/
def visits : List TokenCall :=
  let own := "h.eyJjdHlwZSI6ImNvbm5zZXJ2ZXIiLCJjb25uIjoieCJ9.s"
  [.acceptOwn own, .authenticate own, .authenticate (Id.ofNat 3), .revoke own,
    .withdraw "proc:a" (some (Id.ofNat 3))]

theorem visits_provenance :
    Provenance (after (σ := Unit) {} visits).2 (after (σ := Unit) {} visits).1 ∧
      (after (σ := Unit) {} visits).1.router.accepted.get? (Id.ofNat 3) = none ∧
      (after (σ := Unit) {} visits).1.router.accepted.get? (Id.ofNat 5)
        = some { clientType := some "connserver", connection := some "x" } :=
  ⟨provenance_after rfl visits, by decide +kernel, by decide +kernel⟩

end Exchange

end Switchboard
