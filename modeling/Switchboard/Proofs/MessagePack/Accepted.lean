import Mathlib
import Switchboard.MessagePack.Reader
import Switchboard.Proofs.Bytes
import Switchboard.Proofs.Record

/-! What the reader gives back fits the room there was. -/
namespace Switchboard.MessagePack

variable {n room width : Nat} {b front rest : Bytes} {v : Value} {head : Head}
  {item : Bytes → Option (Value × Bytes)}

theorem length_of_take? (h : take? n b = some (front, rest)) : front.length = n := by
  unfold take? at h
  simp only at h
  split at h
  · cases h
    assumption
  · cases h

theorem natOf?_lt (h : natOf? width b = some (n, rest)) : n < 256 ^ width := by
  obtain ⟨⟨front, _⟩, hfront, h⟩ := Option.map_eq_some_iff.1 h
  cases h
  rw [← length_of_take? hfront]
  exact front.toNat_lt

theorem intOf?_range {n : Int} (h : intOf? width b = some (n, rest)) :
    -(256 ^ width : Nat) - 1 ≤ 2 * n ∧ 2 * n < (256 ^ width : Nat) := by
  obtain ⟨⟨m, _⟩, hm, h⟩ := Option.map_eq_some_iff.1 h
  have hlt := natOf?_lt hm
  cases h
  simp only [Nat.pow_eq]
  generalize 256 ^ width = bound at *
  split_ifs <;> omega

theorem eq_of_sizedHead {kind : Nat → Head} (h : sizedHead kind width b = some (head, rest)) :
    ∃ n < 256 ^ width, head = kind n := by
  obtain ⟨⟨n, _⟩, hn, h⟩ := Option.map_eq_some_iff.1 h
  cases h
  exact ⟨n, natOf?_lt hn, rfl⟩

/-- Numbers that a head announces have 64 bits. -/
def Head.Ranged : Head → Prop
  | .unsigned n => n < 0x10000000000000000
  | .signed n => -0x8000000000000000 ≤ n ∧ n < 0x10000000000000000
  | _ => True

theorem ranged_of_sized {kind : Nat → Head} (h : sizedHead kind width b = some (head, rest))
    (hw : 256 ^ width ≤ 0x10000000000000000)
    (hk : ∀ n < 0x10000000000000000, (kind n).Ranged) : head.Ranged := by
  obtain ⟨n, hn, rfl⟩ := eq_of_sizedHead h
  exact hk n (hn.trans_le hw)

theorem ranged_of_signed
    (h : (intOf? width b).map (fun (n, rest) => (Head.signed n, rest)) = some (head, rest))
    (hw : 256 ^ width ≤ 0x10000000000000000) : head.Ranged := by
  obtain ⟨⟨n, _⟩, hn, h⟩ := Option.map_eq_some_iff.1 h
  cases h
  obtain ⟨hlow, hhigh⟩ := intOf?_range hn
  constructor <;> omega

theorem ranged_of_head? (h : head? b = some (head, rest)) : head.Ranged := by
  cases b with
  | nil => cases h
  | cons m b =>
    have hm : m.toNat < 256 := m.toNat_lt
    unfold head? at h
    simp only at h
    split_ifs at h
    case neg =>
      split at h
      -- Doubles; signed and unsigned numbers; what has no number behind its marker; lengths.
      case h_10 | h_11 =>
        obtain ⟨_, -, h⟩ := Option.map_eq_some_iff.1 h
        cases h
        trivial
      case h_12 | h_13 | h_14 | h_15 => exact ranged_of_sized h (by norm_num) fun _ => id
      case h_16 | h_17 | h_18 | h_19 => exact ranged_of_signed h (by norm_num)
      case h_1 | h_2 | h_3 | h_20 | h_21 | h_22 | h_23 | h_24 =>
        cases h
        trivial
      case h_32 => cases h
      all_goals exact ranged_of_sized h (by norm_num) fun _ _ => trivial
    all_goals
      cases h
      simp only [Head.Ranged]
      try omega

/-- Every item of a list is one that was read. -/
theorem item_of_mem {vs : List Value} (h : items? item n b = some (vs, rest)) (hv : v ∈ vs) :
    ∃ b rest, item b = some (v, rest) := by
  induction n generalizing b vs with
  | zero =>
    cases h
    cases hv
  | succ n ih =>
    obtain ⟨⟨w, _⟩, hw, h⟩ := Option.bind_eq_some_iff.1 h
    obtain ⟨⟨ws, _⟩, hws, h⟩ := Option.bind_eq_some_iff.1 h
    cases h
    rcases List.mem_cons.1 hv with rfl | hv
    · exact ⟨_, _, hw⟩
    · exact ih hws hv

/-- Members stay sorted, and each is one that was read or was there before. -/
theorem members?_sorted {sofar ms : List (String × Value)}
    (h : members? item n sofar b = some (ms, rest)) (hs : Value.sorted sofar = true) :
    Value.sorted ms = true ∧ ∀ m ∈ ms, m ∈ sofar ∨ ∃ b rest, item b = some (m.2, rest) := by
  induction n generalizing sofar b with
  | zero =>
    cases h
    exact ⟨hs, fun m => .inl⟩
  | succ n ih =>
    obtain ⟨⟨head, _⟩, -, h⟩ := Option.bind_eq_some_iff.1 h
    simp only at h
    split at h
    · obtain ⟨⟨key, _⟩, -, h⟩ := Option.bind_eq_some_iff.1 h
      obtain ⟨⟨w, _⟩, hw, h⟩ := Option.bind_eq_some_iff.1 h
      obtain ⟨hsorted, hmem⟩ := ih h (Value.sorted_put hs key w)
      refine ⟨hsorted, fun m hm => ?_⟩
      rcases hmem m hm with hm | hm
      · rcases Value.mem_of_mem_put hm with rfl | hm
        · exact .inr ⟨_, _, hw⟩
        · exact .inl hm
      · exact .inr hm
    · cases h

/-- A value that was read, and holds no floating point number, fits the room there was for it. -/
theorem fits_value? (h : value? room b = some (v, rest)) (hv : v.doubleFree = true) :
    v.Fits room := by
  induction room using Nat.strongRecOn generalizing b v rest with
  | ind room ih =>
    unfold value? at h
    obtain ⟨⟨head, _⟩, hhead, h⟩ := Option.bind_eq_some_iff.1 h
    have hranged := ranged_of_head? hhead
    cases head with
    | nil | bool c =>
      cases h
      exact .ofScalar rfl rfl rfl
    | unsigned n | signed n =>
      cases h
      refine .ofScalar rfl ?_ rfl
      simp only [Head.Ranged] at hranged
      simp only [Value.wellFormed, Bool.and_eq_true, decide_eq_true_eq]
      omega
    | double x =>
      cases h
      split_ifs at hv ⊢
      · cases hv
      · exact .ofScalar rfl rfl rfl
    | text length =>
      obtain ⟨⟨s, _⟩, -, h⟩ := Option.bind_eq_some_iff.1 h
      cases h
      exact .ofScalar rfl rfl rfl
    | array count =>
      cases room with
      | zero => cases h
      | succ n =>
        obtain ⟨⟨vs, _⟩, hvs, h⟩ := Option.bind_eq_some_iff.1 h
        cases h
        refine .ofItems fun w hw => ?_
        obtain ⟨_, _, hread⟩ := item_of_mem hvs hw
        exact ih n n.lt_succ_self hread (Value.doubleFree_of_mem_items hv hw)
    | map count =>
      cases room with
      | zero => cases h
      | succ n =>
        obtain ⟨⟨ms, _⟩, hms, h⟩ := Option.bind_eq_some_iff.1 h
        cases h
        obtain ⟨hsorted, hmem⟩ := members?_sorted hms rfl
        refine .ofMembers hsorted fun m hm => ?_
        obtain hm' | ⟨_, _, hread⟩ := hmem m hm
        · cases hm'
        · exact ih n n.lt_succ_self hread (Value.doubleFree_of_mem_members hv hm)
    | binary length | extension length => cases h

/-- Data as the reader gives them back, but for floating point numbers. -/
def SoundData (v : Option Value) : Prop :=
  ∀ w, v = some w → w.doubleFree = true → w.Fits (maxDepth - 1)

theorem soundData_of_dataContent? {v : Option Value} (h : dataContent? b = some (v, rest)) :
    SoundData v := by
  obtain ⟨⟨head, _⟩, -, h⟩ := Option.bind_eq_some_iff.1 h
  simp only at h
  split at h
  · cases h
    rintro w ⟨⟩
  · obtain ⟨⟨w, _⟩, hw, h⟩ := Option.bind_eq_some_iff.1 h
    cases h
    rintro u ⟨⟩
    exact fits_value? hw

/-! Whatever each field keeps is kept by reading the whole record. -/

section Record

variable {ρ : Type} {layout : Layout ρ} {P : ρ → Prop} {x y : ρ} {seen : List String}

theorem fieldContent?_keeps {f : Field ρ} (hf : f.Keeps SoundData P)
    (h : fieldContent? x b f = some (y, rest)) (hx : P x) : P y := by
  cases f with
  | text name get set | count name get set | flag name get set =>
    obtain ⟨⟨c, _⟩, -, h⟩ := Option.map_eq_some_iff.1 h
    cases h
    exact hf c x hx
  | data name get set =>
    obtain ⟨⟨v, _⟩, hv, h⟩ := Option.map_eq_some_iff.1 h
    cases h
    exact hf v x (soundData_of_dataContent? hv) hx

theorem fieldList?_keeps {fs : List (Field ρ)} (hfs : ∀ f ∈ fs, f.Keeps SoundData P)
    (h : fieldList? fs n x b = some (y, rest)) (hx : P x) : P y := by
  induction n generalizing fs x b with
  | zero =>
    rw [fieldList?] at h
    cases h
    exact hx
  | succ n ih =>
    cases fs with
    | nil => cases h
    | cons f fs =>
      obtain ⟨⟨z, _⟩, hz, h⟩ := Option.bind_eq_some_iff.1 h
      exact ih (fun g hg => hfs g (by simp [hg])) h
        (fieldContent?_keeps (hfs f (by simp)) hz hx)

theorem mem_of_keyOf? {f : Field ρ} (h : keyOf? layout b = some (some f, rest)) :
    f ∈ layout.fields := by
  obtain ⟨⟨head, _⟩, -, h⟩ := Option.bind_eq_some_iff.1 h
  simp only at h
  split at h
  case h_1 | h_2 =>
    obtain ⟨⟨name, _⟩, -, h⟩ := Option.bind_eq_some_iff.1 h
    obtain ⟨_, -, hf⟩ := Option.bind_eq_some_iff.1 (Prod.ext_iff.1 (Option.some.inj h)).1
    exact Layout.mem_of_find? hf
  case h_3 => exact List.mem_of_getElem? (Prod.ext_iff.1 (Option.some.inj h)).1
  case h_4 => cases h

theorem namedFields?_keeps (hfs : ∀ f ∈ layout.fields, f.Keeps SoundData P)
    (h : namedFields? layout n seen x b = some (y, rest)) (hx : P x) : P y := by
  induction n generalizing seen x b with
  | zero =>
    cases h
    exact hx
  | succ n ih =>
    obtain ⟨⟨field, _⟩, hkey, h⟩ := Option.bind_eq_some_iff.1 h
    cases field with
    | some f =>
      simp only at h
      split at h
      · cases h
      · obtain ⟨⟨z, _⟩, hz, h⟩ := Option.bind_eq_some_iff.1 h
        exact ih h (fieldContent?_keeps (hfs f (mem_of_keyOf? hkey)) hz hx)
    | none =>
      obtain ⟨_, -, h⟩ := Option.bind_eq_some_iff.1 h
      exact ih h hx

theorem readRecord?_keeps (hfs : ∀ f ∈ layout.fields, f.Keeps SoundData P)
    (h : readRecord? layout b = some y) (hblank : P layout.blank) : P y := by
  obtain ⟨⟨head, _⟩, -, h⟩ := Option.bind_eq_some_iff.1 h
  simp only at h
  split at h
  · obtain ⟨⟨z, _⟩, hz, rfl⟩ := Option.map_eq_some_iff.1 h
    exact fieldList?_keeps hfs hz hblank
  · obtain ⟨⟨z, _⟩, hz, rfl⟩ := Option.map_eq_some_iff.1 h
    exact namedFields?_keeps hfs hz hblank
  · cases h

end Record

end Switchboard.MessagePack
