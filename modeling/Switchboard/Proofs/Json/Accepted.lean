import Switchboard.Proofs.Json.Value
import Switchboard.Proofs.Record

/-! What the reader gives back is what it can read again: it fits the room there was. -/
namespace Switchboard.Json

variable {ρ : Type} {v : Value} {room fuel : Nat} {first : Bool} {b rest : Bytes}
  {element : Bytes → Except Fault (Value × Bytes)}

theorem wellFormedOr_eq_ok {α : Type} {found : Option α} {x : α} :
    wellFormedOr found = .ok x ↔ found = some x := by
  cases found <;> simp [wellFormedOr]

/-- Integers are read only where they have 64 bits. -/
theorem wholeNumber_int {isNegative : Bool} {ds : List Nat} {n : Int}
    (h : wholeNumber isNegative ds = some (.int n)) :
    -0x8000000000000000 ≤ n ∧ n < 0x10000000000000000 := by
  unfold wholeNumber at h
  cases isNegative with
  | true =>
    simp only [if_true] at h
    split at h
    · rename_i hn
      simp only [Option.some.injEq, Number.int.injEq] at h
      omega
    · obtain ⟨x, -, hx⟩ := Option.map_eq_some_iff.1 h
      cases hx
  | false =>
    simp only [Bool.false_eq_true, if_false] at h
    split at h
    · rename_i hn
      simp only [Option.some.injEq, Number.int.injEq] at h
      omega
    · obtain ⟨x, -, hx⟩ := Option.map_eq_some_iff.1 h
      cases hx

theorem number?_int {isNegative : Bool} {n : Int} (h : number? isNegative b = some (.int n, rest)) :
    -0x8000000000000000 ≤ n ∧ n < 0x10000000000000000 := by
  simp only [number?, Option.bind_eq_bind, Option.bind_eq_some_iff] at h
  obtain ⟨⟨whole, _⟩, -, ⟨part, _⟩, -, ⟨exponent, _⟩, -, h⟩ := h
  split at h
  · obtain ⟨m, hm, h⟩ := Option.bind_eq_some_iff.1 h
    cases h
    exact wholeNumber_int hm
  · obtain ⟨x, -, h⟩ := Option.bind_eq_some_iff.1 h
    cases h

theorem fits_number {isNegative : Bool} {n : Number} (h : number? isNegative b = some (n, rest))
    (hn : n.value.doubleFree = true) : n.value.Fits room := by
  cases n with
  | int n =>
    have hrange := number?_int h
    exact .ofScalar rfl (by simpa [Number.value, Value.wellFormed] using hrange) hn
  | double x => exact absurd hn Bool.false_ne_true

/-- Every element of a list is one that was read. -/
theorem element_of_mem {vs : List Value} (h : elements element fuel first b = .ok (vs, rest))
    (hv : v ∈ vs) : ∃ b rest, element b = .ok (v, rest) := by
  induction fuel generalizing first b vs with
  | zero => cases h
  | succ fuel ih =>
    unfold elements at h
    split at h
    case h_1 =>
      cases h
      cases hv
    case h_4 => cases h
    all_goals
      obtain ⟨⟨w, rest'⟩, hw, h⟩ := bind_eq_ok.1 h
      obtain ⟨⟨ws, rest''⟩, hws, h⟩ := bind_eq_ok.1 h
      cases h
      rcases List.mem_cons.1 hv with rfl | hv
      · exact ⟨_, _, hw⟩
      · exact ih hws hv

/-- Members stay sorted, and each is one that was read or was there before. -/
theorem members_sorted {sofar ms : List (String × Value)}
    (h : members element fuel first sofar b = .ok (ms, rest)) (hs : Value.sorted sofar = true) :
    Value.sorted ms = true ∧
      ∀ m ∈ ms, m ∈ sofar ∨ ∃ b rest, element b = .ok (m.2, rest) := by
  induction fuel generalizing first sofar b with
  | zero => cases h
  | succ fuel ih =>
    unfold members at h
    split at h
    case h_1 =>
      cases h
      exact ⟨hs, fun m => .inl⟩
    case h_4 => cases h
    all_goals
      obtain ⟨⟨key, rest'⟩, -, h⟩ := bind_eq_ok.1 h
      obtain ⟨⟨w, rest''⟩, hw, h⟩ := bind_eq_ok.1 h
      obtain ⟨hsorted, hmem⟩ := ih h (Value.sorted_put hs key w)
      refine ⟨hsorted, fun m hm => ?_⟩
      rcases hmem m hm with hm | hm
      · rcases Value.mem_of_mem_put hm with rfl | hm
        · exact .inr ⟨_, _, hw⟩
        · exact .inl hm
      · exact .inr hm

/-- A value that was read, and holds no floating point number, fits the room there was for it. -/
theorem fits_value (h : value room b = .ok (v, rest)) (hv : v.doubleFree = true) :
    v.Fits room := by
  induction room using Nat.strongRecOn generalizing b v rest with
  | ind room ih =>
    unfold value at h
    split at h
    case h_1 | h_2 | h_3 | h_4 =>
      obtain ⟨_, -, h⟩ := bind_eq_ok.1 h
      cases h
      exact .ofScalar rfl rfl rfl
    case h_5 =>
      split at h
      · cases h
      · rename_i n
        obtain ⟨⟨vs, _⟩, hvs, h⟩ := bind_eq_ok.1 h
        cases h
        refine .ofItems fun w hw => ?_
        obtain ⟨_, _, hread⟩ := element_of_mem hvs hw
        exact ih n n.lt_succ_self hread (Value.doubleFree_of_mem_items hv hw)
    case h_6 =>
      split at h
      · cases h
      · rename_i n
        obtain ⟨⟨ms, _⟩, hms, h⟩ := bind_eq_ok.1 h
        cases h
        obtain ⟨hsorted, hmem⟩ := members_sorted hms rfl
        refine .ofMembers hsorted fun m hm => ?_
        obtain hm' | ⟨_, _, hread⟩ := hmem m hm
        · cases hm'
        · exact ih n n.lt_succ_self hread (Value.doubleFree_of_mem_members hv hm)
    case h_7 | h_8 =>
      obtain ⟨⟨n, _⟩, hn, h⟩ := bind_eq_ok.1 h
      cases h
      exact fits_number (wellFormedOr_eq_ok.1 hn) hv

/-- Only the letters of null are read as null. -/
theorem head?_of_value_null (h : value room b = .ok (.null, rest)) :
    (skipSpace b).head? = some 110 := by
  unfold value at h
  split at h
  case h_1 heq => rw [heq, List.head?_cons]
  case h_2 | h_3 | h_4 =>
    obtain ⟨_, -, h⟩ := bind_eq_ok.1 h
    cases h
  case h_5 | h_6 =>
    split at h
    · cases h
    · obtain ⟨_, -, h⟩ := bind_eq_ok.1 h
      cases h
  case h_7 | h_8 =>
    obtain ⟨⟨n, _⟩, -, h⟩ := bind_eq_ok.1 h
    cases n <;> cases h

theorem skipSpace_skipSpace (b : Bytes) : skipSpace (skipSpace b) = skipSpace b :=
  List.dropWhile_idempotent _ b

/-- Data as a reader gives them back: not null, and fit for the room there was. -/
def SoundData (room : Nat) (v : Option Value) : Prop :=
  v ≠ some .null ∧ ∀ w, v = some w → w.doubleFree = true → w.Fits room

theorem soundData_of_optional {v : Option Value}
    (h : optional (value room) b = .ok (v, rest)) : SoundData room v := by
  unfold optional at h
  split at h
  · obtain ⟨_, -, h⟩ := bind_eq_ok.1 h
    cases h
    simp [SoundData]
  · rename_i hne
    obtain ⟨⟨w, _⟩, hw, h⟩ := bind_eq_ok.1 h
    cases h
    refine ⟨fun he => ?_, fun u hu => ?_⟩
    · cases he
      have hhead := head?_of_value_null hw
      rw [skipSpace_skipSpace] at hhead
      exact hne _ (List.eq_cons_of_mem_head? hhead)
    · cases hu
      exact fits_value hw

/-! Whatever each field keeps is kept by reading the whole record. -/

section Record

variable {layout : Layout ρ} {P : ρ → Prop} {Found : Option Value → Prop} {x y : ρ}
  {seen seen' : List String}
  (hfound : ∀ b v rest, optional (value (maxDepth - 1)) b = .ok (v, rest) → Found v)

include hfound

theorem fieldContent_keeps {f : Field ρ} (hf : f.Keeps Found P)
    (h : fieldContent x b f = .ok (y, rest)) (hx : P x) : P y := by
  cases f with
  | text name get set | count name get set | flag name get set =>
    obtain ⟨⟨c, _⟩, -, h⟩ := map_eq_ok.1 h
    cases h
    exact hf c x hx
  | data name get set =>
    obtain ⟨⟨v, _⟩, hv, h⟩ := map_eq_ok.1 h
    cases h
    exact hf v x (hfound _ _ _ hv) hx

theorem fieldList_keeps {fs : List (Field ρ)} (hfs : ∀ f ∈ fs, f.Keeps Found P)
    (h : fieldList fs first x b = .ok (y, rest)) (hx : P x) : P y := by
  induction fs generalizing first x b with
  | nil =>
    unfold fieldList at h
    split at h
    · cases h
      exact hx
    · cases h
  | cons f fs ih =>
    unfold fieldList at h
    split at h
    case h_1 =>
      cases h
      exact hx
    case h_4 => cases h
    all_goals
      obtain ⟨⟨z, _⟩, hz, h⟩ := bind_eq_ok.1 h
      exact ih (fun g hg => hfs g (by simp [hg])) h
        (fieldContent_keeps hfound (hfs f (by simp)) hz hx)

theorem namedField_keeps (hfs : ∀ f ∈ layout.fields, f.Keeps Found P)
    (h : namedField layout seen x b = .ok ((seen', y), rest)) (hx : P x) : P y := by
  unfold namedField at h
  split at h
  case h_2 => cases h
  obtain ⟨⟨key, _⟩, -, h⟩ := bind_eq_ok.1 h
  simp only at h
  split at h
  · cases h
  split at h
  case h_2 => cases h
  split at h
  · rename_i f hf
    obtain ⟨⟨z, _⟩, hz, h⟩ := bind_eq_ok.1 h
    cases h
    exact fieldContent_keeps hfound (hfs f (Layout.mem_of_find? hf)) hz hx
  · obtain ⟨_, -, h⟩ := bind_eq_ok.1 h
    cases h
    exact hx

theorem namedFields_keeps (hfs : ∀ f ∈ layout.fields, f.Keeps Found P)
    (h : namedFields layout fuel first seen x b = .ok (y, rest)) (hx : P x) : P y := by
  induction fuel generalizing first seen x b with
  | zero => cases h
  | succ fuel ih =>
    unfold namedFields at h
    split at h
    case h_1 =>
      cases h
      exact hx
    case h_4 => cases h
    all_goals
      obtain ⟨⟨⟨_, z⟩, _⟩, hz, h⟩ := bind_eq_ok.1 h
      exact ih h (namedField_keeps hfound hfs hz hx)

theorem readRecord_keeps (hfs : ∀ f ∈ layout.fields, f.Keeps Found P)
    (h : readRecord layout b = .ok y) (hblank : P layout.blank) : P y := by
  obtain ⟨⟨z, _⟩, hz, h⟩ := bind_eq_ok.1 h
  simp only at h
  split at h
  case isFalse => cases h
  cases h
  unfold record at hz
  split at hz
  case h_1 | h_4 => cases hz
  case h_2 => exact fieldList_keeps hfound hfs hz hblank
  case h_3 => exact namedFields_keeps hfound hfs hz hblank

end Record

end Switchboard.Json
