import Switchboard.Json.Reader
import Switchboard.Proofs.Json.Number
import Switchboard.Proofs.Json.Text
import Switchboard.Proofs.Value

/-! Values are read back from their printed text. -/
namespace Switchboard.Json

variable {v : Value} {room fuel : Nat} {x : UInt8} {b rest : Bytes}
  {element : Bytes → Except Fault (Value × Bytes)}

@[simp] theorem ok_bind {ε α β : Type} (x : α) (f : α → Except ε β) :
    (Except.ok x >>= f) = f x := rfl

theorem bind_eq_ok {ε α β : Type} {x : Except ε α} {f : α → Except ε β} {r : β} :
    (x >>= f) = .ok r ↔ ∃ a, x = .ok a ∧ f a = .ok r := by
  cases x <;> simp [bind, Except.bind]

theorem map_eq_ok {ε α β : Type} {x : Except ε α} {f : α → β} {r : β} :
    x.map f = .ok r ↔ ∃ a, x = .ok a ∧ f a = r := by
  cases x <;> simp [Except.map]

/-- Text that may follow a value: nothing at all, a comma or a closing bracket. -/
def EndsValue (rest : Bytes) : Prop := ∀ x, rest.head? = some x → x = 44 ∨ x = 93 ∨ x = 125

theorem endsValue_comma (b : Bytes) : EndsValue (44 :: b) := by simp [EndsValue]

theorem endsValue_square (b : Bytes) : EndsValue (93 :: b) := by simp [EndsValue]

theorem endsValue_curly (b : Bytes) : EndsValue (125 :: b) := by simp [EndsValue]

theorem EndsValue.endsNumber (h : EndsValue rest) : EndsNumber rest := by
  intro x hx
  rcases h x hx with rfl | rfl | rfl <;> decide

theorem skipSpace_cons (h : isSpace x = false) (b : Bytes) : skipSpace (x :: b) = x :: b := by
  simp [skipSpace, h]

theorem isSpace_of_isDigit (h : Bytes.isDigit x = true) : isSpace x = false := by
  by_contra hs
  simp only [isSpace, Bool.not_eq_false, Bool.or_eq_true, decide_eq_true_eq] at hs
  rcases hs with ((rfl | rfl) | rfl) | rfl <;> exact absurd h (by decide)

theorem value_null (room : Nat) (rest : Bytes) :
    value room ([110, 117, 108, 108] ++ rest) = .ok (.null, rest) := by
  unfold value
  simp [skipSpace, isSpace, after?, wellFormedOr]

theorem value_bool (room : Nat) (c : Bool) (rest : Bytes) :
    value room (render (.bool c) ++ rest) = .ok (.bool c, rest) := by
  unfold value
  cases c <;> simp [render, skipSpace, isSpace, after?, wellFormedOr]

theorem value_digit (h : Bytes.isDigit x = true) (room : Nat) (b : Bytes) :
    value room (x :: b) =
      (wellFormedOr (number? false (x :: b))).map fun (n, rest) => (n.value, rest) := by
  unfold value
  rw [skipSpace_cons (isSpace_of_isDigit h)]
  split <;> rename_i heq
  case h_8 => rfl
  all_goals
    cases heq
    exact absurd h (by decide)

theorem value_int (room : Nat) {n : Int} (hlow : -0x8000000000000000 ≤ n)
    (hhigh : n < 0x10000000000000000) (h : EndsNumber rest) :
    value room (renderInt n ++ rest) = .ok (.int n, rest) := by
  cases n with
  | ofNat n =>
    have hn : number? false (digits n ++ rest) = some (.int n, rest) :=
      number?_nat h (Int.ofNat_lt.1 hhigh)
    rw [Int.ofNat_eq_natCast, renderInt_ofNat]
    obtain ⟨x, ds, hd, hx⟩ := exists_cons_digits n
    rw [hd] at hn ⊢
    rw [List.cons_append] at hn ⊢
    rw [value_digit hx, hn]
    rfl
  | negSucc n =>
    rw [renderInt_negSucc]
    unfold value
    have hn := number?_neg (n := n + 1) h (by omega) (by omega)
    simp [skipSpace, isSpace, hn, wellFormedOr, Number.value, Int.negSucc_eq]

/-- The first byte of a printed value is neither space nor a closing bracket, nor that of null
if the value is another. -/
theorem exists_cons_render (h : v.doubleFree = true) :
    ∃ x b, render v = x :: b ∧ isSpace x = false ∧ x ≠ 93 ∧ (x = 110 → v = .null) := by
  cases v with
  | null => exact ⟨110, _, rfl, by decide, by decide, fun _ => rfl⟩
  | bool c =>
    cases c
    · exact ⟨102, _, rfl, by decide, by decide, fun he => absurd he (by decide)⟩
    · exact ⟨116, _, rfl, by decide, by decide, fun he => absurd he (by decide)⟩
  | int n =>
    cases n with
    | ofNat n =>
      obtain ⟨x, ds, hd, hx⟩ := exists_cons_digits n
      refine ⟨x, ds, (renderInt_ofNat n).trans hd, isSpace_of_isDigit hx,
        ne_of_isDigit hx (by decide), ?_⟩
      exact fun he => absurd he (ne_of_isDigit hx (by decide))
    | negSucc n => exact ⟨45, _, renderInt_negSucc n, by decide, by decide, fun he => absurd he (by decide)⟩
  | double x => simp [Value.doubleFree] at h
  | string s => exact ⟨34, _, rfl, by decide, by decide, fun he => absurd he (by decide)⟩
  | array items => exact ⟨91, _, render.eq_7 items, by decide, by decide, fun he => absurd he (by decide)⟩
  | object members => exact ⟨123, _, render.eq_8 members, by decide, by decide, fun he => absurd he (by decide)⟩

/-- Gives a value back from its printed text, whatever follows it. -/
def ReadsBack (element : Bytes → Except Fault (Value × Bytes)) (v : Value) : Prop :=
  ∀ rest, EndsValue rest → element (render v ++ rest) = .ok (v, rest)

/-- The text behind a value in a container. -/
theorem endsValue_separated (parts : List Bytes) (h : EndsValue rest) :
    EndsValue (separated false parts ++ rest) := by
  cases parts with
  | nil => exact h
  | cons x parts => exact endsValue_comma _

theorem elements_comma (fuel : Nat) (b : Bytes) :
    elements element (fuel + 1) false (44 :: b) = do
      let (v, rest) ← element b
      let (vs, rest) ← elements element fuel false rest
      return (v :: vs, rest) := by
  simp [elements, skipSpace_cons (x := 44) (by decide)]

/-- The first entry is read like one behind a comma. -/
theorem elements_first (hs : isSpace x = false) (hx : x ≠ 93) (fuel : Nat) (b : Bytes) :
    elements element (fuel + 1) true (x :: b)
      = elements element (fuel + 1) false (44 :: x :: b) := by
  rw [elements_comma]
  simp [elements, skipSpace_cons hs, hx]

theorem elements_separated {items : List Value} (h : ∀ v ∈ items, ReadsBack element v)
    (hfuel : items.length < fuel) (rest : Bytes) :
    elements element fuel false (separated false (renderItems items) ++ 93 :: rest)
      = .ok (items, rest) := by
  induction items generalizing fuel with
  | nil =>
    obtain ⟨fuel, rfl⟩ := Nat.exists_eq_add_one.2 hfuel
    simp [renderItems, separated, elements, skipSpace, isSpace]
  | cons v items ih =>
    obtain ⟨fuel, rfl⟩ := Nat.exists_eq_add_one.2 (Nat.zero_lt_of_lt hfuel)
    have hrest := endsValue_separated (renderItems items) (endsValue_square rest)
    have hv := h v (by simp) _ hrest
    have hitems := ih (fun w hw => h w (by simp [hw])) (Nat.lt_of_succ_lt_succ hfuel)
    rw [renderItems, separated, List.cons_append, List.cons_append, List.append_assoc,
      elements_comma, hv]
    simp [hitems]

theorem elements_render {items : List Value} (h : ∀ v ∈ items, ReadsBack element v)
    (hdf : ∀ v ∈ items, v.doubleFree = true) (hfuel : items.length < fuel) (rest : Bytes) :
    elements element fuel true (separated true (renderItems items) ++ 93 :: rest)
      = .ok (items, rest) := by
  have hcomma := elements_separated h hfuel rest
  obtain ⟨fuel, rfl⟩ := Nat.exists_eq_add_one.2 (Nat.zero_lt_of_lt hfuel)
  cases items with
  | nil => simp [renderItems, separated, elements, skipSpace, isSpace]
  | cons v items =>
    obtain ⟨x, b, hb, hspace, hx, -⟩ := exists_cons_render (hdf v (by simp))
    simp only [renderItems, separated, hb, List.cons_append] at hcomma ⊢
    rw [elements_first hspace hx, hcomma]

theorem memberName_render (k : String) (b : Bytes) :
    memberName (renderString k ++ 58 :: b) = .ok (k, b) := by
  simp [memberName, renderString, skipSpace, isSpace, text?_renderString, wellFormedOr]
  rfl

theorem members_comma (fuel : Nat) (sofar : List (String × Value)) (b : Bytes) :
    members element (fuel + 1) false sofar (44 :: b) = (do
      let (key, rest) ← memberName b
      let (v, rest) ← element rest
      members element fuel false (Value.put key v sofar) rest) := by
  simp [members, skipSpace_cons (x := 44) (by decide)]

theorem members_first (fuel : Nat) (sofar : List (String × Value)) (b : Bytes) :
    members element (fuel + 1) true sofar (34 :: b)
      = members element (fuel + 1) false sofar (44 :: 34 :: b) := by
  rw [members_comma]
  simp [members, skipSpace_cons (x := 34) (by decide)]

/-- Members come in the order of their keys, so each is put behind those read before it. -/
theorem members_separated {ms : List (String × Value)} (sofar : List (String × Value))
    (h : ∀ k v, (k, v) ∈ ms → ReadsBack element v) (hsorted : Value.sorted ms = true)
    (hsofar : ∀ m ∈ sofar, ∀ n ∈ ms, m.1 < n.1) (hfuel : ms.length < fuel) (rest : Bytes) :
    members element fuel false sofar (separated false (renderMembers ms) ++ 125 :: rest)
      = .ok (sofar ++ ms, rest) := by
  induction ms generalizing fuel sofar with
  | nil =>
    obtain ⟨fuel, rfl⟩ := Nat.exists_eq_add_one.2 hfuel
    simp [renderMembers, separated, members, skipSpace, isSpace]
  | cons m ms ih =>
    obtain ⟨k, v⟩ := m
    obtain ⟨fuel, rfl⟩ := Nat.exists_eq_add_one.2 (Nat.zero_lt_of_lt hfuel)
    obtain ⟨hfirst, hsorted⟩ := Value.sorted_cons.1 hsorted
    have hrest := endsValue_separated (renderMembers ms) (endsValue_curly rest)
    have hv := h k v (by simp) _ hrest
    have hput := Value.put_of_lt (fun m hm => hsofar m hm (k, v) (by simp)) v
    have hmembers := ih (sofar ++ [(k, v)]) (fun k w hw => h k w (by simp [hw])) hsorted
      (Value.below_concat hsofar hfirst) (Nat.lt_of_succ_lt_succ hfuel)
    rw [renderMembers, separated, List.cons_append, List.cons_append, List.append_assoc,
      List.append_assoc, List.cons_append, members_comma, memberName_render]
    simp only [ok_bind, hv, hput, hmembers, List.append_assoc, List.cons_append, List.nil_append]

theorem members_render {ms : List (String × Value)}
    (h : ∀ k v, (k, v) ∈ ms → ReadsBack element v) (hsorted : Value.sorted ms = true)
    (hfuel : ms.length < fuel) (rest : Bytes) :
    members element fuel true [] (separated true (renderMembers ms) ++ 125 :: rest)
      = .ok (ms, rest) := by
  have hcomma := members_separated [] h hsorted (by simp) hfuel rest
  obtain ⟨fuel, rfl⟩ := Nat.exists_eq_add_one.2 (Nat.zero_lt_of_lt hfuel)
  cases ms with
  | nil => simp [renderMembers, separated, members, skipSpace, isSpace]
  | cons m ms =>
    simp only [renderMembers, separated, renderString, List.cons_append] at hcomma ⊢
    rw [members_first, hcomma]
    rfl

theorem length_le_separated (parts : List Bytes) :
    parts.length ≤ (separated true parts).length + 1 := by
  have hfalse (parts : List Bytes) : parts.length ≤ (separated false parts).length := by
    induction parts with
    | nil => simp
    | cons x parts ih =>
      simp only [separated, List.length_cons, List.length_append]
      omega
  cases parts with
  | nil => simp
  | cons x parts =>
    have := hfalse parts
    simp only [separated, List.length_cons, List.length_append]
    omega

theorem length_renderItems (items : List Value) : (renderItems items).length = items.length := by
  induction items with
  | nil => rfl
  | cons v items ih => simp [renderItems, ih]

theorem length_renderMembers (ms : List (String × Value)) :
    (renderMembers ms).length = ms.length := by
  induction ms with
  | nil => rfl
  | cons m ms ih => simp [renderMembers, ih]

/-- There is fuel for every entry of a container. -/
theorem length_lt_fuel (parts : List Bytes) (x : UInt8) (rest : Bytes) :
    parts.length < (separated true parts ++ x :: rest).length + 1 := by
  have := length_le_separated parts
  simp only [List.length_append, List.length_cons]
  omega

theorem value_square (room : Nat) (b : Bytes) :
    value (room + 1) (91 :: b) =
      (elements (value room) (b.length + 1) true b).map fun (vs, rest) => (.array vs, rest) := by
  rw [value, skipSpace_cons (by decide)]
  rfl

theorem value_curly (room : Nat) (b : Bytes) :
    value (room + 1) (123 :: b) =
      (members (value room) (b.length + 1) true [] b).map fun (ms, rest) => (.object ms, rest) := by
  rw [value, skipSpace_cons (by decide)]
  rfl

/-- A value that the reader has room for is read back, and what follows it is left. -/
theorem value_render (v : Value) (room : Nat) (hv : v.Fits room) : ReadsBack (value room) v := by
  intro rest hrest
  match v with
  | .null => exact value_null room rest
  | .bool c => exact value_bool room c rest
  | .int n =>
    have hrange := hv.wellFormed
    simp only [Value.wellFormed, Bool.and_eq_true, decide_eq_true_eq] at hrange
    exact value_int room hrange.1 hrange.2 hrest.endsNumber
  | .double x =>
    have hdf := hv.doubleFree
    simp [Value.doubleFree] at hdf
  | .string s => exact value_string room s rest
  | .array items =>
    obtain ⟨room, rfl⟩ := hv.exists_room (by simp [Value.depth])
    have hfuel := length_lt_fuel (renderItems items) 93 rest
    rw [length_renderItems] at hfuel
    have hread : ∀ w ∈ items, ReadsBack (value room) w :=
      fun w hw => value_render w room (hv.of_mem_items hw)
    have hitems := elements_render hread
      (fun w hw => (hv.of_mem_items hw).doubleFree) hfuel rest
    rw [render, List.append_assoc, List.cons_append, value_square, List.singleton_append, hitems]
    rfl
  | .object ms =>
    obtain ⟨room, rfl⟩ := hv.exists_room (by simp [Value.depth])
    have hfuel := length_lt_fuel (renderMembers ms) 125 rest
    rw [length_renderMembers] at hfuel
    have hread : ∀ k w, (k, w) ∈ ms → ReadsBack (value room) w :=
      fun k w hw => value_render w room (hv.of_mem_members hw)
    have hmembers := members_render hread hv.sorted hfuel rest
    rw [render, List.append_assoc, List.cons_append, value_curly, List.singleton_append, hmembers]
    rfl
termination_by sizeOf v
decreasing_by
  · have := List.sizeOf_lt_of_mem hw
    simp
    omega
  · have := List.sizeOf_lt_of_mem hw
    simp at this ⊢
    omega

end Switchboard.Json
