import Mathlib
import Switchboard.Value

/-! Values that fit a reader: their parts fit too, and their members are put in place in order. -/
namespace Switchboard.Value

variable {v w : Value} {room n : Nat} {items : List Value} {members : List (String × Value)}
  {key : String}

/-- What a reader with `room` for containers can give back: no floating point number occurs. -/
structure Fits (room : Nat) (v : Value) : Prop where
  depth : v.depth ≤ room
  wellFormed : v.wellFormed = true
  doubleFree : v.doubleFree = true

theorem depth_le_of_mem_items (h : depthOfItems items ≤ n) (hv : v ∈ items) : v.depth ≤ n := by
  induction items with
  | nil => simp at hv
  | cons w items ih =>
    obtain ⟨hw, hitems⟩ := Nat.max_le.1 h
    rcases List.mem_cons.1 hv with rfl | hv
    · exact hw
    · exact ih hitems hv

theorem depth_le_of_mem_members (h : depthOfMembers members ≤ n) (hv : (key, v) ∈ members) :
    v.depth ≤ n := by
  induction members with
  | nil => simp at hv
  | cons m members ih =>
    obtain ⟨hm, hmembers⟩ := Nat.max_le.1 h
    rcases List.mem_cons.1 hv with rfl | hv
    · exact hm
    · exact ih hmembers hv

theorem itemsWellFormed_eq_all (items : List Value) :
    itemsWellFormed items = items.all wellFormed := by
  induction items with
  | nil => rfl
  | cons v items ih => simp [itemsWellFormed, ih]

theorem membersWellFormed_eq_all (members : List (String × Value)) :
    membersWellFormed members = members.all (·.2.wellFormed) := by
  induction members with
  | nil => rfl
  | cons m members ih => simp [membersWellFormed, ih]

theorem itemsDoubleFree_eq_all (items : List Value) :
    itemsDoubleFree items = items.all doubleFree := by
  induction items with
  | nil => rfl
  | cons v items ih => simp [itemsDoubleFree, ih]

theorem membersDoubleFree_eq_all (members : List (String × Value)) :
    membersDoubleFree members = members.all (·.2.doubleFree) := by
  induction members with
  | nil => rfl
  | cons m members ih => simp [membersDoubleFree, ih]

theorem doubleFree_of_mem_items (h : (array items).doubleFree = true) (hv : v ∈ items) :
    v.doubleFree = true := by
  simp only [Value.doubleFree, itemsDoubleFree_eq_all, List.all_eq_true] at h
  exact h v hv

theorem doubleFree_of_mem_members {m : String × Value}
    (h : (object members).doubleFree = true) (hm : m ∈ members) : m.2.doubleFree = true := by
  simp only [Value.doubleFree, membersDoubleFree_eq_all, List.all_eq_true] at h
  exact h m hm

theorem Fits.of_mem_items (h : (array items).Fits (room + 1)) (hv : v ∈ items) : v.Fits room := by
  obtain ⟨hdepth, hwf, hdf⟩ := h
  simp only [Value.wellFormed, itemsWellFormed_eq_all, List.all_eq_true] at hwf
  exact ⟨depth_le_of_mem_items (Nat.le_of_succ_le_succ hdepth) hv, hwf v hv,
    doubleFree_of_mem_items hdf hv⟩

theorem Fits.of_mem_members (h : (object members).Fits (room + 1)) (hv : (key, v) ∈ members) :
    v.Fits room := by
  obtain ⟨hdepth, hwf, hdf⟩ := h
  simp only [Value.wellFormed, membersWellFormed_eq_all, Bool.and_eq_true, List.all_eq_true] at hwf
  exact ⟨depth_le_of_mem_members (Nat.le_of_succ_le_succ hdepth) hv, hwf.2 _ hv,
    doubleFree_of_mem_members hdf hv⟩

theorem Fits.sorted (h : (object members).Fits room) : sorted members = true := by
  have hwf := h.wellFormed
  simp only [Value.wellFormed, Bool.and_eq_true] at hwf
  exact hwf.1

/-- A container needs room. -/
theorem Fits.exists_room (h : v.Fits room) (hv : 0 < v.depth) : ∃ n, room = n + 1 :=
  Nat.exists_eq_add_one.2 (hv.trans_le h.depth)

/-- A key behind all others is put at the end. -/
theorem put_of_lt (h : ∀ m ∈ members, m.1 < key) (v : Value) :
    put key v members = members ++ [(key, v)] := by
  induction members with
  | nil => rfl
  | cons m members ih =>
    have hm : m.1 < key := h m (by simp)
    simp only [put, if_neg (not_lt_of_gt hm), if_neg (ne_of_lt hm), List.cons_append]
    rw [ih fun m hm => h m (by simp [hm])]

theorem depthOfItems_le (h : ∀ v ∈ items, v.depth ≤ n) : depthOfItems items ≤ n := by
  induction items with
  | nil => exact Nat.zero_le n
  | cons v items ih => exact Nat.max_le.2 ⟨h v (by simp), ih fun w hw => h w (by simp [hw])⟩

theorem depthOfMembers_le (h : ∀ m ∈ members, m.2.depth ≤ n) : depthOfMembers members ≤ n := by
  induction members with
  | nil => exact Nat.zero_le n
  | cons m members ih => exact Nat.max_le.2 ⟨h m (by simp), ih fun w hw => h w (by simp [hw])⟩

theorem Fits.ofItems (h : ∀ v ∈ items, v.Fits room) : (array items).Fits (room + 1) where
  depth := Nat.succ_le_succ (depthOfItems_le fun v hv => (h v hv).depth)
  wellFormed := by
    simpa [Value.wellFormed, itemsWellFormed_eq_all] using fun v hv => (h v hv).wellFormed
  doubleFree := by
    simpa [Value.doubleFree, itemsDoubleFree_eq_all] using fun v hv => (h v hv).doubleFree

theorem Fits.ofMembers (hs : Value.sorted members = true) (h : ∀ m ∈ members, m.2.Fits room) :
    (object members).Fits (room + 1) where
  depth := Nat.succ_le_succ (depthOfMembers_le fun m hm => (h m hm).depth)
  wellFormed := by
    simpa [Value.wellFormed, hs, membersWellFormed_eq_all] using fun k v hm => (h (k, v) hm).wellFormed
  doubleFree := by
    simpa [Value.doubleFree, membersDoubleFree_eq_all] using fun k v hm => (h (k, v) hm).doubleFree

/-- A value that encloses no other fits wherever it stands. -/
theorem Fits.ofScalar (hd : v.depth = 0) (hw : v.wellFormed = true) (hf : v.doubleFree = true) :
    v.Fits room :=
  ⟨hd ▸ Nat.zero_le room, hw, hf⟩

theorem sorted_cons {m : String × Value} :
    sorted (m :: members) = true ↔ (∀ n ∈ members, m.1 < n.1) ∧ sorted members = true := by
  simp [sorted]

/-- What is behind a member and all before it is behind them when it is put to them. -/
theorem below_concat {sofar : List (String × Value)} {m : String × Value}
    (hsofar : ∀ l ∈ sofar, ∀ n ∈ m :: members, l.1 < n.1) (hm : ∀ n ∈ members, m.1 < n.1) :
    ∀ l ∈ sofar ++ [m], ∀ n ∈ members, l.1 < n.1 := by
  intro l hl n hn
  rcases List.mem_append.1 hl with hl | hl
  · exact hsofar l hl n (by simp [hn])
  · rw [List.mem_singleton.1 hl]
    exact hm n hn

theorem mem_of_mem_put {m : String × Value} (h : m ∈ put key v members) :
    m = (key, v) ∨ m ∈ members := by
  induction members with
  | nil => exact .inl (List.mem_singleton.1 h)
  | cons n members ih =>
    unfold put at h
    split_ifs at h with hlt heq
    · exact List.mem_cons.1 h
    · rcases List.mem_cons.1 h with h | h
      · exact .inl h
      · exact .inr (List.mem_cons_of_mem n h)
    · rcases List.mem_cons.1 h with h | h
      · exact .inr (h ▸ List.mem_cons_self)
      · exact (ih h).imp_right (List.mem_cons_of_mem n)

/-- Members that are put in place one by one stay in the order of their keys. -/
theorem sorted_put (h : sorted members = true) (key : String) (v : Value) :
    sorted (put key v members) = true := by
  induction members with
  | nil => rfl
  | cons n members ih =>
    obtain ⟨hn, hrest⟩ := sorted_cons.1 h
    unfold put
    split_ifs with hlt heq
    · refine sorted_cons.2 ⟨fun m hm => ?_, h⟩
      rcases List.mem_cons.1 hm with rfl | hm
      · exact hlt
      · exact hlt.trans (hn m hm)
    · exact sorted_cons.2 ⟨heq ▸ hn, hrest⟩
    · refine sorted_cons.2 ⟨fun m hm => ?_, ih hrest⟩
      rcases mem_of_mem_put hm with rfl | hm
      · exact lt_of_le_of_ne (not_lt.1 hlt) heq
      · exact hn m hm

end Switchboard.Value
