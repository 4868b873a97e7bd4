/-! Tables with at most one entry for a key. -/
namespace Switchboard

/-- Entries by key, the latest first. -/
structure Registry (κ α : Type) where
  entries : List (κ × α) := []
  distinct : (entries.map (·.1)).Nodup := by exact List.nodup_nil
deriving Repr

namespace Registry

variable {κ α : Type} [DecidableEq κ] {r : Registry κ α} {k l : κ} {x : α}

instance : Inhabited (Registry κ α) := ⟨{}⟩

def size (r : Registry κ α) : Nat := r.entries.length

def keys (r : Registry κ α) : List κ := r.entries.map (·.1)

def find (k : κ) : List (κ × α) → Option α
  | [] => none
  | (l, x) :: rest => if l = k then some x else find k rest

def get? (r : Registry κ α) (k : κ) : Option α := find k r.entries

def contains (r : Registry κ α) (k : κ) : Bool := (r.get? k).isSome

/-- Keeps the entries that satisfy a condition. -/
def filter (r : Registry κ α) (keep : κ → α → Bool) : Registry κ α where
  entries := r.entries.filter fun e => keep e.1 e.2
  distinct := r.distinct.sublist (List.filter_sublist.map _)

def erase (r : Registry κ α) (k : κ) : Registry κ α := r.filter fun l _ => l ≠ k

theorem not_mem_keys_erase : k ∉ (r.erase k).keys := by
  simp [keys, erase, filter]

/-- Puts an entry in place of the one its key has so far. -/
def insert (r : Registry κ α) (k : κ) (x : α) : Registry κ α where
  entries := (k, x) :: (r.erase k).entries
  distinct := List.nodup_cons.2 ⟨not_mem_keys_erase, (r.erase k).distinct⟩

/-- Changes the entry of a key, if it has one. -/
def modify (r : Registry κ α) (k : κ) (f : α → α) : Registry κ α where
  entries := r.entries.map fun e => (e.1, if e.1 = k then f e.2 else e.2)
  distinct := by
    have : (r.entries.map fun e => (e.1, if e.1 = k then f e.2 else e.2)).map (·.1)
        = r.entries.map (·.1) := by simp
    rw [this]
    exact r.distinct

theorem find_filter_ne (h : l ≠ k) (es : List (κ × α)) :
    find l (es.filter fun e => decide (e.1 ≠ k)) = find l es := by
  induction es with
  | nil => rfl
  | cons e es ih =>
    by_cases he : e.1 = k
    · have : e.1 ≠ l := fun h' => h (h'.symm.trans he)
      simp_all [find]
    · by_cases hl : e.1 = l <;> simp_all [find]

theorem find_filter_eq (k : κ) (es : List (κ × α)) :
    find k (es.filter fun e => decide (e.1 ≠ k)) = none := by
  induction es with
  | nil => rfl
  | cons e es ih => by_cases he : e.1 = k <;> simp_all [find]

theorem find_eq_none {es : List (κ × α)} (h : k ∉ es.map (·.1)) : find k es = none := by
  induction es with
  | nil => rfl
  | cons e es ih =>
    rw [List.map_cons, List.mem_cons, not_or] at h
    simp [find, Ne.symm h.1, ih h.2]

theorem find_eq_some_iff {es : List (κ × α)} (hd : (es.map (·.1)).Nodup) :
    find k es = some x ↔ (k, x) ∈ es := by
  induction es with
  | nil => simp [find]
  | cons e es ih =>
    rw [List.map_cons, List.nodup_cons] at hd
    by_cases hk : e.1 = k
    · have hother : (k, x) ∉ es := fun hm => hd.1 (hk ▸ List.mem_map_of_mem hm)
      subst hk
      simp [find, hother, Prod.ext_iff, eq_comm]
    · have hne : (k, x) ≠ e := fun he => hk (he ▸ rfl)
      rw [find, if_neg hk, ih hd.2, List.mem_cons, or_iff_right hne]

theorem find_filter (keep : κ → α → Bool) (k : κ) {es : List (κ × α)}
    (hd : (es.map (·.1)).Nodup) :
    find k (es.filter fun e => keep e.1 e.2) = (find k es).filter (keep k) := by
  induction es with
  | nil => rfl
  | cons e es ih =>
    rw [List.map_cons, List.nodup_cons] at hd
    have hrest := ih hd.2
    by_cases hk : e.1 = k
    · -- No later entry has the key, so nothing takes the place of one that is dropped.
      have hnone : find k es = none := find_eq_none (hk ▸ hd.1)
      subst k
      by_cases he : keep e.1 e.2 = true <;> simp_all [find, Option.filter]
    · by_cases he : keep e.1 e.2 = true <;> simp_all [find]

theorem get?_eq_some_iff : r.get? k = some x ↔ (k, x) ∈ r.entries := find_eq_some_iff r.distinct

theorem get?_ne_none_iff : r.get? k ≠ none ↔ k ∈ r.keys := by
  rw [Option.ne_none_iff_exists', keys, List.mem_map]
  constructor
  · rintro ⟨x, hx⟩
    exact ⟨(k, x), get?_eq_some_iff.1 hx, rfl⟩
  · rintro ⟨⟨l, x⟩, hmem, rfl⟩
    exact ⟨x, get?_eq_some_iff.2 hmem⟩

theorem get?_filter (r : Registry κ α) (keep : κ → α → Bool) (k : κ) :
    (r.filter keep).get? k = (r.get? k).filter (keep k) := find_filter keep k r.distinct

@[simp] theorem get?_erase (r : Registry κ α) (k l : κ) :
    (r.erase k).get? l = if l = k then none else r.get? l := by
  split
  · subst l
    exact find_filter_eq k r.entries
  · exact find_filter_ne ‹_› r.entries

@[simp] theorem get?_insert (r : Registry κ α) (k l : κ) (x : α) :
    (r.insert k x).get? l = if l = k then some x else r.get? l := by
  by_cases h : l = k
  · simp [get?, insert, find, h]
  · simpa [get?, insert, find, h, Ne.symm h] using get?_erase r k l

end Registry

end Switchboard
