import Mathlib
import Switchboard.Proofs.Value
import Switchboard.Record

/-! What becomes of a record that is written and read back, field by field. -/
namespace Switchboard

variable {ρ : Type} {name : String} {x y : ρ}

/-- Data that are null count as absent. -/
def present : Option Value → Option Value
  | some .null => none
  | v => v

theorem present_eq_self {v : Option Value} (h : v ≠ some .null) : present v = v := by
  unfold present
  split
  · exact absurd rfl h
  · rfl

namespace Field

/-- Puts what is written for a field of `x` into `y`; `y` stays as it is if nothing is written. -/
def copy : Field ρ → ρ → ρ → ρ
  | .text _ get set, x, y => if (get x).isSome then set (get x) y else y
  | .count _ get set, x, y => if (get x).isSome then set (get x) y else y
  | .flag _ get set, x, y => if get x then set true y else y
  | .data _ get set, x, y => if (get x).isSome then set (present (get x)) y else y

theorem copy_of_entry?_eq_none {f : Field ρ} (h : f.entry? x = none) (y : ρ) :
    f.copy x y = y := by
  cases f with
  | text name get set => simp_all [copy, entry?]
  | count name get set => simp_all [copy, entry?]
  | flag name get set => simp_all [copy, entry?]
  | data name get set => simp_all [copy, entry?]

/-- The entries written for some of the fields. -/
def entries (fs : List (Field ρ)) (x : ρ) : List (String × Value) :=
  fs.filterMap fun f => (f.entry? x).map (f.name, ·)

theorem entries_cons_none {f : Field ρ} (h : f.entry? x = none) (fs : List (Field ρ)) :
    entries (f :: fs) x = entries fs x := by
  simp [entries, h]

theorem entries_cons_some {f : Field ρ} {v : Value} (h : f.entry? x = some v)
    (fs : List (Field ρ)) : entries (f :: fs) x = (f.name, v) :: entries fs x := by
  simp [entries, h]

/-- Fields still to come are unseen, and stay so when one of another name is seen. -/
theorem unseen_cons {f : Field ρ} {fs : List (Field ρ)} {seen : List String}
    (hother : f.name ∉ fs.map Field.name) (hseen : ∀ g ∈ f :: fs, g.name ∉ seen) :
    ∀ g ∈ fs, g.name ∉ f.name :: seen := by
  intro g hg
  rw [List.mem_cons, not_or]
  refine ⟨fun he => hother ?_, hseen g (by simp [hg])⟩
  exact he ▸ List.mem_map_of_mem hg

/-- Only data can be more than a reader has room for. -/
theorem fits_of_entry? {f : Field ρ} {v : Value} {room : Nat} (h : f.entry? x = some v)
    (hdata : ∀ name get set, f = data name get set → get x = some v → v.Fits room) :
    v.Fits room := by
  cases f with
  | text name get set =>
    obtain ⟨s, -, rfl⟩ := Option.map_eq_some_iff.1 h
    exact ⟨Nat.zero_le room, rfl, rfl⟩
  | count name get set =>
    obtain ⟨n, -, rfl⟩ := Option.map_eq_some_iff.1 h
    have hn : n.toNat < 0x10000000000000000 := n.toNat_lt
    refine ⟨Nat.zero_le room, ?_, rfl⟩
    simp only [Value.wellFormed, Bool.and_eq_true, decide_eq_true_eq]
    omega
  | flag name get set =>
    simp only [Option.ite_none_right_eq_some, entry?, Option.some.injEq] at h
    obtain ⟨-, rfl⟩ := h
    exact ⟨Nat.zero_le room, rfl, rfl⟩
  | data name get set => exact hdata name get set rfl h

/-- Setting the field to what a reader finds keeps a property of records, where `Found` is what is
known of data that were read. -/
def Keeps (Found : Option Value → Prop) (P : ρ → Prop) : Field ρ → Prop
  | .text _ _ set => ∀ s x, P x → P (set s x)
  | .count _ _ set => ∀ n x, P x → P (set n x)
  | .flag _ _ set => ∀ b x, P x → P (set b x)
  | .data _ _ set => ∀ v x, Found v → P x → P (set v x)

theorem copy_text {get : ρ → Option String} {set : Option String → ρ → ρ} (h : set none y = y) :
    (text name get set).copy x y = set (get x) y := by
  cases hx : get x <;> simp [copy, hx, h]

theorem copy_count {get : ρ → Option UInt64} {set : Option UInt64 → ρ → ρ} (h : set none y = y) :
    (count name get set).copy x y = set (get x) y := by
  cases hx : get x <;> simp [copy, hx, h]

theorem copy_flag {get : ρ → Bool} {set : Bool → ρ → ρ} (h : set false y = y) :
    (flag name get set).copy x y = set (get x) y := by
  cases hx : get x <;> simp [copy, hx, h]

theorem copy_data {get : ρ → Option Value} {set : Option Value → ρ → ρ} (h : set none y = y) :
    (data name get set).copy x y = set (present (get x)) y := by
  cases hx : get x <;> simp [copy, hx, h, present]

end Field

namespace Layout

/-- The record that the entries written for `x` make. -/
def reread (layout : Layout ρ) (x : ρ) : ρ :=
  layout.fields.foldl (fun y f => f.copy x y) layout.blank

theorem entries_eq (layout : Layout ρ) (x : ρ) :
    layout.entries x = Field.entries layout.fields x := rfl

/-- No two fields of a record have the same name. -/
def Distinct (layout : Layout ρ) : Prop := (layout.fields.map Field.name).Nodup

theorem mem_of_find? {layout : Layout ρ} {f : Field ρ} (h : layout.find? name = some f) :
    f ∈ layout.fields :=
  List.mem_of_find?_eq_some h

theorem Distinct.find? {layout : Layout ρ} (h : layout.Distinct) {f : Field ρ}
    (hf : f ∈ layout.fields) : layout.find? f.name = some f := by
  obtain ⟨before, after, hfields⟩ := List.append_of_mem hf
  unfold Distinct at h
  rw [hfields, List.map_append, List.map_cons] at h
  have hbefore : ∀ g ∈ before, ¬g.name = f.name := by
    intro g hg he
    have hdisjoint := List.disjoint_of_nodup_append h
    exact hdisjoint (List.mem_map_of_mem hg) (by simp [he])
  rw [Layout.find?, hfields, List.find?_append, List.find?_eq_none.2 (by simpa using hbefore)]
  simp

end Layout

end Switchboard
