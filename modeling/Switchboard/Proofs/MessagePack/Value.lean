import Switchboard.Proofs.MessagePack.Head
import Switchboard.Proofs.Value

/-! Values are read back from their bytes. -/
namespace Switchboard

namespace Value

variable {v : Value} {key : String} {n : Nat} {items : List Value}
  {members : List (String × Value)}

mutual

/-- The greatest length that is written of a value: bytes of a text, or entries of a container. -/
def longest : Value → Nat
  | .string s => s.utf8ByteSize
  | .array items => max items.length (longestOfItems items)
  | .object members => max members.length (longestOfMembers members)
  | _ => 0

def longestOfItems : List Value → Nat
  | [] => 0
  | v :: rest => max (longest v) (longestOfItems rest)

def longestOfMembers : List (String × Value) → Nat
  | [] => 0
  | (k, v) :: rest => max (max k.utf8ByteSize (longest v)) (longestOfMembers rest)

end

theorem longest_lt_of_mem_items (h : longestOfItems items < n) (hv : v ∈ items) :
    v.longest < n := by
  induction items with
  | nil => simp at hv
  | cons w items ih =>
    obtain ⟨hw, hitems⟩ := Nat.max_lt.1 h
    rcases List.mem_cons.1 hv with rfl | hv
    · exact hw
    · exact ih hitems hv

theorem longest_lt_of_mem_members (h : longestOfMembers members < n) (hv : (key, v) ∈ members) :
    key.utf8ByteSize < n ∧ v.longest < n := by
  induction members with
  | nil => simp at hv
  | cons m members ih =>
    obtain ⟨hm, hmembers⟩ := Nat.max_lt.1 h
    rcases List.mem_cons.1 hv with rfl | hv
    · exact Nat.max_lt.1 hm
    · exact ih hmembers hv

end Value

namespace MessagePack

variable {room : Nat} {item : Bytes → Option (Value × Bytes)}

/-- Gives a value back from what is written for it, whatever follows. -/
def ReadsBack (item : Bytes → Option (Value × Bytes)) (v : Value) : Prop :=
  ∀ rest, item (write v ++ rest) = some (v, rest)

theorem textOf?_ofText (s : String) (rest : Bytes) :
    textOf? s.utf8ByteSize (Bytes.ofText s ++ rest) = some (s, rest) := by
  simp [textOf?, take?_append (length_ofText s)]

theorem value?_int (room : Nat) {n : Int} (hlow : -0x8000000000000000 ≤ n)
    (hhigh : n < 0x10000000000000000) (rest : Bytes) :
    value? room (writeInt n ++ rest) = some (.int n, rest) := by
  unfold value? writeInt
  split_ifs with hn
  · simp [head?_writeNat (n := n.natAbs) (by omega), abs_of_nonneg hn]
  · simp [head?_writeNegative (n := n.natAbs) (by omega) (by omega), abs_of_neg (not_le.1 hn)]

theorem value?_string (room : Nat) {s : String} (h : s.utf8ByteSize < 0x100000000) (rest : Bytes) :
    value? room (writeString s ++ rest) = some (.string s, rest) := by
  unfold value?
  simp [head?_writeString h, textOf?_ofText]

theorem items?_write {items : List Value} (h : ∀ v ∈ items, ReadsBack item v) (rest : Bytes) :
    items? item items.length (writeItems items ++ rest) = some (items, rest) := by
  induction items with
  | nil => rfl
  | cons v items ih =>
    have hv := h v (by simp) (writeItems items ++ rest)
    have hitems := ih fun w hw => h w (by simp [hw])
    rw [writeItems, List.append_assoc, List.length_cons, items?, hv]
    simp [hitems]

/-- Members come in the order of their keys, so each is put behind those read before it. -/
theorem members?_write {ms : List (String × Value)} (sofar : List (String × Value))
    (h : ∀ k v, (k, v) ∈ ms → k.utf8ByteSize < 0x100000000 ∧ ReadsBack item v)
    (hsorted : Value.sorted ms = true) (hsofar : ∀ m ∈ sofar, ∀ n ∈ ms, m.1 < n.1) (rest : Bytes) :
    members? item ms.length sofar (writeMembers ms ++ rest) = some (sofar ++ ms, rest) := by
  induction ms generalizing sofar with
  | nil => simp [members?, writeMembers]
  | cons m ms ih =>
    obtain ⟨k, v⟩ := m
    obtain ⟨hk, hv⟩ := h k v (by simp)
    obtain ⟨hfirst, hsorted⟩ := Value.sorted_cons.1 hsorted
    have hput := Value.put_of_lt (fun m hm => hsofar m hm (k, v) (by simp)) v
    have hmembers := ih (sofar ++ [(k, v)]) (fun k w hw => h k w (by simp [hw])) hsorted
      (Value.below_concat hsofar hfirst)
    rw [writeMembers, List.append_assoc, List.append_assoc, List.length_cons, members?,
      head?_writeString hk]
    simp [textOf?_ofText, hv (writeMembers ms ++ rest), hput, hmembers]

theorem value?_write (v : Value) (room : Nat) (hv : v.Fits room)
    (hl : v.longest < 0x100000000) : ReadsBack (value? room) v := by
  intro rest
  match v with
  | .null => simp [value?, write, head?]
  | .bool c => cases c <;> simp [value?, write, head?]
  | .int n =>
    have hrange := hv.wellFormed
    simp only [Value.wellFormed, Bool.and_eq_true, decide_eq_true_eq] at hrange
    exact value?_int room hrange.1 hrange.2 rest
  | .double x =>
    have hdf := hv.doubleFree
    simp [Value.doubleFree] at hdf
  | .string s => exact value?_string room hl rest
  | .array items =>
    obtain ⟨room, rfl⟩ := hv.exists_room (by simp [Value.depth])
    obtain ⟨hlength, hlongest⟩ := Nat.max_lt.1 hl
    have hread : ∀ w ∈ items, ReadsBack (value? room) w := fun w hw =>
      value?_write w room (hv.of_mem_items hw) (Value.longest_lt_of_mem_items hlongest hw)
    rw [write, List.append_assoc, value?, head?_array hlength]
    simp [items?_write hread]
  | .object ms =>
    obtain ⟨room, rfl⟩ := hv.exists_room (by simp [Value.depth])
    obtain ⟨hlength, hlongest⟩ := Nat.max_lt.1 hl
    have hread : ∀ k w, (k, w) ∈ ms → k.utf8ByteSize < 0x100000000 ∧ ReadsBack (value? room) w := by
      intro k w hw
      obtain ⟨hk, hw'⟩ := Value.longest_lt_of_mem_members hlongest hw
      exact ⟨hk, value?_write w room (hv.of_mem_members hw) hw'⟩
    rw [write, List.append_assoc, value?, head?_map hlength]
    simp [members?_write [] hread hv.sorted (by simp)]
termination_by sizeOf v
decreasing_by
  · have := List.sizeOf_lt_of_mem hw
    simp
    omega
  · have := List.sizeOf_lt_of_mem hw
    simp at this ⊢
    omega

end MessagePack

end Switchboard
