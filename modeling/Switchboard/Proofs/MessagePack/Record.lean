import Switchboard.Proofs.MessagePack.Value
import Switchboard.Proofs.Record

/-! Records are read back from their bytes. -/
namespace Switchboard.MessagePack

variable {ρ : Type} {layout : Layout ρ} {x : ρ} {f : Field ρ} {v : Value} {rest : Bytes}
  {seen : List String}

theorem textContent?_write {s : String} (h : s.utf8ByteSize < 0x100000000) (rest : Bytes) :
    textContent? (writeString s ++ rest) = some (some s, rest) := by
  simp [textContent?, head?_writeString h, textOf?_ofText]

theorem countContent?_write (n : UInt64) (rest : Bytes) :
    countContent? (writeInt n.toNat ++ rest) = some (some n, rest) := by
  simp [countContent?, writeInt, head?_writeNat n.toNat_lt]

theorem flagContent?_write (rest : Bytes) :
    flagContent? (write (.bool true) ++ rest) = some (true, rest) := by
  simp [flagContent?, write, head?]

/-- Only the head of null is read as null where no doubles are. -/
theorem eq_null_of_head?_nil {room : Nat} {b rest' : Bytes} (h : value? room b = some (v, rest))
    (hhead : head? b = some (.nil, rest')) : v = .null := by
  unfold value? at h
  simp only [hhead, Option.bind_eq_bind, Option.bind_some] at h
  cases h
  rfl

theorem dataContent?_write (hv : v.Fits (maxDepth - 1)) (hl : v.longest < 0x100000000)
    (rest : Bytes) : dataContent? (write v ++ rest) = some (present (some v), rest) := by
  have hread := value?_write v (maxDepth - 1) hv hl rest
  by_cases hn : v = .null
  · simp [hn, dataContent?, write, head?, present]
  · rw [present_eq_self (by simpa using hn)]
    unfold dataContent?
    cases hhead : head? (write v ++ rest) with
    | none => simp [value?, hhead] at hread
    | some found =>
      obtain ⟨head, rest'⟩ := found
      simp only [Option.bind_eq_bind, Option.bind_some]
      split
      · exact absurd (eq_null_of_head?_nil hread hhead) hn
      · simp [hread]

/-- The entry of a field is read into the record as it is copied. -/
theorem fieldContent?_write (hv : f.entry? x = some v) (hfits : v.Fits (maxDepth - 1))
    (hl : v.longest < 0x100000000) (y : ρ) (rest : Bytes) :
    fieldContent? y (write v ++ rest) f = some (f.copy x y, rest) := by
  cases f with
  | text name get set =>
    obtain ⟨s, hs, rfl⟩ := Option.map_eq_some_iff.1 hv
    rw [fieldContent?, write, textContent?_write hl]
    simp [Field.copy, hs]
  | count name get set =>
    obtain ⟨n, hn, rfl⟩ := Option.map_eq_some_iff.1 hv
    rw [fieldContent?, write, countContent?_write]
    simp [Field.copy, hn]
  | flag name get set =>
    cases hb : get x with
    | false => simp [Field.entry?, hb] at hv
    | true =>
      obtain rfl : Value.bool true = v := by simpa [Field.entry?, hb] using hv
      rw [fieldContent?, flagContent?_write]
      simp [Field.copy, hb]
  | data name get set =>
    have hget : get x = some v := hv
    rw [fieldContent?, dataContent?_write hfits hl]
    simp [Field.copy, hget]

theorem keyOf?_write (hf : layout.find? f.name = some f) (h : f.name.utf8ByteSize < 0x100000000)
    (rest : Bytes) : keyOf? layout (writeString f.name ++ rest) = some (some f, rest) := by
  simp [keyOf?, head?_writeString h, take?_append (length_ofText _), hf]

/-- Fields that are still to come are each read once, and those without an entry stay unset. -/
theorem namedFields?_write {fs : List (Field ρ)} (seen : List String)
    (hfind : ∀ f ∈ fs, layout.find? f.name = some f) (hdistinct : (fs.map Field.name).Nodup)
    (hseen : ∀ f ∈ fs, f.name ∉ seen)
    (hfits : ∀ m ∈ Field.entries fs x, m.2.Fits (maxDepth - 1))
    (hl : Value.longestOfMembers (Field.entries fs x) < 0x100000000) (y : ρ) (rest : Bytes) :
    namedFields? layout (Field.entries fs x).length seen y
        (writeMembers (Field.entries fs x) ++ rest)
      = some (fs.foldl (fun y f => f.copy x y) y, rest) := by
  induction fs generalizing seen y with
  | nil => simp [Field.entries, namedFields?, writeMembers]
  | cons f fs ih =>
    rw [List.map_cons, List.nodup_cons] at hdistinct
    obtain ⟨hother, hdistinct⟩ := hdistinct
    have hfind' : ∀ g ∈ fs, layout.find? g.name = some g := fun g hg => hfind g (by simp [hg])
    rw [List.foldl_cons]
    cases hv : f.entry? x with
    | none =>
      rw [Field.entries_cons_none hv] at hfits hl ⊢
      rw [Field.copy_of_entry?_eq_none hv]
      exact ih seen hfind' hdistinct (fun g hg => hseen g (by simp [hg])) hfits hl y
    | some v =>
      rw [Field.entries_cons_some hv] at hfits hl ⊢
      obtain ⟨hname, hlongest⟩ := Value.longest_lt_of_mem_members hl List.mem_cons_self
      have hkey := keyOf?_write (hfind f (by simp)) hname
        (write v ++ (writeMembers (Field.entries fs x) ++ rest))
      have hcontent := fieldContent?_write hv (hfits (f.name, v) (by simp)) hlongest y
        (writeMembers (Field.entries fs x) ++ rest)
      have hfields := ih (f.name :: seen) hfind' hdistinct (Field.unseen_cons hother hseen)
        (fun m hm => hfits m (by simp [hm])) (Nat.max_lt.1 hl).2 (f.copy x y)
      rw [writeMembers, List.append_assoc, List.append_assoc, List.length_cons, namedFields?, hkey]
      simp [hseen f, hcontent, hfields]

/-- Every record whose data the reader has room for is read back, field by field. -/
theorem readRecord?_write (hdistinct : layout.Distinct)
    (hfits : ∀ m ∈ layout.entries x, m.2.Fits (maxDepth - 1))
    (hl : (Value.object (layout.entries x)).longest < 0x100000000) (rest : Bytes) :
    readRecord? layout (writeRecord layout x ++ rest) = some (layout.reread x) := by
  obtain ⟨hlength, hlongest⟩ := Nat.max_lt.1 hl
  have hfields := namedFields?_write [] (fun f => hdistinct.find?) hdistinct (by simp) hfits
    hlongest layout.blank rest
  rw [writeRecord, write, List.append_assoc, readRecord?, head?_map hlength]
  simp [Layout.entries_eq, hfields, Layout.reread]

end Switchboard.MessagePack
