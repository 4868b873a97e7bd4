import Switchboard.Proofs.Json.Value
import Switchboard.Proofs.Record

/-! Records are read back from their printed text. -/
namespace Switchboard.Json

variable {ρ α : Type} {layout : Layout ρ} {x y : ρ} {f : Field ρ} {v : Value}
  {seen : List String} {fuel : Nat} {c : UInt8} {b rest : Bytes}

theorem optional_null (inner : Bytes → Except Fault (α × Bytes)) (rest : Bytes) :
    optional inner (render .null ++ rest) = .ok (none, rest) := by
  simp [optional, render, skipSpace, isSpace, after?, wellFormedOr]

theorem optional_cons {inner : Bytes → Except Fault (α × Bytes)} (hs : isSpace c = false)
    (hc : c ≠ 110) (b : Bytes) :
    optional inner (c :: b) = (inner (c :: b)).map fun (z, rest) => (some z, rest) := by
  rw [optional, skipSpace_cons hs]
  split
  · rename_i heq
    exact absurd (List.cons.inj heq).1 hc
  · rfl

theorem textContent_render (s : String) (rest : Bytes) :
    optional textContent (renderString s ++ rest) = .ok (some s, rest) := by
  have hs : renderString s ++ rest = 34 :: ((Bytes.ofText s).flatMap escaped ++ 34 :: rest) := by
    simp [renderString]
  rw [hs, optional_cons (by decide) (by decide), textContent, text?_renderString]
  rfl

theorem countContent_render (n : UInt64) (h : EndsNumber rest) :
    optional countContent (renderInt n.toNat ++ rest) = .ok (some n, rest) := by
  have hn : number? false (digits n.toNat ++ rest) = some (.int n.toNat, rest) :=
    number?_nat h n.toNat_lt
  obtain ⟨c, ds, hd, hc⟩ := exists_cons_digits n.toNat
  rw [renderInt_ofNat]
  rw [hd, List.cons_append] at hn ⊢
  rw [optional_cons (isSpace_of_isDigit hc) (ne_of_isDigit hc (by decide)), countContent]
  · simp [hc, hn, wellFormedOr, countOf]
    rfl
  · exact ne_of_isDigit hc (by decide)

theorem flagContent_render (rest : Bytes) :
    flagContent (render (.bool true) ++ rest) = .ok (true, rest) := by
  simp [flagContent, render, skipSpace, isSpace, after?, wellFormedOr]

theorem dataContent_render (hv : v.Fits (maxDepth - 1)) (h : EndsValue rest) :
    optional (value (maxDepth - 1)) (render v ++ rest) = .ok (present (some v), rest) := by
  have hread := value_render v (maxDepth - 1) hv rest h
  by_cases hn : v = .null
  · rw [hn]
    exact optional_null _ rest
  · obtain ⟨c, b, hb, hspace, -, hc⟩ := exists_cons_render hv.doubleFree
    rw [hb, List.cons_append] at hread ⊢
    rw [optional_cons hspace fun he => hn (hc he), hread]
    cases v <;> first | rfl | exact absurd rfl hn

/-- The entry of a field is read into the record as it is copied. -/
theorem fieldContent_render (hv : f.entry? x = some v) (hfits : v.Fits (maxDepth - 1))
    (h : EndsValue rest) (y : ρ) :
    fieldContent y (render v ++ rest) f = .ok (f.copy x y, rest) := by
  cases f with
  | text name get set =>
    obtain ⟨s, hs, rfl⟩ := Option.map_eq_some_iff.1 hv
    rw [fieldContent, render, textContent_render]
    simp [Except.map, Field.copy, hs]
  | count name get set =>
    obtain ⟨n, hn, rfl⟩ := Option.map_eq_some_iff.1 hv
    rw [fieldContent, render, countContent_render n h.endsNumber]
    simp [Except.map, Field.copy, hn]
  | flag name get set =>
    cases hb : get x with
    | false => simp [Field.entry?, hb] at hv
    | true =>
      obtain rfl : Value.bool true = v := by simpa [Field.entry?, hb] using hv
      rw [fieldContent, flagContent_render]
      simp [Except.map, Field.copy, hb]
  | data name get set =>
    have hget : get x = some v := hv
    rw [fieldContent, dataContent_render hfits h]
    simp [Except.map, Field.copy, hget]

theorem namedFields_comma (fuel : Nat) (y : ρ) (b : Bytes) :
    namedFields layout (fuel + 1) false seen y (44 :: b) = (do
      let ((seen, y), rest) ← namedField layout seen y b
      namedFields layout fuel false seen y rest) := by
  simp [namedFields, skipSpace_cons (x := 44) (by decide)]

/-- The first field is read like one behind a comma. -/
theorem namedFields_first (fuel : Nat) (y : ρ) (b : Bytes) :
    namedFields layout (fuel + 1) true seen y (34 :: b)
      = namedFields layout (fuel + 1) false seen y (44 :: 34 :: b) := by
  rw [namedFields_comma]
  simp [namedFields, skipSpace_cons (x := 34) (by decide)]

theorem namedField_render (hf : layout.find? f.name = some f) (hseen : f.name ∉ seen)
    (hv : f.entry? x = some v) (hfits : v.Fits (maxDepth - 1)) (h : EndsValue rest) (y : ρ) :
    namedField layout seen y (renderString f.name ++ 58 :: (render v ++ rest))
      = .ok ((f.name :: seen, f.copy x y), rest) := by
  have hcontent := fieldContent_render hv hfits h y
  simp [namedField, renderString, skipSpace_cons (x := 34) (by decide), text?_renderString,
    wellFormedOr, hf, hseen, skipSpace_cons (x := 58) (by decide), hcontent]

/-- Fields that are still to come are each read once, and those without an entry stay unset. -/
theorem namedFields_separated {fs : List (Field ρ)} (seen : List String)
    (hfind : ∀ f ∈ fs, layout.find? f.name = some f) (hdistinct : (fs.map Field.name).Nodup)
    (hseen : ∀ f ∈ fs, f.name ∉ seen)
    (hfits : ∀ m ∈ Field.entries fs x, m.2.Fits (maxDepth - 1))
    (hfuel : (Field.entries fs x).length < fuel) (y : ρ) (rest : Bytes) :
    namedFields layout fuel false seen y
        (separated false (renderMembers (Field.entries fs x)) ++ 125 :: rest)
      = .ok (fs.foldl (fun y f => f.copy x y) y, rest) := by
  induction fs generalizing fuel seen y with
  | nil =>
    obtain ⟨fuel, rfl⟩ := Nat.exists_eq_add_one.2 hfuel
    simp [Field.entries, renderMembers, separated, namedFields, skipSpace, isSpace]
  | cons f fs ih =>
    rw [List.map_cons, List.nodup_cons] at hdistinct
    obtain ⟨hother, hdistinct⟩ := hdistinct
    have hfind' : ∀ g ∈ fs, layout.find? g.name = some g := fun g hg => hfind g (by simp [hg])
    rw [List.foldl_cons]
    cases hv : f.entry? x with
    | none =>
      rw [Field.entries_cons_none hv] at hfits hfuel ⊢
      rw [Field.copy_of_entry?_eq_none hv]
      exact ih seen hfind' hdistinct (fun g hg => hseen g (by simp [hg])) hfits hfuel y
    | some v =>
      rw [Field.entries_cons_some hv] at hfits hfuel ⊢
      obtain ⟨fuel, rfl⟩ := Nat.exists_eq_add_one.2 (Nat.zero_lt_of_lt hfuel)
      have hrest := endsValue_separated (renderMembers (Field.entries fs x)) (endsValue_curly rest)
      have hfield := namedField_render (hfind f (by simp)) (hseen f (by simp)) hv
        (hfits (f.name, v) (by simp)) hrest y
      have hfields := ih (f.name :: seen) hfind' hdistinct (Field.unseen_cons hother hseen)
        (fun m hm => hfits m (by simp [hm])) (Nat.lt_of_succ_lt_succ hfuel) (f.copy x y)
      rw [renderMembers, separated, List.cons_append, List.cons_append, List.append_assoc,
        List.append_assoc, List.cons_append, namedFields_comma]
      simp only [hfield, ok_bind, hfields]

/-- The fields of a whole record are read like fields behind a comma. -/
theorem namedFields_start (fuel : Nat) (ms : List (String × Value)) (y : ρ) (rest : Bytes) :
    namedFields layout (fuel + 1) true seen y (separated true (renderMembers ms) ++ 125 :: rest)
      = namedFields layout (fuel + 1) false seen y
          (separated false (renderMembers ms) ++ 125 :: rest) := by
  cases ms with
  | nil => simp [renderMembers, separated, namedFields, skipSpace, isSpace]
  | cons m ms =>
    simp only [renderMembers, separated, renderString, List.cons_append]
    rw [namedFields_first]

/-- Reading a printed record is reading its entries, with fuel for each. -/
theorem record_render (layout : Layout ρ) (x : ρ) :
    ∃ fuel, (Field.entries layout.fields x).length < fuel ∧
      record layout (renderRecord layout x) = namedFields layout fuel false [] layout.blank
        (separated false (renderMembers (Field.entries layout.fields x)) ++ [125]) := by
  have hfuel := length_lt_fuel (renderMembers (Field.entries layout.fields x)) 125 []
  rw [length_renderMembers] at hfuel
  refine ⟨_, hfuel, ?_⟩
  rw [← namedFields_start, renderRecord, render, List.cons_append, record,
    skipSpace_cons (by decide), Layout.entries_eq]
  rfl

/-- Every record whose data the reader has room for is read back, field by field. -/
theorem readRecord_render (hdistinct : layout.Distinct)
    (hfits : ∀ m ∈ layout.entries x, m.2.Fits (maxDepth - 1)) :
    readRecord layout (renderRecord layout x) = .ok (layout.reread x) := by
  obtain ⟨fuel, hfuel, hrecord⟩ := record_render layout x
  rw [readRecord, hrecord, namedFields_separated [] (fun f => hdistinct.find?) hdistinct (by simp)
    hfits hfuel]
  rfl

end Switchboard.Json
