import Switchboard.Proofs.Json.Grammar
import Switchboard.Proofs.Json.Record

/-! Text may be spelled in several ways between its quotes, and a record's members may stand in any
order. Whichever way they are written, they are read as the same text and the same fields. -/
namespace Switchboard.Json

variable {ρ : Type} {layout : Layout ρ} {content raw rest : Bytes} {s : String} {y : ρ}
  {seen : List String} {v : Value} {f : Field ρ}

/-- The bytes between the quotes spell some content. -/
inductive Spells : (content raw : Bytes) → Prop
  | nil : Spells [] []
  | plain {x : UInt8} {content raw : Bytes} (hcontrol : 32 ≤ x) (hquote : x ≠ 34)
      (hslash : x ≠ 92) (h : Spells content raw) : Spells (x :: content) (x :: raw)
  | escape {x y : UInt8} {content raw : Bytes} (hx : escape? x = some y)
      (h : Spells content raw) : Spells (y :: content) (92 :: x :: raw)
  | unit {p q r t : UInt8} {n : Nat} {content raw : Bytes} (hn : hexUnit? p q r t = some n)
      (hlow : isLowSurrogate n = false) (hhigh : isHighSurrogate n = false)
      (h : Spells content raw) :
      Spells (encoded n ++ content) (92 :: 117 :: p :: q :: r :: t :: raw)
  | pair {p q r t p' q' r' t' : UInt8} {n m : Nat} {content raw : Bytes}
      (hn : hexUnit? p q r t = some n) (hm : hexUnit? p' q' r' t' = some m)
      (hhigh : isHighSurrogate n = true) (hlow : isLowSurrogate m = true)
      (h : Spells content raw) :
      Spells (encoded (0x10000 + (n - 0xD800) * 1024 + (m - 0xDC00)) ++ content)
        (92 :: 117 :: p :: q :: r :: t :: 92 :: 117 :: p' :: q' :: r' :: t' :: raw)

theorem Spells.quoted (h : Spells content raw) : Quoted raw := by
  induction h with
  | nil => exact .nil
  | plain hcontrol hquote hslash h ih => exact .plain hcontrol hquote hslash ih
  | escape hx h ih => exact .escape hx ih
  | unit hn hlow hhigh h ih => exact .unit hn ih
  | pair hn hm hhigh hlow h ih => exact .unit hn (.unit hm ih)

theorem content?_spells (h : Spells content raw) (rest : Bytes) :
    content? (raw ++ 34 :: rest) = some (content, rest) := by
  induction h with
  | nil => simp [content?]
  | plain hcontrol hquote hslash h ih =>
    have hlow := UInt8.not_lt.2 hcontrol
    simp [content?, hslash, hlow, ih, prepend]
  | escape hx h ih => simp [content?, escape?_ne_unit hx, hx, ih, prepend]
  | unit hn hlow hhigh h ih => simp [content?, hn, hlow, hhigh, ih, prepend]
  | pair hn hm hhigh hlow h ih =>
    rename_i n m content raw
    have hfirst : isLowSurrogate n = false := by
      simp only [isHighSurrogate, Bool.and_eq_true, decide_eq_true_eq] at hhigh
      simp [isLowSurrogate]
      omega
    simp [content?, hn, hm, hhigh, hlow, hfirst, ih, prepend]

theorem text?_spells (h : Spells (Bytes.ofText s) raw) (rest : Bytes) :
    text? (raw ++ 34 :: rest) = some (s, rest) := by
  simp [text?, content?_spells h]

theorem Spells.append {content' raw' : Bytes} (h : Spells content raw)
    (h' : Spells content' raw') : Spells (content ++ content') (raw ++ raw') := by
  induction h with
  | nil => exact h'
  | plain hcontrol hquote hslash h ih => exact .plain hcontrol hquote hslash ih
  | escape hx h ih => exact .escape hx ih
  | unit hn hlow hhigh h ih =>
    rw [List.append_assoc]
    exact .unit hn hlow hhigh ih
  | pair hn hm hhigh hlow h ih =>
    rw [List.append_assoc]
    exact .pair hn hm hhigh hlow ih

theorem spells_control {x : UInt8} (h : x < 32) :
    Spells [x] [92, 117, 48, 48, hexByte (x.toNat / 16), hexByte (x.toNat % 16)] := by
  have hn : x.toNat < 32 := h
  have hspells := Spells.unit (hexUnit?_hexByte _ hn) (by simp [isLowSurrogate]; omega)
    (by simp [isHighSurrogate]; omega) .nil
  rwa [encoded_of_control _ hn, UInt8.ofNat_toNat] at hspells

theorem spells_escaped (x : UInt8) : Spells [x] (escaped x) := by
  unfold escaped
  split_ifs with h34 h92 h8 h9 h10 h12 h13 hc
  case pos | pos | pos | pos | pos | pos | pos => all_goals
    subst x
    exact .escape (by decide) .nil
  case pos => exact spells_control hc
  case neg => exact .plain (UInt8.not_lt.1 hc) h34 h92 .nil

/-- Printing is one of the ways of spelling. -/
theorem spells_flatMap (content : Bytes) : Spells content (content.flatMap escaped) := by
  induction content with
  | nil => exact .nil
  | cons x content ih => exact (spells_escaped x).append ih

/-- The texts of a value that a record has for a text or for a flag that is set. -/
inductive Spelled : Value → Bytes → Prop
  | text {s : String} {raw : Bytes} (h : Spells (Bytes.ofText s) raw) :
      Spelled (.string s) (34 :: (raw ++ [34]))
  | flag : Spelled (.bool true) (render (.bool true))

theorem optional_space {α : Type} {space : Bytes} (inner : Bytes → Except Fault (α × Bytes))
    (h : Space space) (b : Bytes) : optional inner (space ++ b) = optional inner b := by
  rw [optional, optional, skipSpace_append h]

/-- Space before the content of a field makes no difference. -/
theorem fieldContent_space {space : Bytes} (h : Space space) (b : Bytes) :
    fieldContent y (space ++ b) f = fieldContent y b f := by
  cases f <;> simp only [fieldContent, optional_space _ h, flagContent, skipSpace_append h]

theorem value_spelled (h : Spelled v content) (room : Nat) (rest : Bytes) :
    value room (content ++ rest) = .ok (v, rest) := by
  cases h with
  | text h =>
    unfold value
    simp [skipSpace_cons (x := 34) (by decide), text?_spells h, wellFormedOr]
  | flag => exact value_bool room true rest

/-- The content of a field is read into a record as it is copied, however it is spelled. -/
theorem fieldContent_spelled {x : ρ} (hv : f.entry? x = some v) (h : Spelled v content) (y : ρ)
    (rest : Bytes) : fieldContent y (content ++ rest) f = .ok (f.copy x y, rest) := by
  cases f with
  | text name get set =>
    obtain ⟨s, hs, rfl⟩ := Option.map_eq_some_iff.1 hv
    obtain ⟨h⟩ := h
    simp only [fieldContent, List.cons_append, List.append_assoc, List.nil_append]
    rw [optional_cons (by decide) (by decide), textContent, text?_spells h]
    simp [wellFormedOr, Except.map, Field.copy, hs]
  | count name get set =>
    obtain ⟨n, -, rfl⟩ := Option.map_eq_some_iff.1 hv
    cases h
  | flag name get set =>
    cases hb : get x with
    | false => simp [Field.entry?, hb] at hv
    | true =>
      obtain rfl : Value.bool true = v := by simpa [Field.entry?, hb] using hv
      cases h
      rw [fieldContent, flagContent_render]
      simp [Except.map, Field.copy, hb]
  | data name get set =>
    have hget : get x = some v := hv
    have hread := value_spelled h (maxDepth - 1) rest
    cases h with
    | text h =>
      simp only [List.cons_append] at hread ⊢
      rw [fieldContent, optional_cons (by decide) (by decide), hread]
      simp [Except.map, Field.copy, hget, present]
    | flag =>
      simp only [render, List.cons_append] at hread ⊢
      rw [fieldContent, optional_cons (by decide) (by decide), hread]
      simp [Except.map, Field.copy, hget, present]

/-- The bytes between the quotes of a member's name. -/
def Entry.name (e : Entry .curly) : Bytes :=
  match e.label with
  | .member _ name .. => name

theorem Entry.text_member (e : Entry .curly) : ∃ lead trail, Space lead ∧ Space trail ∧
    e.text =
      lead ++ 34 :: (e.name ++ 34 :: (trail ++ 58 :: (e.before ++ (e.content ++ e.after)))) := by
  obtain ⟨label, before, content, after, -, -⟩ := e
  cases label with
  | member lead name trail hlead hquoted htrail =>
    exact ⟨lead, trail, hlead, htrail, by simp [Entry.text, Label.text, Entry.name]⟩

/-- A member is a field by its name, however that is spelled. -/
theorem namedField_known {e : Entry .curly} {z : ρ} (hname : Spells (Bytes.ofText f.name) e.name)
    (hf : layout.find? f.name = some f) (hseen : f.name ∉ seen) (rest : Bytes)
    (hcontent : fieldContent y (e.content ++ (e.after ++ rest)) f = .ok (z, e.after ++ rest)) :
    namedField layout seen y (e.text ++ rest) = .ok ((f.name :: seen, z), e.after ++ rest) := by
  obtain ⟨lead, trail, hlead, htrail, htext⟩ := e.text_member
  rw [← fieldContent_space e.space_before] at hcontent
  simp [htext, namedField, skipSpace_append hlead, skipSpace_cons (x := 34) (by decide),
    text?_spells hname, wellFormedOr, hf, hseen, skipSpace_append htrail,
    skipSpace_cons (x := 58) (by decide), hcontent]

/-- A member that is no field is passed over. -/
theorem namedField_further {e : Entry .curly} (hname : Spells (Bytes.ofText s) e.name)
    (hs : layout.find? s = none) (hv : IsValue e.content) (hrest : EndsNumber rest) :
    namedField layout seen y (e.text ++ rest) = .ok ((seen, y), e.after ++ rest) := by
  obtain ⟨lead, trail, hlead, htrail, htext⟩ := e.text_member
  have hskip := skipValue?_append hv e.space_before (endsNumber_space e.space_after hrest)
  simp [htext, namedField, skipSpace_append hlead, skipSpace_cons (x := 34) (by decide),
    text?_spells hname, wellFormedOr, hs, skipSpace_append htrail,
    skipSpace_cons (x := 58) (by decide), hskip]

/-- The members of an object, of which some are the fields of `x`, in this order, and the further
ones have other names. -/
inductive Members (layout : Layout ρ) (x : ρ) : List (Field ρ) → List (Entry .curly) → Prop
  | nil : Members layout x [] []
  | field {f : Field ρ} {v : Value} {e : Entry .curly} {fs : List (Field ρ)}
      {es : List (Entry .curly)} (hf : f ∈ layout.fields) (hv : f.entry? x = some v)
      (hname : Spells (Bytes.ofText f.name) e.name) (hcontent : Spelled v e.content)
      (h : Members layout x fs es) : Members layout x (f :: fs) (e :: es)
  | further {s : String} {e : Entry .curly} {fs : List (Field ρ)} {es : List (Entry .curly)}
      (hname : Spells (Bytes.ofText s) e.name) (hs : layout.find? s = none)
      (hcontent : IsValue e.content) (h : Members layout x fs es) : Members layout x fs (e :: es)

theorem namedFields_space {space : Bytes} (h : Space space) (fuel : Nat) (first : Bool)
    (b : Bytes) :
    namedFields layout fuel first seen y (space ++ b) = namedFields layout fuel first seen y b := by
  cases fuel with
  | zero => rfl
  | succ fuel =>
    unfold namedFields
    rw [skipSpace_append h]

/-- Each field is read once, and the further members are passed over. -/
theorem namedFields_members {x : ρ} {fs : List (Field ρ)} {es : List (Entry .curly)}
    (h : Members layout x fs es) (hlayout : layout.Distinct) (seen : List String)
    (hdistinct : (fs.map Field.name).Nodup) (hseen : ∀ f ∈ fs, f.name ∉ seen) {fuel : Nat}
    (hfuel : es.length < fuel) (y : ρ) (rest : Bytes) :
    namedFields layout fuel false seen y
        (separated false (es.map Entry.text) ++ 125 :: rest)
      = .ok (fs.foldl (fun y f => f.copy x y) y, rest) := by
  induction h generalizing fuel seen y with
  | nil =>
    obtain ⟨fuel, rfl⟩ := Nat.exists_eq_add_one.2 hfuel
    simp [separated, namedFields, skipSpace_cons (x := 125) (by decide)]
  | @field f v e fs es hf hv hname hcontent h ih =>
    obtain ⟨fuel, rfl⟩ := Nat.exists_eq_add_one.2 (Nat.zero_lt_of_lt hfuel)
    rw [List.map_cons, List.nodup_cons] at hdistinct
    obtain ⟨hother, hdistinct⟩ := hdistinct
    have hread := namedField_known hname (hlayout.find? hf) (hseen f (by simp)) _
      (fieldContent_spelled hv hcontent y (e.after ++
        (separated false (es.map Entry.text) ++ 125 :: rest)))
    have hfields := ih (f.name :: seen) hdistinct (Field.unseen_cons hother hseen)
      (Nat.lt_of_succ_lt_succ hfuel) (f.copy x y)
    rw [List.map_cons, separated, List.cons_append, List.cons_append, List.append_assoc,
      namedFields_comma, hread]
    simp only [ok_bind, namedFields_space e.space_after, hfields, List.foldl_cons]
  | @further s e fs es hname hs hcontent h ih =>
    obtain ⟨fuel, rfl⟩ := Nat.exists_eq_add_one.2 (Nat.zero_lt_of_lt hfuel)
    have hread : namedField layout seen y
          (e.text ++ (separated false (es.map Entry.text) ++ 125 :: rest))
        = .ok ((seen, y), e.after ++ (separated false (es.map Entry.text) ++ 125 :: rest)) :=
      namedField_further hname hs hcontent (endsNumber_entries es rest)
    have hfields := ih seen hdistinct hseen (Nat.lt_of_succ_lt_succ hfuel) y
    rw [List.map_cons, separated, List.cons_append, List.cons_append, List.append_assoc,
      namedFields_comma, hread]
    simp only [ok_bind, namedFields_space e.space_after, hfields]

/-- The members of a whole object are read like members behind a comma. -/
theorem namedFields_open {space : Bytes} (h : Space space) (fuel : Nat) (es : List (Entry .curly))
    (rest : Bytes) :
    namedFields layout (fuel + 1) true seen y
        (space ++ (separated true (es.map Entry.text) ++ 125 :: rest))
      = namedFields layout (fuel + 1) false seen y
          (separated false (es.map Entry.text) ++ 125 :: rest) := by
  rw [namedFields_space h]
  cases es with
  | nil => simp [separated, namedFields, skipSpace_cons (x := 125) (by decide)]
  | cons e es =>
    obtain ⟨lead, trail, hlead, -, htext⟩ := e.text_member
    simp only [List.map_cons, separated, htext, List.append_assoc, List.cons_append]
    rw [namedFields_space hlead, namedFields_first, namedFields_comma, namedFields_comma]
    simp only [namedField, skipSpace_append hlead]

/-- The bytes are an object of the entries of `x`, in any order and with any space and spelling,
and of further members with other names. -/
def Tells (layout : Layout ρ) (x : ρ) (b : Bytes) : Prop :=
  ∃ fs es lead space trail, Members layout x fs es ∧
    fs.Perm (layout.fields.filter fun f => (f.entry? x).isSome) ∧
    Space lead ∧ Space space ∧ Space trail ∧
    b = lead ++ 123 :: (space ++ (separated true (es.map Entry.text) ++ 125 :: trail))

/-- Fields without an entry may be left out when a record is put together. -/
theorem foldl_filter_copy (fs : List (Field ρ)) (x y : ρ) :
    (fs.filter fun f => (f.entry? x).isSome).foldl (fun y f => f.copy x y) y
      = fs.foldl (fun y f => f.copy x y) y := by
  induction fs generalizing y with
  | nil => rfl
  | cons f fs ih =>
    cases hv : f.entry? x with
    | none => simp [hv, ih, Field.copy_of_entry?_eq_none hv]
    | some v => simp [hv, ih]

/-- Whatever object tells of a record, the record is read from it, provided that the order in which
its fields are set makes no difference. -/
theorem readRecord_tells {x : ρ} {b : Bytes} (h : Tells layout x b) (hlayout : layout.Distinct)
    (hcomm : ∀ f ∈ layout.fields, ∀ g ∈ layout.fields, ∀ y,
      g.copy x (f.copy x y) = f.copy x (g.copy x y)) :
    readRecord layout b = .ok (layout.reread x) := by
  obtain ⟨fs, es, lead, space, trail, hmembers, hperm, hlead, hspace, htrail, rfl⟩ := h
  have hmem : ∀ f ∈ fs, f ∈ layout.fields := fun f hf =>
    List.mem_of_mem_filter (hperm.mem_iff.1 hf)
  have hdistinct : (fs.map Field.name).Nodup :=
    (hperm.map Field.name).nodup_iff.2 (hlayout.sublist (List.filter_sublist.map _))
  have hfuel : es.length <
      (space ++ (separated true (es.map Entry.text) ++ 125 :: trail)).length + 1 := by
    have hlength := length_lt_fuel (es.map Entry.text) 125 trail
    rw [List.length_map] at hlength
    rw [List.length_append]
    omega
  have hfields := namedFields_members hmembers hlayout [] hdistinct (by simp) hfuel layout.blank
    trail
  have hrecord : fs.foldl (fun y f => f.copy x y) layout.blank = layout.reread x := by
    rw [hperm.foldl_eq' fun f hf g hg y => hcomm f (hmem f hf) g (hmem g hg) y, foldl_filter_copy]
    rfl
  have hend : skipSpace trail = [] := List.dropWhile_eq_nil_iff.2 htrail
  rw [readRecord, record, skipSpace_append hlead, skipSpace_cons (by decide)]
  simp only [namedFields_open hspace, hfields, hrecord, complete, ok_bind, hend, if_pos]
  rfl

/-- A member as it is printed. -/
def Entry.printed (m : String × Value) : Entry .curly where
  label := .member [] ((Bytes.ofText m.1).flatMap escaped) [] space_nil
    (spells_flatMap (Bytes.ofText m.1)).quoted space_nil
  content := render m.2

theorem map_text_printed (ms : List (String × Value)) :
    (ms.map Entry.printed).map Entry.text = renderMembers ms := by
  induction ms with
  | nil => rfl
  | cons m ms ih =>
    rw [List.map_cons, List.map_cons, ih]
    simp [renderMembers, Entry.text, Entry.printed, Label.text, renderString]

theorem members_printed {x : ρ} {fs : List (Field ρ)} (hfs : ∀ f ∈ fs, f ∈ layout.fields)
    (h : ∀ f ∈ fs, ∀ v, f.entry? x = some v → Spelled v (render v)) :
    Members layout x (fs.filter fun f => (f.entry? x).isSome)
      ((Field.entries fs x).map Entry.printed) := by
  induction fs with
  | nil => exact .nil
  | cons f fs ih =>
    have hrest := ih (fun g hg => hfs g (by simp [hg])) fun g hg => h g (by simp [hg])
    cases hv : f.entry? x with
    | none => simpa [Field.entries_cons_none hv, hv] using hrest
    | some v =>
      rw [Field.entries_cons_some hv, List.filter_cons_of_pos (by simp [hv])]
      exact .field (hfs f (by simp)) hv (spells_flatMap _) (h f (by simp) v hv) hrest

/-- What is printed of a record of texts and flags tells of it. -/
theorem tells_renderRecord {x : ρ}
    (h : ∀ f ∈ layout.fields, ∀ v, f.entry? x = some v → Spelled v (render v)) :
    Tells layout x (renderRecord layout x) := by
  refine ⟨_, _, [], [], [], members_printed (fun f hf => hf) h, .refl _, by decide, by decide,
    by decide, ?_⟩
  rw [map_text_printed, renderRecord, render, Layout.entries_eq]
  simp

end Switchboard.Json
