import Switchboard.Proofs.Json.Value

/-! The grammar of JSON, byte by byte. What is not asked for in a record is passed over whenever it
is a value of this grammar, to whatever depth, with whatever space in it. -/
namespace Switchboard.Json

variable {b c rest space content : Bytes} {x : UInt8} {s : String} {fuel : Nat}
  {opened : List Bracket} {bracket : Bracket}

/-- What may stand between the parts of a text. -/
def Space (b : Bytes) : Prop := ∀ x ∈ b, isSpace x = true

instance (b : Bytes) : Decidable (Space b) := List.decidableBAll _ b

theorem space_nil : Space [] := by decide

theorem space_blank : Space [32] := by decide

theorem skipSpace_append (h : Space space) (b : Bytes) : skipSpace (space ++ b) = skipSpace b :=
  List.dropWhile_append_of_pos h

/-- What stands between the quotes of a text. -/
inductive Quoted : Bytes → Prop
  | nil : Quoted []
  | plain {x : UInt8} {b : Bytes} (hcontrol : 32 ≤ x) (hquote : x ≠ 34) (hslash : x ≠ 92)
      (h : Quoted b) : Quoted (x :: b)
  | escape {x y : UInt8} {b : Bytes} (hx : escape? x = some y) (h : Quoted b) :
      Quoted (92 :: x :: b)
  | unit {p q r t : UInt8} {n : Nat} {b : Bytes} (hn : hexUnit? p q r t = some n) (h : Quoted b) :
      Quoted (92 :: 117 :: p :: q :: r :: t :: b)

theorem escape?_ne_unit {x y : UInt8} (h : escape? x = some y) : x ≠ 117 := by
  rintro rfl
  cases h

theorem skipText?_quoted (h : Quoted b) (rest : Bytes) :
    skipText? (b ++ 34 :: rest) = some rest := by
  induction h with
  | nil => simp [skipText?]
  | plain hcontrol hquote hslash h ih =>
    have hlow := UInt8.not_lt.2 hcontrol
    simpa [skipText?, hquote, hslash, hlow] using ih
  | escape hx h ih => simpa [skipText?, escape?_ne_unit hx, hx] using ih
  | unit hn h ih => simpa [skipText?, hn] using ih

inductive Fraction : Bytes → Prop
  | none : Fraction []
  | some {b : Bytes} (h : Digits b) : Fraction (46 :: b)

inductive Exponent : Bytes → Prop
  | none : Exponent []
  | some {x : UInt8} {sign b : Bytes} (hx : x = 101 ∨ x = 69) (hsign : sign ∈ [[], [43], [45]])
      (h : Digits b) : Exponent (x :: (sign ++ b))

/-- A number without its sign. -/
inductive Unsigned : Bytes → Prop
  | mk {whole fraction exponent : Bytes} (hw : Whole whole) (hf : Fraction fraction)
      (he : Exponent exponent) : Unsigned (whole ++ (fraction ++ exponent))

theorem someDigits?_append (h : Digits b) (hrest : EndsDigits rest) :
    someDigits? (b ++ rest) = some (b, rest) := by
  rw [someDigits?, spanDigits_append h.2 hrest]
  obtain ⟨x, b, rfl⟩ := List.exists_cons_of_ne_nil h.1
  rfl

theorem fraction?_append (h : Fraction b) (hdigits : EndsDigits rest)
    (hpoint : rest.head? ≠ some 46) : ∃ ds, fraction? (b ++ rest) = some (ds, rest) := by
  cases h with
  | none => exact ⟨[], fraction?_of_ne hpoint⟩
  | some h => exact ⟨_, someDigits?_append h hdigits⟩

theorem exponent?_append (h : Exponent b) (hrest : EndsNumber rest) :
    ∃ e, exponent? (b ++ rest) = some (e, rest) := by
  cases h with
  | none => exact ⟨none, exponent?_of_ends hrest⟩
  | some hx hsign h =>
    have hread := someDigits?_append h hrest.endsDigits
    simp only [List.mem_cons, List.not_mem_nil, or_false] at hsign
    rcases hsign with rfl | rfl | rfl
    · -- The digit behind the letter is not taken for a sign.
      obtain ⟨hne, hdigits⟩ := h
      obtain ⟨d, ds, rfl⟩ := List.exists_cons_of_ne_nil hne
      have hplus : d ≠ 43 := ne_of_isDigit (hdigits d (by simp)) (by decide)
      have hminus : d ≠ 45 := ne_of_isDigit (hdigits d (by simp)) (by decide)
      rw [List.cons_append] at hread
      simp [exponent?, hx, hplus, hminus, hread]
    · simp [exponent?, hx, hread]
    · simp [exponent?, hx, hread]

theorem EndsNumber.exponent (h : EndsNumber rest) (he : Exponent b) :
    EndsDigits (b ++ rest) ∧ (b ++ rest).head? ≠ some 46 := by
  cases he with
  | none => exact ⟨h.endsDigits, fun hx => (h 46 hx).2.1 rfl⟩
  | some hx => rcases hx with rfl | rfl <;> simp [EndsDigits, Bytes.isDigit]

theorem EndsDigits.fraction (h : EndsDigits rest) (hf : Fraction b) : EndsDigits (b ++ rest) := by
  cases hf with
  | none => exact h
  | some => simp [EndsDigits, Bytes.isDigit]

theorem skipNumber?_unsigned (h : Unsigned b) (hrest : EndsNumber rest) :
    skipNumber? (b ++ rest) = some rest := by
  obtain ⟨hw, hf, he⟩ := h
  obtain ⟨hends, hpoint⟩ := hrest.exponent he
  obtain ⟨ds, hfraction⟩ := fraction?_append hf hends hpoint
  obtain ⟨e, hexponent⟩ := exponent?_append he hrest
  rw [List.append_assoc, List.append_assoc]
  simp [skipNumber?, integerDigits?_append hw (hends.fraction hf), hfraction, hexponent]

/-- What stands before an entry of a container: nothing in an array, a name in an object. -/
inductive Label : Bracket → Type
  | item : Label .square
  | member (lead name trail : Bytes) (hlead : Space lead) (hname : Quoted name)
      (htrail : Space trail) : Label .curly

def Label.text {bracket : Bracket} : Label bracket → Bytes
  | item => []
  | member lead name trail .. => lead ++ 34 :: (name ++ 34 :: (trail ++ [58]))

/-- An entry of a container, with the space around it. -/
structure Entry (bracket : Bracket) where
  label : Label bracket
  before : Bytes := []
  content : Bytes
  after : Bytes := []
  space_before : Space before := by decide
  space_after : Space after := by decide

def Entry.text (e : Entry bracket) : Bytes := e.label.text ++ (e.before ++ (e.content ++ e.after))

def Bracket.opening : Bracket → UInt8
  | square => 91
  | curly => 123

def Bracket.closing : Bracket → UInt8
  | square => 93
  | curly => 125

/-- The values of the grammar. -/
inductive IsValue : Bytes → Prop
  | null : IsValue [110, 117, 108, 108]
  | bool (c : Bool) : IsValue (render (.bool c))
  | number {b : Bytes} (h : Unsigned b) : IsValue b
  | negative {b : Bytes} (h : Unsigned b) : IsValue (45 :: b)
  | text {b : Bytes} (h : Quoted b) : IsValue (34 :: (b ++ [34]))
  | container {bracket : Bracket} {space : Bytes} {entries : List (Entry bracket)}
      (hspace : Space space) (h : ∀ e ∈ entries, IsValue e.content) :
      IsValue (bracket.opening ::
        (space ++ (separated true (entries.map Entry.text) ++ [bracket.closing])))

theorem Unsigned.exists_cons (h : Unsigned b) : ∃ x c, b = x :: c ∧ Bytes.isDigit x = true := by
  obtain ⟨⟨⟨hne, hdigits⟩, -⟩, -, -⟩ := h
  obtain ⟨x, ds, rfl⟩ := List.exists_cons_of_ne_nil hne
  exact ⟨x, _, List.cons_append, hdigits x (by simp)⟩

/-- Neither space nor the end of an array can be taken for the beginning of a value. -/
theorem IsValue.exists_cons (h : IsValue b) : ∃ x c, b = x :: c ∧ isSpace x = false ∧ x ≠ 93 := by
  cases h with
  | null => exact ⟨110, _, rfl, by decide, by decide⟩
  | bool c => cases c <;> exact ⟨_, _, rfl, by decide, by decide⟩
  | number h =>
    obtain ⟨x, c, rfl, hx⟩ := h.exists_cons
    exact ⟨x, c, rfl, isSpace_of_isDigit hx, ne_of_isDigit hx (by decide)⟩
  | negative h => exact ⟨45, _, rfl, by decide, by decide⟩
  | text h => exact ⟨34, _, rfl, by decide, by decide⟩
  | @container bracket => cases bracket <;> exact ⟨_, _, rfl, by decide, by decide⟩

/-- Space makes no difference, but for the end of a pass. -/
theorem skip?_space {place : Place} (hspace : Space space)
    (hplace : place = .before ∨ opened ≠ []) (b : Bytes) :
    skip? fuel opened place (space ++ b) = skip? fuel opened place b := by
  cases fuel with
  | zero => rfl
  | succ fuel =>
    cases place with
    | before => rw [skip?, skip?, skipSpace_append hspace]
    | behind =>
      obtain ⟨bracket, opened, rfl⟩ := List.exists_cons_of_ne_nil (hplace.resolve_left (by decide))
      cases bracket <;> rw [skip?, skip?, skipSpace_append hspace]

theorem skipName?_member {lead name trail : Bytes} (hlead : Space lead) (hname : Quoted name)
    (htrail : Space trail) (rest : Bytes) :
    skipName? (lead ++ 34 :: (name ++ 34 :: (trail ++ 58 :: rest))) = some rest := by
  have hquote := skipText?_quoted hname (trail ++ 58 :: rest)
  have hcolon : skipSpace (trail ++ 58 :: rest) = 58 :: rest := by
    rw [skipSpace_append htrail, skipSpace_cons (by decide)]
  simp [skipName?, skipSpace_append hlead, skipSpace_cons (x := 34) (by decide), hquote, hcolon]

/-- Behind a comma an entry's label is passed over, and its value is next. -/
theorem skip?_comma (label : Label bracket) (b : Bytes) :
    skip? (fuel + 1) (bracket :: opened) .behind (44 :: (label.text ++ b))
      = skip? fuel (bracket :: opened) .before b := by
  cases label with
  | item => rfl
  | member lead name trail hlead hname htrail =>
    have hround (c : Bytes) : skip? (fuel + 1) (.curly :: opened) .behind (44 :: c)
        = (skipName? c).bind (skip? fuel (.curly :: opened) .before ·) := rfl
    have hread := skipName?_member hlead hname htrail b
    simp [hround, Label.text, hread]

theorem skip?_close (rest : Bytes) :
    skip? (fuel + 1) (bracket :: opened) .behind (bracket.closing :: rest)
      = skip? fuel opened .behind rest := by
  cases bracket <;> rfl

/-- Before a value it makes no difference to a round what is still open. -/
theorem skip?_square (b : Bytes) :
    skip? (fuel + 1) opened .before (91 :: b) =
      match skipSpace b with
      | 93 :: rest => skip? fuel opened .behind rest
      | rest => skip? fuel (.square :: opened) .before rest := by
  rcases opened with _ | ⟨_ | _, _⟩ <;> rfl

theorem skip?_curly (b : Bytes) :
    skip? (fuel + 1) opened .before (123 :: b) =
      match skipSpace b with
      | 125 :: rest => skip? fuel opened .behind rest
      | rest => (skipName? rest).bind (skip? fuel (.curly :: opened) .before ·) := by
  rcases opened with _ | ⟨_ | _, _⟩ <;> rfl

theorem skip?_quote (b : Bytes) :
    skip? (fuel + 1) opened .before (34 :: b)
      = (skipText? b).bind (skip? fuel opened .behind ·) := by
  rcases opened with _ | ⟨_ | _, _⟩ <;> rfl

theorem skip?_minus (b : Bytes) :
    skip? (fuel + 1) opened .before (45 :: b)
      = (skipNumber? b).bind (skip? fuel opened .behind ·) := by
  rcases opened with _ | ⟨_ | _, _⟩ <;> rfl

theorem skip?_null (rest : Bytes) :
    skip? (fuel + 1) opened .before ([110, 117, 108, 108] ++ rest)
      = skip? fuel opened .behind rest := by
  rcases opened with _ | ⟨_ | _, _⟩ <;> rfl

theorem skip?_bool (c : Bool) (rest : Bytes) :
    skip? (fuel + 1) opened .before (render (.bool c) ++ rest)
      = skip? fuel opened .behind rest := by
  cases c <;> rcases opened with _ | ⟨_ | _, _⟩ <;> rfl

/-- The first entry is passed over like one behind a comma. -/
theorem skip?_open (hspace : Space space) (label : Label bracket)
    (hb : ∃ x c, b = x :: c ∧ isSpace x = false ∧ x ≠ 93) {before : Bytes}
    (hbefore : Space before) :
    skip? (fuel + 1) opened .before (bracket.opening :: (space ++ (label.text ++ (before ++ b))))
      = skip? fuel (bracket :: opened) .before (before ++ b) := by
  cases label with
  | item =>
    obtain ⟨x, c, rfl, hx, hclose⟩ := hb
    have hskip : skipSpace (space ++ (Label.item.text ++ (before ++ x :: c))) = x :: c := by
      rw [skipSpace_append hspace, Label.text, List.nil_append, skipSpace_append hbefore,
        skipSpace_cons hx]
    rw [Bracket.opening, skip?_square, hskip, skip?_space hbefore (.inl rfl)]
    split
    · rename_i heq
      exact absurd (List.cons.inj heq).1 hclose
    · rfl
  | member lead name trail hlead hname htrail =>
    have hskip : skipSpace (space ++
          ((Label.member lead name trail hlead hname htrail).text ++ (before ++ b)))
        = 34 :: (name ++ 34 :: (trail ++ 58 :: (before ++ b))) := by
      rw [skipSpace_append hspace]
      simp [Label.text, skipSpace_append hlead, skipSpace_cons (x := 34) (by decide)]
    have hread : skipName? (34 :: (name ++ 34 :: (trail ++ 58 :: (before ++ b))))
        = some (before ++ b) :=
      skipName?_member space_nil hname htrail (before ++ b)
    rw [Bracket.opening, skip?_curly, hskip]
    exact congrArg (Option.bind · _) hread

theorem skip?_empty (hspace : Space space) (rest : Bytes) :
    skip? (fuel + 1) opened .before (bracket.opening :: (space ++ bracket.closing :: rest))
      = skip? fuel opened .behind rest := by
  have hskip : skipSpace (space ++ bracket.closing :: rest) = bracket.closing :: rest := by
    rw [skipSpace_append hspace]
    cases bracket <;> rfl
  cases bracket with
  | square =>
    rw [Bracket.opening, skip?_square, hskip]
    rfl
  | curly =>
    rw [Bracket.opening, skip?_curly, hskip]
    rfl

/-- A value is passed over, in no more rounds than it has bytes. -/
def Passed (b : Bytes) : Prop :=
  ∃ k ≤ b.length, ∀ fuel opened rest, EndsNumber rest →
    skip? (fuel + k) opened .before (b ++ rest) = skip? fuel opened .behind rest

theorem passed_of_round (hb : b ≠ []) (h : ∀ fuel opened rest, EndsNumber rest →
    skip? (fuel + 1) opened .before (b ++ rest) = skip? fuel opened .behind rest) : Passed b :=
  ⟨1, List.length_pos_of_ne_nil hb, h⟩

theorem skip?_digit (hx : Bytes.isDigit x = true) (b : Bytes) :
    skip? (fuel + 1) opened .before (x :: b)
      = (skipNumber? (x :: b)).bind (skip? fuel opened .behind ·) := by
  rw [skip?, skipSpace_cons (isSpace_of_isDigit hx)]
  split <;> rename_i heq
  case h_8 => rfl
  all_goals
    cases heq
    exact absurd hx (by decide)

theorem passed_number (h : Unsigned b) : Passed b := by
  obtain ⟨x, c, hb, hx⟩ := h.exists_cons
  refine passed_of_round (by simp [hb]) fun fuel opened rest hrest => ?_
  have hread := skipNumber?_unsigned h hrest
  rw [hb, List.cons_append] at hread ⊢
  rw [skip?_digit hx, hread, Option.bind_some]

theorem passed_negative (h : Unsigned b) : Passed (45 :: b) :=
  passed_of_round (by simp) fun fuel opened rest hrest => by
    rw [List.cons_append, skip?_minus, skipNumber?_unsigned h hrest, Option.bind_some]

theorem passed_text (h : Quoted b) : Passed (34 :: (b ++ [34])) :=
  passed_of_round (by simp) fun fuel opened rest _ => by
    rw [List.cons_append, List.append_assoc, List.singleton_append, skip?_quote,
      skipText?_quoted h, Option.bind_some]

theorem endsNumber_space (hspace : Space space) (hrest : EndsNumber rest) :
    EndsNumber (space ++ rest) := by
  cases space with
  | nil => exact hrest
  | cons x space =>
    intro y hy
    obtain rfl : x = y := by simpa using hy
    have hx := hspace x (by simp)
    simp only [isSpace, Bool.or_eq_true, decide_eq_true_eq] at hx
    rcases hx with ((rfl | rfl) | rfl) | rfl <;> decide

/-- The text behind an entry ends a number in it. -/
theorem endsNumber_entries (entries : List (Entry bracket)) (rest : Bytes) :
    EndsNumber (separated false (entries.map Entry.text) ++ bracket.closing :: rest) := by
  cases entries with
  | nil => cases bracket <;> simp [separated, EndsNumber, Bracket.closing, Bytes.isDigit]
  | cons e entries => simp [separated, EndsNumber, Bytes.isDigit]

/-- What is left of a container behind an entry is passed over. -/
theorem exists_skip?_entries {entries : List (Entry bracket)}
    (h : ∀ e ∈ entries, Passed e.content) :
    ∃ k ≤ (separated false (entries.map Entry.text)).length + 1, ∀ fuel opened rest,
      skip? (fuel + k) (bracket :: opened) .behind
          (separated false (entries.map Entry.text) ++ bracket.closing :: rest)
        = skip? fuel opened .behind rest := by
  induction entries with
  | nil => exact ⟨1, Nat.le_refl 1, fun fuel opened rest => skip?_close rest⟩
  | cons e entries ih =>
    obtain ⟨k, hk, hcontent⟩ := h e (by simp)
    obtain ⟨l, hl, hentries⟩ := ih fun f hf => h f (by simp [hf])
    refine ⟨l + k + 1, ?_, fun fuel opened rest => ?_⟩
    · simp [separated, Entry.text]
      omega
    · have hends := endsNumber_entries entries rest
      have hspace := endsNumber_space e.space_after hends
      rw [List.map_cons, separated, Entry.text]
      simp only [List.append_assoc, List.cons_append]
      rw [← Nat.add_assoc, skip?_comma, skip?_space e.space_before (.inl rfl), ← Nat.add_assoc,
        hcontent _ _ _ hspace, skip?_space e.space_after (.inr (by simp)), hentries]

theorem passed_container {entries : List (Entry bracket)} (hspace : Space space)
    (hvalue : ∀ e ∈ entries, IsValue e.content) (h : ∀ e ∈ entries, Passed e.content) :
    Passed (bracket.opening ::
      (space ++ (separated true (entries.map Entry.text) ++ [bracket.closing]))) := by
  cases entries with
  | nil =>
    refine passed_of_round (by simp) fun fuel opened rest _ => ?_
    have hempty : skip? (fuel + 1) opened .before
        (bracket.opening :: (space ++ bracket.closing :: rest)) = skip? fuel opened .behind rest :=
      skip?_empty hspace rest
    simpa [separated] using hempty
  | cons e entries =>
    obtain ⟨k, hk, hcontent⟩ := h e (by simp)
    obtain ⟨l, hl, hentries⟩ := exists_skip?_entries fun f hf => h f (List.mem_cons_of_mem e hf)
    refine ⟨l + k + 1, ?_, fun fuel opened rest _ => ?_⟩
    · simp [separated, Entry.text]
      omega
    · have hends := endsNumber_space e.space_after (endsNumber_entries entries rest)
      obtain ⟨x, c, hx, hfirst⟩ := (hvalue e (by simp)).exists_cons
      rw [List.map_cons, separated, Entry.text]
      simp only [List.append_assoc, List.cons_append, List.nil_append]
      rw [← Nat.add_assoc, skip?_open hspace e.label ⟨x, _, by rw [hx, List.cons_append], hfirst⟩
        e.space_before, skip?_space e.space_before (.inl rfl), ← Nat.add_assoc,
        hcontent _ _ _ hends, skip?_space e.space_after (.inr (by simp)), hentries]

/-- Every value of the grammar is passed over. -/
theorem IsValue.passed (h : IsValue b) : Passed b := by
  induction h with
  | null => exact passed_of_round (by decide) fun fuel opened rest _ => skip?_null rest
  | bool c =>
    exact passed_of_round (by cases c <;> decide) fun fuel opened rest _ => skip?_bool c rest
  | number h => exact passed_number h
  | negative h => exact passed_negative h
  | text h => exact passed_text h
  | container hspace hvalue ih => exact passed_container hspace hvalue ih

/-- Nothing of a value is left, and nothing behind it is taken. -/
theorem skipValue?_append (h : IsValue b) (hspace : Space space) (hrest : EndsNumber rest) :
    skipValue? (space ++ (b ++ rest)) = some rest := by
  obtain ⟨k, hk, hpass⟩ := h.passed
  have hfuel : k ≤ 2 * (space ++ (b ++ rest)).length + 1 := by
    simp only [List.length_append]
    omega
  obtain ⟨fuel, hfuel⟩ := Nat.exists_eq_add_of_le' hfuel
  have hround : 2 * (space ++ (b ++ rest)).length + 2 = fuel + 1 + k := by omega
  rw [skipValue?, skip?_space hspace (.inl rfl), hround, hpass _ _ _ hrest]
  rfl

end Switchboard.Json
