import Switchboard.Base64
import Switchboard.Proofs.Bytes

/-! Bytes are read back from their base64 form, and no other text is read as them. -/
namespace Switchboard.Base64

variable {b s : Bytes} {x : UInt8} {n : Nat}

theorem sextet?_letter : ∀ n < 64, sextet? (letter n) = some n := by decide

theorem letter_sextet?_ofNat :
    ∀ k < 256, ∀ n ∈ sextet? (UInt8.ofNat k), n < 64 ∧ letter n = UInt8.ofNat k := by
  decide +kernel

/-- Each letter is that of its own number alone. -/
theorem letter_of_sextet? (h : sextet? x = some n) : n < 64 ∧ letter n = x := by
  have hx := letter_sextet?_ofNat x.toNat x.toNat_lt n
  rw [UInt8.ofNat_toNat] at hx
  exact hx h

/-- The alphabet has neither `.` nor `=`, and nothing that takes more than a byte. -/
theorem letter_plain : ∀ n < 64, letter n ≠ 46 ∧ letter n ≠ 61 ∧ (letter n).toNat < 128 := by
  decide

/-- The byte of a number that is known to be one. -/
theorem ofNat_eq (h : n = x.toNat) : UInt8.ofNat n = x := by
  rw [h, UInt8.ofNat_toNat]

theorem decode?_two (hn : n < 256) :
    decode? [letter (n / 4), letter (n % 4 * 16)] = some [UInt8.ofNat n] := by
  have hsum : n / 4 * 64 + n % 4 * 16 = n * 16 := by omega
  rw [decode?, sextet?_letter (n / 4) (by omega), sextet?_letter (n % 4 * 16) (by omega)]
  simp only [Option.bind_eq_bind, Option.bind_some, hsum]
  simp

theorem decode?_three (hn : n < 65536) :
    decode? [letter (n / 1024), letter (n / 16 % 64), letter (n % 16 * 4)]
      = some [UInt8.ofNat (n / 256), UInt8.ofNat (n % 256)] := by
  have hsum : (n / 1024 * 64 + n / 16 % 64) * 64 + n % 16 * 4 = n * 4 := by omega
  have hhigh : n * 4 / 1024 = n / 256 := by omega
  rw [decode?, sextet?_letter (n / 1024) (by omega), sextet?_letter (n / 16 % 64) (by omega),
    sextet?_letter (n % 16 * 4) (by omega)]
  simp only [Option.bind_eq_bind, Option.bind_some, hsum, hhigh]
  simp

theorem decode?_four (hn : n < 16777216) (rest : Bytes) :
    decode? (letter (n / 262144) :: letter (n / 4096 % 64) :: letter (n / 64 % 64)
        :: letter (n % 64) :: rest)
      = (decode? rest).map fun more => UInt8.ofNat (n / 65536) :: UInt8.ofNat (n / 256 % 256)
        :: UInt8.ofNat (n % 256) :: more := by
  have hsum : ((n / 262144 * 64 + n / 4096 % 64) * 64 + n / 64 % 64) * 64 + n % 64 = n := by
    omega
  rw [decode?, sextet?_letter (n / 262144) (by omega), sextet?_letter (n / 4096 % 64) (by omega),
    sextet?_letter (n / 64 % 64) (by omega), sextet?_letter (n % 64) (by omega)]
  cases decode? rest <;> simp [hsum]

theorem decode?_encode (b : Bytes) : decode? (encode b) = some b := by
  induction b using encode.induct with
  | case1 => rfl
  | case2 x =>
    rw [encode, decode?_two x.toNat_lt, UInt8.ofNat_toNat]
  | case3 x y =>
    have hx : x.toNat < 256 := x.toNat_lt
    have hy : y.toNat < 256 := y.toNat_lt
    rw [encode, decode?_three (by omega), ofNat_eq (x := x) (by omega),
      ofNat_eq (x := y) (by omega)]
  | case4 x y z rest ih =>
    have hx : x.toNat < 256 := x.toNat_lt
    have hy : y.toNat < 256 := y.toNat_lt
    have hz : z.toNat < 256 := z.toNat_lt
    rw [encode, decode?_four (by omega), ih, Option.map_some, ofNat_eq (x := x) (by omega),
      ofNat_eq (x := y) (by omega), ofNat_eq (x := z) (by omega)]

theorem encode_two (hn : n < 256) :
    encode [UInt8.ofNat n] = [letter (n / 4), letter (n % 4 * 16)] := by
  have hbyte : n % 256 = n := by omega
  rw [encode, UInt8.toNat_ofNat', hbyte]

theorem encode_three (hn : n < 65536) :
    encode [UInt8.ofNat (n / 256), UInt8.ofNat (n % 256)]
      = [letter (n / 1024), letter (n / 16 % 64), letter (n % 16 * 4)] := by
  have hsum : n / 256 % 256 * 256 + n % 256 % 256 = n := by omega
  simp only [encode, UInt8.toNat_ofNat', hsum]

theorem encode_four (hn : n < 16777216) (rest : Bytes) :
    encode (UInt8.ofNat (n / 65536) :: UInt8.ofNat (n / 256 % 256) :: UInt8.ofNat (n % 256) :: rest)
      = letter (n / 262144) :: letter (n / 4096 % 64) :: letter (n / 64 % 64) :: letter (n % 64)
        :: encode rest := by
  have hsum : (n / 65536 % 256 * 256 + n / 256 % 256 % 256) * 256 + n % 256 % 256 = n := by omega
  simp only [encode, UInt8.toNat_ofNat', hsum]

/-- The letter of a number that is known. -/
theorem letter_eq {k : Nat} (hx : letter k = x) (h : n = k) : letter n = x := h ▸ hx

/-- Nothing but the form of the bytes themselves is read as them. -/
theorem encode_of_decode? (h : decode? s = some b) : encode b = s := by
  induction s using decode?.induct generalizing b with
  | case1 =>
    cases h
    rfl
  | case2 => cases h
  | case3 a c =>
    simp only [decode?, Option.bind_eq_bind, Option.bind_eq_some_iff] at h
    obtain ⟨p, ha, q, hc, h⟩ := h
    obtain ⟨hp, ha⟩ := letter_of_sextet? ha
    obtain ⟨hq, hc⟩ := letter_of_sextet? hc
    split_ifs at h with hzero
    cases h
    rw [encode_two (by omega), letter_eq ha (by omega), letter_eq hc (by omega)]
  | case4 a c d =>
    simp only [decode?, Option.bind_eq_bind, Option.bind_eq_some_iff] at h
    obtain ⟨p, ha, q, hc, r, hd, h⟩ := h
    obtain ⟨hp, ha⟩ := letter_of_sextet? ha
    obtain ⟨hq, hc⟩ := letter_of_sextet? hc
    obtain ⟨hr, hd⟩ := letter_of_sextet? hd
    split_ifs at h with hzero
    have hb : b = [UInt8.ofNat (((p * 64 + q) * 64 + r) / 4 / 256),
        UInt8.ofNat (((p * 64 + q) * 64 + r) / 4 % 256)] := by
      cases h
      rw [Nat.div_div_eq_div_mul]
    rw [hb, encode_three (by omega), letter_eq ha (by omega), letter_eq hc (by omega),
      letter_eq hd (by omega)]
  | case5 a c d e rest ih =>
    simp only [decode?, Option.bind_eq_bind, Option.bind_eq_some_iff] at h
    obtain ⟨p, ha, q, hc, r, hd, t, he, more, hmore, h⟩ := h
    obtain ⟨hp, ha⟩ := letter_of_sextet? ha
    obtain ⟨hq, hc⟩ := letter_of_sextet? hc
    obtain ⟨hr, hd⟩ := letter_of_sextet? hd
    obtain ⟨ht, he⟩ := letter_of_sextet? he
    cases h
    rw [encode_four (by omega), ih hmore, letter_eq ha (by omega), letter_eq hc (by omega),
      letter_eq hd (by omega), letter_eq he (by omega)]

/-- A base64 form has letters of the alphabet alone. -/
theorem mem_encode (h : x ∈ encode b) : ∃ n < 64, letter n = x := by
  induction b using encode.induct with
  | case1 => cases h
  | case2 a =>
    have ha : a.toNat < 256 := a.toNat_lt
    simp only [encode, List.mem_cons, List.not_mem_nil, or_false] at h
    rcases h with rfl | rfl <;> exact ⟨_, by omega, rfl⟩
  | case3 a c =>
    have ha : a.toNat < 256 := a.toNat_lt
    simp only [encode, List.mem_cons, List.not_mem_nil, or_false] at h
    have hc : c.toNat < 256 := c.toNat_lt
    rcases h with rfl | rfl | rfl <;> exact ⟨_, by omega, rfl⟩
  | case4 a c d rest ih =>
    have ha : a.toNat < 256 := a.toNat_lt
    have hc : c.toNat < 256 := c.toNat_lt
    have hd : d.toNat < 256 := d.toNat_lt
    simp only [encode, List.mem_cons] at h
    rcases h with rfl | rfl | rfl | rfl | h
    case inr.inr.inr.inr => exact ih h
    all_goals exact ⟨_, by omega, rfl⟩

theorem toNat_ofNat : ∀ n < 128, (Char.ofNat n).toNat = n := by decide

/-- The text that a base64 form is. -/
def text (b : Bytes) : String := String.ofList ((encode b).map fun x => Char.ofNat x.toNat)

theorem ofText_text (b : Bytes) : Bytes.ofText (text b) = encode b := by
  have hbyte (x : UInt8) (hx : x ∈ encode b) : (Char.ofNat x.toNat).toNat = x.toNat := by
    obtain ⟨n, hn, rfl⟩ := mem_encode hx
    exact toNat_ofNat _ (letter_plain n hn).2.2
  rw [text, Bytes.ofText_ofList, List.map_map]
  · exact (List.map_congr_left fun x hx => by simp [hbyte x hx]).trans (List.map_id _)
  · intro c hc
    obtain ⟨x, hx, rfl⟩ := List.mem_map.1 hc
    obtain ⟨n, hn, rfl⟩ := mem_encode hx
    rw [hbyte _ hx]
    exact (letter_plain n hn).2.2

end Switchboard.Base64
