import Switchboard.Identity
import Switchboard.Proofs.Base64
import Switchboard.Proofs.Json.Spelling

/-! The claims of a token are read back, whatever else is in it, and nothing but a token with claims
is read. -/
namespace Switchboard

namespace Identity

variable {c : Identity} {b p : Bytes} {parts : List Bytes} {s t text header signature : String}

theorem segments_of_dotless (h : '.' ∉ s.toList) :
    segments (Bytes.ofText s) = [Bytes.ofText s] :=
  List.splitOn_eq_singleton (Bytes.dot_mem_ofText.not.2 h)

theorem segments_dot (h : '.' ∉ s.toList) (t : String) :
    segments (Bytes.ofText (s ++ "." ++ t)) = Bytes.ofText s :: segments (Bytes.ofText t) := by
  have hdot : Bytes.ofText "." = [46] := by decide +kernel
  rw [Bytes.ofText_append, Bytes.ofText_append, hdot, List.append_assoc, List.singleton_append]
  exact List.splitOn_append_cons_self_of_not_mem (Bytes.dot_mem_ofText.not.2 h) _

theorem exists_dot (h : '.' ∈ s.toList) : ∃ t u, '.' ∉ t.toList ∧ s = t ++ "." ++ u := by
  obtain ⟨cs, ds, hs, hdot⟩ := List.eq_append_cons_of_mem h
  refine ⟨String.ofList cs, String.ofList ds, by simpa using hdot, ?_⟩
  apply String.toList_inj.1
  simp [hs]

/-- A text of one part has no dot. -/
theorem dotless_of_segments (h : segments (Bytes.ofText s) = [p]) : '.' ∉ s.toList := by
  intro hdot
  obtain ⟨t, u, ht, rfl⟩ := exists_dot hdot
  rw [segments_dot ht] at h
  exact List.splitOn_ne_nil 46 (Bytes.ofText u) (List.cons.inj h).2

/-- The first of several parts ends at a dot. -/
theorem exists_of_segments {q : Bytes} (h : segments (Bytes.ofText s) = p :: q :: parts) :
    ∃ t u, '.' ∉ t.toList ∧ s = t ++ "." ++ u ∧ Bytes.ofText t = p ∧
      segments (Bytes.ofText u) = q :: parts := by
  by_cases hdot : '.' ∈ s.toList
  · obtain ⟨t, u, ht, rfl⟩ := exists_dot hdot
    rw [segments_dot ht, List.cons.injEq] at h
    exact ⟨t, u, ht, rfl, h⟩
  · rw [segments_of_dotless hdot] at h
    cases h

/-- The claims of a token as they stand in it, with padding at their end. -/
def padded (claims : Bytes) (padding : Nat) : String :=
  Base64.text claims ++ String.ofList (List.replicate padding '=')

/-- The token of a header, claims and a signature. -/
def token (header : String) (claims : Bytes) (padding : Nat) (signature : String) : String :=
  header ++ "." ++ padded claims padding ++ "." ++ signature

theorem ofText_padded (b : Bytes) (padding : Nat) :
    Bytes.ofText (padded b padding) = Base64.encode b ++ List.replicate padding 61 := by
  rw [padded, Bytes.ofText_append, Base64.ofText_text, Bytes.ofText_ofList]
  · rw [List.map_replicate]
    rfl
  · intro c hc
    rw [List.eq_of_mem_replicate hc]
    decide

theorem dotless_padded (b : Bytes) (padding : Nat) : '.' ∉ (padded b padding).toList := by
  rw [← Bytes.dot_mem_ofText, ofText_padded, List.mem_append, not_or]
  constructor
  · intro hdot
    obtain ⟨n, hn, hletter⟩ := Base64.mem_encode hdot
    exact (Base64.letter_plain n hn).1 hletter
  · intro hdot
    exact absurd (List.eq_of_mem_replicate hdot) (by decide)

/-- The padding and nothing else is taken off. -/
theorem unpadded_padded (b : Bytes) (padding : Nat) :
    unpadded (Bytes.ofText (padded b padding)) = Base64.encode b := by
  have hpadding : ∀ x ∈ List.replicate padding (61 : UInt8), (x == 61) = true := by
    intro x hx
    rw [List.eq_of_mem_replicate hx]
    rfl
  have hletters : (Base64.encode b).reverse.dropWhile (· == 61) = (Base64.encode b).reverse := by
    rw [List.dropWhile_eq_self_iff]
    intro hlength
    have hmem := List.mem_reverse.1 (List.getElem_mem hlength)
    obtain ⟨n, hn, hletter⟩ := Base64.mem_encode hmem
    rw [← hletter]
    simpa using (Base64.letter_plain n hn).2.1
  rw [unpadded, ofText_padded, List.reverse_append, List.reverse_replicate,
    List.dropWhile_append_of_pos hpadding, hletters, List.reverse_reverse]

theorem exists_padding (b : Bytes) : ∃ padding, b = unpadded b ++ List.replicate padding 61 := by
  refine ⟨(b.reverse.takeWhile (· == 61)).length, ?_⟩
  have hpadding : b.reverse.takeWhile (· == 61)
      = List.replicate (b.reverse.takeWhile (· == 61)).length 61 :=
    List.eq_replicate_of_mem fun x hx => by simpa using List.mem_takeWhile_imp hx
  have hsplit := congrArg List.reverse
    (List.takeWhile_append_dropWhile (p := (· == 61)) (l := b.reverse))
  rw [List.reverse_append, List.reverse_reverse, hpadding, List.reverse_replicate] at hsplit
  exact hsplit.symm

/-- A token is read by its claims alone. -/
theorem ofToken_token (hheader : '.' ∉ header.toList) (hsignature : '.' ∉ signature.toList)
    (b : Bytes) (padding : Nat) :
    ofToken (token header b padding signature) =
      (ofJson b).mapError fun fault => .auth ("malformed token claims: " ++ fault.text) := by
  have hsplit : token header b padding signature
      = header ++ "." ++ (padded b padding ++ "." ++ signature) := by
    simp only [token, String.append_assoc]
  have hne : token header b padding signature ≠ "" := by
    intro hempty
    simpa [token] using congrArg String.toList hempty
  rw [ofToken, if_neg hne, hsplit, segments_dot hheader, segments_dot (dotless_padded b padding),
    segments_of_dotless hsignature]
  simp only [unpadded_padded, Base64.decode?_encode]

theorem ofToken_eq_ok (h : ofToken text = .ok c) : ∃ header b padding signature,
    '.' ∉ header.toList ∧ '.' ∉ signature.toList ∧ text = token header b padding signature ∧
      ofJson b = .ok c := by
  unfold ofToken at h
  split_ifs at h with hempty
  split at h
  · rename_i p claims q hsegments
    obtain ⟨header, u, hheader, rfl, -, hrest⟩ := exists_of_segments hsegments
    obtain ⟨middle, signature, -, rfl, rfl, hlast⟩ := exists_of_segments hrest
    split at h
    · cases h
    · rename_i b hdecode
      obtain ⟨padding, hpadding⟩ := exists_padding (Bytes.ofText middle)
      rw [← Base64.encode_of_decode? hdecode, ← ofText_padded] at hpadding
      refine ⟨header, b, padding, signature, hheader, dotless_of_segments hlast, ?_, ?_⟩
      · rw [token, Bytes.ofText_injective hpadding, String.append_assoc, String.append_assoc,
          String.append_assoc, String.append_assoc, String.append_assoc]
      · cases hread : ofJson b <;> simp_all [Except.mapError]
  · cases h

/-- Whatever is not read is refused for its own sake. -/
theorem exists_auth_of_ofToken {e : Error} (h : ofToken text = .error e) :
    ∃ reason, e = .auth reason := by
  unfold ofToken at h
  split_ifs at h with hempty
  · cases h
    exact ⟨_, rfl⟩
  split at h
  · split at h
    · cases h
      exact ⟨_, rfl⟩
    · rename_i b hdecode
      cases hread : ofJson b <;> simp only [hread, Except.mapError] at h
      · cases h
        exact ⟨_, rfl⟩
      · cases h
  · cases h
    exact ⟨_, rfl⟩

theorem layout_distinct : layout.Distinct := by
  simp [Layout.Distinct, layout, Field.name]

theorem reread_eq (c : Identity) : layout.reread c = c := by
  simp [Layout.reread, layout, Field.copy_text, Field.copy_flag]

/-- No claim depends on another: it does not matter which is read first. -/
theorem copy_comm (c : Identity) : ∀ f ∈ layout.fields, ∀ g ∈ layout.fields, ∀ y,
    g.copy c (f.copy c y) = f.copy c (g.copy c y) := by
  intro f hf g hg y
  simp only [layout, List.mem_cons, List.not_mem_nil, or_false] at hf hg
  rcases hf with rfl | rfl | rfl | rfl | rfl <;> rcases hg with rfl | rfl | rfl | rfl | rfl <;>
    simp only [Field.copy] <;> split_ifs <;> rfl

theorem ofJson_tells (h : Json.Tells layout c b) : ofJson b = .ok c := by
  rw [ofJson, Json.readRecord_tells h layout_distinct (copy_comm c), reread_eq]

/-- The object that is printed of an identity tells of it, with no further members. -/
theorem tells_toJson (c : Identity) : Json.Tells layout c c.toJson := by
  apply Json.tells_renderRecord
  intro f hf v hv
  simp only [layout, List.mem_cons, List.not_mem_nil, or_false] at hf
  rcases hf with rfl | rfl | rfl | rfl | rfl
  case inr.inr.inr.inr =>
    obtain ⟨-, rfl⟩ : c.isRouter = true ∧ Value.bool true = v := by
      simpa [Field.entry?] using hv
    exact .flag
  all_goals
    obtain ⟨s, -, rfl⟩ := Option.map_eq_some_iff.1 hv
    rw [Json.render]
    exact .text (Json.spells_flatMap _)

/-- From a token with an object of its claims, whatever further members are in it, the claims are
read as they are; only tokens of readable claims are read, and all other texts are refused. -/
theorem claims_read :
    (∀ c, Json.Tells layout c c.toJson) ∧
    (∀ c b header padding signature, Json.Tells layout c b → '.' ∉ header.toList →
      '.' ∉ signature.toList → ofToken (token header b padding signature) = .ok c) ∧
    (∀ text c, ofToken text = .ok c ↔ ∃ header b padding signature, '.' ∉ header.toList ∧
      '.' ∉ signature.toList ∧ text = token header b padding signature ∧ ofJson b = .ok c) ∧
    ∀ text e, ofToken text = .error e → ∃ reason, e = .auth reason := by
  refine ⟨tells_toJson, ?_, fun text c => ⟨ofToken_eq_ok, ?_⟩, fun text e => exists_auth_of_ofToken⟩
  · intro c b header padding signature hb hheader hsignature
    rw [ofToken_token hheader hsignature, ofJson_tells hb, Except.mapError]
  · rintro ⟨header, b, padding, signature, hheader, hsignature, rfl, hb⟩
    rw [ofToken_token hheader hsignature, hb, Except.mapError]

def visitor : Identity := { clientType := some "connserver", connection := some "x" }

/-- Its claims, not in the order in which they are printed, with a further member between them. -/
def visitorClaims : Bytes :=
  Bytes.ofText "\x7b\"conn\":\"x\", \"exp\": [1],\"ctype\":\"connserver\"\x7d"

/-- The further member. -/
def expiry : Json.Entry .curly where
  label := .member [32] ((Bytes.ofText "exp").flatMap Json.escaped) [] Json.space_blank
    (Json.spells_flatMap (Bytes.ofText "exp")).quoted Json.space_nil
  before := [32]
  content := [91, 49, 93]
  space_before := Json.space_blank
  space_after := Json.space_nil

theorem isValue_expiry : Json.IsValue expiry.content := by
  have hone : Json.IsValue [49] :=
    .number (@Json.Unsigned.mk [49] [] [] ⟨⟨by simp, by simp [Bytes.isDigit]⟩, by simp⟩ .none .none)
  have hitems : ∀ e ∈ [({ label := .item, content := [49] } : Json.Entry .square)],
      Json.IsValue e.content := by simpa using hone
  exact @Json.IsValue.container .square [] _ (by decide) hitems

theorem tells_visitorClaims : Json.Tells layout visitor visitorClaims := by
  have hmembers : Json.Members layout visitor
      [.text "conn" connection fun s c => { c with connection := s },
        .text "ctype" clientType fun s c => { c with clientType := s }]
      [Json.Entry.printed ("conn", .string "x"), expiry,
        Json.Entry.printed ("ctype", .string "connserver")] :=
    .field (by simp [layout]) rfl (Json.spells_flatMap _) (.text (Json.spells_flatMap _))
      (.further (s := "exp") (Json.spells_flatMap _) (by decide) isValue_expiry
        (.field (by simp [layout]) rfl (Json.spells_flatMap _) (.text (Json.spells_flatMap _))
          .nil))
  refine ⟨_, _, [], [], [], hmembers, ?_, by decide, by decide, by decide, by decide +kernel⟩
  exact .swap _ _ []

theorem visitor_read :
    Json.Tells layout visitor visitorClaims ∧
      ofToken (token "h" visitorClaims 2 "s") = .ok visitor :=
  ⟨tells_visitorClaims, claims_read.2.1 visitor visitorClaims "h" 2 "s" tells_visitorClaims
    (by decide) (by decide)⟩

end Identity

end Switchboard
