import Switchboard.Proofs.Envelope
import Switchboard.Proofs.Json.Accepted

/-! JSON text and envelopes: printing loses nothing, and reading settles what is written. -/
namespace Switchboard.Envelope

variable {e : Envelope} {b : Bytes}

theorem readRecord_of_ofJson (h : ofJson b = .ok e) : Json.readRecord layout b = .ok e := by
  unfold ofJson at h
  cases hread : Json.readRecord layout b with
  | error err =>
    rw [hread] at h
    cases h
  | ok e' =>
    rw [hread] at h
    cases h
    rfl

/-- The data of an envelope that was read are not null and fit the reader. -/
theorem soundData_of_ofJson (h : ofJson b = .ok e) :
    Json.SoundData (Json.maxDepth - 1) e.data := by
  refine Json.readRecord_keeps (P := fun e => Json.SoundData (Json.maxDepth - 1) e.data)
    (fun _ _ _ => Json.soundData_of_optional) (layout_keeps _) (readRecord_of_ofJson h) ?_
  simp [layout, Json.SoundData]

/-- Envelopes come back from their text as they were, but for data that are null, which come back
absent. The text is one object without control characters. An envelope that came from any text comes
back from its own text exactly. -/
theorem json_settles :
    (∀ e : Envelope, e.WellFormed → e.DoubleFree → e.nesting < 128 →
        ofJson e.toJson = .ok { e with data := present e.data }) ∧
      (∀ e : Envelope, e.toJson.head? = some 123 ∧ e.toJson.getLast? = some 125 ∧
        Bytes.ControlFree e.toJson) ∧
      ∀ b e, ofJson b = .ok e → e.DoubleFree → ofJson e.toJson = .ok e := by
  refine ⟨fun e hwf hdf hn => ?_, fun e => ?_, fun b e h hdf => ?_⟩
  · exact ofJson_toJson (fits_of_nesting hwf hdf (Nat.le_of_lt_succ hn))
  · exact ⟨head?_toJson e, getLast?_toJson e, controlFree_toJson e⟩
  · obtain ⟨hnull, hfits⟩ := soundData_of_ofJson h
    rw [ofJson_toJson fun v hv => hfits v hv (hdf v hv), present_eq_self hnull]

/-- A request with the least and the largest integers, every kind of escape and a null inside. -/
def strained : Envelope :=
  { command := some "run", timeout := some 0xffffffffffffffff, more := true,
    data := some (.object [
      ("", .null),
      ("a", .array [.int (-0x8000000000000000), .int 0xffffffffffffffff, .bool false]),
      ("é", .string "\"\\\n\x01é")]) }

/-- A text with spaces, needless escapes, a member that is given twice and one that is unknown. -/
def loose : Bytes :=
  Bytes.ofText (" \x7b\"cont\" : true, \"data\": \x7b\"z\":[-5],\"a\":1,\"\\u00e9\":\"\\/\", " ++
    "\"a\" : null\x7d, \"other\":[1.5e9,\x7b\x7d],\"resid\":null\x7d")

/-- What the text stands for. -/
def settled : Envelope :=
  { more := true,
    data := some (.object [("a", .null), ("z", .array [.int (-5)]), ("é", .string "/")]) }

theorem strained_settles :
    ofJson strained.toJson = .ok strained ∧
      ofJson { strained with data := some .null }.toJson = .ok { strained with data := none } ∧
      Bytes.ControlFree strained.toJson ∧
      ofJson loose = .ok settled ∧ ofJson settled.toJson = .ok settled := by
  obtain ⟨hback, htext, hsettle⟩ := json_settles
  have hloose : ofJson loose = .ok settled := by rfl
  refine ⟨hback strained ?_ ?_ (by decide), hback { strained with data := some .null } ?_ ?_
    (by decide), (htext strained).2.2, hloose, hsettle loose settled hloose ?_⟩
  all_goals
    rintro v ⟨⟩
    decide

end Switchboard.Envelope
