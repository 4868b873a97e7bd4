import Switchboard.Envelope
import Switchboard.Proofs.Json.Printed
import Switchboard.Proofs.Json.Record

/-! Envelopes are read back from their JSON text, which is an object on one line. -/
namespace Switchboard.Envelope

variable {e : Envelope} {v : Value}

theorem layout_distinct : layout.Distinct := by
  simp [Layout.Distinct, layout, Field.name]

theorem reread_eq (e : Envelope) : layout.reread e = { e with data := present e.data } := by
  simp [Layout.reread, layout, Field.copy_text, Field.copy_count, Field.copy_flag,
    Field.copy_data]

theorem mem_layout_data {name : String} {get : Envelope → Option Value}
    {set : Option Value → Envelope → Envelope} (h : .data name get set ∈ layout.fields) :
    name = "data" ∧ get = data ∧ set = fun v e => { e with data := v } := by
  simpa [layout] using h

theorem fits_of_mem_entries {room : Nat} (h : ∀ v, e.data = some v → v.Fits room)
    {m : String × Value} (hm : m ∈ layout.entries e) : m.2.Fits room := by
  obtain ⟨f, hf, hentry⟩ := List.mem_filterMap.1 hm
  obtain ⟨v, hv, rfl⟩ := Option.map_eq_some_iff.1 hentry
  apply Field.fits_of_entry? hv
  rintro name get set rfl hget
  obtain ⟨-, rfl, -⟩ := mem_layout_data hf
  exact h v hget

/-- No field but that of the data changes the data. -/
theorem layout_keeps (Found : Option Value → Prop) :
    ∀ f ∈ layout.fields, f.Keeps Found fun e => Found e.data := by
  simp [layout, Field.Keeps]
  grind

/-- The data of an envelope are numbers of 64 bits, finite doubles and sorted members. -/
def WellFormed (e : Envelope) : Prop := ∀ v, e.data = some v → v.wellFormed = true

/-- The data of an envelope hold no floating point number. -/
def DoubleFree (e : Envelope) : Prop := ∀ v, e.data = some v → v.doubleFree = true

/-- How deep the containers of a written envelope are nested, the envelope included. -/
def nesting (e : Envelope) : Nat := (Value.object (layout.entries e)).depth

theorem mem_entries_of_data (h : e.data = some v) : ("data", v) ∈ layout.entries e :=
  List.mem_filterMap.2 ⟨.data "data" data fun v e => { e with data := v }, by simp [layout],
    by simp [Field.entry?, Field.name, h]⟩

theorem depth_data_lt (h : e.data = some v) : v.depth < e.nesting :=
  Nat.lt_succ_of_le (Value.depth_le_of_mem_members le_rfl (mem_entries_of_data h))

/-- Data that are nested no deeper than a reader allows, well formed and without floating point
numbers, fit the room it has for them. -/
theorem fits_of_nesting {room : Nat} (hwf : e.WellFormed) (hdf : e.DoubleFree)
    (hn : e.nesting ≤ room + 1) : ∀ v, e.data = some v → v.Fits room := by
  intro v hv
  have hdepth := depth_data_lt hv
  exact ⟨by omega, hwf v hv, hdf v hv⟩

/-- Reading gives the envelope back that was printed, but data that are null count as absent. -/
theorem ofJson_toJson (h : ∀ v, e.data = some v → v.Fits (Json.maxDepth - 1)) :
    ofJson e.toJson = .ok { e with data := present e.data } := by
  have hread := Json.readRecord_render layout_distinct fun m => fits_of_mem_entries h
  rw [ofJson, toJson, hread, reread_eq]
  rfl

theorem head?_toJson (e : Envelope) : e.toJson.head? = some 123 := by
  rw [toJson, Json.renderRecord, Json.render]
  rfl

theorem getLast?_toJson (e : Envelope) : e.toJson.getLast? = some 125 := by
  rw [toJson, Json.renderRecord, Json.render]
  exact List.getLast?_concat

theorem controlFree_toJson (e : Envelope) : Bytes.ControlFree e.toJson :=
  Json.controlFree_render _

end Switchboard.Envelope
