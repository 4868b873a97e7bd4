import Switchboard.Proofs.Json.Accepted
import Switchboard.Proofs.Json.Record

/-! More room for containers changes nothing that was read without it, so text that is nested too
deep is not read at all. -/
namespace Switchboard.Json

variable {ρ α β : Type} {layout : Layout ρ} {x y : ρ} {f : Field ρ} {v : Value}
  {room room' fuel : Nat} {first : Bool} {seen : List String} {b rest : Bytes}
  {element element' : Bytes → Except Fault (Value × Bytes)}

/-- What one reading gives another gives as well. -/
def Extends (found found' : Except Fault α) : Prop := ∀ r, found = .ok r → found' = .ok r

theorem Extends.refl (found : Except Fault α) : Extends found found := fun _ => id

theorem Extends.bind {found found' : Except Fault α} {f g : α → Except Fault β}
    (h : Extends found found') (hfg : ∀ a, Extends (f a) (g a)) :
    Extends (found >>= f) (found' >>= g) := by
  intro r hr
  obtain ⟨a, ha, hr⟩ := bind_eq_ok.1 hr
  exact bind_eq_ok.2 ⟨a, h a ha, hfg a r hr⟩

theorem elements_extends (h : ∀ b, Extends (element b) (element' b)) :
    Extends (elements element fuel first b) (elements element' fuel first b) := by
  induction fuel generalizing first b with
  | zero => exact .refl _
  | succ fuel ih =>
    unfold elements
    split
    case h_1 | h_4 => exact .refl _
    case h_2 | h_3 => exact (h _).bind fun _ => ih.bind fun _ => .refl _

theorem members_extends (h : ∀ b, Extends (element b) (element' b))
    {sofar : List (String × Value)} :
    Extends (members element fuel first sofar b) (members element' fuel first sofar b) := by
  induction fuel generalizing first sofar b with
  | zero => exact .refl _
  | succ fuel ih =>
    unfold members
    split
    case h_1 | h_4 => exact .refl _
    case h_2 | h_3 => exact (Extends.refl _).bind fun _ => (h _).bind fun _ => ih

theorem value_extends (h : room ≤ room') : Extends (value room b) (value room' b) := by
  induction room using Nat.strongRecOn generalizing room' b with
  | ind room ih =>
    unfold value
    split
    case h_5 =>
      split
      · rintro r ⟨⟩
      · rename_i n
        obtain ⟨m, rfl⟩ := Nat.exists_eq_add_one.2 (n.succ_pos.trans_le h)
        have hinner (b : Bytes) := ih n n.lt_succ_self (Nat.le_of_succ_le_succ h) (b := b)
        exact (elements_extends hinner).bind fun _ => .refl _
    case h_6 =>
      split
      · rintro r ⟨⟩
      · rename_i n
        obtain ⟨m, rfl⟩ := Nat.exists_eq_add_one.2 (n.succ_pos.trans_le h)
        have hinner (b : Bytes) := ih n n.lt_succ_self (Nat.le_of_succ_le_succ h) (b := b)
        exact (members_extends hinner).bind fun _ => .refl _
    all_goals exact .refl _

/-- A printed value is read only where there is room for it. -/
theorem depth_le_of_value (hwf : v.wellFormed = true) (hdf : v.doubleFree = true)
    (hrest : EndsValue rest) {r : Value × Bytes} (h : value room (render v ++ rest) = .ok r) :
    v.depth ≤ room := by
  have hfits : v.Fits (max room v.depth) := ⟨le_max_right room v.depth, hwf, hdf⟩
  have hv := value_render v _ hfits rest hrest
  have hr := value_extends (le_max_left room v.depth) r h
  obtain rfl : r = (v, rest) := Except.ok.inj (hr.symm.trans hv)
  exact (fits_value h hdf).depth

theorem depth_le_of_fieldContent (hv : f.entry? x = some v) (hwf : v.wellFormed = true)
    (hdf : v.doubleFree = true) (hrest : EndsValue rest) {r : ρ × Bytes}
    (h : fieldContent y (render v ++ rest) f = .ok r) : v.depth ≤ maxDepth - 1 := by
  cases f with
  | text name get set | count name get set =>
    obtain ⟨_, -, rfl⟩ := Option.map_eq_some_iff.1 hv
    exact Nat.zero_le _
  | flag name get set =>
    obtain ⟨-, rfl⟩ : get x = true ∧ Value.bool true = v := by simpa [Field.entry?] using hv
    exact Nat.zero_le _
  | data name get set =>
    obtain ⟨c, b, hb, hspace, -, hc⟩ := exists_cons_render hdf
    obtain ⟨found, hfound, -⟩ := map_eq_ok.1 h
    by_cases hn : v = .null
    · exact hn ▸ Nat.zero_le _
    · rw [hb, List.cons_append, optional_cons hspace fun he => hn (hc he)] at hfound
      obtain ⟨found', hfound', -⟩ := map_eq_ok.1 hfound
      rw [← List.cons_append, ← hb] at hfound'
      exact depth_le_of_value hwf hdf hrest hfound'

theorem depth_le_of_namedField (hf : layout.find? f.name = some f) (hseen : f.name ∉ seen)
    (hv : f.entry? x = some v) (hwf : v.wellFormed = true) (hdf : v.doubleFree = true)
    (hrest : EndsValue rest) {r : (List String × ρ) × Bytes}
    (h : namedField layout seen y (renderString f.name ++ 58 :: (render v ++ rest)) = .ok r) :
    v.depth ≤ maxDepth - 1 := by
  simp [namedField, renderString, skipSpace_cons (x := 34) (by decide), text?_renderString,
    wellFormedOr, hf, hseen, skipSpace_cons (x := 58) (by decide)] at h
  obtain ⟨found, hfound, -⟩ := bind_eq_ok.1 h
  exact depth_le_of_fieldContent hv hwf hdf hrest hfound

/-- A printed record is read only where there is room for all its entries. -/
theorem depth_le_of_namedFields {fs : List (Field ρ)}
    (hfind : ∀ f ∈ fs, layout.find? f.name = some f) (hdistinct : (fs.map Field.name).Nodup)
    (hseen : ∀ f ∈ fs, f.name ∉ seen)
    (hsound : ∀ m ∈ Field.entries fs x, m.2.wellFormed = true ∧ m.2.doubleFree = true)
    {r : ρ × Bytes}
    (h : namedFields layout fuel false seen y
      (separated false (renderMembers (Field.entries fs x)) ++ 125 :: rest) = .ok r) :
    ∀ m ∈ Field.entries fs x, m.2.depth ≤ maxDepth - 1 := by
  induction fs generalizing fuel seen y with
  | nil => simp [Field.entries]
  | cons f fs ih =>
    rw [List.map_cons, List.nodup_cons] at hdistinct
    obtain ⟨hother, hdistinct⟩ := hdistinct
    have hfind' : ∀ g ∈ fs, layout.find? g.name = some g := fun g hg => hfind g (by simp [hg])
    cases hv : f.entry? x with
    | none =>
      rw [Field.entries_cons_none hv] at hsound h ⊢
      exact ih hfind' hdistinct (fun g hg => hseen g (by simp [hg])) hsound h
    | some v =>
      rw [Field.entries_cons_some hv] at hsound h ⊢
      obtain ⟨⟨hwf, hdf⟩, hsound⟩ := List.forall_mem_cons.1 hsound
      cases fuel with
      | zero => cases h
      | succ fuel =>
        have hrest := endsValue_separated (renderMembers (Field.entries fs x)) (endsValue_curly rest)
        rw [renderMembers, separated, List.cons_append, List.cons_append, List.append_assoc,
          List.append_assoc, List.cons_append, namedFields_comma] at h
        obtain ⟨found, hfound, h⟩ := bind_eq_ok.1 h
        have hdepth := depth_le_of_namedField (hfind f (by simp)) (hseen f (by simp)) hv hwf hdf
          hrest hfound
        rw [namedField_render (hfind f (by simp)) (hseen f (by simp)) hv ⟨hdepth, hwf, hdf⟩ hrest]
          at hfound
        cases hfound
        exact List.forall_mem_cons.2
          ⟨hdepth, ih hfind' hdistinct (Field.unseen_cons hother hseen) hsound h⟩

theorem depth_le_of_readRecord (hdistinct : layout.Distinct)
    (hsound : ∀ m ∈ layout.entries x, m.2.wellFormed = true ∧ m.2.doubleFree = true)
    (h : readRecord layout (renderRecord layout x) = .ok y) :
    ∀ m ∈ layout.entries x, m.2.depth ≤ maxDepth - 1 := by
  obtain ⟨fuel, -, hrecord⟩ := record_render layout x
  obtain ⟨found, hfound, -⟩ := bind_eq_ok.1 h
  rw [hrecord] at hfound
  exact depth_le_of_namedFields (fun f => hdistinct.find?) hdistinct (by simp) hsound hfound

end Switchboard.Json
