import Mathlib
import Switchboard.Files.Tree

/-! Finding the way in a directory tree: where names lead as a relation, and what becomes of it when
the tree grows. -/
namespace Switchboard.Files

namespace Tree

variable {t u v : Tree} {follow : Bool} {links : Nat} {here names rest place p : List String}
  {name path : String} {e : Entry} {o : Option Entry}

/-- A name that an entry can have. -/
structure Plain (name : String) : Prop where
  ne_here : name ≠ "."
  ne_above : name ≠ ".."
  short : name.utf8ByteSize ≤ maxName

/-- Where names lead from a directory, and what stands there. -/
inductive Leads (t : Tree) (follow : Bool) :
    (links : Nat) → (here names place : List String) → Option Entry → Prop
  | arrived {links : Nat} {here : List String} :
      Leads t follow links here [] here (t.entry? here)
  | stay {links : Nat} {here rest place : List String} {o : Option Entry}
      (h : Leads t follow links here rest place o) :
      Leads t follow links here ("." :: rest) place o
  | leave {links : Nat} {here rest place : List String} {o : Option Entry}
      (h : Leads t follow links here.dropLast rest place o) :
      Leads t follow links here (".." :: rest) place o
  | nothing {links : Nat} {here : List String} {name : String} (hn : Plain name)
      (he : t.entry? (here ++ [name]) = none) :
      Leads t follow links here [name] (here ++ [name]) none
  | enter {links : Nat} {here rest place : List String} {name : String} {o : Option Entry}
      (hn : Plain name) (he : t.entry? (here ++ [name]) = some .directory)
      (h : Leads t follow links (here ++ [name]) rest place o) :
      Leads t follow links here (name :: rest) place o
  /-- A link at the end of the way is the end of it, unless it is to be followed. -/
  | link {links : Nat} {here : List String} {name target : String} (hn : Plain name)
      (he : t.entry? (here ++ [name]) = some (.link target)) (hf : follow = false) :
      Leads t follow links here [name] (here ++ [name]) (some (.link target))
  | follow {links : Nat} {here rest place : List String} {name target : String}
      {o : Option Entry} (hn : Plain name) (he : t.entry? (here ++ [name]) = some (.link target))
      (hf : rest ≠ [] ∨ follow = true)
      (h : Leads t follow links (if Path.isAbsolute target then [] else here)
        (Path.names target ++ rest) place o) :
      Leads t follow (links + 1) here (name :: rest) place o
  | leaf {links : Nat} {here : List String} {name : String} {e : Entry} (hn : Plain name)
      (he : t.entry? (here ++ [name]) = some e) (hd : e ≠ .directory)
      (hl : ∀ target, e ≠ .link target) :
      Leads t follow links here [name] (here ++ [name]) (some e)

theorem leads_of_walk (h : t.walk follow links here names = .ok (place, o)) :
    t.Leads follow links here names place o := by
  fun_induction walk t follow links here names with
  | case1 links here => cases h; exact .arrived
  | case2 links here rest ih => exact .stay (ih h)
  | case3 links here rest _ ih => exact .leave (ih h)
  | case4 | case6 | case9 | case12 => cases h
  | case5 links here name rest h1 h2 h3 _ he hr =>
    obtain ⟨hp, rfl⟩ : here ++ [name] = place ∧ none = o := by simpa using h
    subst hp
    obtain rfl := List.isEmpty_iff.1 hr
    exact .nothing ⟨h1, h2, Nat.le_of_not_lt h3⟩ he
  | case7 links here name rest h1 h2 h3 _ he ih =>
    exact .enter ⟨h1, h2, Nat.le_of_not_lt h3⟩ he (ih h)
  | case8 links here name rest h1 h2 h3 _ target he hr =>
    obtain ⟨hp, rfl⟩ : here ++ [name] = place ∧ some (.link target) = o := by simpa using h
    subst hp
    rw [Bool.and_eq_true, List.isEmpty_iff] at hr
    obtain ⟨rfl, hf⟩ := hr
    exact .link ⟨h1, h2, Nat.le_of_not_lt h3⟩ he (by simpa using hf)
  | case10 here name rest h1 h2 h3 _ target he hr links ih =>
    refine .follow ⟨h1, h2, Nat.le_of_not_lt h3⟩ he ?_ (ih h)
    rw [Bool.and_eq_true, List.isEmpty_iff, not_and_or] at hr
    simpa using hr
  | case11 links here name rest h1 h2 h3 _ e hd hl he hr =>
    obtain ⟨hp, rfl⟩ : here ++ [name] = place ∧ some e = o := by simpa using h
    subst hp
    obtain rfl := List.isEmpty_iff.1 hr
    exact .leaf ⟨h1, h2, Nat.le_of_not_lt h3⟩ he hd hl

theorem walk_of_leads (h : t.Leads follow links here names place o) :
    t.walk follow links here names = .ok (place, o) := by
  induction h with
  | arrived => rw [walk]
  | stay _ ih => rw [walk, if_pos rfl, ih]
  | leave _ ih => rw [walk, if_neg (by decide), if_pos rfl, ih]
  | nothing hn he =>
    simp [walk, hn.ne_here, hn.ne_above, Nat.not_lt.2 hn.short, he]
  | enter hn he _ ih => simp [walk, hn.ne_here, hn.ne_above, Nat.not_lt.2 hn.short, he, ih]
  | link hn he hf => simp [walk, hn.ne_here, hn.ne_above, Nat.not_lt.2 hn.short, he, hf]
  | @follow _ _ rest _ name target _ hn he hf _ ih =>
    have hgo : ¬(rest.isEmpty && !follow) = true := by
      rw [Bool.and_eq_true, List.isEmpty_iff, not_and_or]
      simpa using hf
    simp [walk, hn.ne_here, hn.ne_above, Nat.not_lt.2 hn.short, he, hgo, ih]
  | @leaf _ _ _ e hn he hd hl =>
    simp only [walk, hn.ne_here, hn.ne_above, Nat.not_lt.2 hn.short, he, if_false]
    cases e with
    | directory => exact absurd rfl hd
    | link target => exact absurd rfl (hl target)
    | file text => rfl
    | socket => rfl

theorem walk_eq_ok_iff : t.walk follow links here names = .ok (place, o) ↔
    t.Leads follow links here names place o := ⟨leads_of_walk, walk_of_leads⟩

/-- What is found is what stands at the place. -/
theorem Leads.entry_eq (h : t.Leads follow links here names place o) : o = t.entry? place := by
  induction h with
  | arrived => rfl
  | stay _ ih | leave _ ih | enter _ _ _ ih | follow _ _ _ _ ih => exact ih
  | nothing _ he | link _ he | leaf _ he => exact he.symm

/-- A tree in which all that stood in another still stands. -/
def Extends (t u : Tree) : Prop := ∀ place e, t.entry? place = some e → u.entry? place = some e

theorem Extends.refl (t : Tree) : Extends t t := fun _ _ h => h

theorem Extends.trans (h : Extends t u) (h' : Extends u v) : Extends t v :=
  fun place e he => h' place e (h place e he)

/-- Names that lead to an entry lead to it however the tree grows. -/
theorem Leads.extends (h : t.Leads follow links here names place (some e)) (hu : Extends t u) :
    u.Leads follow links here names place (some e) := by
  generalize ho : some e = o at h
  induction h with
  | arrived =>
    rw [← ho, ← hu _ _ ho.symm]
    exact .arrived
  | stay _ ih => exact .stay (ih ho)
  | leave _ ih => exact .leave (ih ho)
  | nothing => cases ho
  | enter hn he _ ih => exact .enter hn (hu _ _ he) (ih ho)
  | link hn he hf => exact .link hn (hu _ _ he) hf
  | follow hn he hf _ ih => exact .follow hn (hu _ _ he) hf (ih ho)
  | leaf hn he hd hl => exact .leaf hn (hu _ _ he) hd hl

theorem entry?_put (t : Tree) (place p : List String) (e : Entry) :
    Tree.entry? (t.put place e) p =
      if p = [] then some .directory else if p = place then some e else t.entry? p := by
  unfold entry? put
  split_ifs <;> simp [*]

theorem extends_put (h : t.entry? place = none) (e : Entry) : Extends t (t.put place e) := by
  intro p x hp
  rw [entry?_put]
  split_ifs with hroot hplace
  · rw [hroot, entry?, if_pos rfl] at hp
    exact hp
  · rw [← hplace, hp] at h
    cases h
  · exact hp

/-- Where names lead to nothing, they lead to a directory once it is made. -/
theorem Leads.put (h : t.Leads false links here names place none) :
    (t.put place .directory).Leads true links here names place (some .directory) := by
  have hnew : Tree.entry? (t.put place .directory) place = some .directory := by
    rw [entry?_put, if_pos rfl, ite_self]
  have hext : Extends t (t.put place .directory) := extends_put h.entry_eq.symm _
  generalize ht : t.put place .directory = u at hnew hext ⊢
  clear ht
  generalize ho : none = o at h
  induction h with
  | arrived =>
    rw [← hnew]
    exact .arrived
  | stay _ ih => exact .stay (ih hnew ho)
  | leave _ ih => exact .leave (ih hnew ho)
  | nothing hn he => exact .enter hn hnew (hnew ▸ .arrived)
  | enter hn he _ ih => exact .enter hn (hext _ _ he) (ih hnew ho)
  | link => cases ho
  | follow hn he _ _ ih => exact .follow hn (hext _ _ he) (.inr rfl) (ih hnew ho)
  | leaf => cases ho

theorem entry?_remove (t : Tree) (place p : List String) :
    Tree.entry? (t.remove place) p =
      if p = [] then some .directory else if p = place then none else t.entry? p := by
  unfold entry? remove
  split_ifs <;> simp [*]

/-- Names that lead to a socket lead to nothing once it is removed. -/
theorem Leads.remove (h : t.Leads follow links here names place (some .socket)) :
    (t.remove place).Leads follow links here names place none := by
  have hstood := h.entry_eq.symm
  have hgone : Tree.entry? (t.remove place) place = none := by
    rw [entry?_remove, if_neg, if_pos rfl]
    rintro rfl
    cases hstood
  -- What the names go through before is no socket, so it is there still.
  have hkept {p : List String} {e : Entry} (he : t.entry? p = some e) (hne : e ≠ .socket) :
      Tree.entry? (t.remove place) p = some e := by
    rw [entry?_remove]
    split_ifs with hroot hp
    · rw [hroot] at he
      exact he
    · rw [hp, hstood] at he
      exact absurd (Option.some.inj he).symm hne
    · exact he
  clear hstood
  generalize t.remove place = u at hgone hkept ⊢
  generalize ho : some Entry.socket = o at h
  induction h with
  | arrived =>
    rw [← hgone]
    exact .arrived
  | stay _ ih => exact .stay (ih hgone ho)
  | leave _ ih => exact .leave (ih hgone ho)
  | enter hn he _ ih => exact .enter hn (hkept he nofun) (ih hgone ho)
  | follow hn he hf _ ih => exact .follow hn (hkept he nofun) hf (ih hgone ho)
  | leaf hn he _ _ => exact .nothing hn hgone
  | nothing | link => cases ho

/-- What makes a text a path that can be looked up. -/
structure Proper (path : String) : Prop where
  nonempty : path ≠ ""
  clean : '\x00' ∉ path.toList
  short : path.utf8ByteSize < maxPath

theorem locate_eq_ok_iff : t.locate follow path = .ok (place, o) ↔
    Proper path ∧ t.Leads follow maxLinks [] (Path.names path) place o := by
  rw [← walk_eq_ok_iff]
  constructor
  · intro h
    unfold locate at h
    split_ifs at h with hempty hclean hlong
    exact ⟨⟨hempty, by simpa using hclean, Nat.lt_of_not_le hlong⟩, h⟩
  · rintro ⟨hp, h⟩
    simp [locate, hp.nonempty, hp.clean, Nat.not_le.2 hp.short, h]

theorem locate_extends (h : t.locate follow path = .ok (place, some e)) (hu : Extends t u) :
    u.locate follow path = .ok (place, some e) := by
  obtain ⟨hp, h⟩ := locate_eq_ok_iff.1 h
  exact locate_eq_ok_iff.2 ⟨hp, h.extends hu⟩

theorem entry?_of_locate (h : t.locate follow path = .ok (place, o)) : t.entry? place = o :=
  (locate_eq_ok_iff.1 h).2.entry_eq.symm

theorem locate_put (h : t.locate false path = .ok (place, none)) :
    (t.put place .directory).locate true path = .ok (place, some .directory) := by
  obtain ⟨hp, h⟩ := locate_eq_ok_iff.1 h
  exact locate_eq_ok_iff.2 ⟨hp, h.put⟩

theorem locate_remove (h : t.locate follow path = .ok (place, some .socket)) :
    (t.remove place).locate follow path = .ok (place, none) := by
  obtain ⟨hp, h⟩ := locate_eq_ok_iff.1 h
  exact locate_eq_ok_iff.2 ⟨hp, h.remove⟩

/-- What is created stands at a place where nothing was. -/
theorem create_eq_ok_iff : t.create path e = .ok u ↔
    ∃ place, t.locate false path = .ok (place, none) ∧ t.put place e = u := by
  unfold create
  split
  · rename_i place h
    simp [h]
  · rename_i h
    simp [h]
  · rename_i h
    simp [h]

/-- Names that lead on from a directory lead on from wherever it was come to. -/
theorem Leads.walk_append (h : t.Leads true links here names place (some .directory))
    (hrest : rest ≠ []) : ∃ left,
      t.walk follow links here (names ++ rest) = t.walk follow left place rest := by
  generalize ho : some Entry.directory = o at h
  induction h with
  | arrived => exact ⟨_, rfl⟩
  | stay _ ih =>
    obtain ⟨left, hleft⟩ := ih ho
    exact ⟨left, by rw [List.cons_append, walk, if_pos rfl, hleft]⟩
  | leave _ ih =>
    obtain ⟨left, hleft⟩ := ih ho
    exact ⟨left, by rw [List.cons_append, walk, if_neg (by decide), if_pos rfl, hleft]⟩
  | enter hn he _ ih =>
    obtain ⟨left, hleft⟩ := ih ho
    exact ⟨left, by simp [walk, hn.ne_here, hn.ne_above, Nat.not_lt.2 hn.short, he, hleft]⟩
  | follow hn he _ _ ih =>
    obtain ⟨left, hleft⟩ := ih ho
    refine ⟨left, ?_⟩
    rw [List.append_assoc] at hleft
    simp [walk, hn.ne_here, hn.ne_above, Nat.not_lt.2 hn.short, he, hrest, hleft]
  | nothing | link => cases ho
  | leaf _ _ hd => exact absurd (Option.some.inj ho).symm hd

/-- Below a place with nothing but directories under it, names that do not lead back come to
nothing else. -/
theorem Leads.eq_directory (h : t.Leads follow links here names place o)
    (hall : ∀ q e, t.entry? (p ++ q) = some e → e = .directory) (hhere : p <+: here)
    (hup : ".." ∉ names) (ho : o = some e) : e = .directory := by
  have hstep {here : List String} {name : String} {x : Entry} (hhere : p <+: here)
      (he : t.entry? (here ++ [name]) = some x) : x = .directory := by
    obtain ⟨q, rfl⟩ := hhere
    rw [List.append_assoc] at he
    exact hall _ _ he
  induction h with
  | arrived =>
    obtain ⟨q, rfl⟩ := hhere
    exact hall q e ho
  | stay _ ih => exact ih hhere (fun hm => hup (List.mem_cons_of_mem _ hm)) ho
  | leave => exact absurd List.mem_cons_self hup
  | nothing => cases ho
  | enter _ _ _ ih =>
    exact ih (hhere.trans (List.prefix_append _ _)) (fun hm => hup (List.mem_cons_of_mem _ hm)) ho
  | link _ he | follow _ he => cases hstep hhere he
  | leaf _ he hd => exact absurd (hstep hhere he) hd

/-- A tree whose entries stand in directories. -/
def Rooted (t : Tree) : Prop :=
  ∀ place name, t.entry? (place ++ [name]) ≠ none → t.entry? place = some .directory

theorem entry?_blank (h : place ≠ []) : entry? ⟨default⟩ place = none := by
  rw [Tree.entry?, if_neg h]
  rfl

theorem rooted_blank : Rooted ⟨default⟩ := by
  intro place name h
  exact absurd (entry?_blank (by simp)) h

theorem Rooted.put (h : Rooted t) (place : List String) (name : String)
    (hd : t.entry? place = some .directory) (hn : t.entry? (place ++ [name]) = none)
    (e : Entry) : Rooted (t.put (place ++ [name]) e) := by
  intro p last hne
  have hext := extends_put hn e
  by_cases hp : p ++ [last] = place ++ [name]
  · rw [(List.append_inj' hp rfl).1]
    exact hext _ _ hd
  · rw [entry?_put, if_neg (by simp), if_neg hp] at hne
    exact hext _ _ (h p last hne)

theorem Rooted.below (h : Rooted t) (hp : t.entry? p = none) (q : List String) :
    t.entry? (p ++ q) = none := by
  induction q using List.reverseRecOn with
  | nil => simpa using hp
  | append_singleton q name ih =>
    by_contra hne
    rw [← List.append_assoc] at hne
    rw [h _ _ hne] at ih
    cases ih

end Tree

end Switchboard.Files
