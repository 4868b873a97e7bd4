import Mathlib
import Switchboard.Files.Path

/-! What a path goes through on its way. -/
namespace Switchboard.Path

variable {c : Char} {cs ds us vs : List Char} {q p path above : String}

/-- What is behind the beginning of a path, from a slash on: at least one more name that leads
somewhere. -/
def Further (cs : List Char) : Prop :=
  ∃ ds, cs = '/' :: ds ∧ ∃ name ∈ parts ds, name ≠ [] ∧ name ≠ ['.']

/-- A path, with no slash at its end, that another goes through before it comes to its end. -/
structure Above (q path : String) : Prop where
  nonempty : q ≠ ""
  slashless : q.toList.getLast? ≠ some '/'
  further : ∃ behind, path.toList = q.toList ++ behind ∧ Further behind

theorem parts_ne_nil (cs : List Char) : parts cs ≠ [] := by
  cases cs with
  | nil => simp [parts]
  | cons c cs =>
    unfold parts
    split_ifs
    · simp
    · split <;> simp

theorem parts_cons (hc : c ≠ '/') (cs : List Char) :
    ∃ p ps, parts cs = p :: ps ∧ parts (c :: cs) = (c :: p) :: ps := by
  obtain ⟨p, ps, hp⟩ := List.exists_cons_of_ne_nil (parts_ne_nil cs)
  exact ⟨p, ps, hp, by rw [parts, if_neg hc, hp]⟩

/-- A slash parts what is before it from what is behind. -/
theorem parts_slash (us vs : List Char) : parts (us ++ '/' :: vs) = parts us ++ parts vs := by
  induction us with
  | nil => simp [parts]
  | cons c us ih =>
    by_cases hc : c = '/'
    · simp [parts, hc, ih]
    · obtain ⟨p, ps, hus, hcons⟩ := parts_cons hc us
      rw [List.cons_append, parts, if_neg hc, ih, hcons, hus]
      rfl

theorem parts_of_not_mem (h : '/' ∉ cs) : parts cs = [cs] := by
  induction cs with
  | nil => rfl
  | cons c cs ih =>
    rw [List.mem_cons, not_or] at h
    rw [parts, if_neg (Ne.symm h.1), ih h.2]

/-- What goes on further goes on further from any slash before. -/
theorem Further.append (hu : Further us) (hv : Further vs) : Further (us ++ vs) := by
  obtain ⟨ds, rfl, -⟩ := hu
  obtain ⟨es, rfl, name, hname, hne⟩ := hv
  refine ⟨ds ++ '/' :: es, rfl, name, ?_, hne⟩
  rw [parts_slash]
  exact List.mem_append_right _ hname

theorem Above.trans (h : Above q p) (h' : Above p path) : Above q path := by
  obtain ⟨us, hus, hu⟩ := h.further
  obtain ⟨vs, hvs, hv⟩ := h'.further
  refine ⟨h.nonempty, h.slashless, us ++ vs, ?_, hu.append hv⟩
  rw [hvs, hus, List.append_assoc]

/-- What `trimmed` leaves, unless it is the root, is nothing that it would take off, and ends where
a slash was. -/
structure Trimmed (cs ds : List Char) : Prop where
  rest : ∃ off, cs = off ++ ds ∧ (off = [] ∨ ∃ us, off = us ++ ['/'])
  slashless : ∀ es, ds ≠ '/' :: es
  dotless : ∀ es, ds ≠ '.' :: '/' :: es

theorem trimmed_cases (cs : List Char) : trimmed cs = ['/'] ∨ Trimmed cs (trimmed cs) := by
  have hmore {off cs : List Char} (hoff : off.getLast? = some '/')
      (h : trimmed cs = ['/'] ∨ Trimmed cs (trimmed cs)) :
      trimmed cs = ['/'] ∨ Trimmed (off ++ cs) (trimmed cs) := by
    refine h.imp_right fun ht => ?_
    obtain ⟨us, hus⟩ := List.getLast?_eq_some_iff.1 hoff
    obtain ⟨off', hcs, hoff'⟩ := ht.rest
    refine ⟨⟨off ++ off', by rw [List.append_assoc, ← hcs], .inr ?_⟩, ht.slashless, ht.dotless⟩
    rcases hoff' with rfl | ⟨vs, rfl⟩
    · exact ⟨us, by rw [List.append_nil, hus]⟩
    · exact ⟨off ++ vs, by rw [List.append_assoc]⟩
  fun_induction trimmed cs with
  | case1 => exact .inl rfl
  | case2 cs _ ih => exact @hmore ['/'] _ rfl ih
  | case3 => exact .inl rfl
  | case4 cs _ ih => exact @hmore ['.', '/'] _ rfl ih
  | case5 cs h1 h2 h3 h4 =>
    exact .inr ⟨⟨[], rfl, .inl rfl⟩, h2, h4⟩

/-- A name between slashes is a part. -/
theorem mem_parts {name : List Char} (hn : '/' ∉ name) (hu : us = [] ∨ ∃ es, us = es ++ ['/'])
    (hv : vs = [] ∨ ∃ es, vs = '/' :: es) : name ∈ parts (us ++ name ++ vs) := by
  have hbehind : name ∈ parts (name ++ vs) := by
    rcases hv with rfl | ⟨es, rfl⟩
    · simp [parts_of_not_mem hn]
    · simp [parts_slash, parts_of_not_mem hn]
  rcases hu with rfl | ⟨es, rfl⟩
  · simpa using hbehind
  · rw [List.append_assoc, List.append_assoc, List.singleton_append, parts_slash]
    exact List.mem_append_right _ hbehind

/-- Where the first slash is, if there is one. -/
theorem dropWhile_cases (cs : List Char) : ∃ name, '/' ∉ name ∧
    (cs.dropWhile (· ≠ '/') = [] ∨
      ∃ es, cs.dropWhile (· ≠ '/') = '/' :: es ∧ cs = name ++ '/' :: es) := by
  induction cs with
  | nil => exact ⟨[], by simp, .inl rfl⟩
  | cons c cs ih =>
    by_cases hc : c = '/'
    · exact ⟨[], by simp, .inr ⟨cs, by simp [hc], by simp [hc]⟩⟩
    · obtain ⟨name, hname, hrest⟩ := ih
      refine ⟨c :: name, by simp [Ne.symm hc, hname], ?_⟩
      rw [List.dropWhile_cons_of_pos (by simpa using hc)]
      refine hrest.imp_right ?_
      rintro ⟨es, hes, hcs⟩
      exact ⟨es, hes, by rw [List.cons_append, ← hcs]⟩

/-- What is taken off the end of a path to come to what is above it, the end first: a name, and
then slashes and dots that lead nowhere. -/
theorem exists_last_name (h : Trimmed ds cs) (hnil : trimmed (cs.dropWhile (· ≠ '/')) ≠ [])
    (hroot : trimmed (cs.dropWhile (· ≠ '/')) ≠ ['/']) :
    ∃ name us, cs = name ++ us ++ '/' :: trimmed (cs.dropWhile (· ≠ '/')) ∧
      (us = [] ∨ ∃ vs, us = '/' :: vs) ∧ '/' ∉ name ∧ name ≠ [] ∧ name ≠ ['.'] ∧
      ∀ es, trimmed (cs.dropWhile (· ≠ '/')) ≠ '/' :: es := by
  obtain ⟨name, hname, hnone | ⟨es, hes, hcs⟩⟩ := dropWhile_cases cs
  · rw [hnone] at hnil
    exact absurd rfl hnil
  have htrim := (trimmed_cases (cs.dropWhile (· ≠ '/'))).resolve_left hroot
  obtain ⟨off, hrest, hoff⟩ := htrim.rest
  generalize trimmed (cs.dropWhile (· ≠ '/')) = ds at *
  rw [hes] at hrest
  rcases hoff with rfl | ⟨us, rfl⟩
  · exact absurd hrest.symm (htrim.slashless es)
  refine ⟨name, us, ?_, ?_, hname, ?_, ?_, htrim.slashless⟩
  · rw [hcs, hrest]
    simp
  · cases us with
    | nil => exact .inl rfl
    | cons x us => exact .inr ⟨us, by rw [(List.cons.inj hrest).1]⟩
  · rintro rfl
    exact h.slashless es hcs
  · rintro rfl
    exact h.dotless es hcs

/-- The text of what is above a path begins the path, and the path goes on from there. -/
theorem root_or_above (h : parent? path = some above) (hne : above ≠ "") :
    above = "/" ∨ Above above path := by
  refine or_iff_not_imp_left.2 fun hroot => ?_
  unfold parent? at h
  split at h
  · cases h
  · cases h
  · rename_i _ hnil hslash
    obtain rfl := Option.some.inj h
    have htrim := (trimmed_cases path.toList.reverse).resolve_left hslash
    obtain ⟨off, hpath, hoff⟩ := htrim.rest
    obtain ⟨name, us, hcs, hus, hname, hfull, hdot, hslashless⟩ := exists_last_name htrim
      (fun hn => hne (by rw [hn]; rfl)) (fun hr => hroot (by rw [hr]; rfl))
    generalize trimmed ((trimmed path.toList.reverse).dropWhile (· ≠ '/')) = ds at *
    refine ⟨hne, ?_, '/' :: (us.reverse ++ name.reverse ++ off.reverse), ?_, _, rfl, name.reverse,
      mem_parts (by simpa using hname) ?_ ?_, by simpa using hfull, ?_⟩
    · rw [String.toList_ofList, List.getLast?_reverse, Ne, List.head?_eq_some_iff]
      rintro ⟨es, hes⟩
      exact hslashless es hes
    · have hforward := congrArg List.reverse (hcs ▸ hpath)
      simpa using hforward
    · rcases hus with rfl | ⟨vs, rfl⟩
      · exact .inl rfl
      · exact .inr ⟨vs.reverse, by simp⟩
    · rcases hoff with rfl | ⟨vs, rfl⟩
      · exact .inl rfl
      · exact .inr ⟨vs.reverse, by simp⟩
    · simpa [List.reverse_eq_iff] using hdot

/-- The names of a path are those of one above it and then at least one more. -/
theorem Above.names (h : Above q path) :
    ∃ behind, names path = Path.names q ++ behind ∧ behind ≠ [] := by
  obtain ⟨_, hpath, ds, rfl, name, hname, hne, -⟩ := h.further
  refine ⟨((parts ds).filter (· ≠ [])).map String.ofList ++
    if path.toList.getLast? = some '/' then ["."] else [], ?_, ?_⟩
  · have hq : Path.names q = ((parts q.toList).filter (· ≠ [])).map String.ofList := by
      rw [Path.names, if_neg h.slashless]
    rw [hq, Path.names, hpath, parts_slash, List.filter_append, List.map_append]
    split_ifs <;> simp
  · intro hnil
    have hmem : name ∈ (parts ds).filter (· ≠ []) := List.mem_filter.2 ⟨hname, by simpa using hne⟩
    have := List.mem_map_of_mem (f := String.ofList) hmem
    rw [(List.append_eq_nil_iff.1 hnil).1] at this
    cases this

end Switchboard.Path
