import Switchboard.Files.Socket
import Switchboard.Proofs.Files.Lookup
import Switchboard.Proofs.Files.Path

/-! Binding a socket: what is made on the way to it, and what a refusal leaves as it was. -/
namespace Switchboard.Files

namespace Tree

variable {P : String → Prop} {t u v : Tree} {place : List String} {path above : String}
  {e : Entry} {err : Error}

/-- A tree that has come out of another by making directories, each at a place that one of certain
paths leads to. -/
structure Grown (P : String → Prop) (t u : Tree) : Prop where
  kept : Extends t u
  made : ∀ place e, t.entry? place = none → u.entry? place = some e →
    e = .directory ∧ ∃ q, P q ∧ u.locate true q = .ok (place, some .directory)

theorem Grown.refl (P : String → Prop) (t : Tree) : Grown P t t where
  kept := .refl t
  made place e hnone hsome := by simp [hnone] at hsome

theorem Grown.trans (h : Grown P t u) (h' : Grown P u v) : Grown P t v where
  kept := h.kept.trans h'.kept
  made place e hnone hsome := by
    cases hu : u.entry? place with
    | none => exact h'.made place e hu hsome
    | some x =>
      obtain ⟨rfl, q, hq, hlocate⟩ := h.made place x hnone hu
      obtain rfl : .directory = e := Option.some.inj ((h'.kept _ _ hu).symm.trans hsome)
      exact ⟨rfl, q, hq, locate_extends hlocate h'.kept⟩

theorem grown_create (h : t.create path .directory = .ok u) (hP : P path) : Grown P t u := by
  obtain ⟨place, hlocate, rfl⟩ := create_eq_ok_iff.1 h
  refine ⟨extends_put (entry?_of_locate hlocate) _, fun p e hnone hsome => ?_⟩
  rw [entry?_put] at hsome
  split_ifs at hsome with hroot hplace
  · rw [hroot, entry?, if_pos rfl] at hnone
    cases hnone
  · obtain rfl := Option.some.inj hsome
    subst hplace
    exact ⟨rfl, path, hP, locate_put hlocate⟩
  · rw [hnone] at hsome
    cases hsome

/-- The root is there already. -/
theorem createAllFrom_root (fuel : Nat) (t : Tree) : (createAllFrom fuel "/" t).2 = t := by
  cases fuel with
  | zero => rfl
  | succ fuel =>
    have hroot (follow : Bool) : t.locate follow "/" = .ok ([], some .directory) :=
      locate_eq_ok_iff.2 ⟨⟨by decide, by decide, by decide⟩, .stay .arrived⟩
    simp [createAllFrom, create, hroot]

/-- On the way to a path, directories are made above it and nowhere else. -/
theorem grown_createAllFrom (fuel : Nat) (h : above = "/" ∨ Path.Above above path) (t : Tree) :
    Grown (Path.Above · path) t (createAllFrom fuel above t).2 := by
  induction fuel generalizing above t with
  | zero => exact .refl _ t
  | succ fuel ih =>
    rcases h with rfl | h
    · rw [createAllFrom_root]
      exact .refl _ t
    unfold createAllFrom
    split
    · rename_i u hcreate
      exact grown_create hcreate h
    · split
      · exact .refl _ t
      · rename_i next hparent
        have hway : Grown (Path.Above · path) t
            (if next = "" then (.ok (), t) else createAllFrom fuel next t).2 := by
          split_ifs with hempty
          · exact .refl _ t
          · exact ih ((Path.root_or_above hparent hempty).imp_right fun hn => hn.trans h) t
        split
        · rename_i heq
          rwa [heq] at hway
        · rename_i u heq
          rw [heq] at hway
          split
          · rename_i v hcreate
            exact hway.trans (grown_create hcreate h)
          · exact hway
    · exact .refl _ t

theorem grown_prepare (path : String) (t : Tree) :
    Grown (Path.Above · path) t (t.prepare path).2 := by
  unfold prepare
  split
  · exact .refl _ t
  · rename_i above hparent
    split_ifs with hempty
    · exact .refl _ t
    · have hway : Grown (Path.Above · path) t (t.createAll above).2 :=
        grown_createAllFrom _ (Path.root_or_above hparent hempty) t
      split <;> rename_i heq <;> rwa [heq] at hway

/-- Nothing becomes a socket. -/
theorem Grown.socket_before (h : Grown P t u) (hs : u.entry? place = some .socket) :
    t.entry? place = some .socket := by
  cases ht : t.entry? place with
  | none => exact nomatch (h.made place _ ht hs).1
  | some e => exact (h.kept place e ht).symm.trans hs

/-- A path that leads to something it did not lead to before does so through something new. -/
theorem Grown.exists_made (h : Grown P t u) (hu : u.locate false path = .ok (place, some e))
    (ht : t.locate false path ≠ .ok (place, some e)) :
    ∃ new, t.entry? new = none ∧ u.entry? new = some .directory := by
  by_contra hold
  refine ht (locate_extends hu fun p x hx => ?_)
  cases hp : t.entry? p with
  | none =>
    obtain ⟨rfl, -⟩ := h.made p x hp hx
    exact absurd ⟨p, hp, hx⟩ hold
  | some y => exact (h.kept p y hp).symm.trans hx

/-- And if it does not end there, it leads back from there: below a new directory there is nothing
but new ones. -/
theorem Grown.leads_back {q : String} {new : List String} (h : Grown P t u) (ht : t.Rooted)
    (hnew : t.entry? new = none) (hq : Path.Above q path)
    (hway : u.locate true q = .ok (new, some .directory))
    (hu : u.locate false path = .ok (place, some e)) (he : e ≠ .directory) :
    ∃ behind, Path.names path = Path.names q ++ behind ∧ ".." ∈ behind := by
  obtain ⟨behind, hnames, hbehind⟩ := hq.names
  refine ⟨behind, hnames, ?_⟩
  by_contra hup
  obtain ⟨left, hleft⟩ := (locate_eq_ok_iff.1 hway).2.walk_append hbehind
  have hwalk := walk_of_leads (locate_eq_ok_iff.1 hu).2
  rw [hnames, hleft] at hwalk
  have hall : ∀ r x, u.entry? (new ++ r) = some x → x = .directory := fun r x hx =>
    (h.made _ x (ht.below hnew r) hx).1
  exact he ((leads_of_walk hwalk).eq_directory hall List.prefix_rfl hup rfl)

theorem error_of_prepare (h : t.prepare path = (.error err, u)) :
    ∃ text, err = .listener text := by
  unfold prepare at h
  split at h
  · cases h
  · split_ifs at h
    · cases h
    · split at h <;> cases h
      exact ⟨_, rfl⟩

theorem error_of_clear (h : t.clear path = (.error err, u)) : ∃ text, err = .listener text := by
  unfold clear at h
  split at h <;> cases h <;> exact ⟨_, rfl⟩

/-- Only a socket is cleared away. -/
theorem clear_cases (path : String) (t : Tree) : (t.clear path).2 = t ∨
    ∃ place, t.locate false path = .ok (place, some .socket) ∧
      t.clear path = (.ok (), t.remove place) := by
  unfold clear
  split
  · rename_i place hlocate
    exact .inr ⟨place, hlocate, rfl⟩
  all_goals exact .inl rfl

theorem refused_of_place (h : t.place path = (.error err, u)) :
    (∃ text, err = .listener text) ∧ u = t := by
  unfold Tree.place at h
  split_ifs at h
  · cases h
    exact ⟨⟨_, rfl⟩, rfl⟩
  · split at h <;> cases h
    exact ⟨⟨_, rfl⟩, rfl⟩

/-- Where nothing is in its way, a socket is put unless its path is too long. -/
theorem long_of_place (h : t.place path = (.error err, u))
    (hfree : t.locate false path = .ok (place, none)) : maxSocketPath ≤ path.utf8ByteSize := by
  by_contra hshort
  have hput : t.create path .socket = .ok (t.put place .socket) :=
    create_eq_ok_iff.2 ⟨place, hfree, rfl⟩
  rw [Tree.place, if_neg hshort, hput] at h
  cases h

/-- Whatever is in the way of a socket, it is an error of the listener. -/
theorem error_of_bind (h : t.bind path = (.error err, u)) : ∃ text, err = .listener text := by
  unfold bind at h
  split at h
  · rename_i hprepare
    cases h
    exact error_of_prepare hprepare
  · split at h
    · rename_i hclear
      cases h
      exact error_of_clear hclear
    · exact (refused_of_place h).1

/-- A socket that a path comes to lead to when directories on its way are made, and that is cleared
away then for another that is not put there: the path is too long for it. -/
structure Lost (path : String) (place : List String) (t u : Tree) : Prop where
  grown : Grown (Path.Above · path) t u
  stood : t.entry? place = some .socket
  found : u.locate false path = .ok (place, some .socket)
  /-- The path leads back from a directory that was made. -/
  back : ∃ new q, t.entry? new = none ∧ Path.Above q path ∧
    u.locate true q = .ok (new, some .directory) ∧
    (t.Rooted → ∃ behind, Path.names path = Path.names q ++ behind ∧ ".." ∈ behind)
  long : maxSocketPath ≤ path.utf8ByteSize

theorem lost_of_found (h : Grown (Path.Above · path) t u)
    (hfree : ∀ place, t.locate false path ≠ .ok (place, some .socket))
    (hu : u.locate false path = .ok (place, some .socket))
    (hlong : maxSocketPath ≤ path.utf8ByteSize) : Lost path place t u where
  grown := h
  stood := h.socket_before (entry?_of_locate hu)
  found := hu
  back := by
    obtain ⟨new, hnone, hsome⟩ := h.exists_made hu (hfree place)
    obtain ⟨-, q, hq, hway⟩ := h.made new _ hnone hsome
    exact ⟨new, q, hnone, hq, hway, fun ht => h.leads_back ht hnone hq hway hu nofun⟩
  long := hlong

/-- A refusal leaves all as it was but for the directories on the way, and for a socket that the
path leads to then. -/
theorem grown_or_lost (hfree : ∀ place, t.locate false path ≠ .ok (place, some .socket))
    (h : t.bind path = (.error err, u)) :
    Grown (Path.Above · path) t u ∨ ∃ v place, Lost path place t v ∧ u = v.remove place := by
  have hway := grown_prepare path t
  unfold bind at h
  split at h
  · rename_i hprepare
    cases h
    rw [hprepare] at hway
    exact .inl hway
  · rename_i v hprepare
    rw [hprepare] at hway
    rcases clear_cases path v with hclear | ⟨place, hsocket, hclear⟩
    · split at h
      · rename_i heq
        cases h
        rw [heq] at hclear
        obtain rfl : u = v := hclear
        exact .inl hway
      · rename_i w heq
        rw [heq] at hclear
        obtain rfl : w = v := hclear
        obtain rfl := (refused_of_place h).2
        exact .inl hway
    · rw [hclear] at h
      obtain rfl := (refused_of_place h).2
      have hlong := long_of_place h (locate_remove hsocket)
      exact .inr ⟨v, place, lost_of_found hway hfree hsocket hlong, rfl⟩

/-- What stands at the path of a socket is in its way, unless it is a socket itself. -/
theorem exists_bind_error (h : t.locate false path = .ok (place, some e)) (he : e ≠ .socket) :
    ∃ text u, t.bind path = (.error (.listener text), u) := by
  have hway := (grown_prepare path t).kept
  cases hprepare : t.prepare path with
  | mk result v =>
    rw [hprepare] at hway
    cases result with
    | error err =>
      obtain ⟨text, rfl⟩ := error_of_prepare hprepare
      exact ⟨text, v, by simp [bind, hprepare]⟩
    | ok _ =>
      have hthere := locate_extends h hway
      refine ⟨path ++ " exists and is not a socket", v, ?_⟩
      cases e with
      | socket => exact absurd rfl he
      | _ => simp [bind, hprepare, clear, hthere]

/-- If no socket stands at a path, to be refused one there costs nothing: all that was there is
there still, and what is new are directories on the way. But for one thing: the path is looked up
once the directories are made, and if it leads to a socket then, that is cleared away, and lost if
the path is too long to be bound. What is at the path already and no socket is always in the way. -/
theorem refusal_spares (path : String) (t : Tree) :
    (∀ err u, t.bind path = (.error err, u) →
      (∀ place, t.locate false path ≠ .ok (place, some .socket)) →
      (∃ text, err = .listener text) ∧
        (Grown (Path.Above · path) t u ∨ ∃ v place, Lost path place t v ∧ u = v.remove place)) ∧
    ∀ place e, t.locate false path = .ok (place, some e) → e ≠ .socket →
      ∃ text u, t.bind path = (.error (.listener text), u) ∧ Grown (Path.Above · path) t u := by
  refine ⟨fun err u h hfree => ⟨error_of_bind h, grown_or_lost hfree h⟩, ?_⟩
  intro place e h he
  obtain ⟨text, u, hbind⟩ := exists_bind_error h he
  have hfree (p : List String) : t.locate false path ≠ .ok (p, some .socket) := by
    rw [h]
    rintro ⟨⟩
    exact he rfl
  refine ⟨text, u, hbind, (grown_or_lost hfree hbind).resolve_right ?_⟩
  rintro ⟨v, p, hlost, -⟩
  exact hfree p (h.trans ((locate_extends h hlost.grown.kept).symm.trans hlost.found))

/-- A directory is made to lead back from. -/
theorem createAll_back (h : t.entry? ["n"] = none) :
    createAll "n/.." t = (.ok (), t.put ["n"] .directory) := by
  have hnames : Path.names "n" = ["n"] ∧ Path.names "n/.." = ["n", ".."] := by decide +kernel
  have hparent : Path.parent? "n/.." = some "n" := by decide +kernel
  have hlength : "n/..".length = 4 := by decide +kernel
  have hplain : Plain "n" := ⟨by decide, by decide, by decide⟩
  have hnew : Tree.entry? (t.put ["n"] .directory) ["n"] = some .directory := by simp [entry?_put]
  have hmissing : t.locate false "n/.." = .error .missing := by
    have hshort : "n/..".utf8ByteSize < maxPath := by decide
    simp [locate, hnames, walk, h, Nat.not_le.2 hshort, Nat.not_lt.2 hplain.short]
  have hmade : t.create "n" .directory = .ok (t.put ["n"] .directory) :=
    create_eq_ok_iff.2 ⟨["n"], locate_eq_ok_iff.2 ⟨⟨by decide, by decide, by decide⟩,
      hnames.1 ▸ .nothing hplain h⟩, rfl⟩
  have hback (follow : Bool) : (t.put ["n"] .directory).locate follow "n/.." =
      .ok ([], some .directory) :=
    locate_eq_ok_iff.2 ⟨⟨by decide, by decide, by decide⟩,
      hnames.2 ▸ .enter hplain hnew (.leave .arrived)⟩
  have hnot : t.create "n/.." .directory = .error .missing := by simp [create, hmissing]
  have hfound : (t.put ["n"] .directory).create "n/.." .directory = .error .occupied := by
    simp [create, hback]
  have hdirectory : (t.put ["n"] .directory).isDirectory "n/.." = true := by
    simp [isDirectory, hback]
  simp [createAll, createAllFrom, hlength, hnot, hparent, hmade, hfound, hdirectory]

/-- A file, and a link that leads to nothing. -/
def shelf : Tree := ((⟨default⟩ : Tree).put ["f"] (.file "x")).put ["l"] (.link "gone")

/-- The path goes through a directory that is made for it, and leads to the file then. -/
theorem shelf_refuses : shelf.bind "n/../f" =
    (.error (.listener "n/../f exists and is not a socket"), shelf.put ["n"] .directory) := by
  have hnames : Path.names "n/../f" = ["n", "..", "f"] := by decide +kernel
  have hparent : Path.parent? "n/../f" = some "n/.." := by decide +kernel
  have hplain : Plain "n" := ⟨by decide, by decide, by decide⟩
  have hfile : (shelf.put ["n"] .directory).locate false "n/../f" =
      .ok (["f"], some (.file "x")) :=
    locate_eq_ok_iff.2 ⟨⟨by decide, by decide, by decide⟩,
      hnames ▸ .enter hplain rfl (.leave
        (.leaf ⟨by decide, by decide, by decide⟩ rfl (by simp) (by simp)))⟩
  simp [bind, prepare, hparent, createAll_back (t := shelf) rfl, clear, hfile]

/-- The shelf with a socket on it. -/
def port : Tree := shelf.put ["s"] .socket

theorem port_rooted : port.Rooted :=
  ((rooted_blank.put [] "f" rfl rfl _).put [] "l" rfl rfl _).put [] "s" rfl rfl _

/-- No directory can be made where the file is. -/
theorem port_refuses : ∃ u, port.bind "f/x" = (.error (refuse "create" "f"), u) := by
  have hnames : Path.names "f" = ["f"] := by decide +kernel
  have hparent : Path.parent? "f/x" = some "f" := by decide +kernel
  have hfile (follow : Bool) : port.locate follow "f" = .ok (["f"], some (.file "x")) :=
    locate_eq_ok_iff.2 ⟨⟨by decide, by decide, by decide⟩,
      hnames ▸ .leaf ⟨by decide, by decide, by decide⟩ rfl (by simp) (by simp)⟩
  simp [bind, prepare, hparent, createAll, createAllFrom, create, isDirectory, hfile]

/-- The file and the link are spared, and so is a socket to which the path does not lead. -/
theorem shelf_spared : (∃ u, shelf.bind "n/../f" =
        (.error (.listener "n/../f exists and is not a socket"), u) ∧
      u.entry? ["f"] = some (.file "x") ∧ u.entry? ["l"] = some (.link "gone")) ∧
    (∃ text u, shelf.bind "l" = (.error (.listener text), u) ∧
      u.entry? ["l"] = some (.link "gone")) ∧
    ∃ u, port.bind "f/x" = (.error (refuse "create" "f"), u) ∧ u.entry? ["s"] = some .socket := by
  obtain ⟨hspared, -⟩ := refusal_spares "n/../f" shelf
  obtain ⟨-, hinway⟩ := refusal_spares "l" shelf
  obtain ⟨hkept, -⟩ := refusal_spares "f/x" port
  have hsocketless (place : List String) : shelf.entry? place ≠ some .socket := by
    simp only [shelf, entry?_put]
    split_ifs <;> simp [entry?_blank, *]
  have hlink : shelf.locate false "l" = .ok (["l"], some (.link "gone")) := by
    have hnames : Path.names "l" = ["l"] := by decide +kernel
    exact locate_eq_ok_iff.2 ⟨⟨by decide, by decide, by decide⟩,
      hnames ▸ .link ⟨by decide, by decide, by decide⟩ rfl rfl⟩
  have hnames : Path.names "f/x" = ["f", "x"] := by decide +kernel
  have hclear (place : List String) : port.locate false "f/x" ≠ .ok (place, some .socket) := by
    have hfile : port.entry? ["f"] = some (.file "x") := rfl
    have hshort : "f/x".utf8ByteSize < maxPath := by decide
    have hname : "f".utf8ByteSize ≤ maxName := by decide
    simp [locate, hnames, walk, hfile, Nat.not_le.2 hshort, Nat.not_lt.2 hname]
  obtain ⟨-, hgrown | ⟨v, place, hlost, -⟩⟩ :=
    hspared _ _ shelf_refuses fun place h => hsocketless place (entry?_of_locate h)
  · obtain ⟨text, u, hbind, hu⟩ := hinway _ _ hlink (by simp)
    obtain ⟨v, hv⟩ := port_refuses
    refine ⟨⟨_, shelf_refuses, hgrown.kept _ _ rfl, hgrown.kept _ _ rfl⟩,
      ⟨text, u, hbind, hu.kept _ _ rfl⟩, v, hv, ?_⟩
    obtain ⟨-, hport | ⟨w, place, hlost, -⟩⟩ := hkept _ _ hv hclear
    · exact hport.kept _ _ rfl
    · obtain ⟨-, q, -, -, -, hback⟩ := hlost.back
      obtain ⟨behind, hbehind, hup⟩ := hback port_rooted
      have hmem : ".." ∈ Path.names "f/x" := hbehind ▸ List.mem_append_right _ hup
      simp [hnames] at hmem
  · exact absurd hlost.stood (hsocketless place)

/-- Leads to the socket, with more slashes than a path can have that is to be bound, and through a
directory that is not there. -/
def detour : String := "n/.." ++ String.ofList (List.replicate 103 '/') ++ "s"

/-- No socket is at the path, and one is lost. -/
theorem port_loses : port.Rooted ∧
    (∀ place, port.locate false detour ≠ .ok (place, some .socket)) ∧
    port.entry? ["s"] = some .socket ∧
    ∃ u, port.bind detour = (.error (refuse "bind" detour), u) ∧ u.entry? ["s"] = none := by
  have hnames : Path.names detour = ["n", "..", "s"] := by decide +kernel
  have hparent : Path.parent? detour = some "n/.." := by decide +kernel
  have hlong : maxSocketPath ≤ detour.utf8ByteSize := by decide +kernel
  have hproper : Proper detour := ⟨by decide +kernel, by decide +kernel, by decide +kernel⟩
  have hplain : Plain "n" := ⟨by decide, by decide, by decide⟩
  have hmissing : port.locate false detour = .error .missing := by
    have hnone : port.entry? ["n"] = none := rfl
    simp [locate, hproper.nonempty, hproper.clean, Nat.not_le.2 hproper.short, hnames, walk, hnone,
      Nat.not_lt.2 hplain.short]
  have hsocket : (port.put ["n"] .directory).locate false detour = .ok (["s"], some .socket) :=
    locate_eq_ok_iff.2 ⟨hproper, hnames ▸ .enter hplain rfl (.leave
      (.leaf ⟨by decide, by decide, by decide⟩ rfl (by simp) (by simp)))⟩
  refine ⟨port_rooted, by simp [hmissing], rfl, (port.put ["n"] .directory).remove ["s"], ?_, rfl⟩
  simp [bind, prepare, hparent, createAll_back (t := port) rfl, clear, hsocket, Tree.place, hlong]

end Tree

end Switchboard.Files
