import Mathlib
import Switchboard.Program
import Switchboard.Proofs.Files.Socket

/-! Why a server does not start: its token is judged first and its socket bound after that, and the
exit code tells which of them failed. -/
namespace Switchboard

/-- An identity that no route can be made of: its type is unknown, or the name is missing that its
type needs. -/
inductive Identity.Routeless (c : Identity) : Prop
  | unsupported {kind : String} (hk : c.clientType = some kind) (hne : kind ≠ "")
      (hserver : kind ≠ connectionServerType) (hblock : kind ≠ blockControllerType)
  | connection (hk : c.clientType = some connectionServerType)
      (hn : c.connection = none ∨ c.connection = some "")
  | block (hk : c.clientType = some blockControllerType)
      (hn : c.block = none ∨ c.block = some "")

namespace Identity

theorem named_map_eq_error_iff {name : Option String} {complaint : String} {f : String → String} :
    (∃ e, (named name complaint).map f = .error e) ↔ name = none ∨ name = some "" := by
  cases name with
  | none => exact iff_of_true ⟨_, rfl⟩ (.inl rfl)
  | some s =>
    by_cases hs : s = ""
    · subst hs
      exact iff_of_true ⟨_, rfl⟩ (.inr rfl)
    · simp [named, hs, Except.map]

/-- Whether there is a route does not depend on the id that it would be made of. -/
theorem route_eq_error_iff (c : Identity) (id : String) :
    (∃ e, c.route id = .error e) ↔ c.Routeless := by
  have hserver : connectionServerType ≠ "" := by decide
  have hblock : blockControllerType ≠ "" := by decide
  have hother : blockControllerType ≠ connectionServerType := by decide
  constructor
  · rintro ⟨e, h⟩
    unfold route at h
    split at h
    · cases h
    · rename_i kind hk
      split_ifs at h with hempty hs hb
      · exact .connection (hs ▸ hk) (named_map_eq_error_iff.1 ⟨e, h⟩)
      · exact .block (hb ▸ hk) (named_map_eq_error_iff.1 ⟨e, h⟩)
      · exact .unsupported hk hempty hs hb
  · rintro (⟨hk, hne, hs, hb⟩ | ⟨hk, hn⟩ | ⟨hk, hn⟩)
    · simp [route, hk, hne, hs, hb]
    · simpa [route, hk, hserver] using named_map_eq_error_iff.2 hn
    · simpa [route, hk, hblock, hother] using named_map_eq_error_iff.2 hn

end Identity

namespace Settings

variable {o : Options} {home : Option String} {settings : Settings}

/-- What options were found to make sense of has the identity of its token. -/
theorem ofToken_of_ofOptions (h : ofOptions o home = .ok settings) :
    Identity.ofToken settings.token = .ok settings.identity := by
  simp only [ofOptions, bind, Except.bind] at h
  split at h
  · cases h
  · rename_i token htoken
    split at h
    · cases h
    · rename_i c hidentity
      have hread : Identity.ofToken token = .ok c := by
        unfold identityOf at hidentity
        cases hr : Identity.ofToken token <;> rw [hr] at hidentity <;> cases hidentity
        rfl
      by_cases htimeout : o.authTimeout = 0
      · rw [if_pos htimeout] at h
        cases h
      · rw [if_neg htimeout] at h
        cases hmode : modeOf o home <;> rw [hmode] at h <;> cases h
        exact hread

end Settings

namespace Server

variable {σ : Type} {settings : Settings} {mode : Mode} {state : σ} {s : Session σ}
  {t u : Files.Tree} {token : String} {c : Identity} {f : Fault} {code : Int}

/-- A token that gives no identity, or an identity that no route can be made of. -/
def Rejected (token : String) : Prop :=
  (∃ e, Identity.ofToken token = .error e) ∨
    ∃ c, Identity.ofToken token = .ok c ∧ ∀ id, ∃ e, c.route id = .error e

/-- The exit code of a server that does not start, and the tree that it leaves behind. -/
inductive Unstarted (settings : Settings) (t : Files.Tree) : Int → Files.Tree → Prop
  | rejected (h : Rejected settings.token) : Unstarted settings t 2 t
  | unbound {socket : String} {e : Error} {u : Files.Tree} (h : ¬ Rejected settings.token)
      (hmode : settings.mode = .router socket) (hbind : t.bind socket = (.error e, u)) :
      Unstarted settings t 1 u

theorem rejected_iff (h : Identity.ofToken token = .ok c) : Rejected token ↔ c.Routeless := by
  constructor
  · rintro (⟨e, he⟩ | ⟨c', hc', hroute⟩)
    · exact nomatch h.symm.trans he
    · obtain rfl := Except.ok.inj (h.symm.trans hc')
      exact (c.route_eq_error_iff "").1 (hroute "")
  · exact fun hc => .inr ⟨c, h, fun id => (c.route_eq_error_iff id).2 hc⟩

theorem acceptOwn_eq_error_iff (x : Exchange σ) (token : String) :
    (∃ y e, x.acceptOwn token = (y, .error e)) ↔ Rejected token := by
  unfold Exchange.acceptOwn
  cases htoken : Identity.ofToken token with
  | error e => exact iff_of_true ⟨x, e, rfl⟩ (.inl ⟨e, htoken⟩)
  | ok c =>
    rw [rejected_iff htoken, ← c.route_eq_error_iff x.mint.1]
    cases hroute : c.route x.mint.1 <;> simp [hroute]

theorem bind_eq_error_iff : bind mode t = (.error f, u) ↔
    ∃ socket e, mode = .router socket ∧ t.bind socket = (.error e, u) ∧ f = .unbound socket e := by
  cases mode with
  | normal => simp [bind]
  | router socket =>
    cases hbind : t.bind socket with
    | mk result v =>
      cases result <;> simp [bind, hbind, Except.mapError, eq_comm, and_comm]

/-- No file is looked at for the sake of a bad token. -/
theorem start_of_rejected (h : Rejected settings.token) (s : Session σ) (state : σ)
    (t : Files.Tree) : ∃ e, start s settings state t = (.error (.rejected e), t) := by
  obtain ⟨y, e, he⟩ := (acceptOwn_eq_error_iff ⟨{}, s.endpoints, s.minted⟩ settings.token).2 h
  exact ⟨e, by simp [start, prepare, he]⟩

/-- Nothing but its socket is in the way of a server whose token is good. -/
theorem start_eq_error_iff (h : ¬ Rejected settings.token) :
    start s settings state t = (.error f, u) ↔ bind settings.mode t = (.error f, u) := by
  cases haccept : Exchange.acceptOwn ⟨{}, s.endpoints, s.minted⟩ settings.token with
  | mk y result =>
    cases result with
    | error e => exact absurd ((acceptOwn_eq_error_iff _ _).1 ⟨y, e, haccept⟩) h
    | ok g =>
      cases hbind : bind settings.mode t with
      | mk bound v => cases bound <;> simp [start, prepare, haccept, hbind]

theorem exitCode_unbound {socket : String} {e : Error} (h : t.bind socket = (.error e, u)) :
    (Fault.unbound socket e).exitCode = 1 := by
  obtain ⟨text, rfl⟩ := Files.Tree.error_of_bind h
  rfl

theorem start_unstarted_iff (s : Session σ) (state : σ) :
    (∃ f, start s settings state t = (.error f, u) ∧ f.exitCode = code) ↔
      Unstarted settings t code u := by
  constructor
  · rintro ⟨f, hstart, rfl⟩
    by_cases h : Rejected settings.token
    · obtain ⟨e, he⟩ := start_of_rejected h s state t
      cases he.symm.trans hstart
      exact .rejected h
    · obtain ⟨socket, e, hmode, hbind, rfl⟩ := bind_eq_error_iff.1 ((start_eq_error_iff h).1 hstart)
      rw [exitCode_unbound hbind]
      exact .unbound h hmode hbind
  · rintro (⟨h⟩ | ⟨h, hmode, hbind⟩)
    · obtain ⟨e, he⟩ := start_of_rejected h s state t
      exact ⟨_, he, rfl⟩
    · exact ⟨_, (start_eq_error_iff h).2 (bind_eq_error_iff.2 ⟨_, _, hmode, hbind, rfl⟩),
        exitCode_unbound hbind⟩

theorem program_unstarted_iff {env : Environment} {words : List String}
    (h : Program.settings env words = .ok settings) (clock : Duration) (seed : Nat) :
    (∃ exit, Program.start env words clock seed t = (.error exit, u) ∧ exit.code = code) ↔
      Unstarted settings t code u := by
  rw [← start_unstarted_iff { clock, minted := seed } ({ started := clock } : Agent)]
  cases hstart : start { clock, minted := seed } settings ({ started := clock } : Agent) t with
  | mk result v => cases result <;> simp [Program.start, h, hstart]

/-- A server starts unless its token is rejected, which is an exit with 2 and leaves the files alone,
or the token is good and its socket cannot be bound, which is an exit with 1. Options that were found
to make sense are at fault only if no route can be made of the identity in their token. -/
theorem startup_classified :
    (∀ (s : Session σ) settings state t, (∃ f u, start s settings state t = (.error f, u)) ↔
      Rejected settings.token ∨
        ∃ socket e u, settings.mode = .router socket ∧ t.bind socket = (.error e, u)) ∧
    (∀ (s : Session σ) settings state t code u,
      (∃ f, start s settings state t = (.error f, u) ∧ f.exitCode = code) ↔
        Unstarted settings t code u) ∧
    (∀ env words settings, Program.settings env words = .ok settings → ∀ clock seed t code u,
      (∃ exit, Program.start env words clock seed t = (.error exit, u) ∧ exit.code = code) ↔
        Unstarted settings t code u) ∧
    ∀ o home settings, Settings.ofOptions o home = .ok settings → ∀ t u,
      Unstarted settings t 2 u ↔ settings.identity.Routeless ∧ u = t := by
  refine ⟨fun s settings state t => ?_, fun s _ state _ _ _ => start_unstarted_iff s state,
    fun _ _ _ h clock seed _ _ _ => program_unstarted_iff h clock seed, ?_⟩
  · constructor
    · rintro ⟨f, u, hstart⟩
      by_cases hrejected : Rejected settings.token
      · exact .inl hrejected
      · obtain ⟨socket, e, hmode, hbind, -⟩ :=
          bind_eq_error_iff.1 ((start_eq_error_iff hrejected).1 hstart)
        exact .inr ⟨socket, e, u, hmode, hbind⟩
    · intro h
      by_cases hrejected : Rejected settings.token
      · obtain ⟨e, he⟩ := start_of_rejected hrejected s state t
        exact ⟨_, _, he⟩
      · obtain ⟨socket, e, u, hmode, hbind⟩ := h.resolve_left hrejected
        exact ⟨_, u, (start_eq_error_iff hrejected).2
          (bind_eq_error_iff.2 ⟨_, _, hmode, hbind, rfl⟩)⟩
  · intro o home settings h t u
    rw [← rejected_iff (Settings.ofToken_of_ofOptions h)]
    constructor
    · rintro ⟨hrejected⟩
      exact ⟨hrejected, rfl⟩
    · rintro ⟨hrejected, rfl⟩
      exact .rejected hrejected

/-- Settings whose socket stands in its own way. -/
def jammed : Settings where
  mode := .router "n/../f"
  token := "h.eyJjdHlwZSI6ImNvbm5zZXJ2ZXIiLCJjb25uIjoieCJ9.s"
  identity := { clientType := some "connserver", connection := some "x" }

/-- Options of the same socket, with a token of a type that there is not. -/
def stray : Options where
  router := true
  socket := some "n/../f"
  token := some "h.eyJjdHlwZSI6IngifQ.s"

def strayed : Settings where
  mode := .router "n/../f"
  token := "h.eyJjdHlwZSI6IngifQ.s"
  identity := { clientType := some "x" }
  authTimeout := .ofMillis 5000

theorem ofOptions_stray (home : Option String) :
    Settings.ofOptions stray home = .ok strayed := by
  have htoken : Settings.tokenOf stray = .ok strayed.token := by decide +kernel
  have hidentity : Settings.identityOf strayed.token = .ok strayed.identity := by decide +kernel
  simp only [Settings.ofOptions, htoken, hidentity, Bind.bind, Except.bind]
  rfl

theorem settings_stray : Program.settings { token := strayed.token }
    ["--router", "--socket", "n/../f"] = .ok strayed := by
  have hread : CommandLine.read { token := strayed.token } ["--router", "--socket", "n/../f"]
      = .ok stray := by decide +kernel
  simp only [Program.settings, hread, ofOptions_stray, Except.mapError]

/-- The socket is in its own way in both, but the token comes first. -/
theorem jammed_strayed :
    (∃ f, start {} jammed ({} : Agent) .shelf = (.error f, Files.Tree.shelf.put ["n"] .directory) ∧
      f.exitCode = 1) ∧
    (∃ exit, Program.start { token := strayed.token } ["--router", "--socket", "n/../f"]
      (.ofSeconds 0) 0 .shelf = (.error exit, .shelf) ∧ exit.code = 2) ∧
    strayed.identity.Routeless := by
  have hread : Identity.ofToken jammed.token = .ok jammed.identity := by decide +kernel
  have hroute : jammed.identity.route "" = .ok "conn:x" := by decide +kernel
  have hgood : ¬ Rejected jammed.token := by
    rw [rejected_iff hread, ← Identity.route_eq_error_iff _ ""]
    rintro ⟨e, he⟩
    exact nomatch hroute.symm.trans he
  have hbad : Rejected strayed.token :=
    (rejected_iff (Settings.ofToken_of_ofOptions (ofOptions_stray none))).2
      (.unsupported rfl (by decide) (by decide) (by decide))
  obtain ⟨-, hstart, hprogram, hoptions⟩ := startup_classified (σ := Agent)
  exact ⟨(hstart {} jammed {} .shelf 1 _).2 (.unbound hgood rfl Files.Tree.shelf_refuses),
    (hprogram _ _ strayed settings_stray _ 0 .shelf 2 .shelf).2 (.rejected hbad),
    ((hoptions stray none strayed (ofOptions_stray none) .shelf .shelf).1 (.rejected hbad)).1⟩

end Server

end Switchboard
