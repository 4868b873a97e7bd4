import Mathlib
import Switchboard.Json.Printer
import Switchboard.Proofs.Json.Number
import Switchboard.Proofs.Json.Text

/-! Printed text is printable: no control characters occur in it, so it stays on one line. -/
namespace Switchboard

namespace Decimal

open Bytes (Printable Plain plain_ofList)

theorem printable_of_mem_toDigits {n : Nat} {c : Char} (h : c ∈ Nat.toDigits 10 n) :
    Printable c := by
  have hrange := Json.isDigit_of_mem_toDigits h
  simp only [Printable]
  omega

theorem plain_toString (n : Nat) : Plain (toString n) :=
  plain_ofList fun _ => printable_of_mem_toDigits

theorem printable_cons_dot {cs : List Char} (h : ∀ c ∈ cs, Printable c) :
    ∀ c ∈ '.' :: cs, Printable c := by
  simpa [Printable] using h

/-- Only digits, a point, signs and the letter of the exponent occur in a decimal. -/
theorem plain_render (layout : Layout) (x : Decimal) : Plain (render layout x) := by
  have hdigit : ∀ c ∈ Nat.toDigits 10 x.digits, Printable c :=
    fun _ => printable_of_mem_toDigits
  have htake (n : Nat) : ∀ c ∈ (Nat.toDigits 10 x.digits).take n, Printable c :=
    fun c hc => hdigit c (List.mem_of_mem_take hc)
  have hdrop (n : Nat) : ∀ c ∈ (Nat.toDigits 10 x.digits).drop n, Printable c :=
    fun c hc => hdigit c (List.mem_of_mem_drop hc)
  have hzero (n : Nat) : ∀ c ∈ List.replicate n '0', Printable c := by
    intro c hc
    rw [List.eq_of_mem_replicate hc]
    simp [Printable]
  unfold render
  simp only
  split
  · have hletter : Plain "e" := by simp [Plain, Printable]
    have hminus : Plain "-" := by simp [Plain, Printable]
    have hplus : Plain "+" := by simp [Plain, Printable]
    have hmantissa : Plain (String.ofList ((Nat.toDigits 10 x.digits).take 1
        ++ if (Nat.toDigits 10 x.digits).length = 1 then []
          else '.' :: (Nat.toDigits 10 x.digits).drop 1)) := by
      refine plain_ofList (List.forall_mem_append.2 ⟨htake 1, ?_⟩)
      split
      · simp
      · exact printable_cons_dot (hdrop 1)
    refine .append (.append (.append hmantissa hletter) ?_) (plain_toString _)
    split
    · exact hminus
    · exact hplus
  · split
    · have hlead : Plain "0." := by simp [Plain, Printable]
      exact hlead.append (plain_ofList (List.forall_mem_append.2 ⟨hzero _, hdigit⟩))
    · refine plain_ofList (List.forall_mem_append.2
        ⟨List.forall_mem_append.2 ⟨htake _, hzero _⟩, printable_cons_dot ?_⟩)
      split
      · simp [Printable]
      · exact hdrop _

end Decimal

namespace Json

open Bytes (ControlFree)

theorem plain_doubleText (x : Double) : Bytes.Plain (doubleText x) := by
  unfold doubleText
  refine .append ?_ (Decimal.plain_render _ _)
  split
  · simp [Bytes.Plain, Bytes.Printable]
  · simp [Bytes.Plain]

theorem controlFree_digits (n : Nat) : ControlFree (digits n) := by
  intro x h
  have hx := isDigit_of_mem_digits h
  simp only [Bytes.isDigit, Bool.and_eq_true, decide_eq_true_eq] at hx
  exact UInt8.le_trans (by decide) hx.1

theorem controlFree_renderInt (n : Int) : ControlFree (renderInt n) := by
  cases n with
  | ofNat n =>
    rw [Int.ofNat_eq_natCast, renderInt_ofNat]
    exact controlFree_digits n
  | negSucc n =>
    rw [renderInt_negSucc]
    exact .cons (by decide) (controlFree_digits _)

theorem controlFree_renderString (s : String) : ControlFree (renderString s) := by
  refine .append (.cons (by decide) fun y hy => ?_) (by decide)
  obtain ⟨x, -, hx⟩ := List.mem_flatMap.1 hy
  exact controlFree_escaped x y hx

theorem controlFree_separated {parts : List Bytes} (h : ∀ b ∈ parts, ControlFree b)
    (first : Bool) : ControlFree (separated first parts) := by
  induction parts generalizing first with
  | nil => simp [separated, ControlFree]
  | cons b parts ih =>
    have hb := h b (by simp)
    have hrest := ih (fun c hc => h c (by simp [hc])) false
    cases first with
    | true => exact hb.append hrest
    | false => exact .append (.cons (by decide) hb) hrest

mutual

/-- No control character occurs in the text of a value. -/
theorem controlFree_render (v : Value) : ControlFree (render v) := by
  match v with
  | .null => decide
  | .bool true => decide
  | .bool false => decide
  | .int n => exact controlFree_renderInt n
  | .double y => exact (plain_doubleText y).controlFree
  | .string s => exact controlFree_renderString s
  | .array items =>
    have hitems := controlFree_separated (controlFree_renderItems items) true
    exact .append (.cons (by decide) hitems) (by decide)
  | .object ms =>
    have hmembers := controlFree_separated (controlFree_renderMembers ms) true
    exact .append (.cons (by decide) hmembers) (by decide)

theorem controlFree_renderItems (items : List Value) :
    ∀ b ∈ renderItems items, ControlFree b := by
  match items with
  | [] => simp [renderItems]
  | v :: items =>
    exact List.forall_mem_cons.2 ⟨controlFree_render v, controlFree_renderItems items⟩

theorem controlFree_renderMembers (ms : List (String × Value)) :
    ∀ b ∈ renderMembers ms, ControlFree b := by
  match ms with
  | [] => simp [renderMembers]
  | (k, v) :: ms =>
    have hmember : ControlFree (renderString k ++ 58 :: render v) :=
      (controlFree_renderString k).append (.cons (by decide) (controlFree_render v))
    exact List.forall_mem_cons.2 ⟨hmember, controlFree_renderMembers ms⟩

end

end Json

end Switchboard
