import Switchboard.Proofs.Frame.Body
import Switchboard.Proofs.Stream

/-! Decoding a stream of frames: whatever the reads bring, in whatever pieces, and whether answers
are asked for with reading or without, they are those that the whole stream determines. -/
namespace Switchboard.Frame

variable {limit : Nat} {b body buffer rest : Bytes} {a : Answer} {err : WireError}
  {reads : List Read}

/-- The size of a body behind the four bytes of its length. -/
def bodySize (x y z w : UInt8) : Nat :=
  x.toNat * 0x1000000 + y.toNat * 0x10000 + z.toNat * 0x100 + w.toNat

/-- What a stream has to say of which `b` is left, and what is left of it after that. A bad body
is passed over; neither a length that is too large nor a frame that is cut off is. -/
def verdict (limit : Nat) (b : Bytes) : Answer × Bytes :=
  match b with
  | [] => (.nothing, [])
  | x :: y :: z :: w :: rest =>
    let size := bodySize x y z w
    if limit < size then (.failed (.frameTooLarge size limit), b)
    else if size ≤ rest.length then
      match Envelope.ofMessagePack (rest.take size) with
      | .ok e => (.envelope e, rest.drop size)
      | .error _ => (.failed (.serialization "MessagePack decode error"), rest.drop size)
    else (.failed .invalidFrame, b)
  | _ => (.failed .invalidFrame, b)

/-- The first verdicts on a stream, one after the other. -/
def verdicts (limit : Nat) : (n : Nat) → Bytes → List Answer
  | 0, _ => []
  | n + 1, b => (verdict limit b).1 :: verdicts limit n (verdict limit b).2

/-- The two ways to ask for an envelope: with reading until there is an answer, or without. -/
inductive Call where
  | read
  | attempt
deriving DecidableEq, Repr

/-- Whether an answer is about the stream: an attempt may come too early, and a read may fail. -/
def Call.settles : Call → Answer → Bool
  | .attempt, .nothing => false
  | .read, .failed (.stream _) => false
  | _, _ => true

/-- What a call answers, and the buffer and the reads that it leaves. -/
def Call.ask (limit : Nat) (buffer : Bytes) (reads : List Read) : Call → Answer × Bytes × List Read
  | .read => next limit buffer reads
  | .attempt => ((tryNext limit buffer).1, (tryNext limit buffer).2, reads)

/-- The answers to some calls, one after the other. -/
def results (limit : Nat) : List Call → (buffer : Bytes) → List Read → List Answer
  | [], _, _ => []
  | c :: cs, buffer, reads =>
    let (a, buffer, reads) := c.ask limit buffer reads
    if c.settles a then a :: results limit cs buffer reads else results limit cs buffer reads

theorem answerOf_eq (body : Bytes) : answerOf body =
    match Envelope.ofMessagePack body with
    | .ok e => .envelope e
    | .error _ => .failed (.serialization "MessagePack decode error") := by
  unfold answerOf Envelope.ofMessagePack
  cases MessagePack.readRecord? Envelope.layout body <;> rfl

theorem toNat_head (x y z w : UInt8) : Bytes.toNat [x, y, z, w] = bodySize x y z w := by
  simp [Bytes.toNat, bodySize]
  omega

theorem body?_short (h : b.length < headSize) : body? limit b = .ok none := by
  have htake : (b.take headSize).length < headSize := by
    rw [List.length_take]
    omega
  simp only [body?, if_pos htake]

theorem body?_head (x y z w : UInt8) (rest : Bytes) : body? limit (x :: y :: z :: w :: rest) =
    if limit < bodySize x y z w then .error (.frameTooLarge (bodySize x y z w) limit)
    else if rest.length < bodySize x y z w then .ok none
    else .ok (some (rest.take (bodySize x y z w), rest.drop (bodySize x y z w))) := by
  simp [body?, headSize, toNat_head]

/-- Less than a length is there, or a length and what follows it. -/
theorem head_cases (b : Bytes) :
    b.length < headSize ∨ ∃ x y z w rest, b = x :: y :: z :: w :: rest := by
  match b with
  | [] | [_] | [_, _] | [_, _, _] => exact .inl (by simp [headSize])
  | x :: y :: z :: w :: rest => exact .inr ⟨x, y, z, w, rest, rfl⟩

/-- A whole frame settles what is said, whatever follows it. -/
theorem verdict_of_body (h : body? limit b = .ok (some (body, rest))) (c : Bytes) :
    verdict limit (b ++ c) = (answerOf body, rest ++ c) := by
  have h := body?_append h c
  obtain hs | ⟨x, y, z, w, tail, he⟩ := head_cases (b ++ c)
  · rw [body?_short hs] at h
    cases h
  · rw [he, body?_head] at h
    rw [he]
    simp only [verdict]
    split at h
    · cases h
    · rename_i hlimit
      rw [if_neg hlimit]
      split at h
      · cases h
      · rename_i hlen
        obtain ⟨hbody, hrest⟩ := Prod.mk.inj (Option.some.inj (Except.ok.inj h))
        rw [if_pos (Nat.le_of_not_lt hlen), ← hrest, ← hbody, answerOf_eq]
        cases Envelope.ofMessagePack (tail.take (bodySize x y z w)) <;> rfl

/-- So does a length that is too large. -/
theorem verdict_of_error (h : body? limit b = .error err) (c : Bytes) :
    verdict limit (b ++ c) = (.failed err, b ++ c) := by
  obtain hs | ⟨x, y, z, w, tail, rfl⟩ := head_cases b
  · rw [body?_short hs] at h
    cases h
  · rw [body?_head] at h
    split at h
    · rename_i hlimit
      rw [← Except.error.inj h]
      simp only [List.cons_append, verdict, if_pos hlimit]
    · split at h <;> cases h

/-- Of a stream that ends before a frame does, either nothing was left or the frame is invalid. -/
theorem verdict_of_none (h : body? limit b = .ok none) :
    verdict limit b = (if b.isEmpty then .nothing else .failed .invalidFrame, b) := by
  obtain hs | ⟨x, y, z, w, tail, rfl⟩ := head_cases b
  · match b, hs with
    | [], _ | [_], _ | [_, _], _ | [_, _, _], _ => rfl
  · rw [body?_head] at h
    split at h
    · cases h
    · rename_i hlimit
      split at h
      · rename_i hlen
        simp [verdict, hlimit, Nat.not_le.2 hlen]
      · cases h

/-- What one call means for what is left of the stream. -/
inductive Asked (limit : Nat) (buffer : Bytes) (reads : List Read) :
    Call → Answer → Bytes → List Read → Prop
  /-- It answered what the stream determines. -/
  | settled {c : Call} {a : Answer} {b : Bytes} {left : List Read} (hs : c.settles a = true)
      (hv : verdict limit (buffer ++ Read.bytes reads) = (a, b ++ Read.bytes left))
      (hf : Read.failures left = Read.failures reads) : Asked limit buffer reads c a b left
  /-- It came too early, and nothing has changed. -/
  | early : Asked limit buffer reads .attempt .nothing buffer reads
  /-- It met a failure, behind which reading goes on. -/
  | failed {text : String} {b : Bytes} {left : List Read}
      (hb : b ++ Read.bytes left = buffer ++ Read.bytes reads)
      (hf : Read.failures reads = text :: Read.failures left) :
      Asked limit buffer reads .read (.failed (.stream text)) b left

theorem settles_answerOf (c : Call) (body : Bytes) : c.settles (answerOf body) = true := by
  rw [answerOf_eq]
  cases Envelope.ofMessagePack body <;> cases c <;> rfl

theorem settles_of_error (c : Call) (h : body? limit b = .error err) :
    c.settles (.failed err) = true := by
  obtain hs | ⟨x, y, z, w, tail, rfl⟩ := head_cases b
  · rw [body?_short hs] at h
    cases h
  · rw [body?_head] at h
    split at h
    · rw [← Except.error.inj h]
      cases c <;> rfl
    · split at h <;> cases h

theorem tryNext_asked (limit : Nat) (buffer : Bytes) (reads : List Read) :
    Asked limit buffer reads .attempt (tryNext limit buffer).1 (tryNext limit buffer).2 reads := by
  unfold tryNext
  cases h : body? limit buffer with
  | error err => exact .settled (settles_of_error _ h) (verdict_of_error h _) rfl
  | ok v =>
    cases v with
    | none => exact .early
    | some v => exact .settled (settles_answerOf _ _) (verdict_of_body h _) rfl

/-- Whether a read is made or was made before makes no difference to a call that reads. -/
theorem Asked.of_data {left : List Read}
    (h : Asked limit (buffer ++ b) reads .read a rest left) :
    Asked limit buffer (.data b :: reads) .read a rest left := by
  cases h with
  | settled hs hv hf => exact .settled hs (by simpa using hv) (by simpa using hf)
  | failed hb hf => exact .failed (by simpa using hb) (by simpa using hf)

theorem next_asked (limit : Nat) (buffer : Bytes) (reads : List Read) :
    Asked limit buffer reads .read (next limit buffer reads).1 (next limit buffer reads).2.1
      (next limit buffer reads).2.2 := by
  induction reads generalizing buffer with
  | nil =>
    unfold next
    cases h : body? limit buffer with
    | error err => exact .settled (settles_of_error _ h) (verdict_of_error h _) rfl
    | ok v =>
      cases v with
      | some v => exact .settled (settles_answerOf _ _) (verdict_of_body h _) rfl
      | none =>
        refine .settled ?_ ?_ rfl
        · cases buffer <;> rfl
        · simpa using verdict_of_none h
  | cons r reads ih =>
    unfold next
    cases h : body? limit buffer with
    | error err => exact .settled (settles_of_error _ h) (verdict_of_error h _) rfl
    | ok v =>
      cases v with
      | some v => exact .settled (settles_answerOf _ _) (verdict_of_body h _) rfl
      | none =>
        cases r with
        | data b => exact (ih (buffer ++ b)).of_data
        | failure text => exact .failed rfl rfl

theorem ask_asked (limit : Nat) (buffer : Bytes) (reads : List Read) (c : Call) :
    Asked limit buffer reads c (c.ask limit buffer reads).1 (c.ask limit buffer reads).2.1
      (c.ask limit buffer reads).2.2 := by
  cases c with
  | read => exact next_asked limit buffer reads
  | attempt => exact tryNext_asked limit buffer reads

/-- The answers depend on what is left of the stream alone, and no read goes without one unless it
failed. -/
theorem results_of_calls (limit : Nat) (calls : List Call) (buffer : Bytes) (reads : List Read) :
    results limit calls buffer reads = verdicts limit (results limit calls buffer reads).length
        (buffer ++ Read.bytes reads) ∧
      calls.count .read ≤ (results limit calls buffer reads).length
        + (Read.failures reads).length := by
  induction calls generalizing buffer reads with
  | nil => simp [results, verdicts]
  | cons c calls ih =>
    have hask := ask_asked limit buffer reads c
    simp only [results]
    generalize c.ask limit buffer reads = v at hask
    obtain ⟨a, b, left⟩ := v
    obtain ⟨hrest, hcount⟩ := ih b left
    dsimp only at hask ⊢
    cases hask with
    | settled hs hv hf =>
      rw [if_pos hs]
      refine ⟨?_, ?_⟩
      · rw [List.length_cons, verdicts, hv, ← hrest]
      · have hc : (c :: calls).count .read ≤ calls.count .read + 1 := by
          rw [List.count_cons]
          split <;> omega
        rw [List.length_cons, ← hf]
        omega
    | early =>
      have hs : Call.settles .attempt .nothing = false := rfl
      simp only [hs, Bool.false_eq_true, if_false]
      exact ⟨hrest, by simpa using hcount⟩
    | @failed text _ _ hb hf =>
      have hs : Call.settles .read (.failed (.stream text)) = false := rfl
      simp only [hs, Bool.false_eq_true, if_false]
      refine ⟨hb ▸ hrest, ?_⟩
      rw [List.count_cons_self, hf, List.length_cons]
      omega

def ping : Envelope := { command := some "ping" }

def pingFrame : Bytes :=
  [0, 0, 0, 14, 129, 167, 99, 111, 109, 109, 97, 110, 100, 164, 112, 105, 110, 103]

end Switchboard.Frame
