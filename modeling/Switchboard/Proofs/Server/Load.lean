import Switchboard.Proofs.Server.Course

/-! A server that serves nobody but its uplink has only so much to do, if nothing more comes in. -/
namespace Switchboard

/-- What an envelope counts for that a service is to take in; only commands are answered. -/
def Envelope.load (m : Envelope) : Nat := if m.isCommand then 8 else 1

theorem Envelope.load_pos (m : Envelope) : 0 < m.load := by
  unfold load
  split <;> decide

theorem Envelope.load_le (m : Envelope) : m.load ≤ 8 := by
  unfold load
  split <;> decide

namespace Server.Office

open Exchange (sourced)

variable {o p : Office}

/-- What the service and its answers still lead to. -/
def duty (v : Service Agent) : Nat :=
  v.weight Envelope.load 3 + if v.loop = .unused then 1 else 0

/-- A bound of the steps that the parties still take. -/
def load (o : Office) : Nat :=
  11 * (o.reads.flatten.length + o.reader.buffer.length) + o.reads.length + 10 * o.outbox.length
    + 9 * o.up.toList.length + duty o.service + 2 * o.down.toList.length + o.inbox.length

theorem duty_lt {v w : Service Agent} {es : List Service.Event} (hs : v.Sound)
    (hp : Service.Progress Agent.handler v es w) : duty w < duty v := by
  have hlt := hp.weight_lt (i := Envelope.load) (d := 3) Envelope.load_pos
    (fun m hm => by simp [Envelope.load, hm]) hs
  have hu := hp.loop_ne hs
  unfold duty
  by_cases hl : v.loop = .unused
  · rw [if_pos hl]
    split <;> omega
  · rw [if_neg hl, if_neg (hu hl)]
    omega

theorem duty_tell (o : Office) (m : Envelope) :
    duty (o.tell m).service = duty o.service + m.load := by
  show _ + (if o.service.loop = .unused then 1 else 0) = _
  simp only [duty, Service.weight, tell, List.map_append, List.sum_append, List.map_cons,
    List.map_nil, List.sum_cons, List.sum_nil]
  omega

theorem load_tell (o : Office) (m : Envelope) : (o.tell m).load = o.load + m.load := by
  rw [load, duty_tell]
  simp only [load, tell]
  omega

theorem Step.load_lt (hs : o.Sound) (hst : o.Step p) : p.load < o.load := by
  cases hst with
  | hear h =>
    simp only [load, h, Packet.Reader.receive, List.flatten_cons, List.length_append,
      List.length_cons]
    omega
  | @decode d r h =>
    have hless := (Packet.Reader.split?_remaining h []).2.2
    have hone : d.envelope?.toList.length ≤ 1 := by cases d.envelope? <;> simp
    simp only [load, List.length_append]
    omega
  | fetchUp h hu =>
    simp only [load, h, hu, Option.toList_some, Option.toList_none, List.length_cons,
      List.length_nil]
    omega
  | @enter m h hr =>
    have hle := (sourced m uplinkRoute).load_le
    rw [load_tell]
    simp only [load, h, Option.toList_some, Option.toList_none, List.length_cons, List.length_nil]
    omega
  | drop h hr => simp [load, h]
  | start hv =>
    obtain ⟨hl, rfl⟩ := Service.start_cases hv
    simp [load, duty, Service.weight, hl, Loop.remaining]
  | serve hv =>
    have := duty_lt hs.service hv
    simp only [load]
    omega
  | fetchDown h hd =>
    simp only [load, duty, Service.weight, h, hd, Option.toList_some, Option.toList_none,
      List.length_cons, List.length_nil]
    omega
  | send h hl =>
    simp only [load, h, Option.toList_some, Option.toList_none, List.length_cons, List.length_nil,
      List.length_append]
    omega
  | @bounce m h hl =>
    have hm : m.load = 1 := by
      simp [Envelope.load, isCommand_of_not_leaves (hs.spoken m (by simp [h])) hl]
    rw [load_tell]
    simp only [load, h, hm, Option.toList_some, Option.toList_none, List.length_cons,
      List.length_nil]
    omega
  | write h =>
    simp only [load, h, List.length_cons]
    omega

end Server.Office

end Switchboard
