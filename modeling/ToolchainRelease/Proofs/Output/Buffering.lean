import Mathlib.Tactic.Common
import ToolchainRelease.Output.Sink

/-! A buffer in front of a device that takes all bytes. Whatever waits in the buffer, together with
what the device has taken it is what was sent, and closing the buffer leaves all of it there. -/
namespace ToolchainRelease

namespace Device

structure Roomy (d : Device) : Prop where
  room : d.room = none
  flushFault : d.flushFault = none

lemma grant_pos {d : Device} (h : d.Roomy) {bs : List UInt8} (hn : d.grant bs = 0) : bs = [] := by
  simp only [grant, h.room] at hn
  exact List.length_eq_zero_iff.1 (by omega)

lemma Roomy.push {d : Device} (h : d.Roomy) (bs : List UInt8) :
    (d.push bs).2 = [] ∧ (d.push bs).1.Roomy := by
  fun_induction Device.push d bs with
  | case1 d bs n hn => exact ⟨grant_pos h hn, h⟩
  | case2 d bs n hn ih =>
    have hroom : (d.take (bs.take n)).room = none := by simp [take, h.room]
    exact ih ⟨hroom, h.flushFault⟩

end Device

namespace Buffered

def held (b : Buffered) : List UInt8 := b.device.contents ++ b.waiting

lemma drain_held (b : Buffered) : b.drain.1.held = b.held := b.device.push_contents b.waiting

/-- The bytes `sent` are kept in a buffer whose device takes all bytes. -/
structure Gathered (sent : List UInt8) (b : Buffered) : Prop where
  held : b.held = sent
  roomy : b.device.Roomy

variable {sent : List UInt8} {b : Buffered}

lemma gathered_start (capacity : Nat) : Gathered [] ⟨{}, capacity, []⟩ := ⟨rfl, rfl, rfl⟩

lemma Gathered.keep (h : Gathered sent b) (bs : List UInt8) :
    Gathered (sent ++ bs) { b with waiting := b.waiting ++ bs } := by
  refine ⟨?_, h.roomy⟩
  rw [← h.held, Buffered.held, Buffered.held, List.append_assoc]

/-- Draining loses nothing and leaves nothing to wait. -/
lemma Gathered.drain (h : Gathered sent b) :
    b.drain.2 = none ∧ b.drain.1.waiting = [] ∧ Gathered sent b.drain.1 := by
  obtain ⟨hrest, hroomy⟩ := h.roomy.push b.waiting
  have hfault : b.drain.2 = none := by
    show (if (b.device.push b.waiting).2.isEmpty then none else _) = none
    rw [hrest]
    rfl
  exact ⟨hfault, hrest, b.drain_held.trans h.held, hroomy⟩

lemma Gathered.pass (h : Gathered sent b) {bs : List UInt8} (hw : b.waiting = [] ∨ bs = []) :
    (b.device.send bs).2 = none ∧
      Gathered (sent ++ bs) { b with device := (b.device.send bs).1 } := by
  obtain ⟨hrest, hroomy⟩ := h.roomy.push bs
  have hcontents := b.device.push_contents bs
  rw [hrest, List.append_nil] at hcontents
  refine ⟨?_, ?_, hroomy⟩
  · show (if (b.device.push bs).2.isEmpty then none else _) = none
    rw [hrest]
    rfl
  · show (b.device.push bs).1.contents ++ b.waiting = _
    rw [hcontents, ← h.held, Buffered.held]
    rcases hw with hw | rfl
    · simp [hw]
    · simp

lemma Gathered.place (h : Gathered sent b) {bs : List UInt8}
    (hw : b.capacity ≤ bs.length → b.waiting = [] ∨ bs = []) :
    let placed : Buffered × Option IoFault :=
      if b.capacity ≤ bs.length then
        ({ b with device := (b.device.send bs).1 }, (b.device.send bs).2)
      else ({ b with waiting := b.waiting ++ bs }, none)
    placed.2 = none ∧ Gathered (sent ++ bs) placed.1 := by
  intro placed
  by_cases hlarge : b.capacity ≤ bs.length
  · simp only [placed, if_pos hlarge]
    exact h.pass (hw hlarge)
  · simp only [placed, if_neg hlarge]
    exact ⟨trivial, h.keep bs⟩

lemma Gathered.send (h : Gathered sent b) (bs : List UInt8) :
    (b.send bs).2 = none ∧ Gathered (sent ++ bs) (b.send bs).1 := by
  by_cases hfits : bs.length < b.capacity - b.waiting.length
  · have hsend : b.send bs = ({ b with waiting := b.waiting ++ bs }, none) := by
      simp only [Buffered.send, if_pos hfits]
    rw [hsend]
    exact ⟨rfl, h.keep bs⟩
  by_cases hover : b.capacity - b.waiting.length < bs.length
  · obtain ⟨hfault, hwaiting, hdrained⟩ := h.drain
    have hspace : b.drain.1.capacity ≤ bs.length → b.drain.1.waiting = [] ∨ bs = [] :=
      fun _ => .inl hwaiting
    have hplaced := hdrained.place hspace
    simpa only [Buffered.send, if_neg hfits, if_pos hover, hfault] using hplaced
  · have hspace : b.capacity ≤ bs.length → b.waiting = [] ∨ bs = [] := by
      intro hlarge
      rcases Nat.eq_zero_or_pos bs.length with hbs | hbs
      · exact .inr (List.length_eq_zero_iff.1 hbs)
      · exact .inl (List.length_eq_zero_iff.1 (by omega))
    have hplaced := h.place hspace
    simpa only [Buffered.send, if_neg hfits, if_neg hover] using hplaced

theorem Gathered.sendAll (h : Gathered sent b) (pieces : List (List UInt8)) :
    (sendAll b pieces).2 = none ∧ Gathered (sent ++ pieces.flatten) (sendAll b pieces).1 := by
  induction pieces generalizing sent b with
  | nil =>
    rw [List.flatten_nil, List.append_nil]
    exact ⟨rfl, h⟩
  | cons bs pieces ih =>
    obtain ⟨hfault, hsent⟩ := h.send bs
    have hrest := ih hsent
    rw [List.flatten_cons, ← List.append_assoc]
    simp only [ToolchainRelease.sendAll, Sink.send]
    cases hsend : b.send bs with
    | mk b' fault =>
      rw [hsend] at hfault hrest
      cases hfault
      exact hrest

lemma Gathered.flush (h : Gathered sent b) : b.flush.2 = none ∧ Gathered sent b.flush.1 := by
  obtain ⟨hfault, -, hdrained⟩ := h.drain
  unfold Buffered.flush
  cases hdrain : b.drain with
  | mk b' fault =>
    rw [hdrain] at hfault hdrained
    cases hfault
    exact ⟨hdrained.roomy.flushFault, hdrained⟩

theorem Gathered.close (h : Gathered sent b) : b.close.contents = sent := by
  obtain ⟨-, hwaiting, hdrained⟩ := h.drain
  have hheld := hdrained.held
  rw [Buffered.held, hwaiting, List.append_nil] at hheld
  exact hheld

end Buffered

end ToolchainRelease
