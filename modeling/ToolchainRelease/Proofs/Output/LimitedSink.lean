import Mathlib.Tactic.Common
import ToolchainRelease.Output.Sink

/-! Sinks that take a number of bytes in all and then fail. However they cut the writes, what
they hold is the start of what they were offered. -/
namespace ToolchainRelease.Device

/-- The device can take `limit` bytes in all and has been offered the bytes `sent`. -/
structure Offered (limit : Nat) (full : IoFault) (flushFault : Option IoFault)
    (sent : List UInt8) (d : Device) : Prop where
  contents : d.contents = sent.take limit
  room : d.room = some (limit - sent.length)
  full : d.full = full
  flushFault : d.flushFault = flushFault

def faultAt (limit : Nat) (full : IoFault) (length : Nat) : Option IoFault :=
  if limit < length then some full else none

lemma grant_limited {d : Device} {n : Nat} (h : d.room = some n) (bs : List UInt8) :
    d.grant bs ≤ n ∧ (d.grant bs = 0 → n = 0 ∨ bs.length = 0) := by
  simp only [grant, h]
  omega

lemma push_limited (d : Device) (bs : List UInt8) : ∀ n, d.room = some n →
    (d.push bs).2 = bs.drop n ∧ (d.push bs).1.room = some (n - bs.length) ∧
      (d.push bs).1.full = d.full ∧ (d.push bs).1.flushFault = d.flushFault := by
  fun_induction push d bs with
  | case1 d bs m hm =>
    intro n h
    rcases (grant_limited h bs).2 hm with rfl | hbs
    · simp [h]
    · simp [h, List.length_eq_zero_iff.1 hbs]
  | case2 d bs m hm ih =>
    intro n h
    have hle : m ≤ n := (grant_limited h bs).1
    have hlen : m ≤ bs.length := d.grant_le bs
    have hroom : (d.take (bs.take m)).room = some (n - m) := by
      simp [take, h, Nat.min_eq_left hlen]
    obtain ⟨hrest, hleft, hfull, hflush⟩ := ih _ hroom
    refine ⟨?_, ?_, hfull, hflush⟩
    · rw [hrest, List.drop_drop, Nat.add_sub_cancel' hle]
    · rw [hleft, List.length_drop]
      congr 1
      omega

variable {limit : Nat} {full : IoFault} {flushFault : Option IoFault} {sent : List UInt8}
  {d : Device}

lemma Offered.send (h : Offered limit full flushFault sent d) (hsent : sent.length ≤ limit)
    (bs : List UInt8) :
    Offered limit full flushFault (sent ++ bs) (d.send bs).1 ∧
      (d.send bs).2 = faultAt limit full (sent ++ bs).length := by
  obtain ⟨hrest, hroom, hfull, hflush⟩ := d.push_limited bs _ h.room
  refine ⟨⟨?_, ?_, hfull.trans h.full, hflush.trans h.flushFault⟩, ?_⟩
  · have hkept := d.push_contents bs
    rw [hrest, h.contents, List.take_of_length_le hsent] at hkept
    rw [List.take_append, List.take_of_length_le hsent]
    refine List.append_cancel_right (hkept.trans ?_)
    rw [List.append_assoc, List.take_append_drop]
  · show (d.push bs).1.room = _
    rw [hroom, List.length_append]
    congr 1
    omega
  · show (if (d.push bs).2.isEmpty then none else some (d.push bs).1.full) = _
    rw [hrest, hfull, h.full, faultAt, List.length_append]
    simp only [List.isEmpty_iff, List.drop_eq_nil_iff]
    split_ifs <;> first | rfl | omega

/-- A device that has no room left holds what it held, whatever it is offered. -/
lemma Offered.overflow (h : Offered limit full flushFault sent d) (hsent : limit ≤ sent.length)
    (bs : List UInt8) : Offered limit full flushFault (sent ++ bs) d := by
  refine ⟨?_, ?_, h.full, h.flushFault⟩
  · rw [h.contents, List.take_append_of_le_length hsent]
  · rw [h.room, List.length_append]
    congr 1
    omega

theorem Offered.sendAll (h : Offered limit full flushFault sent d) (hsent : sent.length ≤ limit)
    (pieces : List (List UInt8)) :
    Offered limit full flushFault (sent ++ pieces.flatten) (sendAll d pieces).1 ∧
      (sendAll d pieces).2 = faultAt limit full (sent ++ pieces.flatten).length := by
  induction pieces generalizing sent d with
  | nil =>
    rw [List.flatten_nil, List.append_nil]
    exact ⟨h, (if_neg (by omega)).symm⟩
  | cons bs pieces ih =>
    obtain ⟨hd, hf⟩ := h.send hsent bs
    rw [List.flatten_cons, ← List.append_assoc]
    simp only [ToolchainRelease.sendAll, Sink.send]
    cases hsend : d.send bs with
    | mk d' fault =>
      rw [hsend] at hd hf
      by_cases hfits : (sent ++ bs).length ≤ limit
      · rw [faultAt, if_neg (by omega)] at hf
        cases hf
        exact ih hd hfits
      · rw [faultAt, if_pos (by omega)] at hf
        cases hf
        refine ⟨hd.overflow (by omega) _, (if_pos ?_).symm⟩
        rw [List.length_append]
        omega

end ToolchainRelease.Device
