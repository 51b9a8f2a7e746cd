import ToolchainRelease.Proofs.Output.LimitedSink

/-! A buffer in front of a device of limited room. As long as no fault is reported, the device has
taken what does not wait. A fault is reported when the device has no room left: it then holds the
start of what was sent, and what still waits can neither be added to it nor change it. -/
namespace ToolchainRelease.Buffered
open Device

variable {limit : Nat} {full : IoFault} {flushFault : Option IoFault} {sent : List UInt8}
  {b : Buffered}

/-- Of the bytes `sent`, the device has taken those that do not wait. -/
structure Waits (limit : Nat) (full : IoFault) (flushFault : Option IoFault) (sent : List UInt8)
    (b : Buffered) : Prop where
  taken : ∃ passed, passed ++ b.waiting = sent ∧ passed.length ≤ limit ∧
    Offered limit full flushFault passed b.device

/-- The device has been offered all bytes `sent`, and none wait that it has room for. -/
structure Passed (limit : Nat) (full : IoFault) (flushFault : Option IoFault) (sent : List UInt8)
    (b : Buffered) : Prop where
  offered : Offered limit full flushFault sent b.device
  rest : b.waiting = [] ∨ limit < sent.length

lemma waits_start (device : Device) (capacity : Nat)
    (h : Offered limit full flushFault [] device) :
    Waits limit full flushFault [] ⟨device, capacity, []⟩ :=
  ⟨[], rfl, Nat.zero_le limit, h⟩

lemma Waits.keep (h : Waits limit full flushFault sent b) (bs : List UInt8) :
    Waits limit full flushFault (sent ++ bs) { b with waiting := b.waiting ++ bs } := by
  obtain ⟨passed, rfl, hfits, hoffered⟩ := h.taken
  exact ⟨passed, (List.append_assoc ..).symm, hfits, hoffered⟩

/-- Draining offers the device all that was sent. It fails exactly if this is more than there is
room for, and else leaves nothing to wait. -/
lemma Waits.drain (h : Waits limit full flushFault sent b) :
    b.drain.2 = faultAt limit full sent.length ∧ Passed limit full flushFault sent b.drain.1 := by
  obtain ⟨passed, rfl, hfits, hoffered⟩ := h.taken
  obtain ⟨hsent, hfault⟩ := hoffered.send hfits b.waiting
  refine ⟨hfault, hsent, ?_⟩
  show (b.device.push b.waiting).2 = [] ∨ _
  rw [(b.device.push_limited b.waiting _ hoffered.room).1, List.drop_eq_nil_iff,
    List.length_append]
  omega

lemma Passed.waits (h : Passed limit full flushFault sent b) (hfits : sent.length ≤ limit) :
    Waits limit full flushFault sent b := by
  have hnone : b.waiting = [] := h.rest.resolve_right (Nat.not_lt.2 hfits)
  exact ⟨sent, by rw [hnone, List.append_nil], hfits, h.offered⟩

/-- Once the device is full, it does not matter what else is to be sent. -/
lemma Passed.overflow (h : Passed limit full flushFault sent b) (hover : limit < sent.length)
    (bs : List UInt8) : Passed limit full flushFault (sent ++ bs) b := by
  refine ⟨h.offered.overflow (Nat.le_of_lt hover) bs, .inr ?_⟩
  rw [List.length_append]
  omega

/-- Giving up the buffer leaves on the device the start of what was sent: bytes that wait are tried
once more, but there is no room for them. -/
theorem Passed.close (h : Passed limit full flushFault sent b) :
    b.close.contents = sent.take limit := by
  have hrest := (b.device.push_limited b.waiting _ h.offered.room).1
  have hkept := b.device.push_contents b.waiting
  have hwaiting : (b.device.push b.waiting).2 = b.waiting := by
    rcases h.rest with hnone | hover
    · rw [hrest, hnone, List.drop_nil]
    · rw [hrest, Nat.sub_eq_zero_of_le (Nat.le_of_lt hover), List.drop_zero]
  rw [hwaiting] at hkept
  exact (List.append_cancel_right hkept).trans h.offered.contents

/-- What sending leaves: bytes that the device has taken or that wait, or, after a fault, a device
that had no room for all of them. -/
inductive Outcome (limit : Nat) (full : IoFault) (flushFault : Option IoFault)
    (sent : List UInt8) : Buffered × Option IoFault → Prop
  | kept {b : Buffered} (waits : Waits limit full flushFault sent b) :
      Outcome limit full flushFault sent (b, none)
  | lost {b : Buffered} {f : IoFault} (passed : Passed limit full flushFault sent b)
      (beyond : limit < sent.length) : Outcome limit full flushFault sent (b, some f)

lemma Waits.pass (h : Waits limit full flushFault sent b) {bs : List UInt8}
    (hw : b.waiting = [] ∨ bs = []) :
    Outcome limit full flushFault (sent ++ bs)
      ({ b with device := (b.device.send bs).1 }, (b.device.send bs).2) := by
  obtain ⟨device, capacity, waiting⟩ := b
  obtain ⟨passed, rfl, hfits, hoffered⟩ := h.taken
  obtain ⟨hsent, hfault⟩ := hoffered.send hfits bs
  rcases hw with rfl | rfl
  · rw [List.append_nil, hfault, faultAt]
    split_ifs with hover
    · exact .lost ⟨hsent, .inl rfl⟩ hover
    · exact .kept ⟨_, List.append_nil _, Nat.le_of_not_lt hover, hsent⟩
  · rw [List.append_nil] at hsent hfault ⊢
    rw [hfault, faultAt, if_neg (Nat.not_lt.2 hfits)]
    exact .kept ⟨passed, rfl, hfits, hsent⟩

lemma Waits.place (h : Waits limit full flushFault sent b) {bs : List UInt8}
    (hw : b.capacity ≤ bs.length → b.waiting = [] ∨ bs = []) :
    Outcome limit full flushFault (sent ++ bs)
      (if b.capacity ≤ bs.length then
        ({ b with device := (b.device.send bs).1 }, (b.device.send bs).2)
      else ({ b with waiting := b.waiting ++ bs }, none)) := by
  split_ifs with hlarge
  · exact h.pass (hw hlarge)
  · exact .kept (h.keep bs)

theorem Waits.send (h : Waits limit full flushFault sent b) (bs : List UInt8) :
    Outcome limit full flushFault (sent ++ bs) (b.send bs) := by
  by_cases hfits : bs.length < b.capacity - b.waiting.length
  · have hsend : b.send bs = ({ b with waiting := b.waiting ++ bs }, none) := by
      simp only [Buffered.send, if_pos hfits]
    rw [hsend]
    exact .kept (h.keep bs)
  by_cases hspace : b.capacity - b.waiting.length < bs.length
  · obtain ⟨hfault, hpassed⟩ := h.drain
    simp only [Buffered.send, if_neg hfits, if_pos hspace]
    generalize b.drain = drained at hfault hpassed ⊢
    obtain ⟨drained, fault⟩ := drained
    by_cases hover : limit < sent.length
    · obtain rfl := hfault.trans (if_pos hover)
      refine .lost (hpassed.overflow hover bs) ?_
      rw [List.length_append]
      omega
    · obtain rfl := hfault.trans (if_neg hover)
      have hwaits := hpassed.waits (Nat.le_of_not_lt hover)
      exact hwaits.place fun _ => .inl (hpassed.rest.resolve_right hover)
  · simp only [Buffered.send, if_neg hfits, if_neg hspace]
    refine h.place fun hlarge => ?_
    rcases Nat.eq_zero_or_pos bs.length with hbs | hbs
    · exact .inr (List.length_eq_zero_iff.1 hbs)
    · exact .inl (List.length_eq_zero_iff.1 (by omega))

/-- Pieces are sent as their bytes would be in one piece, whichever of them brings the fault. -/
theorem Waits.sendAll (h : Waits limit full flushFault sent b) (pieces : List (List UInt8)) :
    Outcome limit full flushFault (sent ++ pieces.flatten) (sendAll b pieces) := by
  induction pieces generalizing sent b with
  | nil =>
    rw [List.flatten_nil, List.append_nil]
    exact .kept h
  | cons bs pieces ih =>
    have hsent := h.send bs
    rw [List.flatten_cons, ← List.append_assoc]
    simp only [ToolchainRelease.sendAll, Sink.send]
    generalize b.send bs = x at hsent ⊢
    cases hsent with
    | kept hwaits => exact ih hwaits
    | lost hpassed hover =>
      refine .lost (hpassed.overflow hover _) ?_
      rw [List.length_append]
      omega

/-- Flushing reports whether there was room for all that was sent. -/
theorem Waits.flush (h : Waits limit full none sent b) :
    b.flush.2 = faultAt limit full sent.length ∧ Passed limit full none sent b.flush.1 := by
  obtain ⟨hfault, hpassed⟩ := h.drain
  unfold Buffered.flush
  generalize b.drain = drained at hfault hpassed ⊢
  obtain ⟨drained, fault⟩ := drained
  rw [← hfault]
  cases fault with
  | none => exact ⟨hpassed.offered.flushFault, hpassed⟩
  | some f => exact ⟨rfl, hpassed⟩

end ToolchainRelease.Buffered
