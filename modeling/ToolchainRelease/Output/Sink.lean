import ToolchainRelease.Output.IoFault

/-! Places that bytes are written to. A device may take a write in parts, and once it has no
room left it fails; a buffer in front of it gathers small writes. -/
namespace ToolchainRelease

/-- A place for bytes. Sending may fail after some of the bytes have been taken. -/
class Sink (σ : Type) where
  send : σ → List UInt8 → σ × Option IoFault
  flush : σ → σ × Option IoFault

/-- What a device has taken comes newest first. One call takes at least one byte while there is
room, and of `bs` at most `share taken bs` bytes: how many may change from call to call. -/
structure Device where
  taken : List (List UInt8) := []
  room : Option Nat := none
  share : List (List UInt8) → List UInt8 → Nat := fun _ bs => bs.length
  full : IoFault := .noSpace
  flushFault : Option IoFault := none

namespace Device

def contents (d : Device) : List UInt8 := d.taken.reverse.flatten

/-- How many of the bytes one call takes. -/
def grant (d : Device) (bs : List UInt8) : Nat :=
  let most := min bs.length (max 1 (d.share d.taken bs))
  match d.room with
  | none => most
  | some room => min most room

theorem grant_le (d : Device) (bs : List UInt8) : d.grant bs ≤ bs.length := by
  simp only [grant]
  split <;> omega

def take (d : Device) (bs : List UInt8) : Device :=
  { d with taken := bs :: d.taken, room := d.room.map (· - bs.length) }

theorem take_contents (d : Device) (bs : List UInt8) :
    (d.take bs).contents = d.contents ++ bs := by
  simp [contents, take]

/-- Calls the device until it has taken all bytes or fails; the bytes that it has not taken
come back. -/
def push (d : Device) (bs : List UInt8) : Device × List UInt8 :=
  let n := d.grant bs
  if n = 0 then (d, bs) else (d.take (bs.take n)).push (bs.drop n)
termination_by bs.length
decreasing_by
  have hn : n ≠ 0 := by assumption
  have : n ≤ bs.length := d.grant_le bs
  simp only [List.length_drop]
  omega

/-- No byte is lost or sent twice. -/
theorem push_contents (d : Device) (bs : List UInt8) :
    (d.push bs).1.contents ++ (d.push bs).2 = d.contents ++ bs := by
  fun_induction push d bs with
  | case1 => rfl
  | case2 d bs n h ih => rw [ih, take_contents, List.append_assoc, List.take_append_drop]

def send (d : Device) (bs : List UInt8) : Device × Option IoFault :=
  let (d, rest) := d.push bs
  (d, if rest.isEmpty then none else some d.full)

def flush (d : Device) : Device × Option IoFault := (d, d.flushFault)

end Device

instance : Sink Device := ⟨Device.send, Device.flush⟩

/-- A device with bytes that wait to be sent to it. -/
structure Buffered where
  device : Device
  capacity : Nat := 8192
  waiting : List UInt8 := []

namespace Buffered

/-- Sends what waits. After a fault the bytes that the device has not taken go on waiting. -/
def drain (b : Buffered) : Buffered × Option IoFault :=
  let (device, rest) := b.device.push b.waiting
  ({ b with device := device, waiting := rest },
   if rest.isEmpty then none else some device.full)

/-- Keeps bytes that fit in besides those that wait. For others the buffer is drained, and
those that would fill it alone go to the device at once. -/
def send (b : Buffered) (bs : List UInt8) : Buffered × Option IoFault :=
  let spare := b.capacity - b.waiting.length
  if bs.length < spare then ({ b with waiting := b.waiting ++ bs }, none)
  else
    let (b, fault) := if spare < bs.length then b.drain else (b, none)
    match fault with
    | some f => (b, some f)
    | none =>
      if b.capacity ≤ bs.length then
        let (device, fault) := b.device.send bs
        ({ b with device := device }, fault)
      else ({ b with waiting := b.waiting ++ bs }, none)

def flush (b : Buffered) : Buffered × Option IoFault :=
  match b.drain with
  | (b, some f) => (b, some f)
  | (b, none) =>
    let (device, fault) := b.device.flush
    ({ b with device := device }, fault)

/-- The device when the buffer is given up: what waits is tried once more, and a fault is not
reported. -/
def close (b : Buffered) : Device := b.drain.1.device

end Buffered

instance : Sink Buffered := ⟨Buffered.send, Buffered.flush⟩

/-- Sends pieces in order, up to the first fault. -/
def sendAll {σ : Type} [Sink σ] (out : σ) : List (List UInt8) → σ × Option IoFault
  | [] => (out, none)
  | bs :: rest =>
    match Sink.send out bs with
    | (out, none) => sendAll out rest
    | (out, some f) => (out, some f)

end ToolchainRelease
