import ToolchainRelease.Proofs.Files.OutputFile
import ToolchainRelease.Proofs.Output.BufferedDevice
import ToolchainRelease.Proofs.ReleaseFile

/-! What an output device holds when a release has been saved to it. The buffer in front of the
device delays the faults of the device but loses none of them. -/
namespace ToolchainRelease.ReleaseFile
open Text Buffered

section Behind

variable {limit : Nat} {full : IoFault} {flushFault : Option IoFault} {sent : List UInt8}
  {out : Buffered}

/-- The header and the release follow what was sent, and the flush tells whether all had room. -/
lemma writeBody_behind (h : Waits limit full none sent out) (r : Release) :
    ((writeBody out r).2 = none ↔ (fileBytes sent r).length ≤ limit) ∧
      Passed limit full none (fileBytes sent r) (writeBody out r).1 := by
  have hsent := h.sendAll (pieces r)
  rw [pieces_flatten] at hsent
  unfold writeBody
  generalize sendAll out (pieces r) = x at hsent ⊢
  cases hsent with
  | kept hwaits =>
    obtain ⟨hfault, hpassed⟩ := hwaits.flush
    refine ⟨?_, hpassed⟩
    show (Buffered.flush _).2 = none ↔ _
    rw [hfault, Device.faultAt]
    split_ifs with hover
    · exact iff_of_false not_false (Nat.not_le.2 hover)
    · exact iff_of_true rfl (Nat.le_of_not_lt hover)
  | lost hpassed hover =>
    exact ⟨iff_of_false (Option.some_ne_none _) (Nat.not_le.2 hover), hpassed⟩

lemma copy_behind (h : Waits limit full flushFault [] out) (path : String) (bytes : List UInt8) :
    let written := copy out (.readable path bytes)
    (written.failure = none ∧ Waits limit full flushFault bytes written.sink) ∨
      ∃ f, written.failure = some f ∧ limit < bytes.length ∧
        Passed limit full flushFault bytes written.sink := by
  have hsent := h.sendAll (chunks (chunkSize - 1) bytes)
  rw [chunks_flatten, List.nil_append] at hsent
  simp only [copy, Boilerplate.readable]
  generalize sendAll out (chunks (chunkSize - 1) bytes) = x at hsent ⊢
  cases hsent with
  | kept hwaits => exact .inl ⟨rfl, hwaits⟩
  | lost hpassed hover => exact .inr ⟨_, rfl, hover, hpassed⟩

/-- Writing fails exactly if there is no room for the whole file. -/
theorem write_behind (h : Waits limit full none [] out) (r : Release) (path : String)
    (top : Option (List UInt8)) :
    let written := write out r (top.map (.readable path))
    (written.failure = none ↔ (fileBytes (top.getD []) r).length ≤ limit) ∧
      Passed limit full none (fileBytes (top.getD []) r) written.sink := by
  have body {sent : List UInt8} {out : Buffered} (h : Waits limit full none sent out) :
      ((writeBody out r).2.map Failure.io = none ↔ (fileBytes sent r).length ≤ limit) ∧
        Passed limit full none (fileBytes sent r) (writeBody out r).1 := by
    rw [Option.map_eq_none_iff]
    exact writeBody_behind h r
  cases top with
  | none =>
    simp only [write, Option.map_none, Option.getD_none]
    exact body h
  | some bytes =>
    simp only [write, Option.map_some, Option.getD_some]
    have hcopy := copy_behind h path bytes
    generalize copy out (.readable path bytes) = written at hcopy ⊢
    rcases hcopy with ⟨hnone, hwaits⟩ | ⟨f, hsome, hover, hpassed⟩
    · simp only [hnone]
      exact body hwaits
    · simp only [hsome]
      refine ⟨iff_of_false (Option.some_ne_none f) ?_, hpassed.overflow hover _⟩
      rw [fileBytes, List.length_append]
      omega

end Behind

/-- What an output device holds, and why the writing failed, once a release has been written to it
through a buffer and the buffer has been given up. -/
def writeThrough (device : Device) (capacity : Nat) (r : Release) (b : Option Boilerplate) :
    Device × Option Failure :=
  let written := write ({ device := device, capacity := capacity } : Buffered) r b
  (written.sink.close, written.failure)

lemma writeThrough_limitedSink (r : Release) (path : String) (top : Option (List UInt8))
    (limit capacity : Nat) (share : List (List UInt8) → List UInt8 → Nat) (full : IoFault) :
    let bytes := fileBytes (top.getD []) r
    let written := writeThrough (limitedSink limit share full none) capacity r
      (top.map (.readable path))
    (written.2 = none ↔ bytes.length ≤ limit) ∧ written.1.contents = bytes.take limit := by
  have hstart := waits_start _ capacity (offered_limitedSink limit share full none)
  obtain ⟨hfailure, hpassed⟩ := write_behind hstart r path top
  exact ⟨hfailure, hpassed.close⟩

variable {fs made : FileSystem} {out : String} {l : Location}

/-- Saving writes to the device behind the output file, and keeps what a regular file takes. -/
lemma save_writeThrough (h : fs.create out = .ok (made, l)) (r : Release)
    (boilerplate : Option String) :
    let written := writeThrough (deviceFor (made.get? l)) 8192 r
      (boilerplate.map fun p => ⟨p, made.openFile p⟩)
    (save fs r out boilerplate).failure = written.2 ∧ (save fs r out boilerplate).files =
      match made.get? l with
      | some (.file _) => made.put l (.file written.1.contents)
      | _ => made := by
  simp only [save, h]
  exact ⟨rfl, rfl⟩

lemma create_fullDevice (h : fs.outputLocation out = .ok l) (hl : fs.get? l = some .fullDevice) :
    fs.create out = .ok (fs, l) := by
  simp only [FileSystem.create, h, hl, bind, Except.bind]
  rfl

def Readable (fs : FileSystem) (boilerplate : Option String) : Prop :=
  ∀ p ∈ boilerplate, ∃ bytes, fs.openFile p = .ok ⟨bytes, none⟩

lemma Readable.exists_top {boilerplate : Option String} (h : Readable fs boilerplate) :
    ∃ path top, (boilerplate.map fun p => ⟨p, fs.openFile p⟩) =
      Option.map (Boilerplate.readable path) top := by
  cases boilerplate with
  | none => exact ⟨"", none, rfl⟩
  | some p =>
    obtain ⟨bytes, hbytes⟩ := h p rfl
    exact ⟨p, some bytes, by rw [Option.map_some, hbytes]; rfl⟩

/-- The header alone is too much for a device without room. -/
lemma save_fullDevice (h : fs.outputLocation out = .ok l) (hl : fs.get? l = some .fullDevice)
    (r : Release) {boilerplate : Option String} (hreadable : Readable fs boilerplate) :
    (save fs r out boilerplate).failure ≠ none ∧ (save fs r out boilerplate).files = fs := by
  obtain ⟨hfailure, hfiles⟩ := save_writeThrough (create_fullDevice h hl) r boilerplate
  obtain ⟨path, top, htop⟩ := hreadable.exists_top
  rw [hl, htop] at hfailure
  rw [hl] at hfiles
  refine ⟨fun hnone => ?_, hfiles⟩
  have hfits := (writeThrough_limitedSink r path top 0 8192 (fun _ bs => bs.length) .noSpace).1.1
    (hfailure.symm.trans hnone)
  have hheader : 0 < (utf8 header).length := by decide +kernel
  rw [fileBytes, List.length_append, List.length_append] at hfits
  omega

/-- A release is written through a buffer to a device that takes `limit` bytes in all, cutting each
write as it likes, and then fails. Whatever the capacity of the buffer, the device is left with the
start of the file, and a failure is reported exactly if it could not take all of it. Saving to a
path is such a writing to what is behind the path. On a device that takes nothing it always
fails. -/
theorem save_behind_buffer (r : Release) :
    (∀ (path : String) (top : Option (List UInt8)) (limit capacity : Nat)
      (share : List (List UInt8) → List UInt8 → Nat) (full : IoFault),
      let bytes := fileBytes (top.getD []) r
      let written := writeThrough (limitedSink limit share full none) capacity r
        (top.map (.readable path))
      (written.2 = none ↔ bytes.length ≤ limit) ∧ written.1.contents = bytes.take limit) ∧
    (∀ (fs made : FileSystem) (out : String) (l : Location) (boilerplate : Option String),
      fs.create out = .ok (made, l) →
      let written := writeThrough (deviceFor (made.get? l)) 8192 r
        (boilerplate.map fun p => ⟨p, made.openFile p⟩)
      (save fs r out boilerplate).failure = written.2 ∧ (save fs r out boilerplate).files =
        match made.get? l with
        | some (.file _) => made.put l (.file written.1.contents)
        | _ => made) ∧
    ∀ (fs : FileSystem) (out : String) (l : Location) (boilerplate : Option String),
      fs.outputLocation out = .ok l → fs.get? l = some .fullDevice → Readable fs boilerplate →
      (save fs r out boilerplate).failure ≠ none ∧ (save fs r out boilerplate).files = fs :=
  ⟨writeThrough_limitedSink r, fun _ _ _ _ boilerplate h => save_writeThrough h r boilerplate,
    fun _ _ _ _ h hl hreadable => save_fullDevice h hl r hreadable⟩

/-- A buffer that could hold the whole file hides no fault, nor does one that holds nothing. -/
theorem save_behind_buffer_cut_short :
    let sink := limitedSink 3 (fun _ _ => 2) .noSpace none
    let fs : FileSystem := ⟨[(["full"], .fullDevice)], []⟩
    (writeThrough sink 8192 {} none).2 ≠ none ∧
      (writeThrough sink 8192 {} none).1.contents = [35, 32, 68] ∧
      (writeThrough sink 0 {} none).1.contents = [35, 32, 68] ∧
      (save fs {} "full" none).failure ≠ none ∧ (save fs {} "full" none).files = fs := by
  intro sink fs
  obtain ⟨hcut, -, hfull⟩ := save_behind_buffer {}
  have hstart : (fileBytes [] {}).take 3 = [35, 32, 68] := by decide +kernel
  have hlong : ¬(fileBytes [] {}).length ≤ 3 := by decide +kernel
  obtain ⟨hfailure, hcontents⟩ := hcut "" none 3 8192 (fun _ _ => 2) .noSpace
  obtain ⟨-, hunbuffered⟩ := hcut "" none 3 0 (fun _ _ => 2) .noSpace
  have hfile := hfull fs "full" ["full"] none (by decide +kernel) (by decide +kernel)
    (by simp [Readable])
  exact ⟨fun h => hlong (hfailure.1 h), hcontents.trans hstart, hunbuffered.trans hstart, hfile⟩

end ToolchainRelease.ReleaseFile
