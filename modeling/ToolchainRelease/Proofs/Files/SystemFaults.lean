import ToolchainRelease.Proofs.SavedFile

/-! Faults in the words of the system: files and the devices behind them know no others, and saving
a release fails with nothing else. -/
namespace ToolchainRelease

/-- The faults that the system itself has words for. -/
def IoFault.ofSystem : List IoFault :=
  [.notFound, .permissionDenied, .notADirectory, .isADirectory, .nameTooLong, .noSpace, .nulInName,
    .invalidUtf8]

def Systemic {α : Type} (x : Except IoFault α) : Prop := ∀ f, x = .error f → f ∈ IoFault.ofSystem

section Systemic

variable {α β : Type}

lemma systemic_ok (a : α) : Systemic (.ok a : Except IoFault α) := by
  intro f h
  cases h

lemma systemic_error {f : IoFault} (h : f ∈ IoFault.ofSystem) :
    Systemic (.error f : Except IoFault α) := by
  intro f' h'
  cases h'
  exact h

lemma Systemic.bind {x : Except IoFault α} {next : α → Except IoFault β} (hx : Systemic x)
    (hnext : ∀ a, Systemic (next a)) : Systemic (x >>= next) := by
  cases x with
  | ok a => exact hnext a
  | error f =>
    intro f' h'
    cases h'
    exact hx f rfl

end Systemic

namespace FileSystem

variable (fs : FileSystem)

lemma systemic_path (path : String) : Systemic (Path.ofText path) := by
  unfold Path.ofText
  split_ifs
  · exact systemic_error (by decide)
  · exact systemic_error (by decide)
  · exact systemic_error (by decide)
  · exact systemic_ok _

lemma systemic_mayEnter (l : Location) : Systemic (fs.mayEnter l) := by
  unfold mayEnter
  split
  · exact systemic_error (by decide)
  · exact systemic_ok ()
  · exact systemic_ok ()
  · exact systemic_error (by decide)
  · exact systemic_error (by decide)

lemma systemic_enter (l : Location) (name : String) : Systemic (fs.enter l name) := by
  refine (fs.systemic_mayEnter l).bind fun _ => ?_
  split_ifs
  · exact systemic_error (by decide)
  all_goals exact systemic_ok _

lemma systemic_walk (l : Location) (names : List String) : Systemic (fs.walk l names) := by
  induction names generalizing l with
  | nil => exact systemic_ok l
  | cons name names ih =>
    rw [walk, List.foldlM_cons]
    exact (fs.systemic_enter l name).bind ih

lemma systemic_find (path : String) : Systemic (fs.find path) := by
  refine (systemic_path path).bind fun p => (fs.systemic_walk _ _).bind fun l => ?_
  split
  · exact systemic_error (by decide)
  · split_ifs
    · exact systemic_error (by decide)
    · exact systemic_ok _

lemma systemic_openFile (path : String) : Systemic (fs.openFile path) := by
  refine (fs.systemic_find path).bind fun item => ?_
  cases item with
  | closedFile => exact systemic_error (by decide)
  | closedDirectory => exact systemic_error (by decide)
  | fullDevice => exact systemic_error (by decide)
  | _ => exact systemic_ok _

lemma fault_of_openFile {path : String} {opened : Opened} (h : fs.openFile path = .ok opened) :
    ∀ f, opened.fault = some f → f ∈ IoFault.ofSystem := by
  intro f hf
  obtain ⟨item, -, hitem⟩ := ok_of_bind h
  cases item <;> cases hitem <;> cases hf <;> decide

lemma systemic_readText (path : String) : Systemic (fs.readText path) := by
  unfold readText
  cases hopened : fs.openFile path with
  | error f => exact systemic_error (fs.systemic_openFile path f hopened)
  | ok opened =>
    simp only [bind, Except.bind]
    split
    · next f hf => exact systemic_error (fs.fault_of_openFile hopened f hf)
    · split
      · exact systemic_ok _
      · exact systemic_error (by decide)

lemma systemic_outputLocation (path : String) : Systemic (fs.outputLocation path) := by
  refine (systemic_path path).bind fun p => ?_
  split
  · exact systemic_error (by decide)
  · refine (fs.systemic_walk _ _).bind fun parent => (fs.systemic_mayEnter parent).bind fun _ => ?_
    split_ifs
    · exact systemic_error (by decide)
    · exact fs.systemic_enter _ _

lemma systemic_create (path : String) : Systemic (fs.create path) := by
  refine (fs.systemic_outputLocation path).bind fun l => ?_
  split
  iterate 5 exact systemic_error (by decide)
  iterate 3 exact systemic_ok _
  split_ifs
  · exact systemic_error (by decide)
  · exact systemic_ok _

end FileSystem

structure Device.Systemic (d : Device) : Prop where
  full : d.full ∈ IoFault.ofSystem
  flushFault : ∀ f, d.flushFault = some f → f ∈ IoFault.ofSystem

lemma Device.Systemic.push {d : Device} (h : d.Systemic) (bs : List UInt8) :
    (d.push bs).1.Systemic := by
  fun_induction Device.push d bs with
  | case1 => exact h
  | case2 d bs n hn ih => exact ih ⟨h.full, h.flushFault⟩

/-- A step of writing leaves a device that reports faults of the system, and so was its own. -/
structure Buffered.Told (x : Buffered × Option IoFault) : Prop where
  device : x.1.device.Systemic
  fault : ∀ f, x.2 = some f → f ∈ IoFault.ofSystem

namespace Buffered

variable {b : Buffered}

lemma told_drain (h : b.device.Systemic) : Told b.drain := by
  have hpushed := h.push b.waiting
  refine ⟨hpushed, fun f hf => ?_⟩
  unfold drain at hf
  dsimp only at hf
  split_ifs at hf
  cases hf
  exact hpushed.full

lemma told_none (h : b.device.Systemic) : Told (b, none) := by
  refine ⟨h, fun f hf => ?_⟩
  cases hf

lemma told_pass (h : b.device.Systemic) (bs : List UInt8) :
    Told ({ b with device := (b.device.send bs).1 }, (b.device.send bs).2) := by
  have hpushed := h.push bs
  refine ⟨hpushed, fun f hf => ?_⟩
  unfold Device.send at hf
  dsimp only at hf
  split_ifs at hf
  cases hf
  exact hpushed.full

lemma told_send (h : b.device.Systemic) (bs : List UInt8) : Told (b.send bs) := by
  -- The last step, with or without a drain before it: the bytes are passed on or wait.
  have place {b : Buffered} (h : b.device.Systemic) : Told
      (if b.capacity ≤ bs.length then
        ({ b with device := (b.device.send bs).1 }, (b.device.send bs).2)
      else ({ b with waiting := b.waiting ++ bs }, none)) := by
    split_ifs
    · exact told_pass h bs
    · exact told_none h
  by_cases hfits : bs.length < b.capacity - b.waiting.length
  · simp only [Buffered.send, if_pos hfits]
    exact told_none h
  by_cases hspace : b.capacity - b.waiting.length < bs.length
  · have hdrain := told_drain h
    simp only [Buffered.send, if_neg hfits, if_pos hspace]
    generalize b.drain = drained at hdrain ⊢
    obtain ⟨drained, fault⟩ := drained
    cases fault with
    | none => exact place hdrain.device
    | some f => exact hdrain
  · simp only [Buffered.send, if_neg hfits, if_neg hspace]
    exact place h

lemma told_sendAll (h : b.device.Systemic) (pieces : List (List UInt8)) :
    Told (sendAll b pieces) := by
  induction pieces generalizing b with
  | nil => exact told_none h
  | cons bs pieces ih =>
    have hsend := told_send h bs
    simp only [sendAll, Sink.send]
    generalize b.send bs = sent at hsend ⊢
    obtain ⟨sent, fault⟩ := sent
    cases fault with
    | none => exact ih hsend.device
    | some f => exact hsend

lemma told_flush (h : b.device.Systemic) : Told b.flush := by
  have hdrain := told_drain h
  unfold flush
  generalize b.drain = drained at hdrain ⊢
  obtain ⟨drained, fault⟩ := drained
  cases fault with
  | none => exact ⟨hdrain.device, hdrain.device.flushFault⟩
  | some f => exact hdrain

end Buffered

namespace Failure

def ioFault? : Failure → Option IoFault
  | io f | create _ f | openBoilerplate _ f | copyBoilerplate _ f => some f
  | _ => none

def ioPath? : Failure → Option String
  | create path _ | openBoilerplate path _ | copyBoilerplate path _ => some path
  | _ => none

/-- The failure is about a fault of the system, at one of these paths if it is about a path. -/
def IsSystemic (failure : Failure) (paths : List String) : Prop :=
  ∃ f ∈ IoFault.ofSystem, failure.ioFault? = some f ∧ ∀ p, failure.ioPath? = some p → p ∈ paths

end Failure

namespace ReleaseFile

variable {out : Buffered} {failure : Failure}

lemma told_writeBody (h : out.device.Systemic) (r : Release) :
    Buffered.Told (writeBody out r) := by
  have hsent := Buffered.told_sendAll h (pieces r)
  unfold writeBody
  generalize sendAll out (pieces r) = sent at hsent ⊢
  obtain ⟨sent, fault⟩ := sent
  cases fault with
  | none => exact Buffered.told_flush hsent.device
  | some f => exact hsent

lemma copy_systemic (h : out.device.Systemic) (fs : FileSystem) (path : String) :
    let written := copy out ⟨path, fs.openFile path⟩
    written.sink.device.Systemic ∧
      ∀ failure, written.failure = some failure → failure.IsSystemic [path] := by
  intro written
  have single {failure : Failure} {f : IoFault} (hf : f ∈ IoFault.ofSystem)
      (hfault : failure.ioFault? = some f) (hpath : failure.ioPath? = some path) :
      failure.IsSystemic [path] := by
    refine ⟨f, hf, hfault, fun p hp => ?_⟩
    rw [hpath] at hp
    cases hp
    exact List.mem_singleton_self path
  cases hopened : fs.openFile path with
  | error f =>
    simp only [written, copy, hopened]
    refine ⟨h, fun failure hfailure => ?_⟩
    cases hfailure
    exact single (fs.systemic_openFile path f hopened) rfl rfl
  | ok opened =>
    have hsent := Buffered.told_sendAll h (chunks (chunkSize - 1) opened.bytes)
    have hread := fs.fault_of_openFile hopened
    simp only [written, copy, hopened]
    generalize sendAll out (chunks (chunkSize - 1) opened.bytes) = sent at hsent ⊢
    obtain ⟨sent, fault⟩ := sent
    cases fault with
    | some f =>
      refine ⟨hsent.device, fun failure hfailure => ?_⟩
      cases hfailure
      exact single (hsent.fault f rfl) rfl rfl
    | none =>
      cases hfault : opened.fault with
      | none =>
        refine ⟨hsent.device, fun failure hfailure => ?_⟩
        cases hfailure
      | some f =>
        refine ⟨hsent.device, fun failure hfailure => ?_⟩
        cases hfailure
        exact single (hread f hfault) rfl rfl

lemma body_systemic (h : out.device.Systemic) (r : Release)
    (hfailure : (writeBody out r).2.map Failure.io = some failure) (paths : List String) :
    failure.IsSystemic paths := by
  obtain ⟨f, hf, rfl⟩ := Option.map_eq_some_iff.1 hfailure
  refine ⟨f, (told_writeBody h r).fault f hf, rfl, fun p hp => ?_⟩
  cases hp

lemma write_systemic (out : Buffered) (h : out.device.Systemic) (fs : FileSystem) (r : Release)
    (boilerplate : Option String)
    (hfailure : (write out r (boilerplate.map fun p => ⟨p, fs.openFile p⟩)).failure =
      some failure) : failure.IsSystemic boilerplate.toList := by
  cases boilerplate with
  | none =>
    simp only [write, Option.map_none] at hfailure
    exact body_systemic h r hfailure _
  | some p =>
    obtain ⟨hdevice, hcopy⟩ := copy_systemic h fs p
    simp only [write, Option.map_some] at hfailure
    generalize copy out ⟨p, fs.openFile p⟩ = written at hdevice hcopy hfailure
    cases hwritten : written.failure with
    | none =>
      simp only [hwritten] at hfailure
      exact body_systemic hdevice r hfailure _
    | some f =>
      simp only [hwritten] at hfailure
      cases hfailure
      exact hcopy _ hwritten

lemma systemic_deviceFor (item : Option Item) : (deviceFor item).Systemic := by
  have none : ∀ f, (none : Option IoFault) = some f → f ∈ IoFault.ofSystem := by
    intro f hf
    cases hf
  unfold deviceFor
  split <;> exact ⟨by decide, none⟩

/-- Saving a release fails with faults of the system alone, each told with its path if it is about a
file rather than about what is written to it. -/
theorem save_systemic (fs : FileSystem) (r : Release) (path : String) (boilerplate : Option String)
    (hfailure : (save fs r path boilerplate).failure = some failure) :
    failure.IsSystemic (path :: boilerplate.toList) := by
  cases hcreate : fs.create path with
  | error f =>
    rw [(save_of_create_error hcreate r boilerplate).2] at hfailure
    cases hfailure
    refine ⟨f, fs.systemic_create path f hcreate, rfl, fun p hp => ?_⟩
    cases hp
    exact List.mem_cons_self
  | ok created =>
    obtain ⟨made, l⟩ := created
    simp only [save, hcreate] at hfailure
    have hdevice := systemic_deviceFor (made.get? l)
    obtain ⟨f, hf, hfault, hpath⟩ :=
      write_systemic { device := deviceFor (made.get? l) } hdevice made r boilerplate
        hfailure
    exact ⟨f, hf, hfault, fun p hp => List.mem_cons_of_mem path (hpath p hp)⟩

end ReleaseFile

end ToolchainRelease
