import ToolchainRelease.Proofs.Files.OutputFile
import ToolchainRelease.Proofs.Output.Buffering
import ToolchainRelease.Proofs.ReleaseFile

/-! What an output file holds when a release has been saved in it, or when saving it has failed. It
is emptied before its boilerplate is opened, so a file is no boilerplate for itself. -/
namespace ToolchainRelease.ReleaseFile
open Text Buffered

/-- The bytes that a file of unlimited room is left with, and why writing it failed: the bytes of
the boilerplate as far as it can be read, and only after all of them the header and the release. -/
def fate (r : Release) : Option Boilerplate → List UInt8 × Option Failure
  | none => (fileBytes [] r, none)
  | some ⟨path, .error f⟩ => ([], some (.openBoilerplate path f))
  | some ⟨_, .ok ⟨bytes, none⟩⟩ => (fileBytes bytes r, none)
  | some ⟨path, .ok ⟨bytes, some f⟩⟩ => (bytes, some (.copyBoilerplate path f))

section Gathered

variable {sent : List UInt8} {out : Buffered}

lemma writeBody_gathered (h : Gathered sent out) (r : Release) :
    (writeBody out r).2 = none ∧ Gathered (fileBytes sent r) (writeBody out r).1 := by
  obtain ⟨hfault, hsent⟩ := h.sendAll (pieces r)
  rw [pieces_flatten] at hsent
  unfold writeBody
  cases hsend : sendAll out (pieces r) with
  | mk out' fault =>
    rw [hsend] at hfault hsent
    cases hfault
    exact hsent.flush

lemma copy_gathered (h : Gathered [] out) (path : String) (bytes : List UInt8)
    (fault : Option IoFault) :
    Gathered bytes (copy out ⟨path, .ok ⟨bytes, fault⟩⟩).sink ∧
      (copy out ⟨path, .ok ⟨bytes, fault⟩⟩).failure = fault.map (.copyBoilerplate path) := by
  obtain ⟨hfault, hsent⟩ := h.sendAll (chunks (chunkSize - 1) bytes)
  rw [chunks_flatten, List.nil_append] at hsent
  simp only [copy]
  cases hsend : sendAll out (chunks (chunkSize - 1) bytes) with
  | mk out' fault' =>
    rw [hsend] at hfault hsent
    cases hfault
    cases fault <;> exact ⟨hsent, rfl⟩

theorem write_gathered (h : Gathered [] out) (r : Release) (b : Option Boilerplate) :
    Gathered (fate r b).1 (write out r b).sink ∧ (write out r b).failure = (fate r b).2 := by
  match b with
  | none =>
    obtain ⟨hfault, hbody⟩ := writeBody_gathered h r
    simp only [fate, write, hfault]
    exact ⟨hbody, rfl⟩
  | some ⟨path, .error f⟩ => exact ⟨h, rfl⟩
  | some ⟨path, .ok ⟨bytes, none⟩⟩ =>
    obtain ⟨hcopy, hfailure⟩ := copy_gathered h path bytes none
    obtain ⟨hfault, hbody⟩ := writeBody_gathered hcopy r
    simp only [fate, write]
    rw [hfailure]
    simp only [Option.map_none, hfault]
    exact ⟨hbody, trivial⟩
  | some ⟨path, .ok ⟨bytes, some f⟩⟩ =>
    obtain ⟨hcopy, hfailure⟩ := copy_gathered h path bytes (some f)
    simp only [fate, write]
    rw [hfailure]
    exact ⟨hcopy, hfailure⟩

end Gathered

variable {fs : FileSystem} {path : String} {l : Location}

/-- The boilerplate is opened when the output file has been made or emptied. -/
def opened (fs : FileSystem) (l : Location) (boilerplate : Option String) : Option Boilerplate :=
  boilerplate.map fun p => ⟨p, (fs.put l (.file [])).openFile p⟩

/-- Saving changes the output file alone, whatever happens to the boilerplate. -/
theorem save_creatable (h : fs.Creatable path l) (r : Release) (boilerplate : Option String) :
    let b := opened fs l boilerplate
    (save fs r path boilerplate).files = fs.put l (.file (fate r b).1) ∧
      (save fs r path boilerplate).failure = (fate r b).2 := by
  intro b
  obtain ⟨hwritten, hfailure⟩ := write_gathered (gathered_start 8192) r b
  have hl : (fs.put l (.file [])).get? l = some (.file []) :=
    FileSystem.get?_put fs l _ h.not_directory.ne_nil
  have hclose := hwritten.close
  simp only [save, h.create_eq, hl, deviceFor]
  refine ⟨?_, hfailure⟩
  rw [FileSystem.put_put]
  exact congrArg (fun bytes => fs.put l (.file bytes)) hclose

lemma find_saved (h : fs.Creatable path l) (r : Release) (boilerplate : Option String) :
    (save fs r path boilerplate).files.find path =
      .ok (.file (fate r (opened fs l boilerplate)).1) := by
  rw [(save_creatable h r boilerplate).1]
  exact FileSystem.find_of_names (h.names.put h.not_directory)
    (FileSystem.get?_put fs l _ h.not_directory.ne_nil)

/-- A file that can be read when saving begins is opened with its bytes, but for the output file
itself, which is empty by then. -/
lemma openFile_emptied (h : fs.Creatable path l) {top : String} {lt : Location} {item : Item}
    {bytes : List UInt8} (htop : fs.Names top lt) (hitem : fs.get? lt = some item)
    (hbytes : item.bytes? = some bytes) :
    (fs.put l (.file [])).openFile top = .ok ⟨if lt = l then [] else bytes, none⟩ := by
  have hnames : (fs.put l (.file [])).Names top lt := htop.put h.not_directory
  split_ifs with heq
  · have hl : (fs.put l (.file [])).get? lt = some (.file []) := by
      rw [heq]
      exact FileSystem.get?_put fs l _ h.not_directory.ne_nil
    exact FileSystem.openFile_of_find (FileSystem.find_of_names hnames hl) rfl
  · rw [← FileSystem.get?_put_of_ne fs (.file []) heq] at hitem
    exact FileSystem.openFile_of_find (FileSystem.find_of_names hnames hitem) hbytes

lemma save_of_create_error {f : IoFault} (h : fs.create path = .error f) (r : Release)
    (boilerplate : Option String) :
    (save fs r path boilerplate).files = fs ∧
      (save fs r path boilerplate).failure = some (.create path f) := by
  simp only [save, h]
  exact ⟨trivial, trivial⟩

theorem save_frame (fs : FileSystem) (r : Release) (path : String) (boilerplate : Option String)
    {m : Location} (hm : ∀ l, fs.outputLocation path = .ok l → m ≠ l) :
    (save fs r path boilerplate).files.get? m = fs.get? m := by
  cases hcreate : fs.create path with
  | error f => rw [(save_of_create_error hcreate r boilerplate).1]
  | ok created =>
    obtain ⟨made, l⟩ := created
    obtain ⟨hlocation, hsame⟩ := FileSystem.create_frame hcreate
    have hml := hm l hlocation
    simp only [save, hcreate]
    split
    · rw [FileSystem.get?_put_of_ne made _ hml, hsame m hml]
    · exact hsame m hml

/-- A release is saved under a boilerplate that can be read when saving begins. The file then starts
with all bytes of the boilerplate, unless the two are one file: that is empty when it is read. -/
theorem save_under_boilerplate (h : fs.Creatable path l) {top : String} {lt : Location}
    {item : Item} {bytes : List UInt8} (htop : fs.Names top lt) (hitem : fs.get? lt = some item)
    (hbytes : item.bytes? = some bytes) (r : Release) :
    let saved := save fs r path (some top)
    saved.failure = none ∧
      saved.files.find path = .ok (.file (fileBytes (if lt = l then [] else bytes) r)) ∧
      saved.files.find top = .ok (if lt = l then .file (fileBytes [] r) else item) := by
  intro saved
  have hopened : opened fs l (some top) =
      some ⟨top, .ok ⟨if lt = l then [] else bytes, none⟩⟩ := by
    rw [opened, Option.map_some, openFile_emptied h htop hitem hbytes]
  obtain ⟨hfiles, hfailure⟩ := save_creatable h r (some top)
  rw [hopened] at hfiles hfailure
  have hfound := find_saved h r (some top)
  rw [hopened] at hfound
  refine ⟨hfailure, hfound, ?_⟩
  simp only [saved, hfiles, fate]
  refine FileSystem.find_of_names (htop.put h.not_directory) ?_
  split_ifs with heq
  · rw [heq]
    exact FileSystem.get?_put fs l _ h.not_directory.ne_nil
  · rw [FileSystem.get?_put_of_ne fs _ heq, hitem]

/-- A boilerplate that is another file is kept above the release. -/
theorem save_under_other_file :
    let fs : FileSystem := ⟨[(["top"], .file [35, 10])], []⟩
    let saved := save fs {} "out" (some "top")
    saved.failure = none ∧ saved.files.find "out" = .ok (.file (fileBytes [35, 10] {})) := by
  intro fs saved
  have hout : fs.Creatable "out" ["out"] := ⟨by decide +kernel, .inl (by decide +kernel)⟩
  have htop : fs.Names "top" ["top"] := FileSystem.names_of_outputLocation (by decide +kernel)
  have hitem : fs.get? ["top"] = some (.file [35, 10]) := by decide +kernel
  obtain ⟨hfailure, hfound, -⟩ := save_under_boilerplate hout htop hitem rfl {}
  exact ⟨hfailure, hfound⟩

/-- A file is not kept above a release that is saved in it. -/
theorem save_over_boilerplate :
    let fs : FileSystem := ⟨[(["top"], .file [35, 10])], []⟩
    let saved := save fs {} "top" (some "top")
    fs.find "top" = .ok (.file [35, 10]) ∧ saved.failure = none ∧
      saved.files.find "top" = .ok (.file (fileBytes [] {})) ∧
      fileBytes [] {} ≠ fileBytes [35, 10] {} := by
  intro fs saved
  have hitem : fs.get? ["top"] = some (.file [35, 10]) := by decide +kernel
  have hout : fs.Creatable "top" ["top"] := ⟨by decide +kernel, .inr ⟨_, hitem⟩⟩
  have hopened : opened fs ["top"] (some "top") = some ⟨"top", .ok ⟨[], none⟩⟩ := by
    rw [opened, Option.map_some, openFile_emptied hout hout.names hitem rfl, if_pos rfl]
  have hfound := find_saved hout {} (some "top")
  have hfailure := (save_creatable hout {} (some "top")).2
  rw [hopened] at hfound hfailure
  refine ⟨FileSystem.find_of_names hout.names hitem, hfailure, hfound, fun heq => ?_⟩
  have hlength := congrArg List.length heq
  simp only [fileBytes, List.length_append, List.length_cons, List.length_nil] at hlength
  omega

end ToolchainRelease.ReleaseFile
