import Mathlib.Tactic.Common
import ToolchainRelease.Files.FileSystem

/-! What making an output file changes. All that it touches is the location that its path leads to,
and paths lead to where they led before. -/
namespace ToolchainRelease

lemma ok_of_bind {ε α β : Type} {x : Except ε α} {f : α → Except ε β} {b : β}
    (h : x >>= f = .ok b) : ∃ a, x = .ok a ∧ f a = .ok b := by
  cases x with
  | ok a => exact ⟨a, rfl, h⟩
  | error e => cases h

namespace FileSystem

variable {fs : FileSystem} {path : String} {l m : Location}

/-- The path leads to the file at this location, or to the place for one. -/
def Names (fs : FileSystem) (path : String) (l : Location) : Prop :=
  ∃ p, Path.ofText path = .ok p ∧ p.slashAtEnd = false ∧ fs.walk (fs.origin p) p.names = .ok l

/-- A regular file can be made where the path leads, or emptied if it is there. -/
structure Creatable (fs : FileSystem) (path : String) (l : Location) : Prop where
  location : fs.outputLocation path = .ok l
  regular : (fs.get? l = none ∧ fs.get? l.dropLast ≠ some .readOnlyDirectory) ∨
    ∃ bytes, fs.get? l = some (.file bytes)

def NotDirectory (fs : FileSystem) (l : Location) : Prop :=
  ∀ item, fs.get? l = some item → item.isDirectory = false

lemma Creatable.not_directory (h : fs.Creatable path l) : fs.NotDirectory l := by
  intro item hitem
  rcases h.regular with ⟨hl, -⟩ | ⟨bytes, hl⟩
  · cases hl.symm.trans hitem
  · cases hl.symm.trans hitem
    rfl

lemma NotDirectory.ne_nil (h : fs.NotDirectory l) : l ≠ [] := by
  rintro rfl
  cases h .directory rfl

lemma isDirectory_of_mayEnter (h : fs.mayEnter l = .ok ()) :
    ∃ item, fs.get? l = some item ∧ item.isDirectory = true := by
  unfold mayEnter at h
  split at h
  · cases h
  · next hl => exact ⟨_, hl, rfl⟩
  · next hl => exact ⟨_, hl, rfl⟩
  · cases h
  · cases h

section Put

variable {bytes : List UInt8}

lemma put_put (fs : FileSystem) (l : Location) (old new : Item) :
    (fs.put l old).put l new = fs.put l new := by
  simp [put, List.filter_filter]

/-- Only directories are walked through, so a new file is in the way of no path. -/
lemma enter_put (hl : fs.NotDirectory l) {start : Location} {name : String}
    (h : fs.enter start name = .ok m) : (fs.put l (.file bytes)).enter start name = .ok m := by
  have hstart : start ≠ l := by
    rintro rfl
    obtain ⟨_, hmay, -⟩ := ok_of_bind h
    obtain ⟨item, hitem, hdirectory⟩ := isDirectory_of_mayEnter hmay
    cases (hl item hitem).symm.trans hdirectory
  unfold enter mayEnter at h ⊢
  rw [get?_put_of_ne fs _ hstart]
  exact h

lemma walk_put (hl : fs.NotDirectory l) {start : Location} {names : List String}
    (h : fs.walk start names = .ok m) :
    (fs.put l (.file bytes)).walk start names = .ok m := by
  unfold walk at h ⊢
  induction names generalizing start with
  | nil => exact h
  | cons name names ih =>
    rw [List.foldlM_cons] at h ⊢
    obtain ⟨next, hnext, hrest⟩ := ok_of_bind h
    rw [enter_put hl hnext]
    exact ih hrest

lemma Names.put (hl : fs.NotDirectory l) (h : fs.Names path m) :
    (fs.put l (.file bytes)).Names path m := by
  obtain ⟨p, hp, hslash, hwalk⟩ := h
  exact ⟨p, hp, hslash, walk_put hl hwalk⟩

end Put

lemma find_of_names {item : Item} (h : fs.Names path l) (hl : fs.get? l = some item) :
    fs.find path = .ok item := by
  obtain ⟨p, hp, hslash, hwalk⟩ := h
  simp only [find, hp, hwalk, hl, hslash, bind, Except.bind]
  rfl

lemma openFile_of_find {item : Item} {bytes : List UInt8} (h : fs.find path = .ok item)
    (hbytes : item.bytes? = some bytes) : fs.openFile path = .ok ⟨bytes, none⟩ := by
  rw [openFile, h]
  cases item <;> cases hbytes <;> rfl

/-- The last name of an output path is entered from the directory that the others lead to. -/
lemma names_of_outputLocation (h : fs.outputLocation path = .ok l) : fs.Names path l := by
  unfold outputLocation at h
  obtain ⟨p, hp, h⟩ := ok_of_bind h
  split at h
  · cases h
  · next last hlast =>
    obtain ⟨parent, hparent, h⟩ := ok_of_bind h
    obtain ⟨_, -, h⟩ := ok_of_bind h
    split_ifs at h with hslash
    refine ⟨p, hp, by simpa using hslash, ?_⟩
    obtain ⟨init, hnames⟩ := List.getLast?_eq_some_iff.1 hlast
    rw [hnames, List.dropLast_concat] at hparent
    have hlast : fs.walk parent [last] = .ok l := by
      rw [walk, List.foldlM_cons, h]
      rfl
    unfold walk at hparent hlast ⊢
    rw [hnames, List.foldlM_append, hparent]
    exact hlast

lemma Creatable.names (h : fs.Creatable path l) : fs.Names path l :=
  names_of_outputLocation h.location

def Plain (fs : FileSystem) : Prop :=
  ∀ l, fs.get? l ≠ some .nullDevice ∧ fs.get? l ≠ some .fullDevice

lemma plain_of_items
    (h : ∀ i ∈ fs.items, i.2 ≠ .nullDevice ∧ i.2 ≠ .fullDevice) : fs.Plain := by
  have mem {l : Location} {item : Item} (hl : fs.items.lookup l = some item) :
      (l, item) ∈ fs.items := by
    obtain ⟨before, after, hitems, -⟩ := List.lookup_eq_some_iff.1 hl
    rw [hitems]
    exact List.mem_append_right _ List.mem_cons_self
  intro l
  unfold get?
  split_ifs
  · exact ⟨nofun, nofun⟩
  · exact ⟨fun hl => (h _ (mem hl)).1 rfl, fun hl => (h _ (mem hl)).2 rfl⟩

lemma Creatable.create_eq (h : fs.Creatable path l) :
    fs.create path = .ok (fs.put l (.file []), l) := by
  unfold create
  rw [h.location]
  rcases h.regular with ⟨hl, hparent⟩ | ⟨bytes, hl⟩
  · simp only [hl, bind, Except.bind, if_neg hparent]
    rfl
  · simp only [hl, bind, Except.bind]
    rfl

/-- A device is left as it is, and otherwise a regular file is made or emptied. -/
lemma create_cases {made : FileSystem} (h : fs.create path = .ok (made, l)) :
    fs.outputLocation path = .ok l ∧
      ((made = fs ∧ (fs.get? l = some .nullDevice ∨ fs.get? l = some .fullDevice)) ∨
        (made = fs.put l (.file []) ∧ fs.Creatable path l)) := by
  unfold create at h
  obtain ⟨l', hlocation, h⟩ := ok_of_bind h
  split at h
  iterate 5 cases h
  · next hl =>
    cases h
    exact ⟨hlocation, .inl ⟨rfl, .inl hl⟩⟩
  · next hl =>
    cases h
    exact ⟨hlocation, .inl ⟨rfl, .inr hl⟩⟩
  · next bytes hl =>
    cases h
    exact ⟨hlocation, .inr ⟨rfl, hlocation, .inr ⟨bytes, hl⟩⟩⟩
  · next hl =>
    split_ifs at h with hparent
    cases h
    exact ⟨hlocation, .inr ⟨rfl, hlocation, .inl ⟨hl, hparent⟩⟩⟩

/-- What is made or emptied is at the end of the path; all else is as it was. -/
lemma create_frame {made : FileSystem} (h : fs.create path = .ok (made, l)) :
    fs.outputLocation path = .ok l ∧ ∀ m, m ≠ l → made.get? m = fs.get? m := by
  obtain ⟨hlocation, ⟨rfl, -⟩ | ⟨rfl, -⟩⟩ := create_cases h
  · exact ⟨hlocation, fun _ _ => rfl⟩
  · exact ⟨hlocation, fun m hm => get?_put_of_ne fs _ hm⟩

lemma Plain.creatable {made : FileSystem} (hplain : fs.Plain)
    (h : fs.create path = .ok (made, l)) : fs.Creatable path l := by
  obtain ⟨-, ⟨-, hl | hl⟩ | ⟨-, hcreatable⟩⟩ := create_cases h
  · exact absurd hl (hplain l).1
  · exact absurd hl (hplain l).2
  · exact hcreatable

end FileSystem

end ToolchainRelease
