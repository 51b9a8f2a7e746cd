import ToolchainRelease.Proofs.BuiltRelease

/-! Where the toolchains of a release find their tools. The name of a tool has no hyphen, so that a
path tells the platform and the tool that it is made of, whatever the texts of the platform. -/
namespace ToolchainRelease

namespace Target

/-- What follows the last hyphen of a text is found again. -/
lemma append_hyphen_inj {as bs cs ds : List Char} (hb : '-' ∉ bs) (hd : '-' ∉ ds) :
    as ++ '-' :: bs = cs ++ '-' :: ds ↔ as = cs ∧ bs = ds := by
  have not_longer {more xs ys : List Char} (hx : '-' ∉ xs) (h : '-' :: xs = more ++ '-' :: ys) :
      more = [] ∧ xs = ys := by
    cases more with
    | nil => exact ⟨rfl, (List.cons.inj h).2⟩
    | cons c more =>
      obtain ⟨-, rfl⟩ := List.cons.inj h
      simp at hx
  constructor
  · intro h
    rcases List.append_eq_append_iff.1 h with ⟨more, rfl, hrest⟩ | ⟨more, rfl, hrest⟩
    · obtain ⟨rfl, rfl⟩ := not_longer hb hrest
      exact ⟨(List.append_nil as).symm, rfl⟩
    · obtain ⟨rfl, rfl⟩ := not_longer hd hrest
      exact ⟨List.append_nil cs, rfl⟩
  · rintro ⟨rfl, rfl⟩
    rfl

lemma hyphen_not_mem_toolNames : ∀ tool ∈ toolNames, '-' ∉ tool.toList := by decide

variable {t u : Target} {a b : String}

lemma toolPath_toList (t : Target) (tool : String) :
    (t.toolPath tool).toList = "/usr/bin/".toList ++
      if t.cross then t.libcLabel.toList ++ '-' :: tool.toList else tool.toList := by
  unfold toolPath
  split <;> simp

/-- Cross targets have one name exactly when they have one label. -/
lemma systemName_eq_iff_of_cross (ht : t.cross = true) (hu : u.cross = true) :
    t.systemName = u.systemName ↔ t.libcLabel = u.libcLabel := by
  simp [systemName, libcLabel, effectiveCpu, ht, hu, ← String.toList_inj]

lemma systemName_ne_of_cross (ht : t.cross = true) (hu : u.cross = false) :
    t.systemName ≠ u.systemName := by
  simp [systemName, hostSystemName, ht, hu, ← String.toList_inj]

lemma toolPath_eq_iff (ha : a ∈ toolNames) (hb : b ∈ toolNames) :
    t.toolPath a = u.toolPath b ↔ t.systemName = u.systemName ∧ a = b := by
  have ha' := hyphen_not_mem_toolNames a ha
  have hb' := hyphen_not_mem_toolNames b hb
  rw [← String.toList_inj, toolPath_toList, toolPath_toList, List.append_cancel_left_eq]
  cases ht : t.cross <;> cases hu : u.cross
  · simp [systemName, ht, hu, String.toList_inj]
  · refine iff_of_false (fun h => ?_) fun h => systemName_ne_of_cross hu ht h.1.symm
    have hpath : a.toList = u.libcLabel.toList ++ '-' :: b.toList := by simpa using h
    simp [hpath] at ha'
  · refine iff_of_false (fun h => ?_) fun h => systemName_ne_of_cross ht hu h.1
    have hpath : t.libcLabel.toList ++ '-' :: a.toList = b.toList := by simpa using h
    simp [← hpath] at hb'
  · simp [append_hyphen_inj ha' hb', systemName_eq_iff_of_cross ht hu, String.toList_inj]

end Target

lemma Toolchain.toolPaths_of_build {t : Target} {toolchain : Toolchain}
    (h : build t = .ok toolchain) :
    toolchain.toolPaths = Target.toolNames.map fun tool => ⟨some tool, some (t.toolPath tool)⟩ := by
  obtain ⟨base, hbase⟩ := Baseline.toolchain_ok
  rw [build_eq hbase] at h
  cases h
  simp [specialize, Baseline.toolPaths_eq_nil hbase]

namespace Release
open Target

variable {labels : Labels} {ts : List Target} {r : Release}

lemma toolPaths_getElem_of_build (h : build labels ts = .ok r) {i : Nat} (hi : i < ts.length)
    (hi' : i < r.toolchains.length) : r.toolchains[i].toolPaths =
      toolNames.map fun tool => ⟨some tool, some (ts[i].toolPath tool)⟩ := by
  obtain ⟨-, -, -, hbuilt⟩ := fields_of_build h
  exact Toolchain.toolPaths_of_build (hbuilt.get hi hi')

lemma length_toolchains_of_build (h : build labels ts = .ok r) :
    r.toolchains.length = ts.length :=
  (fields_of_build h).2.2.2.length_eq.symm

lemma systemName_getElem_inj_of_build (h : build labels ts = .ok r) {i j : Nat}
    (hi : i < ts.length) (hj : j < ts.length) :
    ts[i].systemName = ts[j].systemName ↔ i = j := by
  have hi' : i < (ts.map systemName).length := by simpa using hi
  have hj' : j < (ts.map systemName).length := by simpa using hj
  have hinj : (ts.map systemName)[i] = (ts.map systemName)[j] ↔ i = j :=
    (names_of_build h).getElem_inj_iff
  rwa [List.getElem_map, List.getElem_map] at hinj

/-- Two tools of a release are found at one path only if they belong to the same toolchain and have
the same name; a tool that a toolchain lists twice is found at one path. -/
theorem path_eq_iff (h : build labels ts = .ok r) {i j : Nat} (hi : i < r.toolchains.length)
    (hj : j < r.toolchains.length) {e f : ToolPath} (he : e ∈ r.toolchains[i].toolPaths)
    (hf : f ∈ r.toolchains[j].toolPaths) : e.path = f.path ↔ i = j ∧ e.name = f.name := by
  have hlength := length_toolchains_of_build h
  have hi' : i < ts.length := hlength ▸ hi
  have hj' : j < ts.length := hlength ▸ hj
  rw [toolPaths_getElem_of_build h hi' hi] at he
  rw [toolPaths_getElem_of_build h hj' hj] at hf
  obtain ⟨a, ha, rfl⟩ := List.mem_map.1 he
  obtain ⟨b, hb, rfl⟩ := List.mem_map.1 hf
  rw [Option.some_inj, Option.some_inj, toolPath_eq_iff ha hb,
    systemName_getElem_inj_of_build h hi' hj']

/-- The hyphens of two platforms may stand in either text of each; their linkers stay apart. -/
theorem path_eq_iff_of_hyphens :
    let ts : List Target := [⟨"a-b", "c/ar", true⟩, ⟨"a", "b-c ld", true⟩]
    ∃ r, build {} ts = .ok r ∧ ∃ (hi : 0 < r.toolchains.length) (hj : 1 < r.toolchains.length),
      ∃ e ∈ r.toolchains[0].toolPaths, ∃ f ∈ r.toolchains[1].toolPaths,
        e.name = some "ld" ∧ f.name = some "ld" ∧ e.path ≠ f.path := by
  intro ts
  have hbuilt : ∃ r, build {} ts = .ok r := exists_build_iff.2 (by decide)
  obtain ⟨r, h⟩ := hbuilt
  have hlength : r.toolchains.length = 2 := length_toolchains_of_build h
  have hi : 0 < r.toolchains.length := by omega
  have hj : 1 < r.toolchains.length := by omega
  have hmem {i : Nat} (hi : i < ts.length) (hi' : i < r.toolchains.length) :
      ⟨some "ld", some (ts[i].toolPath "ld")⟩ ∈ r.toolchains[i].toolPaths := by
    rw [toolPaths_getElem_of_build h hi hi']
    exact List.mem_map.2 ⟨"ld", by decide, rfl⟩
  have he := hmem (i := 0) (by decide) hi
  have hf := hmem (i := 1) (by decide) hj
  refine ⟨r, h, hi, hj, _, he, _, hf, rfl, rfl, fun hpath => ?_⟩
  obtain ⟨hij, -⟩ := (path_eq_iff h hi hj he hf).1 hpath
  cases hij

end Release

end ToolchainRelease
