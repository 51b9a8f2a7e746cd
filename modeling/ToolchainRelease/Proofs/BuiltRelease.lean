import Mathlib.Data.List.Nodup
import Mathlib.Data.List.Perm.Basic
import ToolchainRelease.Proofs.Build

/-! When a release can be built for targets, and what it holds then. Only two targets of one name
stand in the way, and the first that has the name of an earlier one is reported. -/
namespace ToolchainRelease

namespace Target

def NamesNew (seen : List String) (ts : List Target) : Prop :=
  (ts.map systemName).Nodup ∧ ∀ t ∈ ts, t.systemName ∉ seen

variable {seen : List String} {t : Target} {ts us : List Target}

lemma namesNew_nil : NamesNew seen [] := ⟨List.nodup_nil, by simp⟩

lemma namesNew_of_none_seen : NamesNew [] ts ↔ (ts.map systemName).Nodup := by
  simp [NamesNew]

lemma namesNew_cons :
    NamesNew seen (t :: ts) ↔ t.systemName ∉ seen ∧ NamesNew (t.systemName :: seen) ts := by
  unfold NamesNew
  rw [List.map_cons, List.nodup_cons, List.forall_mem_cons]
  simp only [List.mem_map, List.mem_cons, not_or, not_exists, not_and]
  constructor
  · rintro ⟨⟨hnew, hdistinct⟩, ht, hts⟩
    exact ⟨ht, hdistinct, fun u hu => ⟨hnew u hu, hts u hu⟩⟩
  · rintro ⟨ht, hdistinct, hts⟩
    exact ⟨⟨fun u hu => (hts u hu).1, hdistinct⟩, ht, fun u hu => (hts u hu).2⟩

/-- The name is that of the first target in the list whose name is not new. -/
def FirstRepeated (seen : List String) (ts : List Target) (name : String) : Prop :=
  ∃ before t after, ts = before ++ t :: after ∧ NamesNew seen before ∧
    (t.systemName ∈ seen ∨ t.systemName ∈ before.map systemName) ∧ name = t.systemName

variable {name : String}

lemma not_firstRepeated_nil : ¬FirstRepeated seen [] name := by
  rintro ⟨before, u, after, hts, -⟩
  simp at hts

lemma firstRepeated_of_seen (h : t.systemName ∈ seen) :
    FirstRepeated seen (t :: ts) name ↔ name = t.systemName := by
  constructor
  · rintro ⟨before, u, after, hts, hnew, -, rfl⟩
    cases before with
    | nil => rw [(List.cons.inj hts).1]
    | cons v before =>
      obtain ⟨rfl, -⟩ := List.cons.inj hts
      exact absurd h (namesNew_cons.1 hnew).1
  · rintro rfl
    exact ⟨[], t, ts, rfl, namesNew_nil, .inl h, rfl⟩

lemma firstRepeated_of_new (h : t.systemName ∉ seen) :
    FirstRepeated seen (t :: ts) name ↔ FirstRepeated (t.systemName :: seen) ts name := by
  constructor
  · rintro ⟨before, u, after, hts, hnew, hseen, rfl⟩
    cases before with
    | nil =>
      obtain ⟨rfl, rfl⟩ := List.cons.inj hts
      simp [h] at hseen
    | cons v before =>
      obtain ⟨rfl, rfl⟩ := List.cons.inj hts
      refine ⟨before, u, after, rfl, (namesNew_cons.1 hnew).2, ?_, rfl⟩
      rwa [List.map_cons, List.mem_cons, ← or_assoc, or_comm (b := _ = _), ← List.mem_cons]
        at hseen
  · rintro ⟨before, u, after, rfl, hnew, hseen, rfl⟩
    refine ⟨t :: before, u, after, rfl, namesNew_cons.2 ⟨h, hnew⟩, ?_, rfl⟩
    rwa [List.map_cons, List.mem_cons, ← or_assoc, or_comm (b := _ = _), ← List.mem_cons]

end Target

namespace Toolchain

lemma builtFor_map {base : Toolchain} (hbase : Baseline.toolchain = .ok base) (ts : List Target) :
    BuiltFor ts (ts.map base.specialize) :=
  List.forall₂_map_right_iff.2 (List.forall₂_same.2 fun t _ => build_eq hbase t)

lemma BuiltFor.eq_map {base : Toolchain} (hbase : Baseline.toolchain = .ok base)
    {ts : List Target} {toolchains : List Toolchain} (h : BuiltFor ts toolchains) :
    toolchains = ts.map base.specialize := by
  induction h with
  | nil => rfl
  | cons ht _ ih => rw [List.map_cons, ← ih, Except.ok.inj (ht.symm.trans (build_eq hbase _))]

end Toolchain

namespace Release
open Target

lemma buildAll_cons (seen : List String) (t : Target) (ts : List Target) :
    (t.systemName ∈ seen ∧
      buildAll seen (t :: ts) = .error (.duplicateToolchain t.systemName)) ∨
    ∃ toolchain, t.systemName ∉ seen ∧ Toolchain.build t = .ok toolchain ∧
      buildAll seen (t :: ts) = (buildAll (t.systemName :: seen) ts).map (toolchain :: ·) := by
  obtain ⟨toolchain, ht⟩ := Toolchain.build_ok t
  by_cases hseen : t.systemName ∈ seen
  · exact .inl ⟨hseen, by rw [buildAll, if_pos hseen]⟩
  · refine .inr ⟨toolchain, hseen, ht, ?_⟩
    rw [buildAll, if_neg hseen, ht]
    cases buildAll (t.systemName :: seen) ts <;> rfl

lemma buildAll_eq_ok_iff {seen : List String} {ts : List Target} {toolchains : List Toolchain} :
    buildAll seen ts = .ok toolchains ↔ NamesNew seen ts ∧ Toolchain.BuiltFor ts toolchains := by
  constructor
  · refine fun h => ⟨?_, builtFor_of_buildAll h⟩
    induction ts generalizing seen toolchains with
    | nil => exact namesNew_nil
    | cons t ts ih =>
      rcases buildAll_cons seen t ts with ⟨-, heq⟩ | ⟨toolchain, hseen, -, heq⟩
      · rw [heq] at h
        cases h
      · rw [heq] at h
        cases hrest : buildAll (t.systemName :: seen) ts with
        | error f =>
          rw [hrest] at h
          cases h
        | ok rest => exact namesNew_cons.2 ⟨hseen, ih hrest⟩
  · rintro ⟨hnew, hbuilt⟩
    induction hbuilt generalizing seen with
    | nil => rfl
    | @cons t toolchain ts toolchains ht _ ih =>
      obtain ⟨hseen, hrest⟩ := namesNew_cons.1 hnew
      rcases buildAll_cons seen t ts with ⟨hseen', -⟩ | ⟨toolchain', -, ht', heq⟩
      · exact absurd hseen' hseen
      · cases ht.symm.trans ht'
        rw [heq, ih hrest]
        rfl

/-- Building fails only for a name that is not new, and reports the first. -/
lemma buildAll_eq_error_iff {seen : List String} {ts : List Target} {f : Failure} :
    buildAll seen ts = .error f ↔
      ∃ name, FirstRepeated seen ts name ∧ f = .duplicateToolchain name := by
  induction ts generalizing seen with
  | nil =>
    refine iff_of_false (fun h => nomatch h) ?_
    rintro ⟨name, hname, -⟩
    exact not_firstRepeated_nil hname
  | cons t ts ih =>
    rcases buildAll_cons seen t ts with ⟨hseen, heq⟩ | ⟨toolchain, hseen, -, heq⟩
    · simp only [heq, firstRepeated_of_seen hseen, exists_eq_left, Except.error.injEq, eq_comm]
    · simp only [heq, firstRepeated_of_new hseen, ← ih]
      cases buildAll (t.systemName :: seen) ts <;> simp [Except.map]

variable {labels : Labels} {ts us : List Target} {r : Release} {f : Failure}

lemma exists_build_iff :
    (∃ r, build labels ts = .ok r) ↔ (ts.map systemName).Nodup := by
  obtain ⟨base, hbase⟩ := Baseline.toolchain_ok
  rw [← namesNew_of_none_seen]
  constructor
  · rintro ⟨r, h⟩
    unfold build at h
    cases hall : buildAll [] ts with
    | error f =>
      rw [hall] at h
      cases h
    | ok toolchains => exact (buildAll_eq_ok_iff.1 hall).1
  · intro hnew
    have hbuilt := Toolchain.builtFor_map hbase ts
    rw [build, buildAll_eq_ok_iff.2 ⟨hnew, hbuilt⟩]
    exact ⟨_, rfl⟩

lemma build_eq_error_iff : build labels ts = .error f ↔
    ∃ before t after, ts = before ++ t :: after ∧ (before.map systemName).Nodup ∧
      t.systemName ∈ before.map systemName ∧ f = .duplicateToolchain t.systemName := by
  have hall : build labels ts = .error f ↔ buildAll [] ts = .error f := by
    unfold build
    cases buildAll [] ts <;> simp [bind, Except.bind, pure, Except.pure]
  rw [hall, buildAll_eq_error_iff]
  constructor
  · rintro ⟨_, ⟨before, t, after, hts, hnew, hseen, rfl⟩, rfl⟩
    exact ⟨before, t, after, hts, namesNew_of_none_seen.1 hnew, by simpa using hseen, rfl⟩
  · rintro ⟨before, t, after, hts, hnew, hseen, rfl⟩
    exact ⟨_, ⟨before, t, after, hts, namesNew_of_none_seen.2 hnew, .inr hseen, rfl⟩, rfl⟩

lemma names_of_build (h : build labels ts = .ok r) : (ts.map systemName).Nodup :=
  exists_build_iff.1 ⟨r, h⟩

lemma toolchains_of_build {base : Toolchain} (hbase : Baseline.toolchain = .ok base)
    (h : build labels ts = .ok r) : r.toolchains = ts.map base.specialize :=
  (fields_of_build h).2.2.2.eq_map hbase

/-- Targets in another order are built to the same toolchains, each with its target. -/
lemma build_perm (hperm : ts.Perm us) (h : build labels ts = .ok r) :
    ∃ r', build labels us = .ok r' ∧ (ts.zip r.toolchains).Perm (us.zip r'.toolchains) := by
  obtain ⟨base, hbase⟩ := Baseline.toolchain_ok
  have hnames : (us.map systemName).Nodup :=
    (hperm.map systemName).nodup_iff.1 (names_of_build h)
  obtain ⟨r', h'⟩ := exists_build_iff.2 hnames
  refine ⟨r', h', ?_⟩
  rw [toolchains_of_build hbase h, toolchains_of_build hbase h', ← List.map_prod_left_eq_zip,
    ← List.map_prod_left_eq_zip]
  exact hperm.map _

lemma length_hosts_of_build (h : build labels ts = .ok r) :
    (ts.filter fun t => !t.cross).length ≤ 1 := by
  have hhost : ∀ name ∈ (ts.filter fun t => !t.cross).map systemName, name = hostSystemName := by
    intro name hname
    obtain ⟨t, ht, rfl⟩ := List.mem_map.1 hname
    have hcross : t.cross = false := by simpa using (List.mem_filter.1 ht).2
    rw [systemName, hcross, if_neg Bool.false_ne_true]
  have hdistinct : ((ts.filter fun t => !t.cross).map systemName).Nodup :=
    (names_of_build h).sublist (List.filter_sublist.map systemName)
  rw [List.eq_replicate_of_mem hhost, List.nodup_replicate, List.length_map] at hdistinct
  exact hdistinct

/-- A release can be built exactly for targets whose names are distinct. It then carries the
labels, leaves the default processor unset and holds for each target, in its place, the toolchain
that is built for that target alone; their identifiers are distinct. Otherwise the first target is
reported that has the name of an earlier one. So the order of the targets decides nothing but that
of the toolchains, and at most one target is not a cross target. -/
theorem build_exact (labels : Labels) (ts : List Target) :
    ((∃ r, build labels ts = .ok r) ↔ (ts.map systemName).Nodup) ∧
    (∀ r, build labels ts = .ok r →
      r.majorVersion = some labels.majorVersion ∧ r.minorVersion = some labels.minorVersion ∧
      r.defaultTargetCpu = none ∧ r.toolchains.length = ts.length ∧
      (∀ i (hi : i < ts.length) (hi' : i < r.toolchains.length),
        Toolchain.build ts[i] = .ok r.toolchains[i]) ∧
      r.toolchains.map Toolchain.identifier = (ts.map systemName).map some ∧
      (r.toolchains.map Toolchain.identifier).Nodup ∧
      (ts.filter fun t => !t.cross).length ≤ 1) ∧
    (∀ f, build labels ts = .error f ↔
      ∃ before t after, ts = before ++ t :: after ∧ (before.map systemName).Nodup ∧
        t.systemName ∈ before.map systemName ∧ f = .duplicateToolchain t.systemName) ∧
    ∀ us r, ts.Perm us → build labels ts = .ok r →
      ∃ r', build labels us = .ok r' ∧ (ts.zip r.toolchains).Perm (us.zip r'.toolchains) := by
  refine ⟨exists_build_iff, fun r h => ?_, fun f => build_eq_error_iff, fun us r => build_perm⟩
  obtain ⟨hmajor, hminor, hcpu, hbuilt⟩ := fields_of_build h
  refine ⟨hmajor, hminor, hcpu, hbuilt.length_eq.symm, fun i hi hi' => hbuilt.get hi hi',
    hbuilt.identifiers, ?_, length_hosts_of_build h⟩
  rw [hbuilt.identifiers]
  exact (names_of_build h).map fun _ _ => Option.some.inj

/-- Two platforms can be built in either order, and their toolchains are exchanged. -/
theorem build_exact_in_either_order :
    let host : Target := ⟨"x86", "local", false⟩
    let arm : Target := ⟨"arm", "linux", true⟩
    ∃ r r', build {} [host, arm] = .ok r ∧ build {} [arm, host] = .ok r' ∧
      r.toolchains.length = 2 ∧ r'.toolchains.Perm r.toolchains := by
  intro host arm
  obtain ⟨hok, hfields, -, hperm⟩ := build_exact {} [host, arm]
  obtain ⟨r, h⟩ := hok.2 (by decide)
  obtain ⟨-, -, -, hlength, -⟩ := hfields r h
  obtain ⟨r', h', hpairs⟩ := hperm [arm, host] r (.swap arm host []) h
  obtain ⟨-, hfields', -⟩ := build_exact {} [arm, host]
  obtain ⟨-, -, -, hlength', -⟩ := hfields' r' h'
  have htoolchains := hpairs.map Prod.snd
  rw [List.map_snd_zip (Nat.le_of_eq hlength), List.map_snd_zip (Nat.le_of_eq hlength')]
    at htoolchains
  exact ⟨r, r', h, h', hlength, htoolchains.symm⟩

end Release

end ToolchainRelease
