import ToolchainRelease.Proofs.FailedMerge

/-! Tools looked up by name in a toolchain that texts are merged into. Whether a merge succeeds or
fails, it only adds tools after those that are there, so the first tool of a name stays the
first. -/
namespace ToolchainRelease
open Text

namespace Text

/-- However a reading ends, it has added the entries of the whole fields before its end or before
the field at fault. -/
lemma Reader.run_start_whole {Kind : Type} {S : Schema Kind} {k : Kind}
    (base : List Entry) (ts : List Placed) (ending : Ending) :
    let reading := (Reader.start k base).run S ts ending
    ∃ before rest es, ts = before ++ rest ∧ Derives S k (before.map Placed.token) es ∧
      reading.entries = base ++ es ∧
      match reading.fault with
      | none => rest = []
      | some _ => BeginsAt ((Reader.start k base).itemStart S .start ts ending) rest ending := by
  intro reading
  cases hrun : (Reader.start k base).run S ts ending with
  | mk out fault =>
    have hreading : reading = ⟨out, fault⟩ := hrun
    rw [hreading]
    cases fault with
    | none =>
      obtain ⟨p, es, -, body, -, hout⟩ := Reader.run_start_iff.1 hrun
      exact ⟨ts, [], es, (List.append_nil ts).symm, body, hout, rfl⟩
    | some f =>
      rcases Reader.run_before_itemStart .start hrun with ⟨hwhole, -⟩ |
        ⟨before, rest, htokens, hbegins, hbefore⟩
      · cases hwhole
      · obtain ⟨p, es, -, body, -, hout⟩ := Reader.run_start_iff.1 (hbefore .start)
        exact ⟨before, rest, es, htokens, body, hout, hbegins⟩

variable {α : Type} [R : Record α]

/-- The whole fields that a merge reads have these entries. They are all fields of the text, or
those before the field at which the merge fails. -/
def ReadsWhole (text : String) (r : α) (es : List Entry) : Prop :=
  ∃ before rest, (scan text).tokens = before ++ rest ∧
    Derives R.schema R.kind (before.map Placed.token) es ∧
    match (merge text r).fault with
    | none => rest = []
    | some _ => BeginsAt (failedAt text r) rest (scan text).ending

lemma exists_readsWhole (text : String) (r : α) :
    ∃ es, ReadsWhole text r es ∧ (merge text r).record = R.ofEntries (R.entries r ++ es) := by
  obtain ⟨before, rest, es, htokens, body, hentries, hrest⟩ :=
    Reader.run_start_whole (S := R.schema) (k := R.kind) (R.entries r) (scan text).tokens
      (scan text).ending
  refine ⟨es, ⟨before, rest, htokens, body, hrest⟩, ?_⟩
  exact congrArg R.ofEntries hentries

end Text

namespace Toolchain

def toolPathsIn (es : List Entry) : List ToolPath :=
  (es.filterMap (Entry.record? "tool_path")).map ToolPath.ofEntries

lemma toolPathsIn_append (as bs : List Entry) :
    toolPathsIn (as ++ bs) = toolPathsIn as ++ toolPathsIn bs := by
  simp [toolPathsIn]

lemma toolPaths_ofEntries (es : List Entry) : (ofEntries es).toolPaths = toolPathsIn es := rfl

/-- A merge adds the tools that it reads after those of the toolchain. -/
lemma exists_toolPaths_merge (t : Toolchain) (text : String) :
    ∃ es, ReadsWhole text t es ∧
      (merge text t).record.toolPaths = t.toolPaths ++ toolPathsIn es := by
  obtain ⟨es, hreads, hrecord⟩ := exists_readsWhole text t
  have hown : toolPathsIn t.entries = t.toolPaths := by
    rw [← toolPaths_ofEntries, faithful.restores]
  have hmerged : (merge text t).record = ofEntries (t.entries ++ es) := hrecord
  refine ⟨es, hreads, ?_⟩
  rw [hmerged, toolPaths_ofEntries, toolPathsIn_append, hown]

/-- Merges texts one after the other, and goes on after a merge that fails. -/
def mergeAll (t : Toolchain) (texts : List String) : Toolchain :=
  texts.foldl (fun t text => (merge text t).record) t

lemma mergeAll_cons (t : Toolchain) (text : String) (texts : List String) :
    t.mergeAll (text :: texts) = (merge text t).record.mergeAll texts := rfl

lemma mergeAll_append (t : Toolchain) (texts more : List String) :
    t.mergeAll (texts ++ more) = (t.mergeAll texts).mergeAll more :=
  List.foldl_append

/-- The tools of the whole fields that are read when the texts are merged, in the order in which
they are read. -/
inductive ReadsTools : Toolchain → List String → List ToolPath → Prop
  | nil {t : Toolchain} : ReadsTools t [] []
  | cons {t : Toolchain} {text : String} {texts : List String} {es : List Entry}
      {tools : List ToolPath} (first : ReadsWhole text t es)
      (rest : ReadsTools (merge text t).record texts tools) :
      ReadsTools t (text :: texts) (toolPathsIn es ++ tools)

lemma exists_toolPaths_mergeAll (t : Toolchain) (texts : List String) :
    ∃ tools, ReadsTools t texts tools ∧ (t.mergeAll texts).toolPaths = t.toolPaths ++ tools := by
  induction texts generalizing t with
  | nil => exact ⟨[], .nil, (List.append_nil t.toolPaths).symm⟩
  | cons text texts ih =>
    obtain ⟨es, hfirst, hmerge⟩ := t.exists_toolPaths_merge text
    obtain ⟨tools, hrest, hall⟩ := ih (merge text t).record
    refine ⟨toolPathsIn es ++ tools, .cons hfirst hrest, ?_⟩
    rw [mergeAll_cons, hall, hmerge, List.append_assoc]

variable {t : Toolchain} {name path : String}

lemma tool_eq_some_iff : t.tool name = some path ↔
    ∃ before p after, t.toolPaths = before ++ p :: after ∧ p.name = some name ∧
      p.path = some path ∧ ∀ q ∈ before, q.name ≠ some name := by
  simp only [tool, Option.bind_eq_some_iff, List.find?_eq_some_iff_append]
  constructor
  · rintro ⟨p, ⟨hname, before, after, hsplit, hfirst⟩, hpath⟩
    exact ⟨before, p, after, hsplit, by simpa using hname, hpath, by simpa using hfirst⟩
  · rintro ⟨before, p, after, hsplit, hname, hpath, hfirst⟩
    exact ⟨p, ⟨by simpa using hname, before, after, hsplit, by simpa using hfirst⟩, hpath⟩

lemma tool_of_append {t' : Toolchain} {more : List ToolPath}
    (hmore : t'.toolPaths = t.toolPaths ++ more) (named : ∃ p ∈ t.toolPaths, p.name = some name) :
    t'.tool name = t.tool name := by
  obtain ⟨p, hp, hname⟩ := named
  have hfound : (t.toolPaths.find? fun p => p.name = some name).isSome = true := by
    rw [List.find?_isSome]
    exact ⟨p, hp, by simpa using hname⟩
  obtain ⟨first, hfirst⟩ := Option.isSome_iff_exists.1 hfound
  simp only [tool, hmore, List.find?_append, hfirst, Option.some_or]

/-- Merging texts adds the tools of the whole fields that are read, in this order, after those of
the toolchain, also when merges fail. A name is found that the first tool of this name has a path
for, which is then the answer. Once there is a tool of a name, the answer for the name stays the
same whatever is merged, also if the tool has no path. -/
theorem tool_mergeAll (t : Toolchain) (texts : List String) :
    (∃ tools, ReadsTools t texts tools ∧ (t.mergeAll texts).toolPaths = t.toolPaths ++ tools ∧
      ∀ name path, (t.mergeAll texts).tool name = some path ↔
        ∃ before p after, t.toolPaths ++ tools = before ++ p :: after ∧ p.name = some name ∧
          p.path = some path ∧ ∀ q ∈ before, q.name ≠ some name) ∧
    ∀ name, (∃ p ∈ (t.mergeAll texts).toolPaths, p.name = some name) →
      ∀ more, (t.mergeAll (texts ++ more)).tool name = (t.mergeAll texts).tool name := by
  constructor
  · obtain ⟨tools, hreads, hall⟩ := t.exists_toolPaths_mergeAll texts
    refine ⟨tools, hreads, hall, fun name path => ?_⟩
    rw [tool_eq_some_iff, hall]
  · intro name named more
    obtain ⟨tools, -, hmore⟩ := (t.mergeAll texts).exists_toolPaths_mergeAll more
    rw [mergeAll_append]
    exact tool_of_append hmore named

/-- The first linker has no path, and the second text fails after it has given another one. -/
theorem tool_mergeAll_without_path :
    let first := "tool_path \x7b name: \"ld\" \x7d"
    let second := "tool_path \x7b name: \"ld\" path: \"/bin/ld\" \x7d tool_path \x7b name: @"
    (merge second (mergeAll {} [first])).fault = some ⟨⟨1, 60⟩, .unexpectedCharacter 64⟩ ∧
      (mergeAll {} [first]).tool "ld" = none ∧
      (mergeAll {} ([first] ++ [second, first])).tool "ld" = none := by
  intro first second
  have hfault : (merge second (mergeAll {} [first])).fault =
      some ⟨⟨1, 60⟩, .unexpectedCharacter 64⟩ := by decide +kernel
  have named : ∃ p ∈ (mergeAll {} [first]).toolPaths, p.name = some "ld" := by decide +kernel
  have hnone : (mergeAll {} [first]).tool "ld" = none := by decide +kernel
  obtain ⟨-, hstays⟩ := tool_mergeAll {} [first]
  exact ⟨hfault, hnone, (hstays "ld" named [second, first]).trans hnone⟩

end Toolchain

end ToolchainRelease
