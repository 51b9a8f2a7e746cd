import ToolchainRelease.Proofs.Text.Slots
import ToolchainRelease.Records

/-! The records of a toolchain release keep to their schema: each is restored from its entries,
and what is made of fitting entries is listed in the order of the fields. -/
namespace ToolchainRelease
open Text RecordKind

lemma CompilationMode.name_mem (m : CompilationMode) : m.name ∈ choices.names := by
  cases m <;> decide

lemma CompilationMode.ofName?_of_mem :
    ∀ w ∈ choices.names, ∃ m, ofName? w = some m ∧ m.name = w :=
  List.forall_mem_map.2 fun m _ => ⟨m, ofName?_name m, rfl⟩

lemma LinkingMode.name_mem (m : LinkingMode) : m.name ∈ choices.names := by
  cases m <;> decide

lemma LinkingMode.ofName?_of_mem :
    ∀ w ∈ choices.names, ∃ m, ofName? w = some m ∧ m.name = w :=
  List.forall_mem_map.2 fun m _ => ⟨m, ofName?_name m, rfl⟩

lemma RecordKind.nameable (k : RecordKind) : ∀ f ∈ fields k, isFieldName f.name = true := by
  cases k <;> decide +kernel

namespace ToolPath

lemma layout : Layout schema toolPath slots {} where
  fields := rfl
  distinct := by decide
  nameable s hs := nameable toolPath s.field (List.mem_map_of_mem hs)
  apart es := List.map_inj_left.1 rfl

lemma lawful (r : ToolPath) (es : List Entry) : ∀ s ∈ slots, s.Lawful schema toolPath r es := by
  simp only [slots, List.forall_mem_cons]
  and_intros
  · exact .text fun _ _ => rfl
  · exact .text fun _ _ => rfl
  · simp

theorem faithful : Faithful schema toolPath entries ofEntries := by
  refine layout.faithful lawful fun r => ?_
  simp only [slots, List.foldl_cons, List.foldl_nil, Slot.text_restore]

end ToolPath

namespace CompilationModeFlags

lemma layout : Layout schema compilationModeFlags slots {} where
  fields := rfl
  distinct := by decide
  nameable s hs := nameable compilationModeFlags s.field (List.mem_map_of_mem hs)
  apart es := List.map_inj_left.1 rfl

lemma lawful (r : CompilationModeFlags) (es : List Entry) :
    ∀ s ∈ slots, s.Lawful schema compilationModeFlags r es := by
  simp only [slots, List.forall_mem_cons]
  and_intros
  · exact .choice (fun _ _ => rfl) CompilationMode.name_mem CompilationMode.ofName?_of_mem
  · exact .texts fun _ _ => rfl
  · exact .texts fun _ _ => rfl
  · exact .texts fun _ _ => rfl
  · simp

theorem faithful : Faithful schema compilationModeFlags entries ofEntries := by
  refine layout.faithful lawful fun r => ?_
  simp only [slots, List.foldl_cons, List.foldl_nil, Slot.texts_restore,
    Slot.choice_restore CompilationMode.ofName?_name]

end CompilationModeFlags

namespace LinkingModeFlags

lemma layout : Layout schema linkingModeFlags slots {} where
  fields := rfl
  distinct := by decide
  nameable s hs := nameable linkingModeFlags s.field (List.mem_map_of_mem hs)
  apart es := List.map_inj_left.1 rfl

lemma lawful (r : LinkingModeFlags) (es : List Entry) :
    ∀ s ∈ slots, s.Lawful schema linkingModeFlags r es := by
  simp only [slots, List.forall_mem_cons]
  and_intros
  · exact .choice (fun _ _ => rfl) LinkingMode.name_mem LinkingMode.ofName?_of_mem
  · exact .texts fun _ _ => rfl
  · simp

theorem faithful : Faithful schema linkingModeFlags entries ofEntries := by
  refine layout.faithful lawful fun r => ?_
  simp only [slots, List.foldl_cons, List.foldl_nil, Slot.texts_restore,
    Slot.choice_restore LinkingMode.ofName?_name]

end LinkingModeFlags

namespace Toolchain

lemma layout : Layout schema toolchain slots {} where
  fields := rfl
  distinct := by decide
  nameable s hs := nameable toolchain s.field (List.mem_map_of_mem hs)
  apart es := List.map_inj_left.1 rfl

lemma lawful (r : Toolchain) (es : List Entry) : ∀ s ∈ slots, s.Lawful schema toolchain r es := by
  simp only [slots, List.forall_mem_cons]
  and_intros
  all_goals first
    | exact .text fun _ _ => rfl
    | exact .texts fun _ _ => rfl
    | exact .flag fun _ _ => rfl
    | exact ToolPath.faithful.lawful fun _ _ => rfl
    | exact CompilationModeFlags.faithful.lawful fun _ _ => rfl
    | exact LinkingModeFlags.faithful.lawful fun _ _ => rfl
    | simp

theorem faithful : Faithful schema toolchain entries ofEntries := by
  refine layout.faithful lawful fun r => ?_
  simp only [slots, List.foldl_cons, List.foldl_nil, Slot.text_restore, Slot.texts_restore,
    Slot.flag_restore, Slot.records_restore fun v _ => ToolPath.faithful.restores v,
    Slot.records_restore fun v _ => CompilationModeFlags.faithful.restores v,
    Slot.records_restore fun v _ => LinkingModeFlags.faithful.restores v]

end Toolchain

namespace Release

lemma layout : Layout schema release slots {} where
  fields := rfl
  distinct := by decide
  nameable s hs := nameable release s.field (List.mem_map_of_mem hs)
  apart es := List.map_inj_left.1 rfl

lemma lawful (r : Release) (es : List Entry) : ∀ s ∈ slots, s.Lawful schema release r es := by
  simp only [slots, List.forall_mem_cons]
  and_intros
  · exact .text fun _ _ => rfl
  · exact .text fun _ _ => rfl
  · exact .text fun _ _ => rfl
  · exact Toolchain.faithful.lawful fun _ _ => rfl
  · simp

theorem faithful : Faithful schema release entries ofEntries := by
  refine layout.faithful lawful fun r => ?_
  simp only [slots, List.foldl_cons, List.foldl_nil, Slot.text_restore,
    Slot.records_restore fun v _ => Toolchain.faithful.restores v]

end Release

end ToolchainRelease
