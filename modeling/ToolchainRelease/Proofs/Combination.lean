import ToolchainRelease.Proofs.Acceptance

/-! Two records of one type in one. Merging a text into a record combines the record with the one
that the text describes by itself, unless a scalar is set in both. -/
namespace ToolchainRelease
open Text

namespace Text

namespace Slot

variable {Kind α β : Type} {a b x : α} {name : String}

def fill (s : Slot Kind α) (a b x : α) : α := s.store (s.entries a ++ s.entries b) x

lemma text_fill {get : α → Option String} {set : Option String → α → α} :
    (Slot.text name get set : Slot Kind α).fill a b x = set ((get a).or (get b)) x := by
  cases ha : get a <;> cases hb : get b <;> simp [fill, Slot.text, ha, hb, Entry.text?]

lemma flag_fill {get : α → Option Bool} {set : Option Bool → α → α} :
    (Slot.flag name get set : Slot Kind α).fill a b x = set ((get a).or (get b)) x := by
  cases ha : get a <;> cases hb : get b <;> simp [fill, Slot.flag, ha, hb, Entry.flag?]

lemma choice_fill {choices : Choices} {toName : β → String} {ofName? : String → Option β}
    {get : α → Option β} {set : Option β → α → α} (h : ∀ v, ofName? (toName v) = some v) :
    (Slot.choice name choices toName ofName? get set : Slot Kind α).fill a b x =
      set ((get a).or (get b)) x := by
  cases ha : get a <;> cases hb : get b <;> simp [fill, Slot.choice, ha, hb, Entry.choice?, h]

lemma texts_fill {get : α → List String} {set : List String → α → α} :
    (Slot.texts name get set : Slot Kind α).fill a b x = set (get a ++ get b) x := by
  simp [fill, Slot.texts, List.filterMap_map, Function.comp_def, Entry.text?]

lemma records_fill {k : Kind} {entries : β → List Entry} {ofEntries : List Entry → β}
    {get : α → List β} {set : List β → α → α} (h : ∀ v, ofEntries (entries v) = v) :
    (Slot.records name k entries ofEntries get set : Slot Kind α).fill a b x =
      set (get a ++ get b) x := by
  simp [fill, Slot.records, List.filterMap_map, Function.comp_def, Entry.record?, h]

end Slot

lemma Layout.ofEntries_append {Kind α : Type} {S : Schema Kind} {k : Kind}
    {slots : List (Slot Kind α)} {empty a b : α} (L : Layout S k slots empty)
    (ha : ∀ s ∈ slots, s.Lawful S k a []) (hb : ∀ s ∈ slots, s.Lawful S k b []) :
    Slot.ofEntries slots empty (Slot.entriesOf slots a ++ Slot.entriesOf slots b) =
      slots.foldl (fun x s => s.fill a b x) empty := by
  refine List.foldl_ext _ _ empty fun x s hs => ?_
  have hown (r : α) (h : ∀ s ∈ slots, s.Lawful S k r []) :
      entriesNamed s.field.name (Slot.entriesOf slots r) = s.entries r :=
    entriesNamed_entriesOf L.distinct (fun s hs => (h s hs).entries_name) hs
  rw [← (ha s hs).store_named, entriesNamed_append, hown a ha, hown b hb]
  rfl

/-- Two records have no scalar in common when no slot of a scalar is filled in both. -/
lemma Layout.apart_iff {Kind α : Type} {S : Schema Kind} {k : Kind} {slots : List (Slot Kind α)}
    {empty a b : α} (L : Layout S k slots empty) (ha : ∀ s ∈ slots, s.Lawful S k a [])
    (hb : ∀ s ∈ slots, s.Lawful S k b []) :
    S.Apart k (Slot.entriesOf slots a) (Slot.entriesOf slots b) ↔
      ∀ s ∈ slots, s.field.shape.isScalar = true → s.entries a = [] ∨ s.entries b = [] := by
  have hown {r : α} (h : ∀ s ∈ slots, s.Lawful S k r []) {s : Slot Kind α} (hs : s ∈ slots) :
      hasField s.field.name (Slot.entriesOf slots r) = false ↔ s.entries r = [] := by
    rw [hasField_eq_false_iff,
      entriesNamed_entriesOf L.distinct (fun s hs => (h s hs).entries_name) hs]
  constructor
  · intro h s hs hscalar
    have hname := h s.field.name ((L.names hs).isScalar_eq.trans hscalar)
    rwa [hown ha hs, hown hb hs] at hname
  · intro h n hn
    unfold Schema.isScalar at hn
    cases hf : S.field? k n with
    | none => simp [hf] at hn
    | some f =>
      have hscalar : f.shape.isScalar = true := by simpa [hf] using hn
      obtain rfl := Schema.name_of_field? hf
      have hmem := Schema.mem_of_field? hf
      rw [L.fields] at hmem
      obtain ⟨s, hs, rfl⟩ := List.mem_map.1 hmem
      rw [hown ha hs, hown hb hs]
      exact h s hs hscalar

end Text

namespace ToolPath

def combine (a b : ToolPath) : ToolPath where
  name := a.name.or b.name
  path := a.path.or b.path

lemma ofEntries_append (a b : ToolPath) : ofEntries (entries a ++ entries b) = a.combine b := by
  rw [ofEntries, entries, layout.ofEntries_append (lawful a []) (lawful b [])]
  simp only [slots, List.foldl_cons, List.foldl_nil, Slot.text_fill]
  rfl

end ToolPath

namespace CompilationModeFlags

def combine (a b : CompilationModeFlags) : CompilationModeFlags where
  mode := a.mode.or b.mode
  compilerFlags := a.compilerFlags ++ b.compilerFlags
  cxxFlags := a.cxxFlags ++ b.cxxFlags
  linkerFlags := a.linkerFlags ++ b.linkerFlags

lemma ofEntries_append (a b : CompilationModeFlags) :
    ofEntries (entries a ++ entries b) = a.combine b := by
  rw [ofEntries, entries, layout.ofEntries_append (lawful a []) (lawful b [])]
  simp only [slots, List.foldl_cons, List.foldl_nil, Slot.texts_fill,
    Slot.choice_fill CompilationMode.ofName?_name]
  rfl

end CompilationModeFlags

namespace LinkingModeFlags

def combine (a b : LinkingModeFlags) : LinkingModeFlags where
  mode := a.mode.or b.mode
  linkerFlags := a.linkerFlags ++ b.linkerFlags

lemma ofEntries_append (a b : LinkingModeFlags) :
    ofEntries (entries a ++ entries b) = a.combine b := by
  rw [ofEntries, entries, layout.ofEntries_append (lawful a []) (lawful b [])]
  simp only [slots, List.foldl_cons, List.foldl_nil, Slot.texts_fill,
    Slot.choice_fill LinkingMode.ofName?_name]
  rfl

end LinkingModeFlags

namespace Toolchain

def combine (a b : Toolchain) : Toolchain where
  identifier := a.identifier.or b.identifier
  hostSystemName := a.hostSystemName.or b.hostSystemName
  targetSystemName := a.targetSystemName.or b.targetSystemName
  targetCpu := a.targetCpu.or b.targetCpu
  targetLibc := a.targetLibc.or b.targetLibc
  compiler := a.compiler.or b.compiler
  abiVersion := a.abiVersion.or b.abiVersion
  abiLibcVersion := a.abiLibcVersion.or b.abiLibcVersion
  toolPaths := a.toolPaths ++ b.toolPaths
  compilerFlags := a.compilerFlags ++ b.compilerFlags
  cxxFlags := a.cxxFlags ++ b.cxxFlags
  unfilteredCxxFlags := a.unfilteredCxxFlags ++ b.unfilteredCxxFlags
  linkerFlags := a.linkerFlags ++ b.linkerFlags
  dynamicLibraryLinkerFlags := a.dynamicLibraryLinkerFlags ++ b.dynamicLibraryLinkerFlags
  testOnlyLinkerFlags := a.testOnlyLinkerFlags ++ b.testOnlyLinkerFlags
  objcopyEmbedFlags := a.objcopyEmbedFlags ++ b.objcopyEmbedFlags
  ldEmbedFlags := a.ldEmbedFlags ++ b.ldEmbedFlags
  arFlags := a.arFlags ++ b.arFlags
  compilationModeFlags := a.compilationModeFlags ++ b.compilationModeFlags
  linkingModeFlags := a.linkingModeFlags ++ b.linkingModeFlags
  cxxBuiltinIncludeDirectories := a.cxxBuiltinIncludeDirectories ++ b.cxxBuiltinIncludeDirectories
  builtinSysroot := a.builtinSysroot.or b.builtinSysroot
  supportsGoldLinker := a.supportsGoldLinker.or b.supportsGoldLinker
  supportsThinArchives := a.supportsThinArchives.or b.supportsThinArchives
  supportsStartEndLib := a.supportsStartEndLib.or b.supportsStartEndLib
  supportsInterfaceSharedObjects :=
    a.supportsInterfaceSharedObjects.or b.supportsInterfaceSharedObjects
  supportsEmbeddedRuntimes := a.supportsEmbeddedRuntimes.or b.supportsEmbeddedRuntimes
  supportsIncrementalLinker := a.supportsIncrementalLinker.or b.supportsIncrementalLinker
  supportsFission := a.supportsFission.or b.supportsFission
  supportsNormalizingAr := a.supportsNormalizingAr.or b.supportsNormalizingAr
  supportsDsym := a.supportsDsym.or b.supportsDsym
  needsPic := a.needsPic.or b.needsPic

lemma ofEntries_append (a b : Toolchain) : ofEntries (entries a ++ entries b) = a.combine b := by
  rw [ofEntries, entries, layout.ofEntries_append (lawful a []) (lawful b [])]
  simp only [slots, List.foldl_cons, List.foldl_nil, Slot.text_fill, Slot.texts_fill,
    Slot.flag_fill, Slot.records_fill ToolPath.faithful.restores,
    Slot.records_fill CompilationModeFlags.faithful.restores,
    Slot.records_fill LinkingModeFlags.faithful.restores]
  rfl

end Toolchain

namespace Release

def combine (a b : Release) : Release where
  majorVersion := a.majorVersion.or b.majorVersion
  minorVersion := a.minorVersion.or b.minorVersion
  defaultTargetCpu := a.defaultTargetCpu.or b.defaultTargetCpu
  toolchains := a.toolchains ++ b.toolchains

lemma ofEntries_append (a b : Release) : ofEntries (entries a ++ entries b) = a.combine b := by
  rw [ofEntries, entries, layout.ofEntries_append (lawful a []) (lawful b [])]
  simp only [slots, List.foldl_cons, List.foldl_nil, Slot.text_fill,
    Slot.records_fill Toolchain.faithful.restores]
  rfl

lemma apart_iff (a b : Release) :
    RecordKind.schema.Apart .release (entries a) (entries b) ↔
      (a.majorVersion = none ∨ b.majorVersion = none) ∧
      (a.minorVersion = none ∨ b.minorVersion = none) ∧
      (a.defaultTargetCpu = none ∨ b.defaultTargetCpu = none) := by
  refine (layout.apart_iff (lawful a []) (lawful b [])).trans ?_
  simp [slots, Slot.text, Slot.records, Shape.isScalar]

end Release

namespace Node

def combine (a b : Node) : Node where
  label := a.label.or b.label
  flag := a.flag.or b.flag
  mode := a.mode.or b.mode
  tags := a.tags ++ b.tags
  children := a.children ++ b.children

lemma ofEntries_append (a b : Node) : ofEntries (a.entries ++ b.entries) = a.combine b := by
  have hlawful (n : Node) : ∀ s ∈ allSlots, s.Lawful (schema "") () n [] :=
    lawful (fun v _ => entries_fit "" v) fun _ h => nomatch h
  rw [entries_eq, entries_eq, ofEntries_eq, (layout "").ofEntries_append (hlawful a) (hlawful b)]
  simp only [allSlots, slots, List.cons_append, List.nil_append, List.foldl_cons, List.foldl_nil,
    Slot.text_fill, Slot.flag_fill, Slot.choice_fill LinkingMode.ofName?_name, Slot.texts_fill,
    Slot.records_fill ofEntries_entries]
  rfl

end Node

namespace RecordType

/-- Both records in one: a repeated field has the values of the first, then those of the second,
and a scalar has the value of the record that sets it. -/
def combine : (t : RecordType) → t.Carrier → t.Carrier → t.Carrier
  | toolPath => ToolPath.combine
  | compilationModeFlags => CompilationModeFlags.combine
  | linkingModeFlags => LinkingModeFlags.combine
  | toolchain => Toolchain.combine
  | release => Release.combine
  | node _ => Node.combine

variable (t : RecordType)

lemma ofEntries_append (a b : t.Carrier) :
    t.record.ofEntries (t.record.entries a ++ t.record.entries b) = t.combine a b := by
  cases t with
  | toolPath => exact ToolPath.ofEntries_append a b
  | compilationModeFlags => exact CompilationModeFlags.ofEntries_append a b
  | linkingModeFlags => exact LinkingModeFlags.ofEntries_append a b
  | toolchain => exact Toolchain.ofEntries_append a b
  | release => exact Release.ofEntries_append a b
  | node fullName => exact Node.ofEntries_append a b

def Apart (a b : t.Carrier) : Prop :=
  t.record.schema.Apart t.record.kind (t.record.entries a) (t.record.entries b)

variable {t}

lemma entries_combine {a b : t.Carrier} (h : t.Apart a b) :
    t.record.entries (t.combine a b) =
      arrange t.record.schema t.record.kind (t.record.entries a ++ t.record.entries b) := by
  rw [← t.ofEntries_append]
  exact t.faithful.arranges _ ((t.faithful.fits a).append (t.faithful.fits b) h)

lemma entriesNamed_combine {a b : t.Carrier} (h : t.Apart a b) (n : String) :
    entriesNamed n (t.record.entries (t.combine a b)) =
      entriesNamed n (t.record.entries a) ++ entriesNamed n (t.record.entries b) := by
  have fits := (t.faithful.fits a).append (t.faithful.fits b) h
  have hown (r : t.Carrier) : (entriesNamed n (t.record.entries r)).map
      (Entry.arrange t.record.schema t.record.kind) = entriesNamed n (t.record.entries r) := by
    rw [← entriesNamed_arrange_of_fits t.faithful.distinct (t.faithful.fits r).1,
      t.arrange_entries]
  rw [entries_combine h, entriesNamed_arrange_of_fits t.faithful.distinct fits.1,
    entriesNamed_append, List.map_append, hown, hown]

lemma apart_ofEntries_iff {s : t.Carrier} {es : List Entry}
    (fits : t.record.schema.Fits t.record.kind es) :
    t.Apart s (t.record.ofEntries es) ↔
      t.record.schema.Apart t.record.kind (t.record.entries s) es := by
  unfold Apart Schema.Apart
  rw [t.faithful.arranges es fits]
  simp only [hasField_arrange t.faithful.distinct fits.1]

lemma arrange_entries_append {s : t.Carrier} {es : List Entry}
    (fits : t.record.schema.Fits t.record.kind es) :
    arrange t.record.schema t.record.kind
        (t.record.entries s ++ t.record.entries (t.record.ofEntries es)) =
      arrange t.record.schema t.record.kind (t.record.entries s ++ es) := by
  rw [t.faithful.arranges es fits]
  exact t.faithful.arrange_append_right _ fits

lemma combine_ofEntries {s : t.Carrier} {es : List Entry}
    (fits : t.record.schema.Fits t.record.kind es)
    (apart : t.record.schema.Apart t.record.kind (t.record.entries s) es) :
    t.combine s (t.record.ofEntries es) = t.record.ofEntries (t.record.entries s ++ es) := by
  refine t.entries_injective ?_
  rw [entries_combine ((apart_ofEntries_iff fits).2 apart), arrange_entries_append fits,
    t.faithful.arranges _ ((t.faithful.fits s).append fits apart)]

lemma ofEntries_congr {as bs : List Entry} (fits : t.record.schema.Fits t.record.kind as)
    (h : ∀ n, entriesNamed n as = entriesNamed n bs) :
    t.record.ofEntries as = t.record.ofEntries bs := by
  refine t.entries_injective ?_
  rw [t.faithful.arranges as fits, t.faithful.arranges bs ((Schema.fits_congr h).1 fits)]
  exact arrange_congr fun n _ => by rw [h n]

lemma merge_alone {text : String} {p : Position} {es : List Entry}
    (hend : (scan text).ending = .finished p)
    (body : Derives t.record.schema t.record.kind ((scan text).tokens.map Placed.token) es) :
    merge text (t.record.ofEntries []) = ⟨t.record.ofEntries es, none⟩ := by
  refine t.merge_eq_iff.2 ⟨p, es, hend, body, ?_, ?_⟩
  · rw [t.entries_ofEntries_nil]
    exact Schema.apart_nil_left _ _
  · rw [t.entries_ofEntries_nil, List.nil_append]
    exact t.faithful.arranges es body.fits

/-- A merge combines a record with what the text leaves in an empty one, unless a scalar would
then be set a second time. -/
lemma merge_eq_iff_alone {text : String} {s m : t.Carrier} :
    merge text s = ⟨m, none⟩ ↔
      ∃ r, merge text (t.record.ofEntries []) = ⟨r, none⟩ ∧ t.Apart s r ∧ m = t.combine s r := by
  constructor
  · intro h
    obtain ⟨p, es, hend, body, apart, hm⟩ := t.merge_eq_iff.1 h
    have hapart := (apart_ofEntries_iff body.fits).2 apart
    refine ⟨_, merge_alone hend body, hapart, t.entries_injective ?_⟩
    rw [hm, entries_combine hapart, arrange_entries_append body.fits]
  · rintro ⟨r, hr, hapart, rfl⟩
    obtain ⟨p, es, hend, body, -, -⟩ := t.merge_eq_iff.1 hr
    cases hr.symm.trans (merge_alone hend body)
    have apart := (apart_ofEntries_iff body.fits).1 hapart
    refine t.merge_eq_iff.2 ⟨p, es, hend, body, apart, ?_⟩
    rw [entries_combine hapart, arrange_entries_append body.fits]

variable (t)

/-- Merging a text is parsing it and combining: it succeeds when the text parses by itself to a
record that sets no scalar which is set already, and leaves the combination of the two. -/
theorem merge_eq_ok_iff_combine (text : String) (s m : t.Carrier) :
    merge text s = ⟨m, none⟩ ↔
      ∃ r, parse t.Carrier text = .ok r ∧ t.Apart s r ∧ m = t.combine s r := by
  simp only [t.parse_eq_ok_iff_merge]
  exact merge_eq_iff_alone

end RecordType

end ToolchainRelease
