import Mathlib.Algebra.Ring.Nat
import ToolchainRelease.Proofs.RoundTrip
import ToolchainRelease.Proofs.Text.PrintedLines

/-! The layout of a printed record: how many lines it has, and where the records in it stand. The
lines are counted by the values that are set, scalars and elements of repeated texts, and by the
records, both at every depth. -/
namespace ToolchainRelease
open Text

namespace Text

variable {Kind α : Type} {r : α} {name : String} {depth : Nat}

def Entry.block? : Entry → Option (String × List Entry)
  | .record n fields => some (n, fields)
  | _ => none

namespace Slot

lemma text_lines {get : α → Option String} {set : Option String → α → α} :
    (linesAll depth ((Slot.text name get set : Slot Kind α).entries r)).length =
      (get r).toList.length := by
  cases h : get r <;> simp [Slot.text, h, linesAll, Entry.lines]

lemma flag_lines {get : α → Option Bool} {set : Option Bool → α → α} :
    (linesAll depth ((Slot.flag name get set : Slot Kind α).entries r)).length =
      (get r).toList.length := by
  cases h : get r <;> simp [Slot.flag, h, linesAll, Entry.lines]

lemma choice_lines {β : Type} {choices : Choices} {toName : β → String}
    {ofName? : String → Option β} {get : α → Option β} {set : Option β → α → α} :
    (linesAll depth
      ((Slot.choice name choices toName ofName? get set : Slot Kind α).entries r)).length =
      (get r).toList.length := by
  cases h : get r <;> simp [Slot.choice, h, linesAll, Entry.lines]

lemma texts_lines {get : α → List String} {set : List String → α → α} :
    (linesAll depth ((Slot.texts name get set : Slot Kind α).entries r)).length =
      (get r).length := by
  simp [Slot.texts, linesAll_eq_flatMap, List.flatMap_map, Entry.lines]

lemma records_lines {β : Type} {k : Kind} {entries : β → List Entry}
    {ofEntries : List Entry → β} {get : α → List β} {set : List β → α → α}
    {values records : β → Nat}
    (h : ∀ v ∈ get r, ∀ depth, (linesAll depth (entries v)).length = values v + 2 * records v) :
    (linesAll depth
      ((Slot.records name k entries ofEntries get set : Slot Kind α).entries r)).length =
      ((get r).map values).sum + 2 * ((get r).map fun v => 1 + records v).sum := by
  simp only [Slot.records]
  generalize get r = vs at h ⊢
  induction vs with
  | nil => rfl
  | cons v vs ih =>
    obtain ⟨hv, hvs⟩ := List.forall_mem_cons.1 h
    have hrest := ih hvs
    simp only [List.map_cons, linesAll, Entry.lines, List.length_append, List.length_cons,
      List.length_nil, List.sum_cons, hv, hrest]
    omega

lemma records_blocks {β : Type} {k : Kind} {entries : β → List Entry}
    {ofEntries : List Entry → β} {get : α → List β} {set : List β → α → α} :
    ((Slot.records name k entries ofEntries get set : Slot Kind α).entries r).filterMap
      Entry.block? = (get r).map fun v => (name, entries v) := by
  simp [Slot.records, List.filterMap_map, Function.comp_def, Entry.block?]

lemma blocks_entriesOf (slots : List (Slot Kind α)) :
    (entriesOf slots r).filterMap Entry.block? =
      slots.flatMap fun s => (s.entries r).filterMap Entry.block? := by
  rw [entriesOf, List.filterMap_flatMap]

lemma length_lines_entriesOf (slots : List (Slot Kind α)) :
    (linesAll depth (entriesOf slots r)).length =
      (slots.map fun s => (linesAll depth (s.entries r)).length).sum := by
  simp only [linesAll_eq_flatMap, entriesOf, List.flatMap_assoc, List.length_flatMap]

end Slot

end Text

namespace ToolPath

def valueCount (r : ToolPath) : Nat := r.name.toList.length + r.path.toList.length

def recordCount (_ : ToolPath) : Nat := 0

lemma length_lines (r : ToolPath) (depth : Nat) :
    (linesAll depth (entries r)).length = r.valueCount + 2 * r.recordCount := by
  rw [entries, Slot.length_lines_entriesOf]
  simp only [slots, List.map_cons, List.map_nil, List.sum_cons, List.sum_nil, Slot.text_lines]
  rfl

end ToolPath

namespace CompilationModeFlags

def valueCount (r : CompilationModeFlags) : Nat :=
  r.mode.toList.length + r.compilerFlags.length + r.cxxFlags.length + r.linkerFlags.length

def recordCount (_ : CompilationModeFlags) : Nat := 0

lemma length_lines (r : CompilationModeFlags) (depth : Nat) :
    (linesAll depth (entries r)).length = r.valueCount + 2 * r.recordCount := by
  rw [entries, Slot.length_lines_entriesOf]
  simp only [slots, List.map_cons, List.map_nil, List.sum_cons, List.sum_nil, Slot.choice_lines,
    Slot.texts_lines, valueCount, recordCount]
  omega

end CompilationModeFlags

namespace LinkingModeFlags

def valueCount (r : LinkingModeFlags) : Nat := r.mode.toList.length + r.linkerFlags.length

def recordCount (_ : LinkingModeFlags) : Nat := 0

lemma length_lines (r : LinkingModeFlags) (depth : Nat) :
    (linesAll depth (entries r)).length = r.valueCount + 2 * r.recordCount := by
  rw [entries, Slot.length_lines_entriesOf]
  simp only [slots, List.map_cons, List.map_nil, List.sum_cons, List.sum_nil, Slot.choice_lines,
    Slot.texts_lines, valueCount]
  rfl

end LinkingModeFlags

namespace Toolchain

def valueCount (r : Toolchain) : Nat :=
  ([r.identifier, r.hostSystemName, r.targetSystemName, r.targetCpu, r.targetLibc, r.compiler,
      r.abiVersion, r.abiLibcVersion, r.builtinSysroot].flatMap Option.toList).length +
    ([r.supportsGoldLinker, r.supportsThinArchives, r.supportsStartEndLib,
      r.supportsInterfaceSharedObjects, r.supportsEmbeddedRuntimes, r.supportsIncrementalLinker,
      r.supportsFission, r.supportsNormalizingAr, r.supportsDsym,
      r.needsPic].flatMap Option.toList).length +
    [r.compilerFlags, r.cxxFlags, r.unfilteredCxxFlags, r.linkerFlags,
      r.dynamicLibraryLinkerFlags, r.testOnlyLinkerFlags, r.objcopyEmbedFlags, r.ldEmbedFlags,
      r.arFlags, r.cxxBuiltinIncludeDirectories].flatten.length +
    (r.toolPaths.map ToolPath.valueCount).sum +
    (r.compilationModeFlags.map CompilationModeFlags.valueCount).sum +
    (r.linkingModeFlags.map LinkingModeFlags.valueCount).sum

def recordCount (r : Toolchain) : Nat :=
  r.toolPaths.length + r.compilationModeFlags.length + r.linkingModeFlags.length

lemma length_lines (r : Toolchain) (depth : Nat) :
    (linesAll depth (entries r)).length = r.valueCount + 2 * r.recordCount := by
  rw [entries, Slot.length_lines_entriesOf]
  simp only [slots, List.map_cons, List.map_nil, List.sum_cons, List.sum_nil, Slot.text_lines,
    Slot.flag_lines, Slot.texts_lines,
    Slot.records_lines fun v _ => ToolPath.length_lines v,
    Slot.records_lines fun v _ => CompilationModeFlags.length_lines v,
    Slot.records_lines fun v _ => LinkingModeFlags.length_lines v]
  simp only [valueCount, recordCount, ToolPath.recordCount, CompilationModeFlags.recordCount,
    LinkingModeFlags.recordCount, List.flatMap_cons, List.flatMap_nil, List.flatten_cons,
    List.flatten_nil, List.length_append, List.length_nil, List.map_const',
    List.sum_replicate_nat]
  omega

end Toolchain

namespace Release

def valueCount (r : Release) : Nat :=
  ([r.majorVersion, r.minorVersion, r.defaultTargetCpu].flatMap Option.toList).length +
    (r.toolchains.map Toolchain.valueCount).sum

def recordCount (r : Release) : Nat := (r.toolchains.map fun c => 1 + c.recordCount).sum

lemma length_lines (r : Release) (depth : Nat) :
    (linesAll depth (entries r)).length = r.valueCount + 2 * r.recordCount := by
  rw [entries, Slot.length_lines_entriesOf]
  simp only [slots, List.map_cons, List.map_nil, List.sum_cons, List.sum_nil, Slot.text_lines,
    Slot.records_lines fun v _ => Toolchain.length_lines v]
  simp [valueCount, recordCount]
  omega

end Release

namespace Node

mutual

def valueCount : Node → Nat
  | ⟨label, flag, mode, tags, children⟩ =>
    label.toList.length + flag.toList.length + mode.toList.length + tags.length +
      valueCountAll children

def valueCountAll : List Node → Nat
  | [] => 0
  | n :: ns => n.valueCount + valueCountAll ns

end

mutual

def recordCount : Node → Nat
  | ⟨_, _, _, _, children⟩ => recordCountAll children

def recordCountAll : List Node → Nat
  | [] => 0
  | n :: ns => 1 + n.recordCount + recordCountAll ns

end

lemma valueCountAll_eq (ns : List Node) : valueCountAll ns = (ns.map valueCount).sum := by
  induction ns with
  | nil => rfl
  | cons n ns ih => rw [valueCountAll, ih, List.map_cons, List.sum_cons]

lemma recordCountAll_eq (ns : List Node) :
    recordCountAll ns = (ns.map fun n => 1 + n.recordCount).sum := by
  induction ns with
  | nil => rfl
  | cons n ns ih => rw [recordCountAll, ih, List.map_cons, List.sum_cons]

lemma length_lines (n : Node) (depth : Nat) :
    (linesAll depth n.entries).length = n.valueCount + 2 * n.recordCount := by
  induction n using of_children generalizing depth with
  | h n ih =>
    rw [entries_eq, Slot.length_lines_entriesOf]
    simp only [allSlots, slots, List.cons_append, List.nil_append, List.map_cons, List.map_nil,
      List.sum_cons, List.sum_nil, Slot.text_lines, Slot.flag_lines, Slot.choice_lines,
      Slot.texts_lines, Slot.records_lines ih]
    cases n with
    | mk label flag mode tags children =>
      simp only [valueCount, recordCount, valueCountAll_eq, recordCountAll_eq]
      omega

end Node

structure Nested where
  field : String
  type : RecordType
  record : type.Carrier

namespace Nested

def entries (n : Nested) : List Entry := n.type.record.entries n.record

/-- The printed lines of a nested record: its own lines, two spaces further right, in braces. -/
def lines (n : Nested) : List (List UInt8) :=
  (utf8 n.field ++ [32, 123]) ::
    ((linesOf (utf8 (print n.record))).map ([32, 32] ++ ·) ++ [[125]])

end Nested

namespace RecordType

def valueCount : (t : RecordType) → t.Carrier → Nat
  | toolPath => ToolPath.valueCount
  | compilationModeFlags => CompilationModeFlags.valueCount
  | linkingModeFlags => LinkingModeFlags.valueCount
  | toolchain => Toolchain.valueCount
  | release => Release.valueCount
  | node _ => Node.valueCount

def recordCount : (t : RecordType) → t.Carrier → Nat
  | toolPath => ToolPath.recordCount
  | compilationModeFlags => CompilationModeFlags.recordCount
  | linkingModeFlags => LinkingModeFlags.recordCount
  | toolchain => Toolchain.recordCount
  | release => Release.recordCount
  | node _ => Node.recordCount

def nested : (t : RecordType) → t.Carrier → List Nested
  | toolPath | compilationModeFlags | linkingModeFlags => fun _ => []
  | toolchain => fun (r : Toolchain) =>
    r.toolPaths.map (⟨"tool_path", toolPath, ·⟩) ++
      r.compilationModeFlags.map (⟨"compilation_mode_flags", compilationModeFlags, ·⟩) ++
      r.linkingModeFlags.map (⟨"linking_mode_flags", linkingModeFlags, ·⟩)
  | release => fun (r : Release) => r.toolchains.map (⟨"toolchain", toolchain, ·⟩)
  | node fullName => fun (r : Node) => r.children.map (⟨"child", node fullName, ·⟩)

variable (t : RecordType)

lemma length_lines (r : t.Carrier) (depth : Nat) :
    (linesAll depth (t.record.entries r)).length = t.valueCount r + 2 * t.recordCount r := by
  cases t with
  | toolPath => exact ToolPath.length_lines r depth
  | compilationModeFlags => exact CompilationModeFlags.length_lines r depth
  | linkingModeFlags => exact LinkingModeFlags.length_lines r depth
  | toolchain => exact Toolchain.length_lines r depth
  | release => exact Release.length_lines r depth
  | node fullName => exact Node.length_lines r depth

lemma blocks_entries (r : t.Carrier) :
    (t.record.entries r).filterMap Entry.block? =
      (t.nested r).map fun n => (n.field, n.entries) := by
  cases t with
  | toolPath =>
    refine (Slot.blocks_entriesOf ToolPath.slots).trans ?_
    simp [ToolPath.slots, Slot.text, Entry.block?, nested]
  | compilationModeFlags =>
    refine (Slot.blocks_entriesOf CompilationModeFlags.slots).trans ?_
    simp [CompilationModeFlags.slots, Slot.choice, Slot.texts, Entry.block?, nested]
  | linkingModeFlags =>
    refine (Slot.blocks_entriesOf LinkingModeFlags.slots).trans ?_
    simp [LinkingModeFlags.slots, Slot.choice, Slot.texts, Entry.block?, nested]
  | toolchain =>
    refine (Slot.blocks_entriesOf Toolchain.slots).trans ?_
    simp [Toolchain.slots, Slot.records_blocks, Slot.text, Slot.flag, Slot.texts, Entry.block?,
      nested, Function.comp_def]
    rfl
  | release =>
    refine (Slot.blocks_entriesOf Release.slots).trans ?_
    simp [Release.slots, Slot.records_blocks, Slot.text, Entry.block?, nested, Function.comp_def]
    exact fun _ _ => rfl
  | node fullName =>
    show (Node.entries r).filterMap Entry.block? = _
    rw [Node.entries_eq]
    refine (Slot.blocks_entriesOf Node.allSlots).trans ?_
    simp [Node.allSlots, Node.slots, Slot.records_blocks, Slot.text, Slot.flag, Slot.choice,
      Slot.texts, Entry.block?, nested, Function.comp_def]
    exact fun _ _ => rfl

/-- Lines of values and, in this order, the lines of these nested records. -/
inductive Laid {Kind : Type} (S : Schema Kind) (k : Kind) : List (List UInt8) → List Nested → Prop
  | nil : Laid S k [] []
  | value {line : List UInt8} {lines : List (List UInt8)} {ns : List Nested}
      (first : LineOf S [k] line [k]) (rest : Laid S k lines ns) : Laid S k (line :: lines) ns
  | block {n : Nested} {lines : List (List UInt8)} {ns : List Nested} (rest : Laid S k lines ns) :
      Laid S k (n.lines ++ lines) (n :: ns)

variable {t} in
lemma lines_print (r : t.Carrier) : linesOf (utf8 (print r)) = linesAll 0 (t.record.entries r) :=
  linesOf_render t.choicesSpelled (t.faithful.fits r).1

lemma lines_block (n : Nested) : (Entry.record n.field n.entries).lines 0 = n.lines := by
  have hinside : linesAll 1 n.entries = (linesAll 0 n.entries).map ([32, 32] ++ ·) :=
    linesAll_succ (n.type.faithful.fits n.record).1 0
  rw [Entry.lines, hinside, Nested.lines, lines_print]
  rfl

lemma laid_of_entries {Kind : Type} {S : Schema Kind} {k : Kind} {es : List Entry}
    (fits : ∀ e ∈ es, e.Fits S k) {ns : List Nested}
    (h : es.filterMap Entry.block? = ns.map fun n => (n.field, n.entries)) :
    Laid S k (linesAll 0 es) ns := by
  induction es generalizing ns with
  | nil =>
    obtain rfl := List.map_eq_nil_iff.1 h.symm
    exact .nil
  | cons e es ih =>
    obtain ⟨he, hes⟩ := List.forall_mem_cons.1 fits
    cases e with
    | record name fields =>
      have hblock : (Entry.record name fields).block? = some (name, fields) := rfl
      rw [List.filterMap_cons_some hblock] at h
      obtain ⟨n, ns, rfl, hn, hns⟩ := List.map_eq_cons_iff.1 h.symm
      obtain ⟨rfl, rfl⟩ := Prod.mk.inj hn
      rw [linesAll, lines_block]
      exact .block (ih hes hns.symm)
    | text name v | flag name v | choice name v =>
      cases Entry.readsLines he [] with
      | cons first rest =>
        cases rest
        exact .value first (ih hes h)

lemma print_laid (r : t.Carrier) :
    Laid t.record.schema t.record.kind (linesOf (utf8 (print r))) (t.nested r) := by
  rw [lines_print]
  exact laid_of_entries (t.faithful.fits r).1 (t.blocks_entries r)

/-- A record inside another one, and how many records there are between the two. -/
inductive Inside : (t : RecordType) → t.Carrier → Nat → Nested → Prop
  | direct {t : RecordType} {r : t.Carrier} {n : Nested} (mem : n ∈ t.nested r) : Inside t r 0 n
  | deeper {t : RecordType} {r : t.Carrier} {m n : Nested} {depth : Nat} (mem : m ∈ t.nested r)
      (inside : Inside m.type m.record depth n) : Inside t r (depth + 1) n

lemma Laid.has_lines {Kind : Type} {S : Schema Kind} {k : Kind} {lines : List (List UInt8)}
    {ns : List Nested} (h : Laid S k lines ns) {n : Nested} (hn : n ∈ ns) : n.lines <:+: lines := by
  induction h with
  | nil => cases hn
  | value _ _ ih => exact (ih hn).trans (List.suffix_cons _ _).isInfix
  | block _ ih =>
    rcases List.mem_cons.1 hn with rfl | hn
    · exact (List.prefix_append _ _).isInfix
    · exact (ih hn).trans (List.suffix_append _ _).isInfix

/-- A nested record has its lines in the printed record, further right by two spaces for each record
around it. -/
theorem Inside.has_lines {t : RecordType} {r : t.Carrier} {depth : Nat} {n : Nested}
    (h : Inside t r depth n) : n.lines.map (indented depth) <:+: linesOf (utf8 (print r)) := by
  induction h with
  | direct mem =>
    rw [indented_zero, List.map_id]
    exact (print_laid _ _).has_lines mem
  | @deeper t r m n depth mem inside ih =>
    have hinner : n.lines.map (indented (depth + 1)) <:+:
        (linesOf (utf8 (print m.record))).map ([32, 32] ++ ·) := by
      have hmap := ih.map ([32, 32] ++ ·)
      rw [List.map_map] at hmap
      simpa only [Function.comp_def, ← indented_succ] using hmap
    have hbraces : (linesOf (utf8 (print m.record))).map ([32, 32] ++ ·) <:+: m.lines :=
      (List.prefix_append _ _).isInfix.trans (List.suffix_cons _ _).isInfix
    exact (hinner.trans hbraces).trans ((print_laid t r).has_lines mem)

/-- The layout of a printed record. It has printable bytes and whole lines alone, and the lines
open and close the records as they are nested, the outermost always being open. There is one line
for each value that is set and two for each record inside. Between the braces of a record inside
stands what is printed of it by itself, two spaces further right, and again two for each record
around it. -/
theorem print_layout (r : t.Carrier) :
    let lines := linesOf (utf8 (print r))
    (∀ b ∈ utf8 (print r), b = 10 ∨ isPrintable b = true) ∧
      (utf8 (print r) = [] ∨ (utf8 (print r)).getLast? = some 10) ∧
      ReadsLines t.record.schema [t.record.kind] lines [t.record.kind] ∧
      lines.length = t.valueCount r + 2 * t.recordCount r ∧
      Laid t.record.schema t.record.kind lines (t.nested r) ∧
      ∀ depth n, Inside t r depth n → n.lines.map (indented depth) <:+: lines := by
  intro lines
  have fits := (t.faithful.fits r).1
  have hlines : lines = linesAll 0 (t.record.entries r) := lines_print r
  refine ⟨printable_render t.choicesSpelled fits, render_ends fits, ?_, ?_, print_laid t r,
    fun _ _ => Inside.has_lines⟩
  · rw [hlines]
    exact ReadsLines.all fun e he => Entry.readsLines (fits e he) []
  · rw [hlines]
    exact t.length_lines r 0

/-- A text cannot end its line, nor its literal. -/
example : linesOf (utf8 (print ({ majorVersion := some "1\"\n\x7d" } : Release))) =
    [utf8 "major_version: \"1\\\"\\n\x7d\""] := by decide +kernel

end RecordType

end ToolchainRelease
