import ToolchainRelease.Proofs.Toml.DistinctKeys
import ToolchainRelease.Proofs.Validation

/-! What a targets file says. A table says it by its keys, in whatever order they stand and whatever
other keys there are, so a configuration is read from any document that writes it. -/
namespace ToolchainRelease
open Toml

namespace Toml

namespace Value

def text? : Value → Option String
  | text s => some s
  | _ => none

def boolean? : Value → Option Bool
  | boolean b => some b
  | _ => none

def fields? : Value → Option Fields
  | table _ fs => some fs
  | _ => none

def items? : Value → Option (List Value)
  | array items | tables items => some items
  | _ => none

variable {found : Option Value}

lemma text?_eq_some_iff {s : String} : found.bind text? = some s ↔ found = some (text s) := by
  rcases found with _ | v
  · simp
  · cases v <;> simp [text?]

lemma boolean?_eq_some_iff {b : Bool} :
    found.bind boolean? = some b ↔ found = some (boolean b) := by
  rcases found with _ | v
  · simp
  · cases v <;> simp [boolean?]

lemma fields?_eq_some_iff {fs : Fields} :
    found.bind fields? = some fs ↔ ∃ origin, found = some (table origin fs) := by
  rcases found with _ | v
  · simp
  · cases v <;> simp [fields?]

lemma items?_eq_some_iff {items : List Value} :
    found.bind items? = some items ↔ found = some (tables items) ∨ found = some (array items) := by
  rcases found with _ | v
  · simp
  · cases v <;> simp [items?]

instance (s : String) : Decidable (found = some (text s)) :=
  decidable_of_iff _ text?_eq_some_iff

instance (b : Bool) : Decidable (found = some (boolean b)) :=
  decidable_of_iff _ boolean?_eq_some_iff

end Value

variable {fs : Fields} {key : String} {v w : Value} {optional : Prop}

/-- A key has this value, or it is left out where it may be. -/
inductive Fields.Has (fs : Fields) (key : String) (v : Value) (optional : Prop) : Prop
  | written (found : fs.get? key = some v)
  | omitted (absent : fs.get? key = none) (default : optional)

instance [Decidable (fs.get? key = some v)] [Decidable optional] :
    Decidable (fs.Has key v optional) :=
  decidable_of_iff (fs.get? key = some v ∨ fs.get? key = none ∧ optional) <| by
    constructor
    · rintro (found | ⟨absent, default⟩)
      · exact .written found
      · exact .omitted absent default
    · rintro (found | ⟨absent, default⟩)
      · exact .inl found
      · exact .inr ⟨absent, default⟩

lemma Fields.Has.eq_of_mem (h : fs.Has key v optional) (distinct : (fs.map Prod.fst).Nodup)
    (hw : (key, w) ∈ fs) : w = v := by
  have hfound : fs.get? key = some w := get?_of_mem distinct hw
  cases h with
  | written found => exact Option.some.inj (hfound.symm.trans found)
  | omitted absent =>
    rw [absent] at hfound
    cases hfound

lemma Fields.Has.getD_eq {α : Type} {x default : α} (h : fs.Has key v (x = default)) :
    (if (fs.get? key).isSome then some x else none).getD default = x := by
  cases h with
  | written found => simp [found]
  | omitted absent hdefault => simp [absent, hdefault]

/-- What is found in a table depends on the keys that it has, if the visit to each of them finds
what belongs to the key. Neither their order matters, nor do other keys. -/
lemma foldlM_visit {σ : Type} (visit : σ → String → Value → Except Mismatch σ)
    (found : (String → Bool) → σ) (hvisit : ∀ kv ∈ fs, ∀ seen,
      visit (found seen) kv.1 kv.2 = .ok (found fun k => seen k || k = kv.1))
    (seen : String → Bool) :
    fs.foldlM (fun f kv => visit f kv.1 kv.2) (found seen) =
      .ok (found fun k => seen k || (fs.get? k).isSome) := by
  induction fs generalizing seen with
  | nil =>
    have hnone : (fun k => seen k || (Fields.get? [] k).isSome) = seen := by
      funext k
      simp [Fields.get?]
    rw [hnone]
    rfl
  | cons kv fs ih =>
    have hrest := ih (fun kv' hkv' => hvisit kv' (List.mem_cons_of_mem kv hkv'))
      fun k => seen k || k = kv.1
    have hseen : (fun k => (seen k || k = kv.1) || (Fields.get? fs k).isSome) =
        fun k => seen k || (Fields.get? (kv :: fs) k).isSome := by
      funext k
      rw [Fields.get?_cons]
      by_cases hk : k = kv.1 <;> simp [hk]
    rw [List.foldlM_cons, hvisit kv List.mem_cons_self]
    rw [hseen] at hrest
    exact hrest

lemma foldlM_visit_start {σ : Type} {visit : σ → String → Value → Except Mismatch σ}
    {found : (String → Bool) → σ} (start : σ) (hstart : found (fun _ => false) = start)
    (hvisit : ∀ kv ∈ fs, ∀ seen,
      visit (found seen) kv.1 kv.2 = .ok (found fun k => seen k || k = kv.1)) :
    fs.foldlM (fun f kv => visit f kv.1 kv.2) start = .ok (found fun k => (fs.get? k).isSome) := by
  rw [← hstart, foldlM_visit visit found hvisit]
  simp only [Bool.false_or]

end Toml

namespace Labels

/-- A table writes the labels. Each of them may be left out that is the default one. -/
structure WrittenIn (l : Labels) (fs : Fields) : Prop where
  major : fs.Has "major-version" (.text l.majorVersion)
    (l.majorVersion = ({} : Labels).majorVersion)
  minor : fs.Has "minor-version" (.text l.minorVersion)
    (l.minorVersion = ({} : Labels).minorVersion)

instance (l : Labels) (fs : Fields) : Decidable (l.WrittenIn fs) :=
  decidable_of_iff (_ ∧ _) ⟨fun h => ⟨h.1, h.2⟩, fun h => ⟨h.major, h.minor⟩⟩

/-- What is found once these keys have been seen. -/
def found (l : Labels) (seen : String → Bool) : Found :=
  ⟨if seen "major-version" then some l.majorVersion else none,
   if seen "minor-version" then some l.minorVersion else none⟩

variable {l : Labels} {fs : Fields}

lemma WrittenIn.visit (h : l.WrittenIn fs) (hfs : fs.Keyed) {kv : String × Value} (hkv : kv ∈ fs)
    (seen : String → Bool) :
    (l.found seen).visit kv.1 kv.2 = .ok (l.found fun k => seen k || k = kv.1) := by
  obtain ⟨key, v⟩ := kv
  unfold Found.visit
  split_ifs with hmajor hminor
  · obtain rfl := hmajor
    rw [h.major.eq_of_mem hfs.distinct hkv]
    simp [found, Value.asText, bind, Except.bind, pure, Except.pure]
  · obtain rfl := hminor
    rw [h.minor.eq_of_mem hfs.distinct hkv]
    simp [found, Value.asText, bind, Except.bind, pure, Except.pure]
  · simp [found, Ne.symm hmajor, Ne.symm hminor]

lemma WrittenIn.labels (h : l.WrittenIn fs) :
    (l.found fun k => (fs.get? k).isSome).labels = l := by
  rw [found, Found.labels, h.major.getD_eq, h.minor.getD_eq]

lemma ofValue_of_writtenIn (h : l.WrittenIn fs) (hfs : fs.Keyed) (origin : Origin) :
    ofValue (.table origin fs) = .ok l := by
  have hfold := foldlM_visit_start {} rfl fun kv hkv => h.visit hfs hkv
  simp only [ofValue, Value.layout, bind, Except.bind, hfold]
  exact congrArg Except.ok h.labels

end Labels

namespace Target

/-- A table writes the target. That it is a cross target may be left out if it is not. -/
structure WrittenIn (t : Target) (fs : Fields) : Prop where
  cpu : fs.get? "cpu" = some (.text t.cpu)
  libc : fs.get? "libc" = some (.text t.libc)
  cross : fs.Has "cross" (.boolean t.cross) (t.cross = false)

instance (t : Target) (fs : Fields) : Decidable (t.WrittenIn fs) :=
  decidable_of_iff (_ ∧ _ ∧ _)
    ⟨fun h => ⟨h.1, h.2.1, h.2.2⟩, fun h => ⟨h.cpu, h.libc, h.cross⟩⟩

def found (t : Target) (seen : String → Bool) : Found :=
  ⟨if seen "cpu" then some t.cpu else none, if seen "libc" then some t.libc else none,
   if seen "cross" then some t.cross else none⟩

variable {t : Target} {fs : Fields}

lemma WrittenIn.visit (h : t.WrittenIn fs) (hfs : fs.Keyed) {kv : String × Value} (hkv : kv ∈ fs)
    (seen : String → Bool) :
    (t.found seen).visit kv.1 kv.2 = .ok (t.found fun k => seen k || k = kv.1) := by
  obtain ⟨key, v⟩ := kv
  have hvalue : fs.get? key = some v := Fields.get?_of_mem hfs.distinct hkv
  unfold Found.visit
  split_ifs with hcpu hlibc hcross
  · obtain rfl := hcpu
    cases h.cpu.symm.trans hvalue
    simp [found, Value.asText, bind, Except.bind, pure, Except.pure]
  · obtain rfl := hlibc
    cases h.libc.symm.trans hvalue
    simp [found, Value.asText, bind, Except.bind, pure, Except.pure]
  · obtain rfl := hcross
    rw [h.cross.eq_of_mem hfs.distinct hkv]
    simp [found, Value.asBoolean, bind, Except.bind, pure, Except.pure]
  · simp [found, Ne.symm hcpu, Ne.symm hlibc, Ne.symm hcross]

lemma WrittenIn.target (h : t.WrittenIn fs) :
    (t.found fun k => (fs.get? k).isSome).target = .ok t := by
  simp only [found, h.cpu, h.libc, Option.isSome_some, if_true, Found.target, required]
  rw [h.cross.getD_eq]
  rfl

lemma ofValue_of_writtenIn (h : t.WrittenIn fs) (hfs : fs.Keyed) (origin : Origin) :
    ofValue (.table origin fs) = .ok t := by
  have hfold := foldlM_visit_start {} rfl fun kv hkv => h.visit hfs hkv
  simp only [ofValue, Value.layout, bind, Except.bind, hfold]
  exact h.target

def IsTable (t : Target) (v : Value) : Prop :=
  ∃ origin fs, v = .table origin fs ∧ t.WrittenIn fs

instance (t : Target) (v : Value) : Decidable (t.IsTable v) :=
  decidable_of_iff (∃ fs ∈ v.fields?, t.WrittenIn fs) <| by
    cases v <;> simp [IsTable, Value.fields?]

lemma mapM_ofValue {ts : List Target} {items : List Value}
    (h : List.Forall₂ IsTable ts items) (hitems : ∀ v ∈ items, v.Keyed) :
    items.mapM ofValue = .ok ts := by
  induction h with
  | nil => rfl
  | cons hfirst _ ih =>
    obtain ⟨origin, fs, rfl, hwritten⟩ := hfirst
    have hfs : Fields.Keyed fs := Fields.keyed_of_table (hitems _ List.mem_cons_self)
    have hrest := ih fun v hv => hitems v (List.mem_cons_of_mem _ hv)
    rw [List.mapM_cons, ofValue_of_writtenIn hwritten hfs, hrest]
    rfl

end Target

namespace Config

/-- A document writes the configuration: its labels, unless they are the default ones and left out,
and its targets one after the other, under headers or between brackets. -/
structure WrittenIn (c : Config) (fs : Fields) : Prop where
  labels : (fs.get? "release" = none ∧ c.labels = {}) ∨
    ∃ origin inner, fs.get? "release" = some (.table origin inner) ∧ c.labels.WrittenIn inner
  targets : ∃ items, (fs.get? "target" = some (.tables items) ∨
    fs.get? "target" = some (.array items)) ∧ List.Forall₂ Target.IsTable c.targets items

instance (c : Config) (fs : Fields) : Decidable (c.WrittenIn fs) :=
  decidable_of_iff
    (((fs.get? "release" = none ∧ c.labels = {}) ∨
        ∃ inner ∈ (fs.get? "release").bind Value.fields?, c.labels.WrittenIn inner) ∧
      ∃ items ∈ (fs.get? "target").bind Value.items?, List.Forall₂ Target.IsTable c.targets items)
    <| by
    simp only [Option.mem_def, Value.fields?_eq_some_iff, Value.items?_eq_some_iff]
    constructor
    · rintro ⟨habsent | ⟨inner, ⟨origin, hinner⟩, hlabels⟩, htargets⟩
      · exact ⟨.inl habsent, htargets⟩
      · exact ⟨.inr ⟨origin, inner, hinner, hlabels⟩, htargets⟩
    · rintro ⟨habsent | ⟨origin, inner, hinner, hlabels⟩, htargets⟩
      · exact ⟨.inl habsent, htargets⟩
      · exact ⟨.inr ⟨inner, ⟨origin, hinner⟩, hlabels⟩, htargets⟩

def found (c : Config) (seen : String → Bool) : Found :=
  ⟨if seen "release" then some c.labels else none,
   if seen "target" then some c.targets else none⟩

variable {c : Config} {fs : Fields}

lemma WrittenIn.visit (h : c.WrittenIn fs) (hfs : fs.Keyed) {kv : String × Value} (hkv : kv ∈ fs)
    (seen : String → Bool) :
    (c.found seen).visit kv.1 kv.2 = .ok (c.found fun k => seen k || k = kv.1) := by
  obtain ⟨key, v⟩ := kv
  have hvalue : fs.get? key = some v := Fields.get?_of_mem hfs.distinct hkv
  have hkeyed : v.Keyed := hfs.get? hvalue
  unfold Found.visit
  split_ifs with hrelease htarget
  · obtain rfl := hrelease
    rcases h.labels with ⟨habsent, -⟩ | ⟨origin, inner, hinner, hwritten⟩
    · cases habsent.symm.trans hvalue
    · cases hinner.symm.trans hvalue
      rw [Labels.ofValue_of_writtenIn hwritten (Fields.keyed_of_table hkeyed)]
      simp [found, bind, Except.bind, pure, Except.pure]
  · obtain rfl := htarget
    obtain ⟨items, hitems, hwritten⟩ := h.targets
    have hsequence : v.asSequence = .ok items ∧ ∀ v ∈ items, v.Keyed := by
      rcases hitems with hitems | hitems <;> cases hitems.symm.trans hvalue <;>
        cases hkeyed <;> exact ⟨rfl, by assumption⟩
    rw [hsequence.1]
    have hmap := Target.mapM_ofValue hwritten hsequence.2
    simp [found, hmap, bind, Except.bind, pure, Except.pure]
  · simp [found, Ne.symm hrelease, Ne.symm htarget]

lemma ofFields_of_writtenIn (h : c.WrittenIn fs) (hfs : fs.Keyed) : ofFields fs = .ok c := by
  have hfold := foldlM_visit_start {} rfl fun kv hkv => h.visit hfs hkv
  have hlabels : (c.found fun k => (fs.get? k).isSome).labels.getD {} = c.labels := by
    rcases h.labels with ⟨habsent, hdefault⟩ | ⟨origin, inner, hinner, -⟩
    · simp [found, habsent, hdefault]
    · simp [found, hinner]
  have htargets : (c.found fun k => (fs.get? k).isSome).targets = some c.targets := by
    obtain ⟨items, hitems | hitems, -⟩ := h.targets <;> simp [found, hitems]
  simp only [ofFields, bind, Except.bind, hfold, hlabels, htargets, required]
  rfl

lemma parseWith_written {read : String → Option Fields} {text : String}
    (htext : read text = some fs) (hfs : fs.Keyed) (hwritten : c.WrittenIn fs)
    (hvalid : c.validate = .ok ()) : parseWith read text = .ok c := by
  have hread : ofFields fs = .ok c := ofFields_of_writtenIn hwritten hfs
  simp only [parseWith, htext, hread, hvalid, bind, Except.bind]
  rfl

/-- A usable configuration is read from every document that writes it: whatever the order of the
keys in a table, whatever other keys there are, and whether or not what has its default is left out.
What is read from a text is usable. The document may be read by anything that reads no table with a
key twice. -/
theorem parse_written :
    (∀ read : String → Option Fields, (∀ text fs, read text = some fs → fs.Keyed) →
      ∀ text fs c, read text = some fs → c.WrittenIn fs → c.validate = .ok () →
        parseWith read text = .ok c) ∧
    (∀ text fs c, fieldsOf? text = some fs → c.WrittenIn fs → c.validate = .ok () →
      parse text = .ok c) ∧
    (∀ read text c, parseWith read text = .ok c → c.validate = .ok ()) ∧
    ∀ text c, parse text = .ok c → c.validate = .ok () := by
  refine ⟨fun read hkeyed text fs c htext hwritten hvalid => ?_,
    fun text fs c htext hwritten hvalid => ?_, fun read text c hparse => validate_of_parse hparse,
    fun text c hparse => validate_of_parse hparse⟩
  · exact parseWith_written htext (hkeyed text fs htext) hwritten hvalid
  · exact parseWith_written htext (fieldsOf_keyed htext) hwritten hvalid

/-- Inline and standard tables, keys in other orders, and keys that no table has to have. A reader
that finds this document in every text reads the same. -/
theorem parse_written_with_other_keys :
    let text := "note = [1, []]\nrelease = \x7b channel = 2, minor-version = \"2\" \x7d\n" ++
      "[[target]]\nlibc = \"gnu\"\ncpu = \"arm\"\nvendor.name = \"v\"\ncross = true\n" ++
      "[[target]]\ncpu = \"k8\"\nlibc = \"local\"\n"
    let c : Config := ⟨⟨"local", "2"⟩, [⟨"arm", "gnu", true⟩, ⟨"k8", "local", false⟩]⟩
    parse text = .ok c ∧ c.validate = .ok () ∧
      parseWith (fun _ => fieldsOf? text) "" = .ok c := by
  intro text c
  have htext : (fieldsOf? text).isSome = true := by decide +kernel
  have hwritten : ∀ fs ∈ fieldsOf? text, c.WrittenIn fs := by decide +kernel
  obtain ⟨root, hroot⟩ := Option.isSome_iff_exists.1 htext
  have hdefect : c.defect? = none := by decide +kernel
  have hvalid : c.validate = .ok () := by rw [validate, hdefect]
  obtain ⟨hany, hread, -, husable⟩ := parse_written
  have hparse : parse text = .ok c := hread text root c hroot (hwritten root hroot) hvalid
  have hconstant : parseWith (fun _ => fieldsOf? text) "" = .ok c :=
    hany (fun _ => fieldsOf? text) (fun _ _ h => fieldsOf_keyed h) "" root c hroot
      (hwritten root hroot) hvalid
  exact ⟨hparse, husable text c hparse, hconstant⟩

end Config

end ToolchainRelease
