import Mathlib.Data.List.Basic
import Mathlib.Tactic.Common
import ToolchainRelease.Toml.Reader

/-! The tables of a document have no key twice. Each line that adds to a table keeps this so, and
with it all that is read. -/
namespace ToolchainRelease.Toml

inductive Value.Keyed : Value → Prop
  | text (s : String) : Keyed (.text s)
  | integer (i : Int) : Keyed (.integer i)
  | float (x : Float) : Keyed (.float x)
  | boolean (b : Bool) : Keyed (.boolean b)
  | moment (written : String) : Keyed (.moment written)
  | array {items : List Value} (all : ∀ v ∈ items, Keyed v) : Keyed (.array items)
  | tables {items : List Value} (all : ∀ v ∈ items, Keyed v) : Keyed (.tables items)
  | table {origin : Origin} {fs : List (String × Value)} (distinct : (fs.map Prod.fst).Nodup)
      (values : ∀ f ∈ fs, Keyed f.2) : Keyed (.table origin fs)

namespace Fields

/-- A table, and each table in its values, has its keys once. -/
structure Keyed (fs : Fields) : Prop where
  distinct : (fs.map Prod.fst).Nodup
  values : ∀ f ∈ fs, f.2.Keyed

variable {fs : Fields} {key : String} {v : Value}

lemma Keyed.table (h : fs.Keyed) (origin : Origin) : (Value.table origin fs).Keyed :=
  .table h.distinct h.values

lemma keyed_of_table {origin : Origin} (h : (Value.table origin fs).Keyed) : fs.Keyed := by
  cases h with
  | table distinct values => exact ⟨distinct, values⟩

lemma keyed_nil : Keyed [] := ⟨List.nodup_nil, by simp⟩

lemma get?_cons (f : String × Value) (fs : Fields) :
    get? (f :: fs) key = if key = f.1 then some f.2 else fs.get? key := by
  rw [get?, List.lookup_cons, beq_eq_decide]
  by_cases hkey : key = f.1
  · simp [hkey]
  · simp [hkey, get?]

lemma get?_eq_none_iff : fs.get? key = none ↔ key ∉ fs.map Prod.fst := by
  induction fs with
  | nil => simp [get?]
  | cons f fs ih =>
    rw [get?_cons]
    split_ifs with hkey
    · simp [hkey]
    · rw [ih]
      simp [hkey]

lemma mem_of_get? (h : fs.get? key = some v) : (key, v) ∈ fs := by
  induction fs with
  | nil => simp [get?] at h
  | cons f fs ih =>
    rw [get?_cons] at h
    split_ifs at h with hkey
    · cases h
      rw [hkey]
      exact List.mem_cons_self
    · exact List.mem_cons_of_mem f (ih h)

lemma get?_of_mem (distinct : (fs.map Prod.fst).Nodup) (h : (key, v) ∈ fs) :
    fs.get? key = some v := by
  induction fs with
  | nil => simp at h
  | cons f fs ih =>
    rw [List.map_cons, List.nodup_cons] at distinct
    rw [get?_cons]
    rcases List.mem_cons.1 h with rfl | hmem
    · rw [if_pos rfl]
    · have hne : key ≠ f.1 := by
        rintro rfl
        exact distinct.1 (List.mem_map.2 ⟨(f.1, v), hmem, rfl⟩)
      rw [if_neg hne, ih distinct.2 hmem]

lemma Keyed.get? (h : fs.Keyed) (hv : fs.get? key = some v) : v.Keyed :=
  h.values (key, v) (mem_of_get? hv)

lemma Keyed.snoc (h : fs.Keyed) (hkey : key ∉ fs.map Prod.fst) (hv : v.Keyed) :
    Keyed (fs ++ [(key, v)]) := by
  refine ⟨?_, fun f hf => ?_⟩
  · rw [List.map_append, List.nodup_append]
    refine ⟨h.distinct, by simp, fun a ha b hb => ?_⟩
    obtain rfl := List.mem_singleton.1 hb
    rintro rfl
    exact hkey ha
  · rcases List.mem_append.1 hf with hf | hf
    · exact h.values f hf
    · obtain rfl := List.mem_singleton.1 hf
      exact hv

lemma keys_replace (fs : Fields) (key : String) (v : Value) :
    (fs.replace key v).map Prod.fst = fs.map Prod.fst := by
  rw [replace, List.map_map]
  refine List.map_congr_left fun f _ => ?_
  simp only [Function.comp_apply]
  split_ifs with hkey
  · exact hkey.symm
  · rfl

lemma Keyed.replace (h : fs.Keyed) (hv : v.Keyed) : Keyed (fs.replace key v) := by
  refine ⟨by rw [keys_replace]; exact h.distinct, fun f hf => ?_⟩
  obtain ⟨g, hg, rfl⟩ := List.mem_map.1 hf
  split_ifs with hkey
  · exact hv
  · exact h.values g hg

lemma Keyed.remove (h : fs.Keyed) : Keyed (fs.remove key) := by
  refine ⟨?_, fun f hf => h.values f (List.mem_filter.1 hf).1⟩
  exact h.distinct.sublist (List.filter_sublist.map Prod.fst)

lemma not_mem_keys_remove : key ∉ (fs.remove key).map Prod.fst := by
  intro hmem
  obtain ⟨f, hf, rfl⟩ := List.mem_map.1 hmem
  have hne := (List.mem_filter.1 hf).2
  simp at hne

end Fields

open Fields

def Careful (change : Origin → Fields → Option Fields) : Prop :=
  ∀ origin fs fs', fs.Keyed → change origin fs = some fs' → fs'.Keyed

lemma descend_keyed {made : Origin} {change : Origin → Fields → Option Fields}
    (careful : Careful change) (path : List String) : Careful (descend made change path) := by
  induction path with
  | nil => exact careful
  | cons k ks ih =>
    intro origin fs fs' h hfs'
    unfold descend at hfs'
    split at hfs'
    · next hnone =>
      obtain ⟨inner, hinner, hout⟩ := Option.bind_eq_some_iff.1 hfs'
      cases hout
      exact h.snoc (get?_eq_none_iff.1 hnone) ((ih made [] inner keyed_nil hinner).table made)
    · next origin' inner hsome =>
      split_ifs at hfs'
      obtain ⟨inner', hinner, hout⟩ := Option.bind_eq_some_iff.1 hfs'
      cases hout
      have hkeyed := keyed_of_table (h.get? hsome)
      exact h.replace ((ih origin' inner inner' hkeyed hinner).table origin')
    · next items hsome =>
      have hitems : ∀ v ∈ items, v.Keyed := by
        cases h.get? hsome with
        | tables all => exact all
      split at hfs'
      · next origin' inner hlast =>
        -- In an array of tables, the path leads into the last of them.
        obtain ⟨inner', hinner, hout⟩ := Option.bind_eq_some_iff.1 hfs'
        cases hout
        have hkeyed := keyed_of_table (hitems _ (List.mem_of_getLast? hlast))
        refine h.replace (.tables fun v hv => ?_)
        rcases List.mem_append.1 hv with hv | hv
        · exact hitems v (List.dropLast_subset items hv)
        · obtain rfl := List.mem_singleton.1 hv
          exact (ih origin' inner inner' hkeyed hinner).table origin'
      · cases hfs'
    · cases hfs'

lemma assign_keyed {a : Assignment} (ha : a.value.Keyed) : Careful (assign a) := by
  intro origin fs fs' h hfs'
  refine descend_keyed (fun last fs fs' h hfs' => ?_) a.path origin fs fs' h hfs'
  split_ifs at hfs' with _ hkey
  cases hfs'
  have hnone : fs.get? a.key = none := Option.not_isSome_iff_eq_none.1 hkey
  exact h.snoc (get?_eq_none_iff.1 hnone) ha

lemma assignAll_keyed {origin : Origin} {as : List Assignment} (has : ∀ a ∈ as, a.value.Keyed)
    {fs fs' : Fields} (h : fs.Keyed) (hfs' : assignAll origin fs as = some fs') : fs'.Keyed := by
  induction as generalizing fs with
  | nil =>
    cases hfs'
    exact h
  | cons a as ih =>
    obtain ⟨fs₁, hfirst, hrest⟩ := Option.bind_eq_some_iff.1 hfs'
    have hkeyed := assign_keyed (has a List.mem_cons_self) origin fs fs₁ h hfirst
    exact ih (fun a ha => has a (List.mem_cons_of_mem _ ha)) hkeyed hrest

def Section.Keyed (s : Section) : Prop := ∀ a ∈ s.assignments, a.value.Keyed

lemma Section.addTo_keyed {s : Section} (hs : s.Keyed) {fs fs' : Fields} (h : fs.Keyed)
    (hfs' : s.addTo fs = some fs') : fs'.Keyed := by
  unfold addTo at hfs'
  split at hfs'
  · split at hfs'
    · next hnone =>
      obtain ⟨inner, hinner, hout⟩ := Option.bind_eq_some_iff.1 hfs'
      cases hout
      have hkeyed := (assignAll_keyed hs keyed_nil hinner).table .header
      refine h.snoc (get?_eq_none_iff.1 hnone) (.tables fun v hv => ?_)
      obtain rfl := List.mem_singleton.1 hv
      exact hkeyed
    · next items hsome =>
      obtain ⟨inner, hinner, hout⟩ := Option.bind_eq_some_iff.1 hfs'
      cases hout
      have hitems : ∀ v ∈ items, v.Keyed := by
        cases h.get? hsome with
        | tables all => exact all
      refine h.replace (.tables fun v hv => ?_)
      rcases List.mem_append.1 hv with hv | hv
      · exact hitems v hv
      · obtain rfl := List.mem_singleton.1 hv
        exact (assignAll_keyed hs keyed_nil hinner).table .header
    · cases hfs'
  · split at hfs'
    · next hnone =>
      obtain ⟨inner, hinner, hout⟩ := Option.bind_eq_some_iff.1 hfs'
      cases hout
      exact h.snoc (get?_eq_none_iff.1 hnone) ((assignAll_keyed hs keyed_nil hinner).table .header)
    · next inner hsome =>
      obtain ⟨inner', hinner, hout⟩ := Option.bind_eq_some_iff.1 hfs'
      cases hout
      have hkeyed := assignAll_keyed hs (keyed_of_table (h.get? hsome)) hinner
      exact h.remove.snoc not_mem_keys_remove (hkeyed.table .header)
    · cases hfs'

lemma addAll_keyed {ss : List Section} (hss : ∀ s ∈ ss, s.Keyed) {fs fs' : Fields} (h : fs.Keyed)
    (hfs' : ss.foldlM (fun fs s => descend .implied (fun _ inner => s.addTo inner) s.path .header
      fs) fs = some fs') : fs'.Keyed := by
  induction ss generalizing fs with
  | nil =>
    cases hfs'
    exact h
  | cons s ss ih =>
    obtain ⟨next, hnext, hrest⟩ := Option.bind_eq_some_iff.1 hfs'
    have hs : s.Keyed := hss s List.mem_cons_self
    have careful : Careful fun _ inner => s.addTo inner :=
      fun _ inner inner' hinner hout => Section.addTo_keyed hs hinner hout
    have hadded : next.Keyed := descend_keyed careful s.path .header fs next h hnext
    exact ih (fun s' hs' => hss s' (List.mem_cons_of_mem s hs')) hadded hrest

namespace Document

structure Keyed (d : Document) : Prop where
  assignments : ∀ a ∈ d.assignments, a.value.Keyed
  sections : ∀ s ∈ d.sections, s.Keyed

lemma fields_keyed {d : Document} (hd : d.Keyed) {fs : Fields} (hfs : d.fields? = some fs) :
    fs.Keyed := by
  obtain ⟨root, hroot, hsections⟩ := Option.bind_eq_some_iff.1 hfs
  have hkeyed : root.Keyed := assignAll_keyed hd.assignments keyed_nil hroot
  exact addAll_keyed hd.sections hkeyed hsections

variable {d : Document} {a : Assignment}

lemma Keyed.push (hd : d.Keyed) (ha : a.value.Keyed) : (d.push a).Keyed := by
  have cons {as : List Assignment} (has : ∀ a ∈ as, a.value.Keyed) :
      ∀ a' ∈ a :: as, a'.value.Keyed := by
    intro a' ha'
    rcases List.mem_cons.1 ha' with rfl | ha'
    · exact ha
    · exact has a' ha'
  unfold Document.push
  split
  · next hnone => exact ⟨cons hd.assignments, hd.sections⟩
  · next s ss hsome =>
    refine ⟨hd.assignments, fun s' hs' => ?_⟩
    rcases List.mem_cons.1 hs' with rfl | hs'
    · exact cons (hd.sections s (by rw [hsome]; exact List.mem_cons_self))
    · exact hd.sections s' (by rw [hsome]; exact List.mem_cons_of_mem s hs')

lemma Keyed.header (hd : d.Keyed) (s : Section) (hs : s.Keyed) :
    Keyed { d with sections := s :: d.sections } := by
  refine ⟨hd.assignments, fun s' hs' => ?_⟩
  rcases List.mem_cons.1 hs' with rfl | hs'
  · exact hs
  · exact hd.sections s' hs'

lemma Keyed.inOrder (hd : d.Keyed) : d.inOrder.Keyed := by
  refine ⟨fun a ha => hd.assignments a (List.mem_reverse.1 ha), fun s hs => ?_⟩
  obtain ⟨s', hs', rfl⟩ := List.mem_map.1 hs
  intro a ha
  exact hd.sections s' (List.mem_reverse.1 hs') a (List.mem_reverse.1 ha)

end Document

def Reads (x : Option (Value × List Char)) : Prop := ∀ v rest, x = some (v, rest) → v.Keyed

lemma reads_none : Reads none := by
  intro v rest h
  cases h

lemma reads_some {v : Value} (hv : v.Keyed) (rest : List Char) : Reads (some (v, rest)) := by
  intro v' rest' h
  cases h
  exact hv

lemma reads_bind {α : Type} {x : Option α} {next : α → Option (Value × List Char)}
    (h : ∀ a, x = some a → Reads (next a)) : Reads (x.bind next) := by
  intro v rest hv
  obtain ⟨a, ha, hnext⟩ := Option.bind_eq_some_iff.1 hv
  exact h a ha v rest hnext

lemma boundedInteger_reads (i : Int) (cs : List Char) : Reads (boundedInteger? i cs) := by
  unfold boundedInteger?
  split_ifs
  · exact reads_some (.integer i) cs
  · exact reads_none

lemma number_reads (cs : List Char) : Reads (number? cs) := by
  unfold number?
  split
  iterate 3 exact reads_bind fun a _ => boundedInteger_reads _ _
  dsimp only
  split
  · exact reads_some (.float _) _
  · exact reads_some (.float _) _
  · refine reads_bind fun whole _ => reads_bind fun decimals _ => reads_bind fun power _ => ?_
    split_ifs
    · exact boundedInteger_reads _ _
    · exact boundedInteger_reads _ _
    · exact reads_none
    · exact reads_some (.float _) _

lemma moment_reads (cs : List Char) : Reads (moment? cs) := by
  have upTo (rest : List Char) :
      Reads (some (.moment (String.ofList (cs.take (cs.length - rest.length))), rest)) :=
    reads_some (.moment _) rest
  unfold moment?
  dsimp only
  split
  · split
    · split_ifs
      · split
        · exact reads_bind fun after _ => upTo after
        · exact upTo _
      · exact upTo _
    · exact upTo _
  · exact reads_bind fun rest _ => upTo rest

/-- Within so many steps, all that is read has its keys once. -/
structure KeyedWithin (steps : Nat) : Prop where
  value : ∀ depth cs, Reads (value? depth steps cs)
  items : ∀ depth cs vs rest, items? depth steps cs = some (vs, rest) → ∀ v ∈ vs, v.Keyed
  assignments : ∀ depth cs as rest, assignments? depth steps cs = some (as, rest) →
    ∀ a ∈ as, a.value.Keyed
  moreAssignments : ∀ depth cs as rest, moreAssignments? depth steps cs = some (as, rest) →
    ∀ a ∈ as, a.value.Keyed

section Step

variable {steps : Nat} (h : KeyedWithin steps) (depth : Nat) (cs : List Char)
include h

lemma value_reads : Reads (value? depth (steps + 1) cs) := by
  unfold value?
  split
  · intro v rest hv
    obtain ⟨t, -, hout⟩ := Option.map_eq_some_iff.1 hv
    cases hout
    exact .text t.1
  · intro v rest hv
    obtain ⟨t, -, hout⟩ := Option.map_eq_some_iff.1 hv
    cases hout
    exact .text t.1
  · split
    · exact reads_none
    · next depth =>
      refine reads_bind fun items hitems => reads_some (.array ?_) _
      exact h.items depth _ items.1 items.2 hitems
  · split
    · exact reads_none
    · next depth =>
      refine reads_bind fun as has => reads_bind fun fs hfs => reads_some ?_ _
      have hvalues := h.assignments depth _ as.1 as.2 has
      exact (assignAll_keyed hvalues keyed_nil hfs).table .inline
  · exact reads_some (.boolean true) _
  · exact reads_some (.boolean false) _
  · exact number_reads _
  · exact number_reads _
  · intro v rest hv
    rcases Option.or_eq_some_iff.1 hv with hv | ⟨-, hv⟩
    · exact moment_reads _ v rest hv
    · exact number_reads _ v rest hv

lemma items_keyed {vs : List Value} {rest : List Char}
    (hvs : items? depth (steps + 1) cs = some (vs, rest)) : ∀ v ∈ vs, v.Keyed := by
  unfold items? at hvs
  obtain ⟨cs', -, hvs⟩ := Option.bind_eq_some_iff.1 hvs
  split at hvs
  · cases hvs
    simp
  · obtain ⟨⟨first, cs₁⟩, hfirst, hvs⟩ := Option.bind_eq_some_iff.1 hvs
    obtain ⟨cs₂, -, hvs⟩ := Option.bind_eq_some_iff.1 hvs
    have hkeyed : first.Keyed := h.value depth cs' first cs₁ hfirst
    dsimp only at hvs
    split at hvs
    · next cs₃ =>
      obtain ⟨⟨others, cs₄⟩, hothers, hout⟩ := Option.bind_eq_some_iff.1 hvs
      cases hout
      intro v hv
      rcases List.mem_cons.1 hv with rfl | hv
      · exact hkeyed
      · exact h.items depth cs₃ others cs₄ hothers v hv
    · cases hvs
      intro v hv
      obtain rfl := List.mem_singleton.1 hv
      exact hkeyed
    · cases hvs

lemma assignments_keyed {as : List Assignment} {rest : List Char}
    (has : assignments? depth (steps + 1) cs = some (as, rest)) : ∀ a ∈ as, a.value.Keyed := by
  unfold assignments? at has
  split at has
  · cases has
    simp
  · exact h.moreAssignments depth _ as rest has

lemma moreAssignments_keyed {as : List Assignment} {rest : List Char}
    (has : moreAssignments? depth (steps + 1) cs = some (as, rest)) :
    ∀ a ∈ as, a.value.Keyed := by
  unfold moreAssignments? at has
  obtain ⟨⟨⟨path, key⟩, cs₁⟩, -, has⟩ := Option.bind_eq_some_iff.1 has
  obtain ⟨cs₂, -, has⟩ := Option.bind_eq_some_iff.1 has
  obtain ⟨⟨first, cs₃⟩, hfirst, has⟩ := Option.bind_eq_some_iff.1 has
  have hkeyed : first.Keyed := h.value depth _ first cs₃ hfirst
  dsimp only at has
  split at has
  · next cs₄ _ =>
    obtain ⟨⟨others, cs₅⟩, hothers, hout⟩ := Option.bind_eq_some_iff.1 has
    cases hout
    intro a ha
    rcases List.mem_cons.1 ha with rfl | ha
    · exact hkeyed
    · exact h.moreAssignments depth cs₄ others cs₅ hothers a ha
  · cases has
    intro a ha
    obtain rfl := List.mem_singleton.1 ha
    exact hkeyed
  · cases has

end Step

theorem keyedWithin (steps : Nat) : KeyedWithin steps := by
  induction steps with
  | zero =>
    refine ⟨fun _ _ => reads_none, fun _ _ _ _ h => ?_, fun _ _ _ _ h => ?_, fun _ _ _ _ h => ?_⟩
    all_goals cases h
  | succ steps ih =>
    exact ⟨value_reads ih, fun depth cs _ _ => items_keyed ih depth cs,
      fun depth cs _ _ => assignments_keyed ih depth cs,
      fun depth cs _ _ => moreAssignments_keyed ih depth cs⟩

lemma assignment_keyed {cs rest : List Char} {a : Assignment}
    (h : assignment? cs = some (a, rest)) : a.value.Keyed := by
  obtain ⟨⟨⟨path, key⟩, cs₁⟩, -, h⟩ := Option.bind_eq_some_iff.1 h
  obtain ⟨cs₂, -, h⟩ := Option.bind_eq_some_iff.1 h
  obtain ⟨⟨v, cs₃⟩, hv, h⟩ := Option.bind_eq_some_iff.1 h
  obtain ⟨cs₄, -, hout⟩ := Option.bind_eq_some_iff.1 h
  cases hout
  exact (keyedWithin _).value _ _ v cs₃ hv

lemma header_keyed {cs rest : List Char} {s : Section} (h : header? cs = some (s, rest)) :
    s.Keyed := by
  have hnone : s.assignments = [] := by
    unfold header? at h
    split at h
    · obtain ⟨_, -, h⟩ := Option.bind_eq_some_iff.1 h
      obtain ⟨_, -, h⟩ := Option.bind_eq_some_iff.1 h
      obtain ⟨_, -, h⟩ := Option.bind_eq_some_iff.1 h
      obtain ⟨_, -, hout⟩ := Option.bind_eq_some_iff.1 h
      cases hout
      rfl
    · obtain ⟨_, -, h⟩ := Option.bind_eq_some_iff.1 h
      obtain ⟨_, -, h⟩ := Option.bind_eq_some_iff.1 h
      obtain ⟨_, -, hout⟩ := Option.bind_eq_some_iff.1 h
      cases hout
      rfl
    · cases h
  intro a ha
  rw [hnone] at ha
  cases ha

lemma Document.lines_keyed {steps : Nat} {d d' : Document} {cs : List Char} (hd : d.Keyed)
    (h : lines steps d cs = some d') : d'.Keyed := by
  induction steps generalizing d cs with
  | zero => cases h
  | succ steps ih =>
    unfold lines at h
    split at h
    · cases h
      exact hd.inOrder
    · obtain ⟨_, -, h⟩ := Option.bind_eq_some_iff.1 h
      exact ih hd h
    · obtain ⟨⟨s, _⟩, hs, h⟩ := Option.bind_eq_some_iff.1 h
      exact ih (hd.header s (header_keyed hs)) h
    · split at h
      · exact ih hd h
      · obtain ⟨⟨a, _⟩, ha, h⟩ := Option.bind_eq_some_iff.1 h
        exact ih (hd.push (assignment_keyed ha)) h

/-- No table of a document has a key twice. -/
theorem fieldsOf_keyed {text : String} {fs : Fields} (h : fieldsOf? text = some fs) :
    fs.Keyed := by
  obtain ⟨d, hd, hfs⟩ := Option.bind_eq_some_iff.1 h
  have hempty : Document.Keyed ⟨[], []⟩ := ⟨by simp, by simp⟩
  exact Document.fields_keyed (Document.lines_keyed hempty hd) hfs

end ToolchainRelease.Toml
