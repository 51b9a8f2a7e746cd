import ToolchainRelease.Proofs.ReadBack
import ToolchainRelease.Proofs.Text.RepeatedField

/-! Merging a printed record into another. Where the records have a scalar in common, the merge
stops at the line of the first one and has added the fields that are printed before it. -/
namespace ToolchainRelease
open Text

lemma Text.Fault.message_repeatedField (line : Nat) (name : String) :
    (Fault.mk ⟨line, 1⟩ (.repeatedField name)).message =
      s!"line {line}, column 1: non-repeated field '{name}' specified multiple times" := by
  have hwords : ", column " ++ toString 1 ++ ": " ++ "non-repeated field '" =
      ", column 1: non-repeated field '" := by decide
  unfold Fault.message Cause.message
  simp only [toString, ← hwords, String.append_assoc]

namespace RecordType

variable {t : RecordType} {a b : t.Carrier}

/-- A record with some of the fields of `a`, and no others. -/
def keep (t : RecordType) (fs : List (FieldSchema t.record.Kind)) (a : t.Carrier) : t.Carrier :=
  t.record.ofEntries (pick fs (t.record.entries a))

def IsSet (t : RecordType) (f : FieldSchema t.record.Kind) (a : t.Carrier) : Prop :=
  hasField f.name (t.record.entries a) = true

instance (f : FieldSchema t.record.Kind) : Decidable (t.IsSet f a) :=
  inferInstanceAs (Decidable (_ = true))

/-- Of the scalars that are set in both records, `f` is the first in the order of the schema; the
fields `before` precede it. -/
structure FirstShared (t : RecordType) (a b : t.Carrier)
    (before : List (FieldSchema t.record.Kind)) (f : FieldSchema t.record.Kind) : Prop where
  order : ∃ after, t.record.schema.fields t.record.kind = before ++ f :: after
  scalar : f.shape.isScalar = true
  shared : t.IsSet f a ∧ t.IsSet f b
  first : ∀ g ∈ before, g.shape.isScalar = true → ¬(t.IsSet g a ∧ t.IsSet g b)

variable {before : List (FieldSchema t.record.Kind)} {f : FieldSchema t.record.Kind}

lemma isSet_iff : t.IsSet f a ↔ ∃ e ∈ t.record.entries a, e.name = f.name := by
  simp [IsSet, hasField]

lemma field?_of_mem (hf : f ∈ t.record.schema.fields t.record.kind) :
    t.record.schema.field? t.record.kind f.name = some f :=
  Schema.field?_of_mem t.faithful.distinct hf

lemma isScalar_of_mem (hf : f ∈ t.record.schema.fields t.record.kind) :
    t.record.schema.isScalar t.record.kind f.name = f.shape.isScalar := by
  simp [Schema.isScalar, field?_of_mem hf]

lemma apart_iff_forall_mem : t.Apart b a ↔ ∀ f ∈ t.record.schema.fields t.record.kind,
    f.shape.isScalar = true → ¬(t.IsSet f a ∧ t.IsSet f b) := by
  have hone (n : String) : ¬(hasField n (t.record.entries a) = true ∧
      hasField n (t.record.entries b) = true) ↔
      hasField n (t.record.entries b) = false ∨ hasField n (t.record.entries a) = false := by
    rw [not_and_or, Bool.not_eq_true, Bool.not_eq_true, or_comm]
  constructor
  · intro h f hf hs
    exact (hone f.name).2 (h f.name ((isScalar_of_mem hf).trans hs))
  · intro h n hn
    obtain ⟨f, hf, hs⟩ := (Option.any_eq_true _ _).1 hn
    obtain rfl := Schema.name_of_field? hf
    exact (hone f.name).1 (h f (Schema.mem_of_field? hf) hs)

section Keep

variable {after : List (FieldSchema t.record.Kind)}
  (hfields : t.record.schema.fields t.record.kind = before ++ after)
include hfields

lemma entries_eq_pick_append :
    t.record.entries a = pick before (t.record.entries a) ++ pick after (t.record.entries a) := by
  have hpick := pick_fields t.faithful.distinct (t.arrange_entries a)
  rw [hfields, pick_append] at hpick
  exact hpick.symm

lemma entries_keep : t.record.entries (t.keep before a) = pick before (t.record.entries a) := by
  have fits := t.faithful.fits a
  rw [entries_eq_pick_append hfields] at fits
  rw [keep, t.faithful.arranges _ fits.of_append,
    arrange_pick t.faithful.distinct (t.arrange_entries a) hfields]

lemma isSet_keep {g : FieldSchema t.record.Kind}
    (hg : g ∈ t.record.schema.fields t.record.kind) :
    t.IsSet g (t.keep before a) ↔ t.IsSet g a ∧ g ∈ before := by
  simp only [isSet_iff, entries_keep hfields, mem_pick]
  constructor
  · rintro ⟨e, ⟨he, hbefore⟩, hn⟩
    obtain ⟨g', hg', hname⟩ := List.mem_map.1 hbefore
    have hfield : g' ∈ t.record.schema.fields t.record.kind := by simp [hfields, hg']
    obtain rfl := List.inj_on_of_nodup_map t.faithful.distinct hfield hg (hname.trans hn)
    exact ⟨⟨e, he, hn⟩, hg'⟩
  · rintro ⟨⟨e, he, hn⟩, hbefore⟩
    exact ⟨e, ⟨he, hn ▸ List.mem_map_of_mem hbefore⟩, hn⟩

lemma entriesNamed_keep (n : String) : entriesNamed n (t.record.entries (t.keep before a)) =
    if n ∈ before.map FieldSchema.name then entriesNamed n (t.record.entries a) else [] := by
  have hdistinct := t.faithful.distinct
  rw [hfields, List.map_append] at hdistinct
  rw [entries_keep hfields, entriesNamed_pick (List.nodup_append.1 hdistinct).1]

end Keep

/-- Two records have a scalar in common exactly when there is a first one. -/
lemma not_apart_iff : ¬t.Apart b a ↔ ∃ before f, t.FirstShared a b before f := by
  rw [apart_iff_forall_mem]
  constructor
  · intro h
    cases hfind : (t.record.schema.fields t.record.kind).find? fun f =>
      f.shape.isScalar = true ∧ t.IsSet f a ∧ t.IsSet f b with
    | none =>
      refine absurd (fun f hf hs hset => ?_) h
      exact List.find?_eq_none.1 hfind f hf (decide_eq_true ⟨hs, hset⟩)
    | some f =>
      obtain ⟨hf, before, after, hfields, hbefore⟩ := List.find?_eq_some_iff_append.1 hfind
      obtain ⟨scalar, hset⟩ := of_decide_eq_true hf
      refine ⟨before, f, ⟨after, hfields⟩, scalar, hset, fun g hg hs hgset => ?_⟩
      have hfalse := hbefore g hg
      simp [hs, hgset] at hfalse
  · rintro ⟨before, f, ⟨after, hfields⟩, scalar, shared, -⟩ h
    exact h f (by simp [hfields]) scalar shared

namespace FirstShared

variable (h : t.FirstShared a b before f)
include h

lemma mem_fields : f ∈ t.record.schema.fields t.record.kind := by
  obtain ⟨after, hfields⟩ := h.order
  simp [hfields]

lemma names : t.record.schema.Names t.record.kind f := by
  obtain ⟨e, he, hn⟩ := isSet_iff.1 h.shared.1
  obtain ⟨g, named, hg⟩ := ((t.faithful.fits a).1 e he).names
  have hname : g.name = f.name := hg.trans hn
  have hfield := field?_of_mem h.mem_fields
  rw [← hname, named.1, Option.some.injEq] at hfield
  exact hfield ▸ named

lemma exists_entry : ∃ e rest, e.name = f.name ∧
    t.record.entries a = t.record.entries (t.keep before a) ++ e :: rest := by
  obtain ⟨after, hfields⟩ := h.order
  have hentries := entries_eq_pick_append (a := a) hfields
  rw [pick_cons] at hentries
  have honce := Slot.once_cases ((t.faithful.fits a).2 f.name
    ((isScalar_of_mem h.mem_fields).trans h.scalar))
  rcases honce with hnone | ⟨e, hone, -, hn⟩
  · obtain ⟨e, he, hn⟩ := isSet_iff.1 h.shared.1
    have hmem := mem_entriesNamed.2 ⟨he, hn⟩
    rw [hnone] at hmem
    cases hmem
  · rw [entries_keep hfields]
    rw [hone] at hentries
    exact ⟨e, _, hn, hentries⟩

lemma apart_keep : t.Apart b (t.keep before a) := by
  obtain ⟨after, hfields⟩ := h.order
  rw [apart_iff_forall_mem]
  rintro g hg hs ⟨ha, hb⟩
  rw [isSet_keep hfields hg] at ha
  exact h.first g ha.2 hs ⟨ha.1, hb⟩

lemma merge_eq : merge (print a) b = ⟨t.combine b (t.keep before a),
    some ⟨⟨1 + (utf8 (print (t.keep before a))).count 10, 1⟩, .repeatedField f.name⟩⟩ := by
  obtain ⟨e, rest, hn, hentries⟩ := h.exists_entry
  have fits := t.faithful.fits a
  rw [hentries] at fits
  have hread := readInto_repeated t.choicesSpelled fits h.apart_keep h.names hn h.scalar
    h.shared.2
  have hprint : print a = render (t.record.entries (t.keep before a) ++ e :: rest) := by
    rw [← hentries]
    rfl
  simp only [merge, hprint, hread, t.ofEntries_append]
  rfl

/-- The merge stops where the scalar is printed. -/
lemma print_eq : ∃ rest, print a = print (t.keep before a) ++ (f.name ++ (": " ++ rest)) := by
  obtain ⟨e, rest, hn, hentries⟩ := h.exists_entry
  have hfits : e ∈ t.record.entries a := by simp [hentries]
  obtain ⟨value, vs, line⟩ :=
    ((t.faithful.fits a).1 e hfits).line t.choicesSpelled h.names hn h.scalar
  refine ⟨value ++ render rest, ?_⟩
  have hprint : print a = render (t.record.entries (t.keep before a) ++ e :: rest) := by
    rw [← hentries]
    rfl
  rw [hprint, line.render_eq, String.append_assoc, String.append_assoc]
  rfl

end FirstShared

/-- A record without scalars can be merged into itself, which doubles every list. -/
lemma merge_own_of_no_scalar
    (h : ∀ f ∈ t.record.schema.fields t.record.kind, f.shape.isScalar = true → ¬t.IsSet f a) :
    ∃ m, merge (print a) a = ⟨m, none⟩ ∧ ∀ n, entriesNamed n (t.record.entries m) =
      entriesNamed n (t.record.entries a) ++ entriesNamed n (t.record.entries a) := by
  have hapart : t.Apart a a := apart_iff_forall_mem.2 fun f hf hs hset => h f hf hs hset.1
  exact ⟨_, merge_print_eq_iff.2 ⟨hapart, rfl⟩, entriesNamed_combine hapart⟩

/-- Any other record has a first scalar, before which its own text cannot be merged further. -/
lemma merge_own_of_first_scalar {after : List (FieldSchema t.record.Kind)}
    (hfields : t.record.schema.fields t.record.kind = before ++ f :: after)
    (scalar : f.shape.isScalar = true) (hset : t.IsSet f a)
    (first : ∀ g ∈ before, g.shape.isScalar = true → ¬t.IsSet g a) :
    ∃ m p, merge (print a) a = ⟨m, some ⟨p, .repeatedField f.name⟩⟩ ∧
      ∀ n, entriesNamed n (t.record.entries m) = if n ∈ before.map FieldSchema.name then
        entriesNamed n (t.record.entries a) ++ entriesNamed n (t.record.entries a)
      else entriesNamed n (t.record.entries a) := by
  have h : t.FirstShared a a before f :=
    ⟨⟨after, hfields⟩, scalar, ⟨hset, hset⟩, fun g hg hs hboth => first g hg hs hboth.1⟩
  refine ⟨_, _, h.merge_eq, fun n => ?_⟩
  rw [entriesNamed_combine h.apart_keep, entriesNamed_keep hfields]
  split_ifs
  · rfl
  · exact List.append_nil _

/-- A printed record can be merged into another exactly when no scalar is set in both, and then
the two are combined. Otherwise there is a first scalar, in the order of printing, that is set in
both. The merge fails at the start of its line and leaves what the fields printed before this line
add. So does a record that is merged into itself, unless it has no scalar. -/
theorem merge_print_into (t : RecordType) (a b : t.Carrier) :
    (∀ m, merge (print a) b = ⟨m, none⟩ ↔ t.Apart b a ∧ m = t.combine b a) ∧
      (¬t.Apart b a ↔ ∃ before f, t.FirstShared a b before f) ∧
      (∀ before f, t.FirstShared a b before f →
        let line := 1 + (utf8 (print (t.keep before a))).count 10
        let fault : Fault := ⟨⟨line, 1⟩, .repeatedField f.name⟩
        merge (print a) b = ⟨t.combine b (t.keep before a), some fault⟩ ∧
        fault.message =
          s!"line {line}, column 1: non-repeated field '{f.name}' specified multiple times" ∧
        (∃ rest, print a = print (t.keep before a) ++ (f.name ++ (": " ++ rest))) ∧
        ∀ n, entriesNamed n (t.record.entries (t.keep before a)) =
          if n ∈ before.map FieldSchema.name then entriesNamed n (t.record.entries a) else []) ∧
      ((∀ f ∈ t.record.schema.fields t.record.kind, f.shape.isScalar = true → ¬t.IsSet f a) →
        ∃ m, merge (print a) a = ⟨m, none⟩ ∧ ∀ n, entriesNamed n (t.record.entries m) =
          entriesNamed n (t.record.entries a) ++ entriesNamed n (t.record.entries a)) ∧
      ∀ before f after, t.record.schema.fields t.record.kind = before ++ f :: after →
        f.shape.isScalar = true → t.IsSet f a →
        (∀ g ∈ before, g.shape.isScalar = true → ¬t.IsSet g a) →
        ∃ m p, merge (print a) a = ⟨m, some ⟨p, .repeatedField f.name⟩⟩ ∧
          ∀ n, entriesNamed n (t.record.entries m) = if n ∈ before.map FieldSchema.name then
            entriesNamed n (t.record.entries a) ++ entriesNamed n (t.record.entries a)
          else entriesNamed n (t.record.entries a) := by
  refine ⟨fun m => merge_print_eq_iff, not_apart_iff, fun before f h => ?_,
    merge_own_of_no_scalar, fun before f after => merge_own_of_first_scalar⟩
  obtain ⟨after, hfields⟩ := h.order
  exact ⟨h.merge_eq, Fault.message_repeatedField _ _, h.print_eq, entriesNamed_keep hfields⟩

/-- The lists stand between the scalars that are set in both toolchains. Merged into itself, the
first toolchain fails before its lists, and one with lists alone does not fail. -/
theorem merge_print_into_toolchain :
    let fields := RecordKind.fields .toolchain
    let a : Toolchain := { hostSystemName := some "k8", linkerFlags := ["-s", "-z"],
                           builtinSysroot := some "/", needsPic := some true }
    let b : Toolchain := { linkerFlags := ["-g"], builtinSysroot := some "/b",
                           needsPic := some false }
    let c : Toolchain := { linkerFlags := ["-s", "-z"] }
    toolchain.FirstShared a b (fields.take 21) ⟨"builtin_sysroot", .text⟩ ∧
      merge (print a) b =
        ⟨{ b with hostSystemName := some "k8", linkerFlags := ["-g", "-s", "-z"] },
          some ⟨⟨4, 1⟩, .repeatedField "builtin_sysroot"⟩⟩ ∧
      (∃ m p, merge (print a) a = ⟨m, some ⟨p, .repeatedField "host_system_name"⟩⟩) ∧
      ∃ m, merge (print c) c = ⟨m, none⟩ := by
  intro fields a b c
  have h : toolchain.FirstShared a b (fields.take 21) ⟨"builtin_sysroot", .text⟩ :=
    ⟨⟨fields.drop 22, rfl⟩, rfl, by decide +kernel, by decide +kernel⟩
  have hrecord : toolchain.combine b (toolchain.keep (fields.take 21) a) =
      { b with hostSystemName := some "k8", linkerFlags := ["-g", "-s", "-z"] } := by
    decide +kernel
  have hline : 1 + (utf8 (print (toolchain.keep (fields.take 21) a))).count 10 = 4 := by
    decide +kernel
  obtain ⟨-, -, hshared, -, hself⟩ := merge_print_into toolchain a b
  obtain ⟨-, -, -, hlists, -⟩ := merge_print_into toolchain c c
  obtain ⟨m, p, hown, -⟩ := hself (fields.take 1) ⟨"host_system_name", .text⟩ (fields.drop 2) rfl
    rfl (by decide +kernel) (by decide +kernel)
  obtain ⟨m', hlist, -⟩ := hlists (by decide +kernel)
  refine ⟨h, ?_, ⟨m, p, hown⟩, m', hlist⟩
  rw [(hshared _ _ h).1, hrecord, hline]

end RecordType

end ToolchainRelease
