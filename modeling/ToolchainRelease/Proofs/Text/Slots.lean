import Mathlib.Data.List.Nodup
import ToolchainRelease.Proofs.Text.Arrangement
import ToolchainRelease.Text.Record

/-! Record types made of slots. A record is restored from its entries, its entries fit its schema,
and the entries of a record that was made of entries are these in the order of the schema. -/
namespace ToolchainRelease.Text

lemma Schema.field?_of_mem {Kind : Type} {S : Schema Kind} {k : Kind} {f : FieldSchema Kind}
    (distinct : ((S.fields k).map FieldSchema.name).Nodup) (h : f ∈ S.fields k) :
    S.field? k f.name = some f := by
  cases hf : S.field? k f.name with
  | none => simpa using List.find?_eq_none.1 hf f h
  | some g =>
    have hname := Schema.name_of_field? hf
    rw [List.inj_on_of_nodup_map distinct (Schema.mem_of_field? hf) h hname]

/-- The laws of a record type that is listed as entries and made of entries. -/
structure Faithful {Kind α : Type} (S : Schema Kind) (k : Kind) (entries : α → List Entry)
    (ofEntries : List Entry → α) : Prop where
  distinct : ((S.fields k).map FieldSchema.name).Nodup
  restores : ∀ r, ofEntries (entries r) = r
  fits : ∀ r, S.Fits k (entries r)
  arranges : ∀ es, S.Fits k es → entries (ofEntries es) = arrange S k es

namespace Faithful

variable {Kind α : Type} {S : Schema Kind} {k : Kind} {entries : α → List Entry}
  {ofEntries : List Entry → α}

lemma arrange_arrange (F : Faithful S k entries ofEntries) {es : List Entry}
    (fits : S.Fits k es) : arrange S k (arrange S k es) = arrange S k es := by
  have hentries := F.arranges es fits
  calc arrange S k (arrange S k es)
    _ = arrange S k (entries (ofEntries es)) := by rw [hentries]
    _ = entries (ofEntries (entries (ofEntries es))) := (F.arranges _ (F.fits _)).symm
    _ = arrange S k es := by rw [F.restores, hentries]

lemma map_arrange_entriesNamed (F : Faithful S k entries ofEntries) {es : List Entry}
    (fits : S.Fits k es) {n : String} (hn : n ∈ (S.fields k).map FieldSchema.name) :
    (entriesNamed n (arrange S k es)).map (Entry.arrange S k) =
      (entriesNamed n es).map (Entry.arrange S k) := by
  have htwice := entriesNamed_arrange F.distinct n (arrange S k es)
  have honce := entriesNamed_arrange F.distinct n es
  rw [F.arrange_arrange fits, if_pos hn] at htwice
  rw [if_pos hn] at honce
  rw [← htwice, honce]

/-- Entries that are arranged already may stand beside others that are not. -/
lemma arrange_append_left (F : Faithful S k entries ofEntries) {as : List Entry}
    (fits : S.Fits k as) (bs : List Entry) :
    arrange S k (arrange S k as ++ bs) = arrange S k (as ++ bs) := by
  refine arrange_congr fun n hn => ?_
  rw [entriesNamed_append, entriesNamed_append, List.map_append, List.map_append,
    F.map_arrange_entriesNamed fits hn]

lemma arrange_append_right (F : Faithful S k entries ofEntries) (as : List Entry)
    {bs : List Entry} (fits : S.Fits k bs) :
    arrange S k (as ++ arrange S k bs) = arrange S k (as ++ bs) := by
  refine arrange_congr fun n hn => ?_
  rw [entriesNamed_append, entriesNamed_append, List.map_append, List.map_append,
    F.map_arrange_entriesNamed fits hn]

end Faithful

namespace Slot

variable {Kind α β : Type} {S : Schema Kind} {k : Kind}

/-- The five sorts of slot, each reading back what it has stored. What is said of nested records
is said of those in the record `r` and among the entries `es` alone. -/
inductive Lawful (S : Schema Kind) (k : Kind) (r : α) (es : List Entry) : Slot Kind α → Prop
  | text {name : String} {get : α → Option String} {set : Option String → α → α}
      (get_set : ∀ v x, get (set v x) = v) : Lawful S k r es (.text name get set)
  | flag {name : String} {get : α → Option Bool} {set : Option Bool → α → α}
      (get_set : ∀ v x, get (set v x) = v) : Lawful S k r es (.flag name get set)
  | choice {β : Type} {name : String} {choices : Choices} {toName : β → String}
      {ofName? : String → Option β} {get : α → Option β} {set : Option β → α → α}
      (get_set : ∀ v x, get (set v x) = v) (listed : ∀ v, toName v ∈ choices.names)
      (named : ∀ w ∈ choices.names, ∃ v, ofName? w = some v ∧ toName v = w) :
      Lawful S k r es (.choice name choices toName ofName? get set)
  | texts {name : String} {get : α → List String} {set : List String → α → α}
      (get_set : ∀ v x, get (set v x) = v) : Lawful S k r es (.texts name get set)
  | records {β : Type} {name : String} {k' : Kind} {entries : β → List Entry}
      {ofEntries : List Entry → β} {get : α → List β} {set : List β → α → α}
      (get_set : ∀ v x, get (set v x) = v) (fits : ∀ v ∈ get r, S.Fits k' (entries v))
      (arranges : ∀ fields, .record name fields ∈ es → S.Fits k' fields →
        entries (ofEntries fields) = arrange S k' fields) :
      Lawful S k r es (.records name k' entries ofEntries get set)

variable {r : α} {es : List Entry} {s : Slot Kind α}

lemma Lawful.entries_name (h : s.Lawful S k r es) :
    ∀ e ∈ s.entries r, e.name = s.field.name := by
  cases h <;>
    · simp only [Slot.text, Slot.flag, Slot.choice, Slot.texts, Slot.records, List.mem_map]
      rintro e ⟨v, -, rfl⟩
      rfl

lemma Lawful.entries_fit (h : s.Lawful S k r es) (named : S.Names k s.field) :
    ∀ e ∈ s.entries r, e.Fits S k := by
  cases h with
  | text get_set =>
    simp only [Slot.text, List.mem_map]
    rintro e ⟨v, -, rfl⟩
    exact .text named (.inl rfl)
  | flag get_set =>
    simp only [Slot.flag, List.mem_map]
    rintro e ⟨v, -, rfl⟩
    exact .flag named rfl
  | choice get_set listed ofName =>
    simp only [Slot.choice, List.mem_map]
    rintro e ⟨v, -, rfl⟩
    exact .choice named rfl (listed v)
  | texts get_set =>
    simp only [Slot.texts, List.mem_map]
    rintro e ⟨v, -, rfl⟩
    exact .text named (.inr rfl)
  | records get_set fits arranges =>
    simp only [Slot.records, List.mem_map]
    rintro e ⟨v, hv, rfl⟩
    exact .record named rfl (fits v hv).1 (fits v hv).2

lemma Lawful.entries_length (h : s.Lawful S k r es) (hs : s.field.shape.isScalar = true) :
    (s.entries r).length ≤ 1 := by
  cases h with
  | text | flag | choice =>
    simp only [Slot.text, Slot.flag, Slot.choice, List.length_map]
    exact Option.length_toList_le
  | texts | records => cases hs

end Slot

lemma Entry.filterMap_named {β : Type} {pick : Entry → Option β} {n : String}
    (h : ∀ e : Entry, e.name ≠ n → pick e = none) (es : List Entry) :
    (entriesNamed n es).filterMap pick = es.filterMap pick := by
  rw [entriesNamed, List.filterMap_filter]
  congr 1
  funext e
  split
  · rfl
  · next hn => exact (h e (by simpa using hn)).symm

lemma Entry.findSome?_named {β : Type} {pick : Entry → Option β} {n : String}
    (h : ∀ e : Entry, e.name ≠ n → pick e = none) (es : List Entry) :
    (entriesNamed n es).findSome? pick = es.findSome? pick := by
  rw [← List.head?_filterMap, filterMap_named h, List.head?_filterMap]

lemma Entry.map_filterMap {β : Type} {pick : Entry → Option β} {make : β → Entry}
    {g : Entry → Entry} {es : List Entry}
    (h : ∀ e ∈ es, ∃ v, pick e = some v ∧ make v = g e) :
    (es.filterMap pick).map make = es.map g := by
  induction es with
  | nil => rfl
  | cons e es ih =>
    obtain ⟨v, hv, hg⟩ := h e (by simp)
    rw [List.filterMap_cons_some hv, List.map_cons, List.map_cons, hg,
      ih fun d hd => h d (by simp [hd])]

lemma Entry.text?_of_ne {n : String} (e : Entry) (h : e.name ≠ n) : e.text? n = none := by
  cases e <;> simp_all [text?, name]

lemma Entry.flag?_of_ne {n : String} (e : Entry) (h : e.name ≠ n) : e.flag? n = none := by
  cases e <;> simp_all [flag?, name]

lemma Entry.choice?_of_ne {n : String} (e : Entry) (h : e.name ≠ n) : e.choice? n = none := by
  cases e <;> simp_all [choice?, name]

lemma Entry.record?_of_ne {n : String} (e : Entry) (h : e.name ≠ n) : e.record? n = none := by
  cases e <;> simp_all [record?, name]

namespace Slot

variable {Kind α : Type} {S : Schema Kind} {k : Kind} {r : α} {es : List Entry} {s : Slot Kind α}

lemma Lawful.store_named (h : s.Lawful S k r es) (ds : List Entry) (x : α) :
    s.store (entriesNamed s.field.name ds) x = s.store ds x := by
  cases h <;> simp only [Slot.text, Slot.flag, Slot.choice, Slot.texts, Slot.records,
    Entry.findSome?_named Entry.text?_of_ne, Entry.findSome?_named Entry.flag?_of_ne,
    Entry.findSome?_named Entry.choice?_of_ne, Entry.filterMap_named Entry.text?_of_ne,
    Entry.filterMap_named Entry.record?_of_ne]

lemma once_cases {n : String} (h : (entriesNamed n es).length ≤ 1) :
    entriesNamed n es = [] ∨ ∃ e, entriesNamed n es = [e] ∧ e ∈ es ∧ e.name = n := by
  cases hes : entriesNamed n es with
  | nil => exact .inl rfl
  | cons e ds =>
    have hds : ds = [] := by simpa [hes] using h
    have he : e ∈ entriesNamed n es := by simp [hes]
    exact .inr ⟨e, by rw [hds], mem_entriesNamed.1 he⟩

lemma Lawful.entries_store (h : s.Lawful S k r es) (named : S.Names k s.field)
    (fits : S.Fits k es) (x : α) :
    s.entries (s.store es x) = (entriesNamed s.field.name es).map (Entry.arrange S k) := by
  have hscalar (hs : s.field.shape.isScalar = true) :=
    once_cases (fits.2 s.field.name (named.isScalar_eq.trans hs))
  rw [← h.store_named]
  cases h with
  | text get_set =>
    rcases hscalar rfl with hes | ⟨e, hes, he, hn⟩
    · rw [hes]
      simp [Slot.text, get_set]
    · obtain ⟨v, rfl⟩ := (fits.1 e he).eq_text named hn (.inl rfl)
      rw [hes]
      simp [Slot.text, get_set, Entry.text?, Entry.arrange]
  | flag get_set =>
    rcases hscalar rfl with hes | ⟨e, hes, he, hn⟩
    · rw [hes]
      simp [Slot.flag, get_set]
    · obtain ⟨v, rfl⟩ := (fits.1 e he).eq_flag named hn rfl
      rw [hes]
      simp [Slot.flag, get_set, Entry.flag?, Entry.arrange]
  | choice get_set listed ofName =>
    rcases hscalar rfl with hes | ⟨e, hes, he, hn⟩
    · rw [hes]
      simp [Slot.choice, get_set]
    · obtain ⟨w, hw, rfl⟩ := (fits.1 e he).eq_choice named hn rfl
      obtain ⟨v, hv, rfl⟩ := ofName w hw
      rw [hes]
      simp [Slot.choice, get_set, Entry.choice?, Entry.arrange, hv]
  | texts get_set =>
    simp only [Slot.texts, get_set]
    refine Entry.map_filterMap fun e he => ?_
    obtain ⟨he, hn⟩ := mem_entriesNamed.1 he
    obtain ⟨v, rfl⟩ := (fits.1 e he).eq_text named hn (.inr rfl)
    exact ⟨v, if_pos rfl, by rw [Entry.arrange]; rfl⟩
  | @records _ name k' entries ofEntries get set get_set _ arranges =>
    -- Of all slots, only this one lists entries that may be out of order inside.
    simp only [Slot.records, get_set, List.map_map]
    refine Entry.map_filterMap fun e he => ?_
    obtain ⟨he, hn⟩ := mem_entriesNamed.1 he
    obtain ⟨fields, rfl, inside, once⟩ := (fits.1 e he).eq_record named hn rfl
    refine ⟨fields, if_pos rfl, ?_⟩
    rw [Entry.arrange_record named rfl, ← arranges fields he ⟨inside, once⟩]
    rfl

section Restore

variable {name : String} {x : α}

lemma text_restore {get : α → Option String} {set : Option String → α → α} :
    (Slot.text name get set : Slot Kind α).store
      ((Slot.text name get set : Slot Kind α).entries r) x = set (get r) x := by
  cases h : get r <;> simp [Slot.text, h, Entry.text?]

lemma flag_restore {get : α → Option Bool} {set : Option Bool → α → α} :
    (Slot.flag name get set : Slot Kind α).store
      ((Slot.flag name get set : Slot Kind α).entries r) x = set (get r) x := by
  cases h : get r <;> simp [Slot.flag, h, Entry.flag?]

lemma choice_restore {β : Type} {choices : Choices} {toName : β → String}
    {ofName? : String → Option β} {get : α → Option β} {set : Option β → α → α}
    (h : ∀ v, ofName? (toName v) = some v) :
    (Slot.choice name choices toName ofName? get set : Slot Kind α).store
      ((Slot.choice name choices toName ofName? get set : Slot Kind α).entries r) x =
      set (get r) x := by
  cases hr : get r <;> simp [Slot.choice, hr, Entry.choice?, h]

lemma texts_restore {get : α → List String} {set : List String → α → α} :
    (Slot.texts name get set : Slot Kind α).store
      ((Slot.texts name get set : Slot Kind α).entries r) x = set (get r) x := by
  simp [Slot.texts, List.filterMap_map, Function.comp_def, Entry.text?]

lemma records_restore {β : Type} {k' : Kind} {entries : β → List Entry}
    {ofEntries : List Entry → β} {get : α → List β} {set : List β → α → α}
    (h : ∀ v ∈ get r, ofEntries (entries v) = v) :
    (Slot.records name k' entries ofEntries get set : Slot Kind α).store
      ((Slot.records name k' entries ofEntries get set : Slot Kind α).entries r) x =
      set (get r) x := by
  have hget : (get r).map (fun v => ofEntries (entries v)) = get r := by
    simpa using List.map_congr_left h
  simp [Slot.records, List.filterMap_map, Function.comp_def, Entry.record?, hget]

end Restore

end Slot

/-- A record type with one slot for each field of its schema. -/
structure Layout {Kind α : Type} (S : Schema Kind) (k : Kind) (slots : List (Slot Kind α))
    (empty : α) : Prop where
  fields : S.fields k = slots.map Slot.field
  distinct : (slots.map fun s => s.field.name).Nodup
  nameable : ∀ s ∈ slots, isFieldName s.field.name = true
  /-- Storing into one slot leaves the others as they are. -/
  apart : ∀ es, ∀ s ∈ slots,
    s.entries (Slot.ofEntries slots empty es) = s.entries (s.store es empty)

namespace Layout

variable {Kind α : Type} {S : Schema Kind} {k : Kind} {slots : List (Slot Kind α)} {empty : α}

lemma fields_distinct (L : Layout S k slots empty) :
    ((S.fields k).map FieldSchema.name).Nodup := by
  rw [L.fields, List.map_map]
  exact L.distinct

lemma names (L : Layout S k slots empty) {s : Slot Kind α} (hs : s ∈ slots) :
    S.Names k s.field := by
  refine ⟨Schema.field?_of_mem L.fields_distinct ?_, L.nameable s hs⟩
  rw [L.fields]
  exact List.mem_map_of_mem hs

lemma entriesNamed_entriesOf {r : α} (distinct : (slots.map fun s => s.field.name).Nodup)
    (own : ∀ s ∈ slots, ∀ e ∈ s.entries r, e.name = s.field.name) {s : Slot Kind α}
    (hs : s ∈ slots) :
    entriesNamed s.field.name (Slot.entriesOf slots r) = s.entries r := by
  induction slots with
  | nil => cases hs
  | cons t slots ih =>
    obtain ⟨hnew, hrest⟩ := List.nodup_cons.1 distinct
    replace hnew : t.field.name ∉ slots.map fun s => s.field.name := hnew
    have hown := fun s hs => own s (List.mem_cons_of_mem t hs)
    have hfirst := own t (by simp)
    rw [Slot.entriesOf, List.flatMap_cons, entriesNamed_append]
    rcases List.mem_cons.1 hs with rfl | hs
    · have hothers : entriesNamed s.field.name (Slot.entriesOf slots r) = [] := by
        refine List.filter_eq_nil_iff.2 fun e he => ?_
        obtain ⟨s', hs', he⟩ := List.mem_flatMap.1 he
        have hname := hown s' hs' e he
        simp only [decide_eq_true_eq]
        intro heq
        exact hnew (List.mem_map.2 ⟨s', hs', hname.symm.trans heq⟩)
      have hself : entriesNamed s.field.name (s.entries r) = s.entries r :=
        List.filter_eq_self.2 fun e he => by simpa using hfirst e he
      rw [hself]
      exact (congrArg (s.entries r ++ ·) hothers).trans (List.append_nil _)
    · have hnone : entriesNamed s.field.name (t.entries r) = [] := by
        refine List.filter_eq_nil_iff.2 fun e he => ?_
        simp only [decide_eq_true_eq]
        intro heq
        exact hnew (List.mem_map.2 ⟨s, hs, heq.symm.trans (hfirst e he)⟩)
      rw [hnone]
      exact ih hrest hown hs

lemma ofEntries_entriesOf (L : Layout S k slots empty) {r : α}
    (lawful : ∀ s ∈ slots, s.Lawful S k r []) :
    Slot.ofEntries slots empty (Slot.entriesOf slots r) =
      slots.foldl (fun x s => s.store (s.entries r) x) empty := by
  refine List.foldl_ext _ _ empty fun x s hs => ?_
  rw [← (lawful s hs).store_named, entriesNamed_entriesOf L.distinct
    (fun s hs => (lawful s hs).entries_name) hs]

lemma entriesOf_fits (L : Layout S k slots empty) {r : α}
    (lawful : ∀ s ∈ slots, s.Lawful S k r []) : S.Fits k (Slot.entriesOf slots r) := by
  refine ⟨fun e he => ?_, fun n hn => ?_⟩
  · obtain ⟨s, hs, he⟩ := List.mem_flatMap.1 he
    exact (lawful s hs).entries_fit (L.names hs) e he
  · obtain ⟨f, hf, hscalar⟩ := (Option.any_eq_true _ _).1 hn
    have hmem := Schema.mem_of_field? hf
    rw [L.fields] at hmem
    obtain ⟨s, hs, rfl⟩ := List.mem_map.1 hmem
    rw [← Schema.name_of_field? hf, entriesNamed_entriesOf L.distinct
      (fun s hs => (lawful s hs).entries_name) hs]
    exact (lawful s hs).entries_length hscalar

lemma entriesOf_ofEntries (L : Layout S k slots empty) {r : α} {es : List Entry}
    (lawful : ∀ s ∈ slots, s.Lawful S k r es) (fits : S.Fits k es) :
    Slot.entriesOf slots (Slot.ofEntries slots empty es) = arrange S k es := by
  unfold arrange Schema.inOrder Slot.entriesOf
  rw [L.fields, List.flatMap_map]
  refine List.flatMap_congr fun s hs => ?_
  rw [L.apart es s hs, (lawful s hs).entries_store (L.names hs) fits, entriesNamed_arrangeEach]

/-- A record type is faithful when each of its slots is lawful and the slots together set every
field of the record. -/
theorem faithful (L : Layout S k slots empty)
    (lawful : ∀ r es, ∀ s ∈ slots, s.Lawful S k r es)
    (restores : ∀ r, slots.foldl (fun x s => s.store (s.entries r) x) empty = r) :
    Faithful S k (Slot.entriesOf slots) (Slot.ofEntries slots empty) where
  distinct := L.fields_distinct
  restores r := (L.ofEntries_entriesOf (lawful r [])).trans (restores r)
  fits r := L.entriesOf_fits (lawful r [])
  arranges es fits := L.entriesOf_ofEntries (lawful empty es) fits

end Layout

/-- A slot for records of a faithful type. -/
lemma Faithful.lawful {Kind α β : Type} {S : Schema Kind} {k k' : Kind} {r : α} {es : List Entry}
    {name : String} {entries : β → List Entry} {ofEntries : List Entry → β} {get : α → List β}
    {set : List β → α → α} (F : Faithful S k' entries ofEntries)
    (get_set : ∀ v x, get (set v x) = v) :
    Slot.Lawful S k r es (.records name k' entries ofEntries get set) :=
  .records get_set (fun v _ => F.fits v) fun fields _ => F.arranges fields

end ToolchainRelease.Text
