import Mathlib.Data.List.Basic
import ToolchainRelease.Proofs.Text.Grammar

/-! The entries that a record of a schema can have, and the order in which the schema puts them:
field by field, and the entries of one field as they stand in the text. -/
namespace ToolchainRelease.Text

variable {Kind : Type} {S : Schema Kind}

def entriesNamed (n : String) (es : List Entry) : List Entry := es.filter fun e => e.name = n

lemma entriesNamed_append (n : String) (as bs : List Entry) :
    entriesNamed n (as ++ bs) = entriesNamed n as ++ entriesNamed n bs :=
  List.filter_append ..

lemma mem_entriesNamed {n : String} {e : Entry} {es : List Entry} :
    e ∈ entriesNamed n es ↔ e ∈ es ∧ e.name = n := by
  simp [entriesNamed]

lemma hasField_eq_false_iff {n : String} {es : List Entry} :
    hasField n es = false ↔ entriesNamed n es = [] := by
  simp [entriesNamed, hasField]

namespace Schema

def Once (S : Schema Kind) (k : Kind) (es : List Entry) : Prop :=
  ∀ n, S.isScalar k n = true → (entriesNamed n es).length ≤ 1

lemma Once.snoc {k : Kind} {es : List Entry} {e : Entry} (h : S.Once k es)
    (he : S.isScalar k e.name = true → hasField e.name es = false) : S.Once k (es ++ [e]) := by
  intro n hn
  rw [entriesNamed_append]
  by_cases hname : e.name = n
  · subst hname
    rw [hasField_eq_false_iff.1 (he hn)]
    simp [entriesNamed]
  · simpa [entriesNamed, hname] using h n hn

lemma Once.of_append {k : Kind} {as bs : List Entry} (h : S.Once k (as ++ bs)) : S.Once k as := by
  intro n hn
  have hle := h n hn
  rw [entriesNamed_append, List.length_append] at hle
  omega

def inOrder (S : Schema Kind) (k : Kind) (es : List Entry) : List Entry :=
  (S.fields k).flatMap fun f => entriesNamed f.name es

end Schema

/-- The entries that a record of a kind may have. -/
inductive Entry.Fits (S : Schema Kind) : Kind → Entry → Prop
  | text {k : Kind} {f : FieldSchema Kind} {v : String} (named : S.Names k f)
      (shape : f.shape = .text ∨ f.shape = .texts) : Fits S k (.text f.name v)
  | flag {k : Kind} {f : FieldSchema Kind} {v : Bool} (named : S.Names k f)
      (shape : f.shape = .flag) : Fits S k (.flag f.name v)
  | choice {k : Kind} {f : FieldSchema Kind} {c : Choices} {v : String} (named : S.Names k f)
      (shape : f.shape = .choice c) (listed : v ∈ c.names) : Fits S k (.choice f.name v)
  | record {k k' : Kind} {f : FieldSchema Kind} {fields : List Entry} (named : S.Names k f)
      (shape : f.shape = .records k') (inside : ∀ e ∈ fields, Fits S k' e)
      (once : S.Once k' fields) : Fits S k (.record f.name fields)

namespace Entry.Fits

variable {k : Kind} {f : FieldSchema Kind} {e : Entry}

lemma eq_text (h : e.Fits S k) (named : S.Names k f) (hn : e.name = f.name)
    (shape : f.shape = .text ∨ f.shape = .texts) : ∃ v, e = .text f.name v := by
  cases h with
  | @text _ _ v => exact ⟨v, by rw [← hn]; rfl⟩
  | flag named' shape' => cases named'.unique named hn; simp_all
  | choice named' shape' => cases named'.unique named hn; simp_all
  | record named' shape' => cases named'.unique named hn; simp_all

lemma eq_flag (h : e.Fits S k) (named : S.Names k f) (hn : e.name = f.name)
    (shape : f.shape = .flag) : ∃ v, e = .flag f.name v := by
  cases h with
  | @flag _ _ v => exact ⟨v, by rw [← hn]; rfl⟩
  | text named' shape' => cases named'.unique named hn; simp_all
  | choice named' shape' => cases named'.unique named hn; simp_all
  | record named' shape' => cases named'.unique named hn; simp_all

lemma eq_choice {c : Choices} (h : e.Fits S k) (named : S.Names k f) (hn : e.name = f.name)
    (shape : f.shape = .choice c) : ∃ v ∈ c.names, e = .choice f.name v := by
  cases h with
  | @choice _ _ c' v named' shape' listed =>
    cases named'.unique named hn
    cases shape'.symm.trans shape
    exact ⟨v, listed, rfl⟩
  | text named' shape' => cases named'.unique named hn; simp_all
  | flag named' shape' => cases named'.unique named hn; simp_all
  | record named' shape' => cases named'.unique named hn; simp_all

lemma eq_record {k' : Kind} (h : e.Fits S k) (named : S.Names k f) (hn : e.name = f.name)
    (shape : f.shape = .records k') :
    ∃ fields, e = .record f.name fields ∧ (∀ d ∈ fields, d.Fits S k') ∧ S.Once k' fields := by
  cases h with
  | @record _ _ _ fields named' shape' inside once =>
    cases named'.unique named hn
    cases shape'.symm.trans shape
    exact ⟨fields, rfl, inside, once⟩
  | text named' shape' => cases named'.unique named hn; simp_all
  | flag named' shape' => cases named'.unique named hn; simp_all
  | choice named' shape' => cases named'.unique named hn; simp_all

end Entry.Fits

def Schema.Fits (S : Schema Kind) (k : Kind) (es : List Entry) : Prop :=
  (∀ e ∈ es, e.Fits S k) ∧ S.Once k es

lemma Schema.fits_nil (k : Kind) : S.Fits k [] :=
  ⟨fun _ h => (List.not_mem_nil h).elim, fun _ _ => Nat.zero_le 1⟩

lemma Schema.Fits.snoc {k : Kind} {es : List Entry} {e : Entry} (h : S.Fits k es)
    (he : e.Fits S k) (once : S.isScalar k e.name = true → hasField e.name es = false) :
    S.Fits k (es ++ [e]) := by
  refine ⟨fun d hd => ?_, h.2.snoc once⟩
  rcases List.mem_append.1 hd with hd | hd
  · exact h.1 d hd
  · rwa [List.mem_singleton.1 hd]

lemma Schema.Fits.of_append {k : Kind} {as bs : List Entry} (h : S.Fits k (as ++ bs)) :
    S.Fits k as :=
  ⟨fun e he => h.1 e (List.mem_append_left bs he), h.2.of_append⟩

lemma Schema.Fits.append {k : Kind} {as bs : List Entry} (ha : S.Fits k as) (hb : S.Fits k bs)
    (apart : S.Apart k as bs) : S.Fits k (as ++ bs) := by
  refine ⟨fun e he => (List.mem_append.1 he).elim (ha.1 e) (hb.1 e), fun n hn => ?_⟩
  rw [entriesNamed_append]
  rcases apart n hn with h | h
  · simpa [hasField_eq_false_iff.1 h] using hb.2 n hn
  · simpa [hasField_eq_false_iff.1 h] using ha.2 n hn

/-- Two lists of entries fit together when each fits and they have no scalar in common. -/
lemma Schema.fits_append_iff {k : Kind} {as bs : List Entry} :
    S.Fits k (as ++ bs) ↔ S.Fits k as ∧ S.Fits k bs ∧ S.Apart k as bs := by
  refine ⟨fun h => ?_, fun ⟨ha, hb, apart⟩ => ha.append hb apart⟩
  have hlength {n : String} (hn : S.isScalar k n = true) :
      (entriesNamed n as).length + (entriesNamed n bs).length ≤ 1 := by
    rw [← List.length_append, ← entriesNamed_append]
    exact h.2 n hn
  refine ⟨h.of_append, ⟨fun e he => h.1 e (List.mem_append_right as he), fun n hn => ?_⟩,
    fun n hn => ?_⟩
  · exact Nat.le_trans (Nat.le_add_left _ _) (hlength hn)
  · rw [hasField_eq_false_iff, hasField_eq_false_iff, ← List.length_eq_zero_iff,
      ← List.length_eq_zero_iff]
    have := hlength hn
    omega

lemma Schema.fits_congr {k : Kind} {as bs : List Entry}
    (h : ∀ n, entriesNamed n as = entriesNamed n bs) : S.Fits k as ↔ S.Fits k bs := by
  have hmem (e : Entry) : e ∈ as ↔ e ∈ bs := by
    have hnamed := congrArg (e ∈ ·) (h e.name)
    simpa only [mem_entriesNamed, and_true, eq_iff_iff] using hnamed
  simp only [Schema.Fits, Schema.Once, h, hmem]

lemma ValueOf.fits {k : Kind} {f : FieldSchema Kind} {vs : List Token} {e : Entry}
    (h : ValueOf f vs e) (named : S.Names k f) : e.Fits S k := by
  cases h with
  | text shape found joined => exact .text named shape
  | flag shape spelled => exact .flag named shape
  | choice shape listed => exact .choice named shape listed

theorem Body.fits {k : Kind} {separable : Bool} {ts : List Token} {es : List Entry}
    (h : Body S k separable ts es) : S.Fits k es := by
  induction h with
  | empty => exact Schema.fits_nil _
  | value before named spelled once ih =>
    refine ih.snoc (spelled.fits named) fun hs => ?_
    rw [spelled.name_eq] at hs ⊢
    exact once (named.isScalar_eq ▸ hs)
  | block before named shape optional inside ih ihInside =>
    refine ih.snoc (.record named shape ihInside.1 ihInside.2) fun hs => ?_
    rw [Entry.name, named.isScalar_eq, shape] at hs
    cases hs
  | separator before ih => exact ih

lemma Derives.fits {k : Kind} {ts : List Token} {es : List Entry} (h : Derives S k ts es) :
    S.Fits k es :=
  h.elim fun _ body => body.fits

mutual

def Entry.arrange (S : Schema Kind) (k : Kind) : Entry → Entry
  | .text n v => .text n v
  | .flag n v => .flag n v
  | .choice n v => .choice n v
  | .record n fields =>
    match S.field? k n with
    | some ⟨_, .records k'⟩ => .record n (S.inOrder k' (arrangeEach S k' fields))
    | _ => .record n fields

def arrangeEach (S : Schema Kind) (k : Kind) : List Entry → List Entry
  | [] => []
  | e :: es => e.arrange S k :: arrangeEach S k es

end

/-- Puts all entries, also those of nested records, in the order of the schema. -/
def arrange (S : Schema Kind) (k : Kind) (es : List Entry) : List Entry :=
  S.inOrder k (arrangeEach S k es)

lemma arrange_nil (k : Kind) : arrange S k [] = [] := by
  simp [arrange, arrangeEach, Schema.inOrder, entriesNamed]

lemma arrangeEach_eq_map (k : Kind) (es : List Entry) :
    arrangeEach S k es = es.map (Entry.arrange S k) := by
  induction es with
  | nil => rw [arrangeEach, List.map_nil]
  | cons e es ih => rw [arrangeEach, List.map_cons, ih]

lemma Entry.name_arrange (k : Kind) (e : Entry) : (e.arrange S k).name = e.name := by
  cases e with
  | record n fields =>
    rw [Entry.arrange]
    split <;> rfl
  | _ => simp only [Entry.arrange]

lemma Entry.arrange_record {k k' : Kind} {f : FieldSchema Kind} (named : S.Names k f)
    (shape : f.shape = .records k') (fields : List Entry) :
    (Entry.record f.name fields).arrange S k = .record f.name (Text.arrange S k' fields) := by
  obtain ⟨n, s⟩ := f
  cases shape
  rw [Entry.arrange, named.1]
  rfl

lemma entriesNamed_arrangeEach (k : Kind) (n : String) (es : List Entry) :
    entriesNamed n (arrangeEach S k es) = (entriesNamed n es).map (Entry.arrange S k) := by
  simp [entriesNamed, arrangeEach_eq_map, List.filter_map, Function.comp_def, Entry.name_arrange]

lemma entriesNamed_entriesNamed (n m : String) (es : List Entry) :
    entriesNamed n (entriesNamed m es) = if n = m then entriesNamed n es else [] := by
  split_ifs with h
  · subst h
    simp [entriesNamed]
  · refine List.filter_eq_nil_iff.2 fun e he => ?_
    rw [(mem_entriesNamed.1 he).2]
    simpa using Ne.symm h

def pick (fs : List (FieldSchema Kind)) (es : List Entry) : List Entry :=
  fs.flatMap fun f => entriesNamed f.name es

lemma pick_append (fs gs : List (FieldSchema Kind)) (es : List Entry) :
    pick (fs ++ gs) es = pick fs es ++ pick gs es :=
  List.flatMap_append

lemma pick_cons (f : FieldSchema Kind) (fs : List (FieldSchema Kind)) (es : List Entry) :
    pick (f :: fs) es = entriesNamed f.name es ++ pick fs es :=
  List.flatMap_cons

lemma mem_pick {fs : List (FieldSchema Kind)} {es : List Entry} {e : Entry} :
    e ∈ pick fs es ↔ e ∈ es ∧ e.name ∈ fs.map FieldSchema.name := by
  simp only [pick, List.mem_flatMap, mem_entriesNamed, List.mem_map]
  constructor
  · rintro ⟨f, hf, he, hn⟩
    exact ⟨he, f, hf, hn.symm⟩
  · rintro ⟨he, f, hf, hn⟩
    exact ⟨f, hf, he, hn.symm⟩

lemma entriesNamed_pick {fs : List (FieldSchema Kind)}
    (distinct : (fs.map FieldSchema.name).Nodup) (n : String) (es : List Entry) :
    entriesNamed n (pick fs es) =
      if n ∈ fs.map FieldSchema.name then entriesNamed n es else [] := by
  induction fs with
  | nil => rfl
  | cons f fs ih =>
    obtain ⟨hnew, hrest⟩ := List.nodup_cons.1 distinct
    rw [pick_cons, entriesNamed_append, entriesNamed_entriesNamed, ih hrest]
    by_cases hn : n = f.name
    · subst hn
      rw [if_pos rfl, if_neg hnew, if_pos (by simp), List.append_nil]
    · simp [hn]

lemma pick_pick {fs gs : List (FieldSchema Kind)}
    (distinct : ((fs ++ gs).map FieldSchema.name).Nodup) (es : List Entry) :
    pick (fs ++ gs) (pick fs es) = pick fs es := by
  rw [List.map_append] at distinct
  obtain ⟨hfs, -, hapart⟩ := List.nodup_append.1 distinct
  have hfirst : pick fs (pick fs es) = pick fs es := List.flatMap_congr fun f hf => by
    rw [entriesNamed_pick hfs, if_pos (List.mem_map_of_mem hf)]
  have hlast : pick gs (pick fs es) = [] := List.flatMap_eq_nil_iff.2 fun g hg => by
    rw [entriesNamed_pick hfs, if_neg fun hmem => hapart _ hmem _ (List.mem_map_of_mem hg) rfl]
  rw [pick_append, hfirst, hlast, List.append_nil]

lemma entriesNamed_arrange {k : Kind} (distinct : ((S.fields k).map FieldSchema.name).Nodup)
    (n : String) (es : List Entry) :
    entriesNamed n (arrange S k es) =
      if n ∈ (S.fields k).map FieldSchema.name then (entriesNamed n es).map (Entry.arrange S k)
      else [] := by
  rw [← entriesNamed_arrangeEach]
  exact entriesNamed_pick distinct n (arrangeEach S k es)

section Arranged

variable {k : Kind} {es : List Entry} (distinct : ((S.fields k).map FieldSchema.name).Nodup)
  (arranged : arrange S k es = es)
include distinct arranged

lemma pick_fields : pick (S.fields k) es = es := by
  have hpick : pick (S.fields k) (arrange S k es) = arrange S k es :=
    List.flatMap_congr fun f hf => by
      have hn : f.name ∈ (S.fields k).map FieldSchema.name := List.mem_map_of_mem hf
      rw [entriesNamed_arrange distinct, if_pos hn, entriesNamed_arrangeEach]
  rwa [arranged] at hpick

lemma arrange_of_mem {e : Entry} (he : e ∈ es) : e.arrange S k = e := by
  have hn : e.name ∈ (S.fields k).map FieldSchema.name := by
    rw [← pick_fields distinct arranged] at he
    exact (mem_pick.1 he).2
  have h := entriesNamed_arrange distinct e.name es
  rw [arranged, if_pos hn] at h
  exact List.map_inj_left.1 (h.symm.trans (List.map_id _).symm) e (mem_entriesNamed.2 ⟨he, rfl⟩)

/-- The entries of the first fields are arranged when all entries are. -/
lemma arrange_pick {fs gs : List (FieldSchema Kind)} (hfields : S.fields k = fs ++ gs) :
    arrange S k (pick fs es) = pick fs es := by
  have heach : arrangeEach S k (pick fs es) = pick fs es := by
    rw [arrangeEach_eq_map]
    refine (List.map_congr_left fun e he => ?_).trans (List.map_id _)
    exact arrange_of_mem distinct arranged (mem_pick.1 he).1
  have hpicked : pick (S.fields k) (pick fs es) = pick fs es := by
    rw [hfields]
    exact pick_pick (hfields ▸ distinct) es
  rw [arrange, heach]
  exact hpicked

end Arranged

/-- Only the entries of each field, and their order, matter to the arranged list. -/
lemma arrange_congr {k : Kind} {as bs : List Entry}
    (h : ∀ n ∈ (S.fields k).map FieldSchema.name, (entriesNamed n as).map (Entry.arrange S k) =
      (entriesNamed n bs).map (Entry.arrange S k)) : arrange S k as = arrange S k bs := by
  unfold arrange Schema.inOrder
  refine List.flatMap_congr fun f hf => ?_
  have hname : f.name ∈ (S.fields k).map FieldSchema.name := List.mem_map_of_mem hf
  rw [entriesNamed_arrangeEach, entriesNamed_arrangeEach, h f.name hname]

lemma Entry.Fits.names {k : Kind} {e : Entry} (h : e.Fits S k) :
    ∃ f, S.Names k f ∧ f.name = e.name := by
  cases h with
  | text named | flag named | choice named | record named => exact ⟨_, named, rfl⟩

lemma Entry.Fits.name_mem {k : Kind} {e : Entry} (h : e.Fits S k) :
    e.name ∈ (S.fields k).map FieldSchema.name := by
  obtain ⟨f, named, hn⟩ := h.names
  rw [← hn]
  exact List.mem_map_of_mem (Schema.mem_of_field? named.1)

lemma entriesNamed_arrange_of_fits {k : Kind}
    (distinct : ((S.fields k).map FieldSchema.name).Nodup) {es : List Entry}
    (fits : ∀ e ∈ es, e.Fits S k) (n : String) :
    entriesNamed n (arrange S k es) = (entriesNamed n es).map (Entry.arrange S k) := by
  rw [entriesNamed_arrange distinct]
  split_ifs with hn
  · rfl
  · refine (List.map_eq_nil_iff.2 (List.filter_eq_nil_iff.2 fun e he => ?_)).symm
    have hmem := (fits e he).name_mem
    simp only [decide_eq_true_eq]
    rintro rfl
    exact hn hmem

lemma hasField_arrange {k : Kind} (distinct : ((S.fields k).map FieldSchema.name).Nodup)
    {es : List Entry} (fits : ∀ e ∈ es, e.Fits S k) (n : String) :
    hasField n (arrange S k es) = hasField n es := by
  have hiff : hasField n (arrange S k es) = false ↔ hasField n es = false := by
    rw [hasField_eq_false_iff, hasField_eq_false_iff, entriesNamed_arrange_of_fits distinct fits,
      List.map_eq_nil_iff]
  cases hn : hasField n es with
  | false => exact hiff.2 hn
  | true =>
    by_contra h
    rw [Bool.not_eq_true] at h
    rw [hiff.1 h] at hn
    cases hn

lemma entriesNamed_arrange_append {k : Kind}
    (distinct : ((S.fields k).map FieldSchema.name).Nodup) (n : String) (as bs : List Entry) :
    entriesNamed n (arrange S k as) <+: entriesNamed n (arrange S k (as ++ bs)) := by
  rw [entriesNamed_arrange distinct, entriesNamed_arrange distinct, entriesNamed_append,
    List.map_append]
  split_ifs
  · exact List.prefix_append _ _
  · exact List.prefix_rfl

end ToolchainRelease.Text
