import Mathlib.Tactic.Common
import ToolchainRelease.Text.Reader

/-! The grammar of the text format, over tokens. A body is a sequence of fields, each with at most
one separator after it, and derives the entries of a record in the order of the text. -/
namespace ToolchainRelease.Text

variable {Kind : Type} {S : Schema Kind}

namespace Schema

/-- `f` is a field of a kind of record, and its name is a word that may stand for a field. -/
def Names (S : Schema Kind) (k : Kind) (f : FieldSchema Kind) : Prop :=
  S.field? k f.name = some f ∧ isFieldName f.name = true

def isScalar (S : Schema Kind) (k : Kind) (name : String) : Bool :=
  (S.field? k name).any fun f => f.shape.isScalar

lemma names_of_field? {k : Kind} {w : String} {f : FieldSchema Kind}
    (h : S.field? k w = some f) (hw : isFieldName w = true) : f.name = w ∧ S.Names k f := by
  have hn := name_of_field? h
  subst hn
  exact ⟨rfl, h, hw⟩

lemma Names.unique {k : Kind} {f g : FieldSchema Kind} (hf : S.Names k f) (hg : S.Names k g)
    (h : f.name = g.name) : f = g :=
  Option.some.inj (hf.1.symm.trans (h ▸ hg.1))

lemma Names.isScalar_eq {k : Kind} {f : FieldSchema Kind} (h : S.Names k f) :
    S.isScalar k f.name = f.shape.isScalar := by
  simp [isScalar, h.1]

def Apart (S : Schema Kind) (k : Kind) (as bs : List Entry) : Prop :=
  ∀ n, S.isScalar k n = true → hasField n as = false ∨ hasField n bs = false

lemma apart_nil_right (k : Kind) (as : List Entry) : S.Apart k as [] := fun _ _ => .inr rfl

lemma apart_nil_left (k : Kind) (bs : List Entry) : S.Apart k [] bs := fun _ _ => .inl rfl

lemma Apart.of_append {k : Kind} {as bs cs : List Entry} (h : S.Apart k as (bs ++ cs)) :
    S.Apart k as bs := by
  intro n hs
  rcases h n hs with h | h
  · exact .inl h
  · rw [hasField_append, Bool.or_eq_false_iff] at h
    exact .inr h.1

lemma Apart.snoc {k : Kind} {as bs : List Entry} {e : Entry} (h : S.Apart k as bs)
    (he : S.isScalar k e.name = true → hasField e.name as = false) :
    S.Apart k as (bs ++ [e]) := by
  intro n hs
  by_cases hn : e.name = n
  · subst hn
    exact .inl (he hs)
  · rcases h n hs with h | h
    · exact .inl h
    · refine .inr ?_
      rw [hasField_append, h]
      simp [hasField, hn]

lemma Apart.hasField_eq_false {k : Kind} {as bs : List Entry} {e : Entry}
    (h : S.Apart k as (bs ++ [e])) (hs : S.isScalar k e.name = true) :
    hasField e.name as = false := by
  rcases h e.name hs with h | h
  · exact h
  · simp [hasField] at h

end Schema

def flagWords : Bool → List String
  | true => ["true", "True", "t", "1"]
  | false => ["false", "False", "f", "0"]

lemma readFlag?_eq_some_iff {w : String} {v : Bool} : readFlag? w = some v ↔ w ∈ flagWords v := by
  unfold readFlag?
  split
  · next h =>
    cases v
    · have hf : w ∉ flagWords false := by
        simp only [List.mem_cons, List.not_mem_nil, or_false] at h
        rcases h with rfl | rfl | rfl | rfl <;> decide
      simp [hf]
    · simpa [flagWords] using h
  · next h =>
    split <;> cases v <;> simp_all [flagWords]

/-- The tokens after the colon of a field that holds no record, and the entry that they make. -/
inductive ValueOf (f : FieldSchema Kind) : List Token → Entry → Prop
  | text {v : String} {literals : List (List UInt8)}
      (shape : f.shape = .text ∨ f.shape = .texts) (found : literals ≠ [])
      (joined : utf8 v = literals.flatten) :
      ValueOf f (literals.map .literal) (.text f.name v)
  | flag {w : String} {v : Bool} (shape : f.shape = .flag) (spelled : w ∈ flagWords v) :
      ValueOf f [.word w] (.flag f.name v)
  | choice {w : String} {c : Choices} (shape : f.shape = .choice c) (listed : w ∈ c.names) :
      ValueOf f [.word w] (.choice f.name w)

/-- The bodies of a kind of record. A separator may follow a body that ends in a field and has
none yet, which the second index says. -/
inductive Body (S : Schema Kind) : Kind → Bool → List Token → List Entry → Prop
  | empty {k : Kind} : Body S k false [] []
  | value {k : Kind} {separable : Bool} {ts vs : List Token} {es : List Entry}
      {f : FieldSchema Kind} {e : Entry} (before : Body S k separable ts es)
      (named : S.Names k f) (spelled : ValueOf f vs e)
      (once : f.shape.isScalar = true → hasField f.name es = false) :
      Body S k true (ts ++ .word f.name :: .colon :: vs) (es ++ [e])
  | block {k k' : Kind} {separable separable' : Bool} {ts inner : List Token} {es : List Entry}
      {fields : List Entry} {f : FieldSchema Kind} {colon : List Token} {d : Delimiter}
      (before : Body S k separable ts es) (named : S.Names k f) (shape : f.shape = .records k')
      (optional : colon = [] ∨ colon = [.colon]) (inside : Body S k' separable' inner fields) :
      Body S k true (ts ++ .word f.name :: (colon ++ .opening d :: (inner ++ [.closing d])))
        (es ++ [.record f.name fields])
  | separator {k : Kind} {ts : List Token} {es : List Entry} (before : Body S k true ts es) :
      Body S k false (ts ++ [.separator]) es

/-- The tokens are a body of this kind of record, with these entries. -/
def Derives (S : Schema Kind) (k : Kind) (ts : List Token) (es : List Entry) : Prop :=
  ∃ separable, Body S k separable ts es

lemma ValueOf.name_eq {f : FieldSchema Kind} {vs : List Token} {e : Entry} (h : ValueOf f vs e) :
    e.name = f.name := by
  cases h <;> rfl

lemma ValueOf.not_records {f : FieldSchema Kind} {vs : List Token} {e : Entry}
    (h : ValueOf f vs e) (k : Kind) : f.shape ≠ .records k := by
  intro hk
  cases h <;> simp_all

end ToolchainRelease.Text
