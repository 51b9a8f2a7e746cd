import Mathlib.Data.List.Infix
import ToolchainRelease.Text.Bytes

/-! How often a text occurs in another. A character that is not in a text separates its occurrences,
and words before or after another text may add none. -/
namespace ToolchainRelease.Text

variable {part before after text : List Char} {c : Char}

/-- At how many places a text occurs. -/
def occurrences (part text : List Char) : Nat := text.tails.countP fun s => part <+: s

lemma occurrences_nil (hpart : part ≠ []) : occurrences part [] = 0 := by
  simp [occurrences, hpart]

lemma occurrences_cons : occurrences part (c :: text) =
    occurrences part text + if part <+: c :: text then 1 else 0 := by
  rw [occurrences, List.tails_cons, List.countP_cons]
  simp only [occurrences, decide_eq_true_eq]

lemma occurrences_eq_zero_iff : occurrences part text = 0 ↔ ¬part <:+: text := by
  simp only [occurrences, List.countP_eq_zero, List.mem_tails, decide_eq_true_eq,
    List.infix_iff_prefix_suffix, not_exists, not_and]
  exact ⟨fun h s hpart hs => h s hs hpart, fun h s hs hpart => h s hpart hs⟩

/-- A text cannot start before a character that it does not have and end after it. -/
lemma prefix_append_cons_iff (before : List Char) (hc : c ∉ part) :
    part <+: before ++ c :: after ↔ part <+: before := by
  constructor
  · intro h
    rcases List.prefix_or_prefix_of_prefix h (List.prefix_append before (c :: after)) with
      hstart | ⟨rest, rfl⟩
    · exact hstart
    · rw [List.prefix_append_right_inj] at h
      cases rest with
      | nil => rw [List.append_nil]
      | cons d rest =>
        have hd : d = c := (List.cons_prefix_cons.1 h).1
        exact absurd (by simp [hd]) hc
  · intro h
    exact h.trans (List.prefix_append before (c :: after))

/-- The occurrences on both sides of a character are all, if the text does not have it. -/
lemma occurrences_append_cons (hpart : part ≠ []) (hc : c ∉ part) :
    occurrences part (before ++ c :: after) = occurrences part before + occurrences part after := by
  induction before with
  | nil =>
    have hnot : ¬part <+: c :: after := by
      intro h
      exact hpart (List.prefix_nil.1 ((prefix_append_cons_iff [] hc).1 h))
    rw [List.nil_append, occurrences_cons, if_neg hnot, occurrences_nil hpart, Nat.add_comm]
  | cons d before ih =>
    have hiff : part <+: d :: (before ++ c :: after) ↔ part <+: d :: before :=
      prefix_append_cons_iff (d :: before) hc
    rw [List.cons_append, occurrences_cons, occurrences_cons, ih, if_congr hiff rfl rfl]
    omega

lemma occurrences_cons_of_ne (h : part.head? ≠ some c) (hpart : part ≠ []) :
    occurrences part (c :: text) = occurrences part text := by
  have hnot : ¬part <+: c :: text := by
    obtain ⟨d, rest, rfl⟩ := List.exists_cons_of_ne_nil hpart
    intro hprefix
    exact h (congrArg some (List.cons_prefix_cons.1 hprefix).1)
  rw [occurrences_cons, if_neg hnot, Nat.add_zero]

lemma occurrences_self (hpart : part ≠ []) : occurrences part part = 1 := by
  obtain ⟨c, rest, rfl⟩ := List.exists_cons_of_ne_nil hpart
  have hrest : occurrences (c :: rest) rest = 0 := by
    rw [occurrences_eq_zero_iff]
    intro h
    have hlength := h.length_le
    rw [List.length_cons] at hlength
    omega
  rw [occurrences_cons, hrest, if_pos (List.prefix_refl _)]

/-- A text does not start within words that have no end to start it with. -/
lemma infix_append_left_iff (outside : ¬part <:+: before)
    (ends : ∀ s ∈ before.tails, s <+: part → s = []) :
    part <:+: before ++ text ↔ part <:+: text := by
  constructor
  · intro h
    rcases List.infix_append_iff.1 h with hbefore | htext | ⟨s, rest, rfl, hs, hrest⟩
    · exact absurd hbefore outside
    · exact htext
    · obtain rfl := ends s ((List.mem_tails s before).2 hs) (List.prefix_append s rest)
      exact hrest.isInfix
  · intro h
    exact List.infix_append_of_infix_right h

lemma infix_append_right_iff (outside : ¬part <:+: after)
    (starts : ∀ s ∈ after.inits, s <:+ part → s = []) :
    part <:+: text ++ after ↔ part <:+: text := by
  constructor
  · intro h
    rcases List.infix_append_iff.1 h with htext | hafter | ⟨rest, s, rfl, hrest, hs⟩
    · exact htext
    · exact absurd hafter outside
    · obtain rfl := starts s ((List.mem_inits s after).2 hs) (List.suffix_append rest s)
      rw [List.append_nil]
      exact hrest.isInfix
  · intro h
    exact List.infix_append_of_infix_left h

def timesIn (part text : String) : Nat := occurrences part.toList text.toList

end ToolchainRelease.Text
