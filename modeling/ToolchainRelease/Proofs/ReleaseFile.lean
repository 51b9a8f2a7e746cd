import ToolchainRelease.Proofs.Output.LimitedSink
import ToolchainRelease.ReleaseFile

/-! What a release file holds when its sink fails: the start of the boilerplate, the header and
the printed release, cut where the sink had no room left. -/
namespace ToolchainRelease.ReleaseFile
open Text

/-- A sink that takes `limit` bytes in all, cutting each write as it likes, and then fails. -/
def limitedSink (limit : Nat) (share : List (List UInt8) → List UInt8 → Nat) (full : IoFault)
    (flushFault : Option IoFault) : Device :=
  { room := some limit, share := share, full := full, flushFault := flushFault }

def Boilerplate.readable (path : String) (bytes : List UInt8) : Boilerplate :=
  ⟨path, .ok ⟨bytes, none⟩⟩

/-- All bytes of a release file that starts with `top`. -/
def fileBytes (top : List UInt8) (r : Release) : List UInt8 :=
  top ++ (utf8 header ++ utf8 (print r))

lemma pieces_flatten (r : Release) : (pieces r).flatten = utf8 header ++ utf8 (print r) := by
  rw [pieces, List.map_cons, List.flatten_cons, ← List.flatMap_def]
  exact congrArg (utf8 header ++ ·) (utf8_join _).symm

lemma offered_limitedSink (limit : Nat) (share : List (List UInt8) → List UInt8 → Nat)
    (full : IoFault) (flushFault : Option IoFault) :
    Device.Offered limit full flushFault [] (limitedSink limit share full flushFault) :=
  ⟨List.take_nil.symm, rfl, rfl, rfl⟩

section Limited

variable {limit : Nat} {full : IoFault} {flushFault : Option IoFault} {sent : List UInt8}
  {d : Device}

lemma writeBody_limited (h : d.Offered limit full flushFault sent) (hsent : sent.length ≤ limit)
    (r : Release) :
    (writeBody d r).1.contents = (fileBytes sent r).take limit ∧
      (writeBody d r).2 = if limit < (fileBytes sent r).length then some full else flushFault := by
  obtain ⟨hd, hf⟩ := h.sendAll hsent (pieces r)
  rw [pieces_flatten] at hd hf
  unfold writeBody
  cases hsend : sendAll d (pieces r) with
  | mk d' fault =>
    rw [hsend] at hd hf
    by_cases hfits : limit < (fileBytes sent r).length
    · rw [if_pos hfits]
      cases hf.trans (if_pos hfits)
      exact ⟨hd.contents, rfl⟩
    · rw [if_neg hfits]
      cases hf.trans (if_neg hfits)
      exact ⟨hd.contents, hd.flushFault⟩

lemma copy_limited (h : d.Offered limit full flushFault []) (path : String)
    (bytes : List UInt8) :
    (copy d (.readable path bytes)).sink.Offered limit full flushFault bytes ∧
      (copy d (.readable path bytes)).failure =
        (Device.faultAt limit full bytes.length).map (.copyBoilerplate path) := by
  obtain ⟨hd, hf⟩ := h.sendAll (Nat.zero_le limit) (chunks (chunkSize - 1) bytes)
  rw [chunks_flatten, List.nil_append] at hd hf
  simp only [copy, Boilerplate.readable]
  cases hsend : sendAll d (chunks (chunkSize - 1) bytes) with
  | mk d' fault =>
    rw [hsend] at hd hf
    rw [← hf]
    cases fault <;> exact ⟨hd, rfl⟩

/-- Why writing a file fails whose boilerplate has `length` bytes, of `total` in all. -/
def failureOf (limit : Nat) (full : IoFault) (flushFault : Option IoFault) (path : String)
    (length total : Nat) : Option Failure :=
  if limit < length then some (.copyBoilerplate path full)
  else if limit < total then some (.io full)
  else flushFault.map .io

lemma failureOf_eq_none_iff {path : String} {length total : Nat} (h : length ≤ total) :
    failureOf limit full flushFault path length total = none ↔
      total ≤ limit ∧ flushFault = none := by
  unfold failureOf
  split_ifs with htop hall
  · simp only [false_iff, not_and]
    omega
  · simp only [false_iff, not_and]
    omega
  · simp only [Option.map_eq_none_iff, iff_and_self]
    omega

lemma write_bare (h : d.Offered limit full flushFault []) (path : String) (r : Release) :
    (write d r none).sink.contents = (fileBytes [] r).take limit ∧
      (write d r none).failure =
        failureOf limit full flushFault path 0 (fileBytes [] r).length := by
  obtain ⟨hcontents, hfault⟩ := writeBody_limited h (Nat.zero_le limit) r
  refine ⟨hcontents, ?_⟩
  show (writeBody d r).2.map Failure.io = _
  rw [hfault, failureOf, if_neg (Nat.not_lt_zero limit)]
  split_ifs <;> rfl

lemma write_readable (h : d.Offered limit full flushFault []) (path : String)
    (bytes : List UInt8) (r : Release) :
    (write d r (some (.readable path bytes))).sink.contents = (fileBytes bytes r).take limit ∧
      (write d r (some (.readable path bytes))).failure =
        failureOf limit full flushFault path bytes.length (fileBytes bytes r).length := by
  obtain ⟨hd, hf⟩ := copy_limited h path bytes
  rw [Device.faultAt] at hf
  unfold failureOf
  simp only [write]
  split_ifs at hf ⊢ with htop hall
  · rw [hf]
    refine ⟨hd.contents.trans ?_, hf⟩
    rw [fileBytes, List.take_append_of_le_length (Nat.le_of_lt htop)]
  all_goals
    obtain ⟨hcontents, hfault⟩ := writeBody_limited hd (Nat.le_of_not_lt htop) r
    rw [hf]
    refine ⟨hcontents, ?_⟩
    simp only [hfault, hall]
    rfl

end Limited

/-- However a sink of limited room cuts the writes, it ends with the start of the file. The
failure tells where it was cut: in the boilerplate, after it, or only when it was flushed. A
boilerplate that cannot be opened, or not be read at all, leaves the sink empty. -/
theorem write_limitedSink (r : Release) (path : String) (top : Option (List UInt8)) (limit : Nat)
    (share : List (List UInt8) → List UInt8 → Nat) (full : IoFault)
    (flushFault : Option IoFault) (f : IoFault) :
    let sink := limitedSink limit share full flushFault
    let bytes := fileBytes (top.getD []) r
    let written := write sink r (top.map (.readable path))
    let unopened := write sink r (some ⟨path, .error f⟩)
    let unreadable := write sink r (some ⟨path, .ok ⟨[], some f⟩⟩)
    written.sink.contents = bytes.take limit ∧
      (written.failure = none ↔ bytes.length ≤ limit ∧ flushFault = none) ∧
      written.failure =
        failureOf limit full flushFault path (top.getD []).length bytes.length ∧
      (unopened.sink.contents = [] ∧ unopened.failure = some (.openBoilerplate path f)) ∧
      (unreadable.sink.contents = [] ∧ unreadable.failure = some (.copyBoilerplate path f)) := by
  have hd := offered_limitedSink limit share full flushFault
  have hwritten : (write (limitedSink limit share full flushFault) r
      (top.map (.readable path))).sink.contents = (fileBytes (top.getD []) r).take limit ∧
      (write (limitedSink limit share full flushFault) r (top.map (.readable path))).failure =
        failureOf limit full flushFault path (top.getD []).length
          (fileBytes (top.getD []) r).length := by
    cases top with
    | none => exact write_bare hd path r
    | some bytes => exact write_readable hd path bytes r
  refine ⟨hwritten.1, ?_, hwritten.2, ?_, ?_⟩
  · rw [hwritten.2]
    exact failureOf_eq_none_iff (by simp [fileBytes])
  · exact ⟨rfl, rfl⟩
  · have hchunks : chunks (chunkSize - 1) [] = [] := by simp [chunks]
    simp only [write, copy, hchunks, sendAll, and_true]
    rfl

end ToolchainRelease.ReleaseFile
