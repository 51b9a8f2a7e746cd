import ToolchainRelease.Proofs.Acceptance
import ToolchainRelease.Proofs.Text.Blame
import ToolchainRelease.Proofs.Text.TokenBytes

/-! Where the faults of texts are: the line and the column of a fault lead to the first byte of what
the fault is about, and a field that is blamed stands where it says. -/
namespace ToolchainRelease
open Text

namespace Text

inductive Cause.IsAbout : Cause → Token → Prop
  | unexpected {wanted : Expected} {t : Token} : IsAbout (.unexpected wanted (some t)) t
  | badText {bytes : List UInt8} : IsAbout .invalidUtf8 (.literal bytes)
  | flag {w : String} : IsAbout (.invalidFlag w) (.word w)
  | choice {typeName w : String} : IsAbout (.unknownChoice typeName w) (.word w)
  | unknownField {n recordName : String} : IsAbout (.unknownField n recordName) (.word n)
  | repeatedField {n : String} : IsAbout (.repeatedField n) (.word n)

variable {Kind : Type} {S : Schema Kind} {k : Kind} {base : List Entry} {text : String} {f : Fault}

/-- A fault has its place in a text that is read into a record of kind `k` with the entries `base`:
the bytes `before` are those before this place, and `after` those from it on. Unless the text has
ended, what the fault is about begins there: a token, or what cannot be read as one. A field that is
blamed is named there, directly inside a record that has no such field or has it already. -/
structure PlaceOf (S : Schema Kind) (k : Kind) (base : List Entry) (text : String) (f : Fault)
    (before after : List UInt8) : Prop where
  split : utf8 text = before ++ after
  line : f.position.line = 1 + before.count 10
  column : f.position.column = 1 + (before.rtakeWhile (· ≠ 10)).length
  atEnd : after = [] ↔ f.cause.isAboutEnd = true
  stands : after ≠ [] →
    (∃ t ∈ (scan text).tokens, t.position = f.position ∧ f.cause.IsAbout t.token ∧
      ∃ piece rest, after = piece ++ rest ∧ t.token.Spelling piece) ∨
    ∃ start, (scan text).ending = .broken start f ∧ Unreadable start before after f.cause
  unknownField : ∀ n recordName, f.cause = .unknownField n recordName →
    ∃ rec, Reader.NameAt S k base (scan text).tokens n f.position rec ∧
      recordName = S.fullName rec.kind ∧ S.field? rec.kind n = none
  repeatedField : ∀ n, f.cause = .repeatedField n →
    ∃ rec, Reader.NameAt S k base (scan text).tokens n f.position rec ∧
      S.isScalar rec.kind n = true ∧ hasField n rec.entries = true

lemma Token.Spelling.ne_nil {t : Token} {piece : List UInt8} (h : t.Spelling piece) :
    piece ≠ [] := by
  cases h with
  | word word => exact word.1
  | _ => exact List.cons_ne_nil _ _

lemma Unreadable.ne_nil {start : Position} {before after : List UInt8} {c : Cause}
    (h : Unreadable start before after c) : after ≠ [] := by
  cases h <;> exact List.cons_ne_nil _ _

lemma placeOf_unreadable {start : Position} (hend : (scan text).ending = .broken start f)
    (h : FaultyAt (utf8 text) start f) : ∃ before after, PlaceOf S k base text f before after := by
  obtain ⟨before, after, hsplit, hplace, hunreadable⟩ := h
  obtain ⟨position, cause⟩ := f
  have hne := hunreadable.ne_nil
  have lexical : cause.isAboutEnd = false ∧ (∀ n T, cause ≠ .unknownField n T) ∧
      ∀ n, cause ≠ .repeatedField n := by
    cases hunreadable with
    | character | literal => simp [Cause.isAboutEnd]
    | escape _ _ _ _ bad => cases bad <;> simp [Cause.isAboutEnd]
  refine ⟨before, after, hsplit, ?_, ?_, ?_, fun _ => .inr ⟨start, hend, hunreadable⟩, ?_, ?_⟩
  · rw [← hplace, Position.advanceAll_line, Position.start]
  · rw [← hplace, Position.column_of_start]
  · simp [hne, lexical.1]
  · exact fun n T hc => absurd hc (lexical.2.1 n T)
  · exact fun n hc => absurd hc (lexical.2.2 n)

lemma placeOf_end {c : Cause} (hc : c.isAboutEnd = true) :
    PlaceOf S k base text ⟨Position.start.advanceAll (utf8 text), c⟩ (utf8 text) [] := by
  refine ⟨(List.append_nil _).symm, Position.advanceAll_line _ _, Position.column_of_start _, ?_,
    fun h => absurd rfl h, ?_, ?_⟩
  · simp [hc]
  · rintro n T rfl
    cases hc
  · rintro n rfl
    cases hc

lemma placeOf_token {t : Placed} {c : Cause} (hstands : Stands (utf8 text) t)
    (mem : t ∈ (scan text).tokens) (about : c.IsAbout t.token)
    (unknownField : ∀ n recordName, c = .unknownField n recordName →
      ∃ rec, Reader.NameAt S k base (scan text).tokens n t.position rec ∧
        recordName = S.fullName rec.kind ∧ S.field? rec.kind n = none)
    (repeatedField : ∀ n, c = .repeatedField n →
      ∃ rec, Reader.NameAt S k base (scan text).tokens n t.position rec ∧
        S.isScalar rec.kind n = true ∧ hasField n rec.entries = true) :
    ∃ before after, PlaceOf S k base text ⟨t.position, c⟩ before after := by
  obtain ⟨before, piece, rest, hsplit, hplace, hpiece⟩ := hstands
  have hend : c.isAboutEnd = false := by
    obtain ⟨token, position⟩ := t
    cases about <;> rfl
  refine ⟨before, piece ++ rest, hsplit, ?_, ?_, ?_, fun _ => .inl ?_, unknownField,
    repeatedField⟩
  · rw [← hplace, Position.advanceAll_line, Position.start]
  · rw [← hplace, Position.column_of_start]
  · simp [hpiece.ne_nil, hend]
  · exact ⟨t, mem, rfl, about, piece, rest, rfl, hpiece⟩

/-- Whatever is to blame for the fault of a reading, the fault is at its place. -/
theorem readInto_fault (h : (readInto S k base text).fault = some f) :
    ∃ before after, PlaceOf S k base text f before after := by
  obtain ⟨hstands, hending⟩ := scan_stands text
  have start : Reader.Passed S k base [] (Reader.start k base) := Reader.passed_start
  have blamed := start.run_blamed h
  rw [List.nil_append] at blamed
  cases blamed with
  | @unread start _ broken =>
    rw [broken] at hending
    exact placeOf_unreadable broken hending
  | atEnd finished about =>
    rw [finished] at hending
    cases hending
    exact ⟨_, _, placeOf_end about⟩
  | unexpected mem => exact placeOf_token (hstands _ mem) mem .unexpected nofun nofun
  | badText mem => exact placeOf_token (hstands _ mem) mem .badText nofun nofun
  | flag mem => exact placeOf_token (hstands _ mem) mem .flag nofun nofun
  | choice mem => exact placeOf_token (hstands _ mem) mem .choice nofun nofun
  | @unknownField n p rec name none =>
    refine placeOf_token (hstands _ name.mem) name.mem .unknownField (fun m T hc => ?_) nofun
    cases hc
    exact ⟨rec, name, rfl, none⟩
  | @repeatedField n p rec name scalar set =>
    refine placeOf_token (hstands _ name.mem) name.mem .repeatedField nofun fun m hc => ?_
    cases hc
    exact ⟨rec, name, scalar, set⟩

end Text

namespace RecordType

lemma parse_eq_error_iff {t : RecordType} {text : String} {f : Fault} :
    parse t.Carrier text = .error f ↔ (merge text (t.record.ofEntries [])).fault = some f := by
  unfold parse
  cases merge text (t.record.ofEntries []) with
  | mk record fault => cases fault <;> simp

/-- The line and the column of a fault lead to what the fault is about, whatever type of record the
text is merged into or parsed as. -/
theorem fault_at_place (t : RecordType) (text : String) (f : Fault) :
    (∀ s : t.Carrier, (merge text s).fault = some f → ∃ before after,
      PlaceOf t.record.schema t.record.kind (t.record.entries s) text f before after) ∧
    (parse t.Carrier text = .error f → ∃ before after,
      PlaceOf t.record.schema t.record.kind [] text f before after) := by
  have merged (s : t.Carrier) (h : (merge text s).fault = some f) : ∃ before after,
      PlaceOf t.record.schema t.record.kind (t.record.entries s) text f before after :=
    readInto_fault h
  refine ⟨merged, fun h => ?_⟩
  have := merged _ (parse_eq_error_iff.1 h)
  rwa [t.entries_ofEntries_nil] at this

/-- A toolchain is blamed for the second of its fields that have one name, two lines below it. -/
theorem fault_in_toolchain :
    let text := "toolchain \x7b\n target_cpu: 'a'\n target_cpu: 'b' \x7d"
    parse Release text = .error ⟨⟨3, 2⟩, .repeatedField "target_cpu"⟩ ∧
      ∃ before after rec, utf8 text = before ++ after ∧ before.count 10 = 2 ∧
        (before.rtakeWhile (· ≠ 10)).length = 1 ∧
        Reader.NameAt release.record.schema release.record.kind [] (scan text).tokens
          "target_cpu" ⟨3, 2⟩ rec ∧ hasField "target_cpu" rec.entries = true := by
  intro text
  have h : parse release.Carrier text = .error ⟨⟨3, 2⟩, .repeatedField "target_cpu"⟩ :=
    parse_eq_error_iff.2 (by decide +kernel)
  obtain ⟨before, after, hplace⟩ := (fault_at_place release text _).2 h
  obtain ⟨rec, hname, -, hset⟩ := hplace.repeatedField _ rfl
  have hline := hplace.line
  have hcolumn := hplace.column
  refine ⟨h, before, after, rec, hplace.split, ?_, ?_, hname, hset⟩
  · simp only at hline
    omega
  · simp only at hcolumn
    omega

end RecordType

end ToolchainRelease
