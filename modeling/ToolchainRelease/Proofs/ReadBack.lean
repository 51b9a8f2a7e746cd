import ToolchainRelease.Proofs.Combination
import ToolchainRelease.Proofs.Concatenation
import ToolchainRelease.Proofs.ReleaseFile
import ToolchainRelease.Proofs.RoundTrip
import ToolchainRelease.Proofs.Text.Trivia

/-! Reading a release file. Its header is a break, so that the printed release after it is read as
by itself, into what the boilerplate before it describes. -/
namespace ToolchainRelease
open Text

namespace Text

variable {Kind : Type} {S : Schema Kind} {k : Kind}

lemma Body.begins {separable : Bool} {ts : List Token} {es : List Entry}
    (h : Body S k separable ts es) :
    (separable = false ∧ ts = []) ∨ ∃ w rest, ts = .word w :: rest := by
  induction h with
  | empty => exact .inl ⟨rfl, rfl⟩
  | value before named spelled once ih | block before named shape optional inside ih =>
    rcases ih with ⟨-, rfl⟩ | ⟨w, rest, rfl⟩
    · exact .inr ⟨_, _, rfl⟩
    · exact .inr ⟨w, _, rfl⟩
  | separator before ih =>
    rcases ih with ⟨h, -⟩ | ⟨w, rest, rfl⟩
    · cases h
    · exact .inr ⟨w, _, rfl⟩

/-- A text that can be read by itself starts anew. -/
lemma Derives.startsAnew {s : Scan} {p : Position} {es : List Entry}
    (h : Derives S k (s.tokens.map Placed.token) es) (hend : s.ending = .finished p) :
    s.startsAnew = true := by
  obtain ⟨tokens, ending⟩ := s
  obtain ⟨separable, body⟩ := h
  cases tokens with
  | nil =>
    cases hend
    rfl
  | cons t ts =>
    rcases body.begins with ⟨-, hnil⟩ | ⟨w, rest, hword⟩
    · cases hnil
    · obtain ⟨ht, -⟩ := List.cons.inj hword
      simp [Scan.startsAnew, ht, Token.continues]

end Text

namespace RecordType

variable {t : RecordType}

lemma derives_print (r : t.Carrier) : ∃ p, (scan (print r)).ending = .finished p ∧
    Derives t.record.schema t.record.kind ((scan (print r)).tokens.map Placed.token)
      (t.record.entries r) :=
  scan_render t.choicesSpelled (t.faithful.fits r)

lemma merge_print (r : t.Carrier) : merge (print r) (t.record.ofEntries []) = ⟨r, none⟩ := by
  obtain ⟨p, hend, body⟩ := derives_print r
  rw [merge_alone hend body, t.faithful.restores]

lemma print_startsAnew (r : t.Carrier) : (scan (print r)).startsAnew = true := by
  obtain ⟨p, hend, body⟩ := derives_print r
  exact body.startsAnew hend

/-- A printed record is merged by combining, unless a scalar is set in both records. -/
lemma merge_print_eq_iff {r b m : t.Carrier} :
    merge (print r) b = ⟨m, none⟩ ↔ t.Apart b r ∧ m = t.combine b r := by
  rw [merge_eq_iff_alone]
  constructor
  · rintro ⟨r', hr, apart, hm⟩
    cases hr.symm.trans (merge_print r)
    exact ⟨apart, hm⟩
  · rintro ⟨apart, hm⟩
    exact ⟨r, merge_print r, apart, hm⟩

/-- A record that is printed after another text and a break is combined with what this text
describes. -/
theorem parse_append_print {top gap : String} {b : t.Carrier} (hgap : Break (utf8 gap))
    (h : parse t.Carrier top = .ok b) (r m : t.Carrier) :
    parse t.Carrier (top ++ gap ++ print r) = .ok m ↔ t.Apart b r ∧ m = t.combine b r := by
  rw [parse_eq_ok_iff_merge, merge_append_break hgap (t.parse_eq_ok_iff_merge.1 h)
    (print_startsAnew r), ← merge_print_eq_iff]
  cases merge (print r) b with
  | mk record fault => simp

lemma parse_trivia {top : String} (h : Trivia (utf8 top)) :
    parse t.Carrier top = .ok (t.record.ofEntries []) := by
  obtain ⟨p, hscan⟩ := h.scan_eq
  have body : Derives t.record.schema t.record.kind ((scan top).tokens.map Placed.token) [] := by
    rw [hscan]
    exact ⟨false, .empty⟩
  rw [parse_eq_ok_iff_merge]
  exact merge_alone (p := p) (by rw [hscan]) body

lemma empty_apart (r : t.Carrier) : t.Apart (t.record.ofEntries []) r := by
  unfold Apart
  rw [t.entries_ofEntries_nil]
  exact Schema.apart_nil_left _ _

lemma empty_combine (r : t.Carrier) : t.combine (t.record.ofEntries []) r = r := by
  rw [← t.ofEntries_append, t.entries_ofEntries_nil, List.nil_append, t.faithful.restores]

end RecordType

namespace ReleaseFile

def headerLines : List String :=
  [" DO NOT EDIT", " This file contains the text format encoding of a",
    " " ++ Record.fullName Release, " protocol buffer generated by " ++ generator ++ "."]

lemma utf8_header :
    utf8 header = (headerLines.map utf8).flatMap (fun line => 35 :: (line ++ [10])) ++ [10] := by
  decide +kernel

/-- The header may follow any text, also one that ends in a comment, a word or a literal. -/
lemma header_break : Break (utf8 header) := by
  have hlines : ∀ line ∈ headerLines.map utf8, 10 ∉ line := by decide +kernel
  rw [utf8_header]
  exact break_of_comments hlines

lemma utf8_file (top : String) (r : Release) :
    utf8 (top ++ header ++ print r) = fileBytes (utf8 top) r := by
  rw [utf8_append, utf8_append, List.append_assoc]
  rfl

/-- A release file is read back as the release that was written, if its boilerplate holds nothing
but blank space and comments. Any boilerplate that can be read by itself is combined with the
release, and the file can be read if no scalar is set in both. -/
theorem parse_file (r : Release) :
    (∀ top, utf8 (top ++ header ++ print r) = fileBytes (utf8 top) r) ∧
      (∀ top, Trivia (utf8 top) → parse Release (top ++ header ++ print r) = .ok r) ∧
      ∀ top b, parse Release top = .ok b → ∀ m,
        (parse Release (top ++ header ++ print r) = .ok m ↔
          ((b.majorVersion = none ∨ r.majorVersion = none) ∧
            (b.minorVersion = none ∨ r.minorVersion = none) ∧
            (b.defaultTargetCpu = none ∨ r.defaultTargetCpu = none)) ∧
          m = { majorVersion := b.majorVersion.or r.majorVersion
                minorVersion := b.minorVersion.or r.minorVersion
                defaultTargetCpu := b.defaultTargetCpu.or r.defaultTargetCpu
                toolchains := b.toolchains ++ r.toolchains }) := by
  refine ⟨fun top => utf8_file top r, fun top htop => ?_, fun top b hb m => ?_⟩
  · have hempty := RecordType.parse_trivia (t := .release) htop
    refine (RecordType.parse_append_print header_break hempty r r).2 ⟨?_, ?_⟩
    · exact RecordType.empty_apart (t := .release) r
    · exact (RecordType.empty_combine (t := .release) r).symm
  · rw [← Release.apart_iff]
    exact RecordType.parse_append_print (t := .release) header_break hb r m

/-- The header follows a comment that has no end of line, and a literal. -/
theorem parse_file_after_comment_or_literal :
    let r : Release := { majorVersion := some "1" }
    parse Release ("# by hand" ++ header ++ print r) = .ok r ∧
      parse Release ("minor_version: \"2\"" ++ header ++ print r) =
        .ok { majorVersion := some "1", minorVersion := some "2" } := by
  intro r
  obtain ⟨-, hcomment, hliteral⟩ := parse_file r
  have htrivia : Trivia (utf8 "# by hand") :=
    @Trivia.lastComment (utf8 " by hand") (by decide +kernel)
  have hb : parse Release "minor_version: \"2\"" = .ok { minorVersion := some "2" } := by
    decide +kernel
  exact ⟨hcomment _ htrivia, (hliteral _ _ hb _).2 ⟨by decide, rfl⟩⟩

end ReleaseFile

end ToolchainRelease
