import ToolchainRelease.Proofs.ReadBack

/-! Texts of one field each, one after another. They are read into the entries of all of them, and
since a record keeps the order of entries of one name alone, texts of different fields may change
places. -/
namespace ToolchainRelease
open Text

/-- The same elements, and those of one key in the same order. -/
structure Reordering {α β : Type} [DecidableEq β] (key : α → β) (as bs : List α) : Prop where
  perm : as.Perm bs
  keeps : ∀ k, as.filter (key · = k) = bs.filter (key · = k)

namespace Text

lemma Scan.startsAnew_append {s u : Scan} (hs : s.startsAnew = true) (hu : u.startsAnew = true)
    (n : Nat) : (u.after s.tokens n).startsAnew = true := by
  obtain ⟨tokens, ending⟩ := s
  cases tokens with
  | nil => exact (u.startsAnew_after n).trans hu
  | cons t ts => exact hs

lemma entriesNamed_flatMap {α : Type} {key : α → String} {f : α → List Entry} {as : List α}
    (h : ∀ a ∈ as, ∀ e ∈ f a, e.name = key a) (n : String) :
    entriesNamed n (as.flatMap f) = (as.filter (key · = n)).flatMap f := by
  induction as with
  | nil => rfl
  | cons a as ih =>
    obtain ⟨ha, has⟩ := List.forall_mem_cons.1 h
    rw [List.flatMap_cons, entriesNamed_append, ih has]
    by_cases hn : key a = n
    · have hall : entriesNamed n (f a) = f a :=
        List.filter_eq_self.2 fun e he => by simp [ha e he, hn]
      rw [hall, List.filter_cons_of_pos (by simpa using hn), List.flatMap_cons]
    · have hnone : entriesNamed n (f a) = [] :=
        List.filter_eq_nil_iff.2 fun e he => by simp [ha e he, hn]
      rw [hnone, List.filter_cons_of_neg (by simpa using hn), List.nil_append]

end Text

namespace RecordType

variable {t : RecordType}

lemma startsAnew_of_parse {text : String} {r : t.Carrier} (h : parse t.Carrier text = .ok r) :
    (scan text).startsAnew = true := by
  obtain ⟨p, es, hend, body, -⟩ := (t.parse_eq_ok_iff text r).1 h
  exact body.startsAnew hend

/-- After a text that can be read and ends a line, a text adds the record that it describes by
itself. -/
theorem parse_append_line {top text : String} {b : t.Carrier} (h : parse t.Carrier top = .ok b)
    (hline : (utf8 top).getLast? = some 10) (hnew : (scan text).startsAnew = true)
    (m : t.Carrier) :
    parse t.Carrier (top ++ text) = .ok m ↔
      ∃ r, parse t.Carrier text = .ok r ∧ t.Apart b r ∧ m = t.combine b r := by
  rw [parse_eq_ok_iff_merge, merge_append_line hline (t.parse_eq_ok_iff_merge.1 h) hnew,
    ← merge_eq_ok_iff_combine]
  cases merge text b with
  | mk record fault => simp

section Join

variable {ts : List String} {recordOf : String → t.Carrier}
  (reads : ∀ text ∈ ts, parse t.Carrier text = .ok (recordOf text))
  (lines : ∀ text ∈ ts, (utf8 text).getLast? = some 10)
include reads lines

lemma join_startsAnew : (scan (String.join ts)).startsAnew = true := by
  induction ts with
  | nil => rfl
  | cons text ts ih =>
    obtain ⟨hread, hreads⟩ := List.forall_mem_cons.1 reads
    obtain ⟨hline, hlines⟩ := List.forall_mem_cons.1 lines
    obtain ⟨p, hend⟩ := finished_of_merge (t.parse_eq_ok_iff_merge.1 hread)
    rw [String.join_cons, scan_append_line hend hline]
    exact Scan.startsAnew_append (startsAnew_of_parse hread) (ih hreads hlines) _

/-- Texts that end their lines are read together when their entries fit together, and into the
record that all entries make. -/
theorem parse_join (r : t.Carrier) :
    let es := ts.flatMap fun text => t.record.entries (recordOf text)
    parse t.Carrier (String.join ts) = .ok r ↔
      t.record.schema.Fits t.record.kind es ∧ r = t.record.ofEntries es := by
  induction ts generalizing r with
  | nil =>
    have hempty : parse t.Carrier (String.join []) = .ok (t.record.ofEntries []) :=
      parse_trivia .nil
    rw [hempty, Except.ok.injEq, eq_comm]
    exact (and_iff_right (Schema.fits_nil _)).symm
  | cons text ts ih =>
    obtain ⟨hread, hreads⟩ := List.forall_mem_cons.1 reads
    obtain ⟨hline, hlines⟩ := List.forall_mem_cons.1 lines
    intro es
    -- The later texts are read by themselves first: their entries fit, and apart from the first.
    rw [String.join_cons, parse_append_line hread hline (join_startsAnew hreads hlines)]
    simp only [es, List.flatMap_cons, ih hreads hlines, Schema.fits_append_iff]
    constructor
    · rintro ⟨r', ⟨fits, rfl⟩, hapart, rfl⟩
      have apart := (apart_ofEntries_iff fits).1 hapart
      exact ⟨⟨t.faithful.fits _, fits, apart⟩, combine_ofEntries fits apart⟩
    · rintro ⟨⟨-, fits, apart⟩, rfl⟩
      have hapart := (apart_ofEntries_iff fits).2 apart
      exact ⟨_, ⟨fits, rfl⟩, hapart, (combine_ofEntries fits apart).symm⟩

end Join

/-- A text that can be read, holds one field of the outermost record and ends a line. -/
structure HoldsField (t : RecordType) (name text : String) : Prop where
  parses : ∃ r, parse t.Carrier text = .ok r
  single : ∃ e, e.name = name ∧
    Derives t.record.schema t.record.kind ((scan text).tokens.map Placed.token) [e]
  line : (utf8 text).getLast? = some 10

lemma HoldsField.exists_record {name text : String} (h : t.HoldsField name text) :
    ∃ r, parse t.Carrier text = .ok r ∧ ∀ e ∈ t.record.entries r, e.name = name := by
  obtain ⟨⟨r, hr⟩, ⟨e, rfl, body⟩, -⟩ := h
  obtain ⟨p, -, hend, -⟩ := (t.parse_eq_ok_iff text r).1 hr
  refine ⟨t.record.ofEntries [e], t.parse_eq_ok_iff_merge.2 (merge_alone hend body), ?_⟩
  rw [t.faithful.arranges _ body.fits]
  intro d hd
  have hmem := (mem_pick.1 hd).1
  rw [arrangeEach_eq_map, List.map_singleton, List.mem_singleton] at hmem
  rw [hmem, Entry.name_arrange]

/-- Both sequences are read into the entries of all texts, and these agree on each field. -/
lemma parse_join_iff {fieldOf : String → String} {ts us : List String}
    (fields : ∀ text ∈ ts, t.HoldsField (fieldOf text) text)
    (reordered : Reordering fieldOf ts us) (r : t.Carrier) :
    parse t.Carrier (String.join ts) = .ok r ↔ parse t.Carrier (String.join us) = .ok r := by
  have hinhabited : Nonempty t.Carrier := ⟨t.record.ofEntries []⟩
  choose! recordOf reads named using fun text htext => (fields text htext).exists_record
  have lines (text : String) (htext : text ∈ ts) := (fields text htext).line
  have hmem (text : String) : text ∈ us → text ∈ ts := reordered.perm.mem_iff.2
  have hnamed (n : String) :
      entriesNamed n (ts.flatMap fun text => t.record.entries (recordOf text)) =
        entriesNamed n (us.flatMap fun text => t.record.entries (recordOf text)) := by
    rw [entriesNamed_flatMap named, entriesNamed_flatMap fun text h => named text (hmem text h),
      reordered.keeps]
  have hts := parse_join reads lines r
  have hus := parse_join (fun text h => reads text (hmem text h))
    (fun text h => lines text (hmem text h)) r
  refine (hts.trans ?_).trans hus.symm
  rw [Schema.fits_congr hnamed]
  refine and_congr_right fun fits => ?_
  rw [ofEntries_congr ((Schema.fits_congr hnamed).2 fits) hnamed]

/-- Texts of one field each may change places with those of other fields: as long as the texts of
each field stay in order, both sequences can be read, and into the same record, or neither can. -/
theorem parse_reordered (t : RecordType) {fieldOf : String → String} {ts us : List String}
    (fields : ∀ text ∈ ts, t.HoldsField (fieldOf text) text)
    (reordered : Reordering fieldOf ts us) :
    (∃ r, parse t.Carrier (String.join ts) = .ok r ∧ parse t.Carrier (String.join us) = .ok r) ∨
      ∃ f g, parse t.Carrier (String.join ts) = .error f ∧
        parse t.Carrier (String.join us) = .error g := by
  have hiff := parse_join_iff fields reordered
  cases hts : parse t.Carrier (String.join ts) with
  | ok r => exact .inl ⟨r, rfl, (hiff r).1 hts⟩
  | error f =>
    cases hus : parse t.Carrier (String.join us) with
    | ok r => exact nomatch hts.symm.trans ((hiff r).2 hus)
    | error g => exact .inr ⟨f, g, rfl, rfl⟩

/-- The path of a tool moves from between two flags to before them. -/
theorem parse_reordered_flags_and_path :
    let first := "cxx_flag: \"a\" # first\n"
    let path := "tool_path <\n  name: 'ld'\n>\n"
    let last := "cxx_flag: \"b\";\n"
    let fieldOf (text : String) := if text = path then "tool_path" else "cxx_flag"
    (∀ text ∈ [first, path, last], toolchain.HoldsField (fieldOf text) text) ∧
      Reordering fieldOf [first, path, last] [path, first, last] ∧
      ∃ r : Toolchain, r = { cxxFlags := ["a", "b"], toolPaths := [{ name := some "ld" }] } ∧
        parse Toolchain (String.join [first, path, last]) = .ok r ∧
        parse Toolchain (String.join [path, first, last]) = .ok r := by
  intro first path last fieldOf
  have named : RecordKind.schema.Names .toolchain ⟨"cxx_flag", .texts⟩ :=
    ⟨rfl, by decide +kernel⟩
  have flag (v : String) : Body RecordKind.schema .toolchain true
      [.word "cxx_flag", .colon, .literal (utf8 v)] [.text "cxx_flag" v] :=
    .value .empty named (@ValueOf.text _ _ v [utf8 v] (.inr rfl) (by simp) (by simp)) nofun
  have hfirst : toolchain.HoldsField "cxx_flag" first := by
    refine ⟨⟨{ cxxFlags := ["a"] }, by decide +kernel⟩, ⟨.text "cxx_flag" "a", rfl, ?_⟩, rfl⟩
    have htokens : (scan first).tokens.map Placed.token =
        [.word "cxx_flag", .colon, .literal (utf8 "a")] := by decide +kernel
    rw [htokens]
    exact ⟨true, flag "a"⟩
  have hlast : toolchain.HoldsField "cxx_flag" last := by
    refine ⟨⟨{ cxxFlags := ["b"] }, by decide +kernel⟩, ⟨.text "cxx_flag" "b", rfl, ?_⟩, rfl⟩
    have htokens : (scan last).tokens.map Placed.token =
        [.word "cxx_flag", .colon, .literal (utf8 "b"), .separator] := by decide +kernel
    rw [htokens]
    exact ⟨false, .separator (flag "b")⟩
  have hpath : toolchain.HoldsField "tool_path" path := by
    refine ⟨⟨{ toolPaths := [{ name := some "ld" }] }, by decide +kernel⟩,
      ⟨.record "tool_path" [.text "name" "ld"], rfl, ?_⟩, rfl⟩
    have htokens : (scan path).tokens.map Placed.token =
        [.word "tool_path", .opening .angle, .word "name", .colon, .literal (utf8 "ld"),
          .closing .angle] := by decide +kernel
    rw [htokens]
    have inside : Body RecordKind.schema .toolPath true
        [.word "name", .colon, .literal (utf8 "ld")] [.text "name" "ld"] :=
      .value (f := ⟨"name", .text⟩) .empty ⟨rfl, by decide +kernel⟩
        (@ValueOf.text _ _ "ld" [utf8 "ld"] (.inl rfl) (by simp) (by simp)) fun _ => rfl
    exact ⟨true, .block (f := ⟨"tool_path", .records RecordKind.toolPath⟩) .empty
      ⟨rfl, by decide +kernel⟩ rfl (.inl rfl) inside⟩
  have fields : ∀ text ∈ [first, path, last], toolchain.HoldsField (fieldOf text) text := by
    simp only [List.forall_mem_cons]
    exact ⟨hfirst, hpath, hlast, nofun⟩
  have reordered : Reordering fieldOf [first, path, last] [path, first, last] := by
    refine ⟨.swap _ _ _, fun n => ?_⟩
    by_cases hn : fieldOf path = n
    · subst hn
      decide
    · simp [List.filter_cons, hn]
  refine ⟨fields, reordered, _, rfl, ?_⟩
  have hread : parse Toolchain (String.join [first, path, last]) =
      .ok { cxxFlags := ["a", "b"], toolPaths := [{ name := some "ld" }] } := by decide +kernel
  rcases parse_reordered toolchain fields reordered with ⟨r, hts, hus⟩ | ⟨f, g, hts, -⟩
  · cases hread.symm.trans hts
    exact ⟨hread, hus⟩
  · cases hread.symm.trans hts

end RecordType

end ToolchainRelease
