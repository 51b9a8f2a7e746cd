import ToolchainRelease.Proofs.Text.Lowering
import ToolchainRelease.Proofs.Text.Printing
import ToolchainRelease.Proofs.Text.Reading

/-! Printed entries that are read into a record which has one of their scalars. The reading stops
at the line of this scalar and has read the entries before it. -/
namespace ToolchainRelease.Text

variable {Kind : Type} {S : Schema Kind} {k : Kind}

lemma render_append (as bs : List Entry) : render (as ++ bs) = render as ++ render bs := by
  simp [render, piecesAll_append]

lemma render_singleton (e : Entry) : render [e] = String.join (e.pieces 0) := by
  simp [render, piecesAll]

lemma getLast?_pieces (e : Entry) (depth : Nat) :
    (utf8 (String.join (e.pieces depth))).getLast? = some 10 := by
  have hlast (init : List String) (last : String) (h : (utf8 last).getLast? = some 10) :
      (utf8 (String.join (init ++ [last]))).getLast? = some 10 := by
    rw [utf8_join, List.flatMap_append, List.getLast?_append]
    simp [h]
  cases e with
  | text n v => exact hlast [indentation depth, n, ": \"", escape v] _ rfl
  | flag n v => exact hlast [indentation depth, n, ": ", if v then "true" else "false"] _ rfl
  | choice n v => exact hlast [indentation depth, n, ": ", v] _ rfl
  | record n fields =>
    have := hlast ([indentation depth, n, " \x7b\n"] ++ piecesAll (depth + 1) fields ++
      [indentation depth]) "\x7d\n" rfl
    simpa [Entry.pieces] using this

lemma advanceAll_render (es : List Entry) :
    Position.start.advanceAll (utf8 (render es)) = ⟨1 + (utf8 (render es)).count 10, 1⟩ := by
  rcases es.eq_nil_or_concat' with rfl | ⟨init, e, rfl⟩
  · rfl
  · refine Position.advanceAll_start ?_
    rw [render_append, utf8_append, render_singleton, List.getLast?_append, getLast?_pieces]
    rfl

lemma noLiteral_of_entries {ps : List Placed} {es : List Entry}
    (h : ps.map Placed.token = tokensOf es) : Reader.NoLiteral ps := by
  cases es with
  | nil =>
    obtain rfl := List.map_eq_nil_iff.1 h
    simp [Reader.NoLiteral]
  | cons e es =>
    have hword : ∃ ts, tokensOf (e :: es) = .word e.name :: ts := by
      cases e <;> exact ⟨_, rfl⟩
    obtain ⟨ts, hts⟩ := hword
    simpa using Reader.noLiteral_of_word (h.trans hts) []

lemma Entry.Line.render_eq {before after : List Entry} {e : Entry} {f : FieldSchema Kind}
    {value : String} {vs : List Token} (line : e.Line f value vs) :
    render (before ++ e :: after) =
      render before ++ ((f.name ++ (": " ++ value)) ++ render after) := by
  rw [← List.singleton_append, render_append, render_append, render_singleton, line.printed 0]
  simp [indentation]

/-- The name of a field that is printed on one line stands right after the entries before it. -/
lemma scan_render_line {before after : List Entry} {e : Entry} {f : FieldSchema Kind}
    {value : String} {vs : List Token} (spelled : S.ChoicesSpelled)
    (fits : ∀ d ∈ before ++ e :: after, d.Fits S k) (named : S.Names k f)
    (line : e.Line f value vs) :
    ∃ ps qs rs p, ps.map Placed.token = tokensOf before ∧ qs.map Placed.token = .colon :: vs ∧
      rs.map Placed.token = tokensOf after ∧
      (scan (render (before ++ e :: after))).tokens =
        ps ++ ⟨.word f.name, Position.start.advanceAll (utf8 (render before))⟩ :: (qs ++ rs) ∧
      (scan (render (before ++ e :: after))).ending = .finished p := by
  have hbefore : Spells (utf8 (render before)) (tokensOf before) :=
    spells_render spelled fun d hd => fits d (by simp [hd])
  have hafter : Spells (utf8 (render after)) (tokensOf after) :=
    spells_render spelled fun d hd => fits d (by simp [hd])
  have hline := (spells_named (isWord_of_isFieldName named.2) line.spelled).append hafter
  obtain ⟨ps, hps, hfirst⟩ := hbefore .start []
  obtain ⟨ts, hts, hlast⟩ := hline (Position.start.advanceAll (utf8 (render before)))
    (ps.reverse ++ [])
  obtain ⟨qs, rs, rfl, hqs, hrs⟩ := List.map_eq_append_iff.1 hts
  rw [← hfirst, ← Scanner.feedAll_append, ← utf8_append, ← utf8_append, ← line.render_eq] at hlast
  have hscan := (congrArg Scanner.close hlast).trans (Spells.close_blank _ _)
  exact ⟨ps, qs, rs, _, hps, hqs, hrs, (congrArg Scan.tokens hscan).trans (by simp),
    congrArg Scan.ending hscan⟩

theorem readInto_repeated {base before after : List Entry} {e : Entry} {f : FieldSchema Kind}
    (spelled : S.ChoicesSpelled) (fits : S.Fits k (before ++ e :: after))
    (apart : S.Apart k base before) (named : S.Names k f) (hn : e.name = f.name)
    (hs : f.shape.isScalar = true) (hbase : hasField f.name base = true) :
    readInto S k base (render (before ++ e :: after)) = ⟨base ++ before,
      some ⟨⟨1 + (utf8 (render before)).count 10, 1⟩, .repeatedField f.name⟩⟩ := by
  obtain ⟨value, vs, line⟩ := (fits.1 e (by simp)).line spelled named hn hs
  obtain ⟨ps, qs, rs, p, hps, hqs, hrs, htokens, hending⟩ :=
    scan_render_line spelled fits.1 named line
  obtain ⟨separable, body⟩ := derives_tokensOf
    (fun d hd => (fits.of_append.1 d hd).continues) fits.of_append.2
  have hapart : S.Apart k (Reader.start k base).record.entries before := by
    intro n hn
    simpa [Reader.start, hasField_reverse] using apart n hn
  have hset : hasField e.name ((Reader.start k base).extend before separable).record.entries =
      true := by
    rw [hn]
    simp [Reader.start, Reader.extend, hasField_append, hasField_reverse, hbase]
  rw [advanceAll_render] at htokens
  rw [readInto, htokens, hending,
    Reader.run_body body rfl rfl hapart hps (by simp [Reader.NoLiteral]),
    Reader.run_valued (r := (Reader.start k base).extend before separable) rfl named line.valued
      rfl hqs (noLiteral_of_entries hrs), Reader.storeValue_error hs hset, Reader.resume_error, hn]
  simp [Reader.start, Reader.extend, Reader.kept]

end ToolchainRelease.Text
