import ToolchainRelease.Proofs.Text.Printing

/-! The lines of printed entries. Each holds printable bytes alone, and read from the top they tell
which records are open: a line has a value, opens a record, or closes the innermost one. -/
namespace ToolchainRelease.Text

variable {Kind : Type} {S : Schema Kind}

/-- The lines of a text. What comes after the last newline is a line unless it is empty. -/
def linesOf : List UInt8 → List (List UInt8)
  | [] => []
  | b :: bs =>
    if b = 10 then [] :: linesOf bs
    else
      match linesOf bs with
      | [] => [[b]]
      | line :: lines => (b :: line) :: lines

lemma linesOf_append {line : List UInt8} (h : 10 ∉ line) (bs : List UInt8) :
    linesOf (line ++ 10 :: bs) = line :: linesOf bs := by
  induction line with
  | nil => rfl
  | cons b line ih =>
    have hb : b ≠ 10 := fun hb => h (by simp [hb])
    have hline : 10 ∉ line := fun hline => h (by simp [hline])
    rw [List.cons_append, linesOf, if_neg hb, ih hline]

lemma linesOf_flatMap {lines : List (List UInt8)} (h : ∀ line ∈ lines, 10 ∉ line) :
    linesOf (lines.flatMap (· ++ [10])) = lines := by
  induction lines with
  | nil => rfl
  | cons line lines ih =>
    obtain ⟨hline, hlines⟩ := List.forall_mem_cons.1 h
    have hbytes : (line :: lines).flatMap (· ++ [10]) =
        line ++ 10 :: lines.flatMap (· ++ [10]) := by simp
    rw [hbytes, linesOf_append hline, ih hlines]

example : linesOf (utf8 "a\n\nb\n") = [utf8 "a", [], utf8 "b"] := by decide +kernel

def indented (depth : Nat) (bs : List UInt8) : List UInt8 := List.replicate (2 * depth) 32 ++ bs

lemma indented_zero : indented 0 = id := rfl

lemma indented_succ (depth : Nat) (bs : List UInt8) :
    indented (depth + 1) bs = [32, 32] ++ indented depth bs := by
  have htwo : 2 * (depth + 1) = 2 + 2 * depth := by omega
  rw [indented, htwo, List.replicate_add, List.append_assoc]
  rfl

mutual

def Entry.lines (depth : Nat) : Entry → List (List UInt8)
  | .text n v =>
    [indented depth (utf8 n ++ ([58, 32] ++ 34 :: ((utf8 v).flatMap escapeByte ++ [34])))]
  | .flag n v => [indented depth (utf8 n ++ ([58, 32] ++ utf8 (if v then "true" else "false")))]
  | .choice n v => [indented depth (utf8 n ++ ([58, 32] ++ utf8 v))]
  | .record n fs =>
    indented depth (utf8 n ++ [32, 123]) :: (linesAll (depth + 1) fs ++ [indented depth [125]])

def linesAll (depth : Nat) : List Entry → List (List UInt8)
  | [] => []
  | e :: es => e.lines depth ++ linesAll depth es

end

lemma linesAll_eq_flatMap (depth : Nat) (es : List Entry) :
    linesAll depth es = es.flatMap (Entry.lines depth) := by
  induction es with
  | nil => rfl
  | cons e es ih => rw [linesAll, List.flatMap_cons, ih]

lemma piecesAll_eq_flatMap (depth : Nat) (es : List Entry) :
    piecesAll depth es = es.flatMap (Entry.pieces depth) := by
  induction es with
  | nil => rfl
  | cons e es ih => rw [piecesAll, List.flatMap_cons, ih]

lemma flatMap_piecesAll {es : List Entry} {depth : Nat}
    (h : ∀ e ∈ es, (e.pieces depth).flatMap utf8 = (e.lines depth).flatMap (· ++ [10])) :
    (piecesAll depth es).flatMap utf8 = (linesAll depth es).flatMap (· ++ [10]) := by
  rw [piecesAll_eq_flatMap, linesAll_eq_flatMap, List.flatMap_assoc, List.flatMap_assoc]
  exact List.flatMap_congr h

lemma Entry.flatMap_pieces {k : Kind} {e : Entry} (h : e.Fits S k) (depth : Nat) :
    (e.pieces depth).flatMap utf8 = (e.lines depth).flatMap (· ++ [10]) := by
  have hcolon : utf8 ": " = [58, 32] := rfl
  have hquoted : utf8 ": \"" = [58, 32, 34] := rfl
  have hquote : utf8 "\"\n" = [34, 10] := rfl
  have hnewline : utf8 "\n" = [10] := rfl
  induction h generalizing depth with
  | text | flag | choice =>
    simp [pieces, lines, indented, utf8_indentation, utf8_escape, hcolon, hquoted, hquote, hnewline]
  | record named shape inside once ih =>
    have hinside := flatMap_piecesAll fun e he => ih e he (depth + 1)
    simp [pieces, lines, indented, utf8_indentation, utf8_beforeBlock, utf8_afterBlock, hinside]

lemma IsWord.printable {w : String} (h : IsWord w) : ∀ b ∈ utf8 w, isPrintable b = true :=
  fun b hb => isPrintable_of_isWordByte (h.2 b hb)

lemma printable_indented {bs : List UInt8} (h : ∀ b ∈ bs, isPrintable b = true) (depth : Nat) :
    ∀ b ∈ indented depth bs, isPrintable b = true := by
  intro b hb
  rcases List.mem_append.1 hb with hb | hb
  · rw [List.eq_of_mem_replicate hb]
    rfl
  · exact h b hb

theorem Entry.printable_lines {k : Kind} {e : Entry} (spelled : S.ChoicesSpelled)
    (h : e.Fits S k) (depth : Nat) :
    ∀ line ∈ e.lines depth, ∀ b ∈ line, isPrintable b = true := by
  have hname {k : Kind} {f : FieldSchema Kind} (named : S.Names k f) :
      ∀ b ∈ utf8 f.name, isPrintable b = true := (isWord_of_isFieldName named.2).printable
  have valued {k : Kind} {f : FieldSchema Kind} {value : List UInt8} (named : S.Names k f)
      (hvalue : ∀ b ∈ value, isPrintable b = true) (depth : Nat) :
      ∀ line ∈ [indented depth (utf8 f.name ++ ([58, 32] ++ value))],
        ∀ b ∈ line, isPrintable b = true := by
    rw [List.forall_mem_singleton]
    refine printable_indented ?_ depth
    simp only [List.forall_mem_append]
    exact ⟨hname named, List.all_eq_true.1 rfl, hvalue⟩
  induction h generalizing depth with
  | @text k f v named shape =>
    refine valued named ?_ depth
    have hescape : ∀ b ∈ (utf8 v).flatMap escapeByte, isPrintable b = true := by
      intro b hb
      obtain ⟨c, -, hb⟩ := List.mem_flatMap.1 hb
      exact isPrintable_escapeByte hb
    simp only [List.forall_mem_cons, List.forall_mem_append]
    exact ⟨rfl, hescape, rfl, nofun⟩
  | @flag k f v named shape =>
    exact valued named (by cases v <;> decide +kernel) depth
  | @choice k f c v named shape listed =>
    have hword := spelled k f (Schema.mem_of_field? named.1) v (by rwa [shape])
    exact valued named hword.printable depth
  | record named shape inside once ih =>
    simp only [lines, linesAll_eq_flatMap, List.forall_mem_cons, List.forall_mem_append,
      List.forall_mem_flatMap]
    have hclosing : ∀ b ∈ [(125 : UInt8)], isPrintable b = true := List.all_eq_true.1 rfl
    refine ⟨printable_indented ?_ depth, fun e he => ih e he (depth + 1),
      printable_indented hclosing depth, nofun⟩
    simp only [List.forall_mem_append]
    exact ⟨hname named, List.all_eq_true.1 rfl⟩

/-- What stands after the name of a field that holds no record, a colon and a space. -/
inductive ValueText (f : FieldSchema Kind) : List UInt8 → Prop
  | quoted {body value : List UInt8} (shape : f.shape = .text ∨ f.shape = .texts)
      (spelled : Spelled 34 body value) : ValueText f (34 :: (body ++ [34]))
  | flag {v : Bool} (shape : f.shape = .flag) :
      ValueText f (utf8 (if v then "true" else "false"))
  | choice {c : Choices} {w : String} (shape : f.shape = .choice c) (listed : w ∈ c.names) :
      ValueText f (utf8 w)

/-- A line, with the kinds of the records that are open before and after it, the innermost first.
The outermost record is never closed. -/
inductive LineOf (S : Schema Kind) : List Kind → List UInt8 → List Kind → Prop
  | value {k : Kind} {ks : List Kind} {f : FieldSchema Kind} {value : List UInt8}
      (listed : f ∈ S.fields k) (valued : ValueText f value) :
      LineOf S (k :: ks) (indented ks.length (utf8 f.name ++ ([58, 32] ++ value))) (k :: ks)
  | opening {k k' : Kind} {ks : List Kind} {f : FieldSchema Kind} (listed : f ∈ S.fields k)
      (shape : f.shape = .records k') :
      LineOf S (k :: ks) (indented ks.length (utf8 f.name ++ [32, 123])) (k' :: k :: ks)
  | closing {k k' : Kind} {ks : List Kind} :
      LineOf S (k' :: k :: ks) (indented ks.length [125]) (k :: ks)

inductive ReadsLines (S : Schema Kind) : List Kind → List (List UInt8) → List Kind → Prop
  | nil {ks : List Kind} : ReadsLines S ks [] ks
  | cons {ks ks' ks'' : List Kind} {line : List UInt8} {lines : List (List UInt8)}
      (first : LineOf S ks line ks') (rest : ReadsLines S ks' lines ks'') :
      ReadsLines S ks (line :: lines) ks''

lemma ReadsLines.append {ks ks' ks'' : List Kind} {as bs : List (List UInt8)}
    (ha : ReadsLines S ks as ks') (hb : ReadsLines S ks' bs ks'') :
    ReadsLines S ks (as ++ bs) ks'' := by
  induction ha with
  | nil => exact hb
  | cons first _ ih => exact .cons first (ih hb)

lemma ReadsLines.all {ks : List Kind} {depth : Nat} {es : List Entry}
    (h : ∀ e ∈ es, ReadsLines S ks (e.lines depth) ks) :
    ReadsLines S ks (linesAll depth es) ks := by
  induction es with
  | nil => exact .nil
  | cons e es ih =>
    obtain ⟨he, hes⟩ := List.forall_mem_cons.1 h
    exact he.append (ih hes)

/-- The lines of an entry leave open the records that were open before them. -/
theorem Entry.readsLines {k : Kind} {e : Entry} (h : e.Fits S k) (ks : List Kind) :
    ReadsLines S (k :: ks) (e.lines ks.length) (k :: ks) := by
  induction h generalizing ks with
  | @text k f v named shape =>
    exact .cons (.value (Schema.mem_of_field? named.1) (.quoted shape (spelled_escape (utf8 v))))
      .nil
  | flag named shape =>
    exact .cons (.value (Schema.mem_of_field? named.1) (.flag shape)) .nil
  | choice named shape listed =>
    exact .cons (.value (Schema.mem_of_field? named.1) (.choice shape listed)) .nil
  | @record k k' f fields named shape inside once ih =>
    -- The lines inside are read with one more record open, which the closing brace takes away.
    have hinside := ReadsLines.all fun e he => ih e he (k :: ks)
    exact .cons (.opening (Schema.mem_of_field? named.1) shape)
      (hinside.append (.cons .closing .nil))

lemma Entry.lines_succ {k : Kind} {e : Entry} (h : e.Fits S k) (depth : Nat) :
    e.lines (depth + 1) = (e.lines depth).map ([32, 32] ++ ·) := by
  induction h generalizing depth with
  | text | flag | choice => simp [lines, indented_succ]
  | record named shape inside once ih =>
    have hinside := List.flatMap_congr fun e he => ih e he (depth + 1)
    simp [lines, linesAll_eq_flatMap, indented_succ, hinside, List.map_flatMap]

section Render

variable {k : Kind} {es : List Entry}

lemma linesAll_succ (h : ∀ e ∈ es, e.Fits S k) (depth : Nat) :
    linesAll (depth + 1) es = (linesAll depth es).map ([32, 32] ++ ·) := by
  rw [linesAll_eq_flatMap, linesAll_eq_flatMap, List.map_flatMap]
  exact List.flatMap_congr fun e he => Entry.lines_succ (h e he) depth

lemma utf8_render (h : ∀ e ∈ es, e.Fits S k) :
    utf8 (render es) = (linesAll 0 es).flatMap (· ++ [10]) := by
  rw [render, utf8_join]
  exact flatMap_piecesAll fun e he => Entry.flatMap_pieces (h e he) 0

lemma printable_linesAll (spelled : S.ChoicesSpelled) (h : ∀ e ∈ es, e.Fits S k) (depth : Nat) :
    ∀ line ∈ linesAll depth es, ∀ b ∈ line, isPrintable b = true := by
  rw [linesAll_eq_flatMap, List.forall_mem_flatMap]
  exact fun e he => Entry.printable_lines spelled (h e he) depth

lemma linesOf_render (spelled : S.ChoicesSpelled) (h : ∀ e ∈ es, e.Fits S k) :
    linesOf (utf8 (render es)) = linesAll 0 es := by
  rw [utf8_render h]
  refine linesOf_flatMap fun line hline hnewline => ?_
  have hprintable := printable_linesAll spelled h 0 line hline 10 hnewline
  cases hprintable

lemma printable_render (spelled : S.ChoicesSpelled) (h : ∀ e ∈ es, e.Fits S k) :
    ∀ b ∈ utf8 (render es), b = 10 ∨ isPrintable b = true := by
  intro b hb
  rw [utf8_render h] at hb
  obtain ⟨line, hline, hb⟩ := List.mem_flatMap.1 hb
  rcases List.mem_append.1 hb with hb | hb
  · exact .inr (printable_linesAll spelled h 0 line hline b hb)
  · exact .inl (List.mem_singleton.1 hb)

lemma render_ends (h : ∀ e ∈ es, e.Fits S k) :
    utf8 (render es) = [] ∨ (utf8 (render es)).getLast? = some 10 := by
  rw [utf8_render h]
  rcases List.eq_nil_or_concat (linesAll 0 es) with hnil | ⟨init, line, hlast⟩
  · exact .inl (by rw [hnil, List.flatMap_nil])
  · exact .inr (by simp [hlast])

end Render

end ToolchainRelease.Text
