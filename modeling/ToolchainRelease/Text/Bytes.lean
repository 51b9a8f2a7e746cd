/-! Text as bytes and back. Names and words of the format are ASCII; a string value is any
text, and a literal spells the bytes of its encoding. -/
namespace ToolchainRelease.Text

def utf8 (s : String) : List UInt8 := s.toUTF8.data.toList

def ofUtf8? (bs : List UInt8) : Option String := String.fromUTF8? ⟨bs.toArray⟩

/-- Reads each byte as the character of that code. -/
def ofAscii (bs : List UInt8) : String :=
  String.ofList (bs.map Char.ofUInt8)

theorem utf8_append (s t : String) : utf8 (s ++ t) = utf8 s ++ utf8 t := by
  simp [utf8]

theorem utf8_join (ps : List String) : utf8 (String.join ps) = ps.flatMap utf8 := by
  have h (s : String) : utf8 (ps.foldl (· ++ ·) s) = utf8 s ++ ps.flatMap utf8 := by
    induction ps generalizing s with
    | nil => simp
    | cons p ps ih => rw [List.foldl_cons, ih, utf8_append, List.flatMap_cons, List.append_assoc]
  exact h ""

theorem ofUtf8?_utf8 (s : String) : ofUtf8? (utf8 s) = some s := by
  have h : (⟨s.toByteArray.data⟩ : ByteArray).IsValidUTF8 := s.isValidUTF8
  simp [ofUtf8?, utf8, String.fromUTF8?, h, String.fromUTF8]

theorem utf8_of_ofUtf8? {bs : List UInt8} {s : String} (h : ofUtf8? bs = some s) :
    utf8 s = bs := by
  unfold ofUtf8? String.fromUTF8? at h
  split at h
  · cases h
    simp [utf8, String.fromUTF8]
  · cases h

/-- A text is valid UTF-8 in one way only. -/
theorem ofUtf8?_eq_some_iff {bs : List UInt8} {s : String} :
    ofUtf8? bs = some s ↔ utf8 s = bs :=
  ⟨utf8_of_ofUtf8?, fun h => h ▸ ofUtf8?_utf8 s⟩

theorem utf8_singleton {c : Char} (h : c.toNat < 128) :
    utf8 (String.singleton c) = [UInt8.ofNat c.toNat] := by
  have hc : ¬ 127 < c.toNat := by omega
  simp [utf8, List.utf8Encode, String.utf8EncodeChar, hc]

theorem utf8_ofAscii {bs : List UInt8} (h : ∀ b ∈ bs, b.toNat < 128) : utf8 (ofAscii bs) = bs := by
  induction bs with
  | nil => rfl
  | cons b bs ih =>
    have hb : (Char.ofUInt8 b).toNat < 128 := h b (by simp)
    have hs : ofAscii (b :: bs) = String.singleton (Char.ofUInt8 b) ++ ofAscii bs := by
      simp [ofAscii]
    rw [hs, utf8_append, ih fun c hc => h c (by simp [hc]), utf8_singleton hb]
    exact congrArg (· :: bs) UInt8.ofNat_toNat

theorem ofAscii_utf8 {s : String} (h : ∀ b ∈ utf8 s, b.toNat < 128) : ofAscii (utf8 s) = s :=
  Option.some.inj ((ofUtf8?_eq_some_iff.2 (utf8_ofAscii h)).symm.trans (ofUtf8?_utf8 s))

def isDigit (b : UInt8) : Bool := 48 ≤ b && b ≤ 57

def isLetter (b : UInt8) : Bool := (65 ≤ b && b ≤ 90) || (97 ≤ b && b ≤ 122)

/-- Spaces, tabs, carriage returns and newlines. -/
def isSpace (b : UInt8) : Bool := b = 32 || b = 9 || b = 13 || b = 10

/-- The bytes of identifiers, keywords and bare numbers. -/
def isWordByte (b : UInt8) : Bool :=
  isLetter b || isDigit b || b = 95 || b = 46 || b = 45 || b = 43

theorem isWordByte_lt {b : UInt8} (h : isWordByte b = true) : b.toNat < 128 := by
  simp only [isWordByte, isLetter, isDigit, Bool.or_eq_true, Bool.and_eq_true, decide_eq_true_eq,
    UInt8.le_iff_toNat_le, ← UInt8.toNat_inj] at h
  simp at h
  omega

def isPrintable (b : UInt8) : Bool := 32 ≤ b && b ≤ 126

/-- A word that may name a field: a letter or underscore, then letters, digits and underscores. -/
def isFieldName (w : String) : Bool :=
  let isNameByte (b : UInt8) := isLetter b || isDigit b || b = 95
  match utf8 w with
  | [] => false
  | b :: bs => (isLetter b || b = 95) && bs.all isNameByte

def octalDigit? (b : UInt8) : Option Nat :=
  if 48 ≤ b && b ≤ 55 then some (b.toNat - 48) else none

def hexDigit? (b : UInt8) : Option Nat :=
  if isDigit b then some (b.toNat - 48)
  else if 97 ≤ b && b ≤ 102 then some (b.toNat - 87)
  else if 65 ≤ b && b ≤ 70 then some (b.toNat - 55)
  else none

/-- The digit of a number below the base, in lower case. -/
def digitByte (n : Nat) : UInt8 := UInt8.ofNat (if n < 10 then 48 + n else 87 + n)

end ToolchainRelease.Text
