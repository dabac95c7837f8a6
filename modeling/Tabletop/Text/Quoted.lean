import Tabletop.Text.Extender
import Tabletop.Text.Ignorable
import Tabletop.Text.Unprintable

/-!
# Quoted text

A text between double quotes, with nothing in it that a reader could not see or could take for the
closing quote.
-/

namespace Tabletop.Text.Quoted

/-- A reader could not see `c`, or not see it apart from the character before it.

The standard quoted form escapes what is unprintable by its general category and what has the
property Grapheme_Extend, but for six characters, where this rule follows it as well. The halfwidth
sound marks U+FF9E and U+FF9F have the property and stand for themselves, as they take a place of
their own. The Hangul fillers U+115F, U+1160, U+3164 and U+FFA0, which are letters without the
property, are escaped, as nothing is drawn for them. They are what Default_Ignorable_Code_Point adds
to the rest. -/
def isHidden (c : Char) : Bool :=
  isUnprintable c || isIgnorable c || (isExtender c && !isSoundMark c)

/-- A backslash, `u` and the code point between braces, in lower-case digits without leading
zeros. -/
def codePoint (c : Char) : List Char :=
  ['\\', 'u', '\x7b'] ++ Nat.toDigits 16 c.toNat ++ ['\x7d']

/-- The letter that stands for a character after a backslash. -/
def letter? : Char → Option Char
  | '\x00' => some '0'
  | '\t' => some 't'
  | '\r' => some 'r'
  | '\n' => some 'n'
  | '"' => some '"'
  | '\\' => some '\\'
  | _ => none

def escape (c : Char) : List Char :=
  match letter? c with
  | some letter => ['\\', letter]
  | none => if isHidden c then codePoint c else [c]

def encode (text : List Char) : List Char :=
  text.flatMap escape

/-- The character that a letter stands for after a backslash. -/
def ofLetter? : Char → Option Char
  | '0' => some '\x00'
  | 't' => some '\t'
  | 'r' => some '\r'
  | 'n' => some '\n'
  | '"' => some '"'
  | '\\' => some '\\'
  | _ => none

/-- The value of a digit `0` to `9` or `a` to `f`. -/
def digitValue (c : Char) : Nat :=
  if c.isDigit then c.toNat - '0'.toNat else c.toNat - 'a'.toNat + 10

/-- Where a reader of encoded text stands. -/
inductive Position where
  | plain
  | afterBackslash
  | beforeBrace
  | inCodePoint (value : Nat)

/-- Reads encoded text from a position on. -/
def decodeFrom : Position → List Char → Option (List Char)
  | .plain, [] => some []
  | _, [] => none
  | .plain, c :: rest =>
      if c = '\\' then decodeFrom .afterBackslash rest
      else (decodeFrom .plain rest).map (c :: ·)
  | .afterBackslash, c :: rest =>
      if c = 'u' then decodeFrom .beforeBrace rest
      else (ofLetter? c).bind fun d => (decodeFrom .plain rest).map (d :: ·)
  | .beforeBrace, c :: rest =>
      if c = '\x7b' then decodeFrom (.inCodePoint 0) rest else none
  | .inCodePoint value, c :: rest =>
      if c = '\x7d' then (decodeFrom .plain rest).map (Char.ofNat value :: ·)
      else decodeFrom (.inCodePoint (value * 16 + digitValue c)) rest

def decode? (text : List Char) : Option (List Char) :=
  decodeFrom .plain text

/-- The text between double quotes. -/
def quote (text : String) : String :=
  String.ofList ('"' :: encode text.toList ++ ['"'])

/-! ## Decoding undoes encoding -/

theorem ofLetter?_of_letter? {c letter : Char} (h : letter? c = some letter) :
    ofLetter? letter = some c ∧ letter ≠ 'u' := by
  unfold letter? at h
  split at h <;> simp at h <;> subst h <;> decide

theorem ne_backslash_of_letter? {c : Char} (h : letter? c = none) : c ≠ '\\' := by
  rintro rfl
  simp [letter?] at h

theorem digitValue_digitChar {d : Nat} (h : d < 16) : digitValue d.digitChar = d := by
  decide +revert

theorem digitChar_ne_brace {d : Nat} (h : d < 16) : d.digitChar ≠ '\x7d' := by
  decide +revert

/-- The digits of `n` lift the value before them and add `n` to it. -/
theorem decodeFrom_toDigits (n value : Nat) (rest : List Char) :
    ∃ scale, decodeFrom (.inCodePoint value) (Nat.toDigits 16 n ++ rest) =
      decodeFrom (.inCodePoint (value * scale + n)) rest := by
  induction n using Nat.strongRecOn generalizing rest with
  | ind n ih =>
      by_cases h : n < 16
      · refine ⟨16, ?_⟩
        simp [Nat.toDigits_of_lt_base h, decodeFrom, digitChar_ne_brace h, digitValue_digitChar h]
      · have hmod : n % 16 < 16 := Nat.mod_lt _ (by decide)
        obtain ⟨scale, hscale⟩ := ih (n / 16) (by omega) (Nat.digitChar (n % 16) :: rest)
        refine ⟨scale * 16, ?_⟩
        rw [Nat.toDigits_of_base_le (by decide) (by omega), List.append_assoc,
          List.singleton_append, hscale, decodeFrom, if_neg (digitChar_ne_brace hmod),
          digitValue_digitChar hmod]
        congr 2
        rw [Nat.add_mul, Nat.mul_assoc]
        omega

theorem decodeFrom_codePoint (c : Char) (rest : List Char) :
    decodeFrom .plain (codePoint c ++ rest) = (decodeFrom .plain rest).map (c :: ·) := by
  obtain ⟨scale, hscale⟩ := decodeFrom_toDigits c.toNat 0 ('\x7d' :: rest)
  simp only [Nat.zero_mul, Nat.zero_add] at hscale
  simp [codePoint, decodeFrom, hscale]

theorem decodeFrom_escape (c : Char) (rest : List Char) :
    decodeFrom .plain (escape c ++ rest) = (decodeFrom .plain rest).map (c :: ·) := by
  unfold escape
  split
  case h_1 letter h =>
    obtain ⟨hletter, hu⟩ := ofLetter?_of_letter? h
    simp [decodeFrom, hu, hletter]
  case h_2 h =>
    split
    · exact decodeFrom_codePoint c rest
    · simp [decodeFrom, ne_backslash_of_letter? h]

theorem decode?_encode (text : List Char) : decode? (encode text) = some text := by
  induction text with
  | nil => rfl
  | cons c text ih =>
      rw [decode?] at ih ⊢
      rw [encode, List.flatMap_cons, decodeFrom_escape, ← encode, ih]
      rfl

end Tabletop.Text.Quoted
