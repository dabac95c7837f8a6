/-!
# JSON texts

What is written is in the compact form: no blanks, and only those characters escaped that must be.
What is read may have blanks and any escapes. It is cut into tokens first.
-/

namespace Tabletop.Text.Json

/-! ## Writing -/

/-- The letter that stands for a character after a backslash. -/
def letter? : Char → Option Char
  | '"' => some '"'
  | '\\' => some '\\'
  | '\x08' => some 'b'
  | '\t' => some 't'
  | '\n' => some 'n'
  | '\x0c' => some 'f'
  | '\r' => some 'r'
  | _ => none

def escape (c : Char) : List Char :=
  match letter? c with
  | some letter => ['\\', letter]
  | none =>
      if c.toNat < 0x20 then
        ['\\', 'u', '0', '0', (c.toNat / 16).digitChar, (c.toNat % 16).digitChar]
      else [c]

def quote (s : String) : String :=
  String.ofList ('"' :: s.toList.flatMap escape ++ ['"'])

def bracketed (left right : String) (items : List String) : String :=
  left ++ ",".intercalate items ++ right

/-! ## Escaped texts -/

/-- The character that a letter stands for after a backslash. A slash may be escaped, too. -/
def ofLetter? : Char → Option Char
  | '"' => some '"'
  | '\\' => some '\\'
  | '/' => some '/'
  | 'b' => some '\x08'
  | 't' => some '\t'
  | 'n' => some '\n'
  | 'f' => some '\x0c'
  | 'r' => some '\r'
  | _ => none

def hexDigits : List Char :=
  ['0', '1', '2', '3', '4', '5', '6', '7', '8', '9', 'a', 'b', 'c', 'd', 'e', 'f']

/-- The number that hexadecimal digits of either case stand for. -/
def hexValue? (digits : List Char) : Option Nat :=
  digits.foldlM (fun value c => (hexDigits.idxOf? c.toLower).map (value * 16 + ·)) 0

/-- The codes that an escaped text stands for. A character beyond the basic plane may be escaped as
two codes. -/
def codes? : List Char → Option (List Nat)
  | [] => some []
  | '\\' :: 'u' :: a :: b :: c :: d :: rest =>
      (hexValue? [a, b, c, d]).bind fun code => (codes? rest).map (code :: ·)
  | '\\' :: letter :: rest =>
      (ofLetter? letter).bind fun c => (codes? rest).map (c.toNat :: ·)
  | c :: rest =>
      if c = '\\' || c.toNat < 0x20 then none else (codes? rest).map (c.toNat :: ·)

/-- The first half of a pair of codes. -/
def isHigh (code : Nat) : Bool :=
  0xD800 ≤ code && code < 0xDC00

/-- The second half of a pair of codes. -/
def isLow (code : Nat) : Bool :=
  0xDC00 ≤ code && code < 0xE000

def ofCodes? : List Nat → Option (List Char)
  | [] => some []
  | code :: rest =>
      if isHigh code then
        match rest with
        | [] => none
        | low :: rest =>
            if isLow low then
              let c := Char.ofNat (0x10000 + (code - 0xD800) * 0x400 + (low - 0xDC00))
              (ofCodes? rest).map (c :: ·)
            else none
      else if isLow code then none
      else (ofCodes? rest).map (Char.ofNat code :: ·)

/-- The text that stands escaped between two quotes. -/
def unescape? (inner : List Char) : Option String :=
  ((codes? inner).bind ofCodes?).map String.ofList

/-! ## Tokens -/

inductive Token where
  | leftBracket
  | rightBracket
  | leftBrace
  | rightBrace
  | colon
  | comma
  /-- A run of other characters, like `null` and `-7`. -/
  | word (letters : List Char)
  /-- What stands between two quotes. -/
  | quoted (inner : List Char)

def mark? : Char → Option Token
  | '[' => some .leftBracket
  | ']' => some .rightBracket
  | '\x7b' => some .leftBrace
  | '\x7d' => some .rightBrace
  | ':' => some .colon
  | ',' => some .comma
  | _ => none

def isBlank (c : Char) : Bool :=
  c = ' ' || c = '\t' || c = '\n' || c = '\r'

/-- Where a reader of characters stands. What it holds has the last character first. -/
inductive Place where
  | outside (word : List Char)
  | inside (inner : List Char)
  | afterBackslash (inner : List Char)

/-- The word that ends here, if there is one. -/
def ended : List Char → List Token
  | [] => []
  | word => [.word word.reverse]

/-- The tokens of a text from a place on. -/
def tokensFrom : Place → List Char → Option (List Token)
  | .outside word, [] => some (ended word)
  | _, [] => none
  | .outside word, c :: rest =>
      if isBlank c then (tokensFrom (.outside []) rest).map (ended word ++ ·)
      else if c = '"' then (tokensFrom (.inside []) rest).map (ended word ++ ·)
      else
        match mark? c with
        | some mark => (tokensFrom (.outside []) rest).map (ended word ++ mark :: ·)
        | none => tokensFrom (.outside (c :: word)) rest
  | .inside inner, c :: rest =>
      if c = '"' then (tokensFrom (.outside []) rest).map (.quoted inner.reverse :: ·)
      else if c = '\\' then tokensFrom (.afterBackslash (c :: inner)) rest
      else tokensFrom (.inside (c :: inner)) rest
  | .afterBackslash inner, c :: rest => tokensFrom (.inside (c :: inner)) rest

def tokens? (text : String) : Option (List Token) :=
  tokensFrom (.outside []) text.toList

end Tabletop.Text.Json
