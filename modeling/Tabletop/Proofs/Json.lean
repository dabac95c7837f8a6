import Mathlib
import Tabletop.Interchange.Container
import Tabletop.Proofs.Numerals

/-!
# JSON texts read back

What is written as JSON is cut into tokens again, and from these comes the datum that was written.
So a container can be told from its text, whatever stands in its names and keys.
-/

namespace Tabletop

namespace Text.Json

/-! ## Escaped texts -/

theorem ofLetter?_of_letter? {c letter : Char} (h : letter? c = some letter) :
    ofLetter? letter = some c ∧ letter ≠ 'u' := by
  unfold letter? at h
  split at h <;> cases h <;> decide

theorem ne_of_letter? {c : Char} (h : letter? c = none) : c ≠ '"' ∧ c ≠ '\\' := by
  constructor <;> rintro rfl <;> cases h

theorem hexValue?_digitChars {n : Nat} (h : n < 0x20) :
    hexValue? ['0', '0', (n / 16).digitChar, (n % 16).digitChar] = some n := by
  decide +revert

theorem codes?_escape (c : Char) (rest : List Char) :
    codes? (escape c ++ rest) = (codes? rest).map (c.toNat :: ·) := by
  unfold escape
  split
  case h_1 letter h =>
    obtain ⟨hletter, hu⟩ := ofLetter?_of_letter? h
    simp [codes?, hu, hletter]
  case h_2 h =>
    split_ifs with hcontrol
    · simp [codes?, hexValue?_digitChars hcontrol]
    · simp [codes?, (ne_of_letter? h).2, Nat.le_of_not_lt hcontrol]

theorem codes?_flatMap_escape (text : List Char) :
    codes? (text.flatMap escape) = some (text.map Char.toNat) := by
  induction text with
  | nil => rfl
  | cons c text ih => rw [List.flatMap_cons, codes?_escape, ih, Option.map_some, List.map_cons]

/-- No character has a code that is half of a pair. -/
theorem isHigh_or_isLow_toNat (c : Char) : isHigh c.toNat = false ∧ isLow c.toNat = false := by
  have hvalid : c.toNat < 0xD800 ∨ 0xDFFF < c.toNat ∧ c.toNat < 0x110000 := c.valid
  simp only [isHigh, isLow, Bool.and_eq_false_iff, decide_eq_false_iff_not]
  omega

theorem ofCodes?_map_toNat (text : List Char) : ofCodes? (text.map Char.toNat) = some text := by
  induction text with
  | nil => rfl
  | cons c text ih =>
      obtain ⟨hhigh, hlow⟩ := isHigh_or_isLow_toNat c
      unfold ofCodes?
      simp [hhigh, hlow, ih]

theorem unescape?_flatMap_escape (s : String) : unescape? (s.toList.flatMap escape) = some s := by
  rw [unescape?, codes?_flatMap_escape, Option.bind_some, ofCodes?_map_toNat, Option.map_some,
    String.ofList_toList]

/-! ## Tokens -/

/-- Nothing or a mark comes first. -/
def Stops (rest : List Char) : Prop :=
  ∀ c ∈ rest.head?, ∃ token, mark? c = some token

/-- Characters that a word is made of. -/
def IsWord (letters : List Char) : Prop :=
  ∀ c ∈ letters, isBlank c = false ∧ c ≠ '"' ∧ mark? c = none

/-- The characters are cut into the tokens wherever nothing or a mark follows them. -/
def CutInto (chars : List Char) (tokens : List Token) : Prop :=
  ∀ rest, Stops rest →
    tokensFrom (.outside []) (chars ++ rest) = (tokensFrom (.outside []) rest).map (tokens ++ ·)

theorem stops_nil : Stops [] := by
  intro c hc
  cases hc

theorem stops_cons {c : Char} {token : Token} (h : mark? c = some token) (rest : List Char) :
    Stops (c :: rest) := by
  rintro _ ⟨⟩
  exact ⟨token, h⟩

theorem Stops.append {chars rest : List Char} (h : Stops chars) (hrest : Stops rest) :
    Stops (chars ++ rest) := by
  cases chars with
  | nil => exact hrest
  | cons c chars => exact h

theorem tokensFrom_mark {c : Char} {token : Token} (h : mark? c = some token)
    (word rest : List Char) :
    tokensFrom (.outside word) (c :: rest) =
      (tokensFrom (.outside []) rest).map (ended word ++ token :: ·) := by
  have hplain : isBlank c = false ∧ c ≠ '"' := by
    unfold mark? at h
    split at h <;> first | decide | cases h
  simp [tokensFrom, hplain, h]

theorem tokensFrom_word {letters : List Char} (h : IsWord letters) (word rest : List Char) :
    tokensFrom (.outside word) (letters ++ rest) =
      tokensFrom (.outside (letters.reverse ++ word)) rest := by
  induction letters generalizing word with
  | nil => rfl
  | cons c letters ih =>
      obtain ⟨⟨hblank, hquote, hmark⟩, hletters⟩ := List.forall_mem_cons.1 h
      simp [tokensFrom, hblank, hquote, hmark, ih hletters]

theorem Stops.tokensFrom_outside {rest : List Char} (h : Stops rest) (word : List Char) :
    tokensFrom (.outside word) rest = (tokensFrom (.outside []) rest).map (ended word ++ ·) := by
  cases rest with
  | nil => simp [tokensFrom, ended]
  | cons c rest =>
      obtain ⟨token, htoken⟩ := h c rfl
      rw [tokensFrom_mark htoken, tokensFrom_mark htoken, Option.map_map]
      rfl

theorem digitChar_ne {d : Nat} (h : d < 16) : d.digitChar ≠ '"' ∧ d.digitChar ≠ '\\' := by
  decide +revert

/-- No quote within an escaped text is taken for the one at its end. -/
theorem tokensFrom_escape (c : Char) (inner rest : List Char) :
    tokensFrom (.inside inner) (escape c ++ rest) =
      tokensFrom (.inside ((escape c).reverse ++ inner)) rest := by
  unfold escape
  split
  case h_1 letter h => simp [tokensFrom]
  case h_2 h =>
    split_ifs with hcontrol
    · have hfirst := digitChar_ne (show c.toNat / 16 < 16 by omega)
      have hsecond := digitChar_ne (show c.toNat % 16 < 16 by omega)
      simp [tokensFrom, hfirst, hsecond]
    · simp [tokensFrom, ne_of_letter? h]

theorem tokensFrom_flatMap_escape (text inner rest : List Char) :
    tokensFrom (.inside inner) (text.flatMap escape ++ rest) =
      tokensFrom (.inside ((text.flatMap escape).reverse ++ inner)) rest := by
  induction text generalizing inner with
  | nil => rfl
  | cons c text ih =>
      rw [List.flatMap_cons, List.append_assoc, tokensFrom_escape, ih, List.reverse_append,
        List.append_assoc]

namespace CutInto

variable {chars others : List Char} {tokens more : List Token}

theorem nil : CutInto [] [] := by
  intro rest _
  simp

theorem mark_cons {c : Char} {token : Token} (hc : mark? c = some token)
    (h : CutInto chars tokens) : CutInto (c :: chars) (token :: tokens) := by
  intro rest hrest
  rw [List.cons_append, tokensFrom_mark hc, h rest hrest, Option.map_map]
  rfl

theorem append (h : CutInto chars tokens) (hothers : CutInto others more)
    (hstops : Stops others) : CutInto (chars ++ others) (tokens ++ more) := by
  intro rest hrest
  rw [List.append_assoc, h _ (hstops.append hrest), hothers rest hrest, Option.map_map]
  congr 1
  funext later
  exact (List.append_assoc _ _ _).symm

/-- A mark ends what stands before it. -/
theorem append_mark_cons (h : CutInto chars tokens) {c : Char} {token : Token}
    (hc : mark? c = some token) (hothers : CutInto others more) :
    CutInto (chars ++ c :: others) (tokens ++ token :: more) :=
  h.append (mark_cons hc hothers) (stops_cons hc others)

theorem word {letters : List Char} (h : IsWord letters) (hne : letters ≠ []) :
    CutInto letters [.word letters] := by
  intro rest hrest
  have hended : ended letters.reverse = [.word letters] := by
    cases hletters : letters.reverse with
    | nil => exact absurd (List.reverse_eq_nil_iff.1 hletters) hne
    | cons c rest => simp [ended, ← hletters]
  rw [tokensFrom_word h, List.append_nil, hrest.tokensFrom_outside, hended]

theorem quote (s : String) : CutInto (quote s).toList [.quoted (s.toList.flatMap escape)] := by
  intro rest _
  rw [Json.quote, String.toList_ofList, List.append_assoc, List.cons_append]
  simp [tokensFrom, ended, isBlank, tokensFrom_flatMap_escape, Function.comp_def]

end CutInto

/-! ## Brackets -/

theorem toList_bracketed (left right : String) (items : List String) :
    (bracketed left right items).toList =
      left.toList ++ ([','].intercalate (items.map String.toList) ++ right.toList) := by
  simp [bracketed, String.toList_intercalate]

end Text.Json

/-! ## Integers -/

namespace Datum

open Text Json

theorem mem_intText {i : Int} {c : Char} (h : c ∈ (intText i).toList) :
    c = '-' ∨ c.isDigit = true := by
  cases i with
  | ofNat n => exact .inr (Decimal.isDigit_of_mem_text h)
  | negSucc n =>
      rw [intText, String.toList_append, List.mem_append] at h
      rcases h with h | h
      · exact .inl (by simpa using h)
      · exact .inr (Decimal.isDigit_of_mem_text h)

theorem isWord_intText (i : Int) : IsWord (intText i).toList := by
  intro c hc
  rcases mem_intText hc with rfl | hdigit
  · decide
  · have hne {d : Char} (hd : d.isDigit = false) : c ≠ d := by
      rintro rfl
      rw [hdigit] at hd
      cases hd
    refine ⟨?_, hne rfl, ?_⟩
    · simp [isBlank, hne (d := ' ') rfl, hne (d := '\t') rfl, hne (d := '\n') rfl,
        hne (d := '\r') rfl]
    · unfold mark?
      split <;> first | rfl | exact absurd rfl (hne rfl)

theorem intOf?_intText (i : Int) : intOf? (intText i).toList = some i := by
  cases i with
  | ofNat n =>
      unfold intOf?
      split
      case h_1 digits h =>
        have hsign : '-'.isDigit = true :=
          Decimal.isDigit_of_mem_text (n := n) (h ▸ List.mem_cons_self)
        cases hsign
      case h_2 =>
        have hvalue : Nat.ofDigitChars 10 (Decimal.text n).toList 0 = n := Decimal.value_text n
        simp [intText, hvalue]
  | negSucc n =>
      have hletters : (intText (.negSucc n)).toList = '-' :: (Decimal.text (n + 1)).toList := by
        rw [intText, String.toList_append]
        rfl
      have hvalue : Nat.ofDigitChars 10 (Decimal.text (n + 1)).toList 0 = n + 1 :=
        Decimal.value_text (n + 1)
      simp only [intOf?, hletters, hvalue]
      exact if_pos hletters

theorem ofWord?_intText (i : Int) : ofWord? (intText i).toList = some (.int i) := by
  have hne {word : List Char} {c : Char} (hc : c ∈ word) (hplain : c ≠ '-' ∧ c.isDigit = false) :
      (intText i).toList ≠ word := by
    rintro rfl
    rcases mem_intText hc with rfl | hdigit
    · exact hplain.1 rfl
    · rw [hplain.2] at hdigit
      cases hdigit
  have hnull : (intText i).toList ≠ "null".toList := hne (c := 'n') (by simp) (by decide)
  have htrue : (intText i).toList ≠ "true".toList := hne (c := 't') (by simp) (by decide)
  have hfalse : (intText i).toList ≠ "false".toList := hne (c := 'f') (by simp) (by decide)
  rw [ofWord?, if_neg hnull, if_neg htrue, if_neg hfalse, intOf?_intText, Option.map_some]

/-! ## Data -/

/-- Null, booleans, integers and texts, and lists and records of such data. -/
inductive Plain : Datum → Prop
  | null : Plain .null
  | bool (b : Bool) : Plain (.bool b)
  | int (i : Int) : Plain (.int i)
  | text (s : String) : Plain (.text s)
  | list {items : List Datum} (h : ∀ d ∈ items, Plain d) : Plain (.list items)
  | record {fields : List (String × Datum)} (h : ∀ field ∈ fields, Plain field.2) :
      Plain (.record fields)

/-- The text is cut into tokens from which the datum is read wherever a value is to come. -/
def Legible (d : Datum) : Prop :=
  ∃ tokens, CutInto d.json.toList tokens ∧ ∀ frames,
    tokens.foldlM Progress.next? (.beforeValue frames) = some (.afterValue frames d)

theorem jsonItems_eq_map (items : List Datum) : jsonItems items = items.map json := by
  induction items with
  | nil => rfl
  | cons d items ih => rw [jsonItems, ih, List.map_cons]

theorem jsonFields_eq_map (fields : List (String × Datum)) :
    jsonFields fields = fields.map fun field ↦ Json.quote field.1 ++ ":" ++ field.2.json := by
  induction fields with
  | nil => rfl
  | cons field fields ih => rw [jsonFields, ih, List.map_cons]

theorem legible_of_word {d : Datum} (hword : IsWord d.json.toList)
    (h : ofWord? d.json.toList = some d) : d.Legible := by
  have hne : d.json.toList ≠ [] := by
    intro hnil
    rw [hnil] at h
    cases h
  refine ⟨_, .word hword hne, fun frames ↦ ?_⟩
  rw [List.foldlM_cons, Progress.next?, h]
  rfl

theorem legible_text (s : String) : (text s).Legible := by
  refine ⟨_, .quote s, fun frames ↦ ?_⟩
  rw [List.foldlM_cons, Progress.next?, unescape?_flatMap_escape]
  rfl

section Parts

variable {α : Type} (start : List Frame → List α → Progress) (close : Token)
  (whole : List α → Datum)

/-- The characters stand for a part of a list or a record. A comma after it leads to the next part,
and the closing bracket completes the whole. -/
def IsPart (chars : List Char) (a : α) : Prop :=
  ∃ tokens, CutInto chars tokens ∧ ∀ frames held,
    (tokens ++ [Token.comma]).foldlM Progress.next? (start frames held) =
      some (start frames (a :: held)) ∧
    (tokens ++ [close]).foldlM Progress.next? (start frames held) =
      some (.afterValue frames (whole (a :: held).reverse))

variable {start close whole}

/-- All parts of a list or a record up to its end. -/
theorem exists_tokens_parts {chars : α → List Char} {last : Char}
    (hlast : mark? last = some close) {a : α} {as : List α}
    (h : ∀ b ∈ a :: as, IsPart start close whole (chars b) b) :
    ∃ tokens, CutInto ([','].intercalate ((a :: as).map chars) ++ [last]) tokens ∧
      ∀ frames held, tokens.foldlM Progress.next? (start frames held) =
        some (.afterValue frames (whole (held.reverse ++ a :: as))) := by
  induction as generalizing a with
  | nil =>
      obtain ⟨tokens, hcut, hread⟩ := h a List.mem_cons_self
      rw [List.map_singleton, List.intercalate_singleton]
      refine ⟨_, hcut.append_mark_cons hlast .nil, fun frames held ↦ ?_⟩
      rw [(hread frames held).2, List.reverse_cons]
  | cons b bs ih =>
      obtain ⟨⟨tokens, hcut, hread⟩, hrest⟩ := List.forall_mem_cons.1 h
      obtain ⟨later, hlaterCut, hlaterRead⟩ := ih hrest
      rw [List.map_cons, List.map_cons, List.intercalate_cons_cons, List.append_assoc,
        List.append_assoc]
      refine ⟨_, hcut.append_mark_cons rfl hlaterCut, fun frames held ↦ ?_⟩
      rw [List.append_cons, List.foldlM_append, (hread frames held).1, Option.bind_eq_bind,
        Option.bind_some, hlaterRead, List.reverse_cons, List.append_assoc, List.singleton_append]

end Parts

theorem legible_list {items : List Datum} (h : ∀ d ∈ items, d.Legible) : (list items).Legible := by
  have hjson : (list items).json.toList =
      '[' :: ([','].intercalate (items.map fun d ↦ d.json.toList) ++ [']']) := by
    rw [json, jsonItems_eq_map, toList_bracketed, List.map_map]
    rfl
  rw [Legible, hjson]
  cases items with
  | nil => exact ⟨_, .mark_cons rfl (.mark_cons rfl .nil), fun frames ↦ rfl⟩
  | cons d items =>
      have hitem : ∀ e ∈ d :: items, IsPart (fun frames held ↦ .beforeValue (.list held :: frames))
          .rightBracket list e.json.toList e := by
        intro e he
        obtain ⟨tokens, hcut, hread⟩ := h e he
        refine ⟨tokens, hcut, fun frames held ↦ ?_⟩
        simp [List.foldlM_append, hread, Progress.next?]
      have hlast : mark? ']' = some .rightBracket := rfl
      obtain ⟨tokens, hcut, hread⟩ := exists_tokens_parts hlast hitem
      exact ⟨_, hcut.mark_cons rfl, fun frames ↦ hread frames []⟩

theorem legible_record {fields : List (String × Datum)}
    (h : ∀ field ∈ fields, Legible field.2) : (record fields).Legible := by
  have hjson : (record fields).json.toList = '\x7b' :: ([','].intercalate (fields.map fun field ↦
      (Json.quote field.1).toList ++ ':' :: field.2.json.toList) ++ ['\x7d']) := by
    rw [json, jsonFields_eq_map, toList_bracketed, List.map_map]
    simp [Function.comp_def]
  rw [Legible, hjson]
  cases fields with
  | nil => exact ⟨_, .mark_cons rfl (.mark_cons rfl .nil), fun frames ↦ rfl⟩
  | cons field fields =>
      have hfield : ∀ f ∈ field :: fields, IsPart .beforeName .rightBrace record
          ((Json.quote f.1).toList ++ ':' :: f.2.json.toList) f := by
        intro f hf
        obtain ⟨tokens, hcut, hread⟩ := h f hf
        refine ⟨_, (CutInto.quote f.1).append_mark_cons (c := ':') rfl hcut, fun frames held ↦ ?_⟩
        simp [List.foldlM_append, hread, Progress.next?, unescape?_flatMap_escape]
      have hlast : mark? '\x7d' = some .rightBrace := rfl
      obtain ⟨tokens, hcut, hread⟩ := exists_tokens_parts hlast hfield
      exact ⟨_, hcut.mark_cons rfl, fun frames ↦ hread frames []⟩

theorem Plain.legible {d : Datum} (h : d.Plain) : d.Legible := by
  induction h with
  | null => exact legible_of_word (by simp [json, IsWord, isBlank, mark?]) rfl
  | bool b => cases b <;> exact legible_of_word (by simp [json, IsWord, isBlank, mark?]) rfl
  | int i => exact legible_of_word (isWord_intText i) (ofWord?_intText i)
  | text s => exact legible_text s
  | list _ ih => exact legible_list ih
  | record _ ih => exact legible_record ih

/-- Plain data are read from the text that they are written as. -/
theorem Plain.ofJson?_json {d : Datum} (h : d.Plain) : ofJson? d.json = some d := by
  obtain ⟨tokens, hcut, hread⟩ := h.legible
  have htokens : Json.tokens? d.json = some tokens := by
    have hall := hcut [] stops_nil
    rw [List.append_nil] at hall
    simpa [Json.tokens?, tokensFrom, ended] using hall
  simp [ofJson?, htokens, hread]

end Datum

/-! ## Containers -/

namespace Container

theorem plain_toDatum (c : Container) : c.toDatum.Plain := by
  cases c with
  | list fs =>
      apply Datum.Plain.list
      intro d hd
      obtain ⟨f, -, rfl⟩ := List.mem_map.1 hd
      exact .text _
  | option f? =>
      cases f? with
      | none => exact .null
      | some f => exact .text _
  | map entries =>
      apply Datum.Plain.record
      intro field hfield
      obtain ⟨entry, -, rfl⟩ := List.mem_map.1 hfield
      exact .text _
  | encounter e =>
      apply Datum.Plain.record
      simp only [List.forall_mem_cons]
      exact ⟨.text _, .text _, .text _, List.forall_mem_nil _⟩

/-- A container is written as a text that its datum is read from. -/
theorem ofJson?_json (c : Container) : Datum.ofJson? c.json = some c.toDatum :=
  c.plain_toDatum.ofJson?_json

end Container

end Tabletop
