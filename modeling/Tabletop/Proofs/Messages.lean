import Mathlib
import Tabletop.Proofs.Reading

/-!
# Messages of rejections

The message of a rejection quotes the rejected text. The quotation can be undone, so that no two
texts share a message, and nothing in it ends the quotation early or the line.
-/

namespace Tabletop

namespace Text

/-- The control characters of ASCII: those below the space, and DEL. -/
def IsControl (c : Char) : Prop :=
  c.toNat < 0x20 ∨ c.toNat = 0x7f

instance (c : Char) : Decidable (IsControl c) :=
  inferInstanceAs (Decidable (_ ∨ _))

theorem isUnprintable_of_isControl {c : Char} (h : IsControl c) : isUnprintable c = true := by
  have hbasic : c.toNat < 0x10000 := by
    rcases h with h | h <;> omega
  rw [isUnprintable, if_pos hbasic, unprintablesBasic, inRanges, inRanges]
  rcases h with h | h
  · rw [if_neg (by omega), if_pos (by omega)]
  · rw [if_neg (by omega), if_neg (by omega), if_neg (by omega), if_pos (by omega)]

namespace Quoted

/-! ## What a character is written as -/

/-- A character is written as itself, as a letter after a backslash or as its code point. -/
theorem escape_cases (c : Char) :
    (∃ letter, letter? c = some letter ∧ escape c = ['\\', letter]) ∨
      (letter? c = none ∧ isHidden c = true ∧ escape c = codePoint c) ∨
      (letter? c = none ∧ isHidden c = false ∧ escape c = [c]) := by
  rw [escape]
  cases hletter : letter? c with
  | some letter => exact .inl ⟨letter, rfl, rfl⟩
  | none =>
      cases hhidden : isHidden c with
      | true => exact .inr (.inl ⟨rfl, rfl, by simp⟩)
      | false => exact .inr (.inr ⟨rfl, rfl, by simp⟩)

theorem exists_of_mem_toDigits {c : Char} {n : Nat} (h : c ∈ Nat.toDigits 16 n) :
    ∃ d < 16, c = d.digitChar := by
  induction n using Nat.strongRecOn with
  | ind n ih =>
      by_cases hn : n < 16
      · rw [Nat.toDigits_of_lt_base hn, List.mem_singleton] at h
        exact ⟨n, hn, h⟩
      · rw [Nat.toDigits_of_base_le (by decide) (by omega), List.mem_append,
          List.mem_singleton] at h
        rcases h with h | h
        · exact ih (n / 16) (by omega) h
        · exact ⟨n % 16, Nat.mod_lt _ (by decide), h⟩

theorem plain_digitChar : ∀ d < 16, d.digitChar ≠ '"' ∧ ¬IsControl d.digitChar := by
  decide

/-- Of a code point no character but its first is a backslash, and none is a quote or a control
character. -/
theorem plain_of_mem_codePoint {c d : Char} (h : d ∈ codePoint c) : d ≠ '"' ∧ ¬IsControl d := by
  rw [codePoint, List.mem_append, List.mem_append] at h
  rcases h with (h | h) | h
  · simp only [List.mem_cons, List.not_mem_nil, or_false] at h
    rcases h with rfl | rfl | rfl <;> decide
  · obtain ⟨d, hd, rfl⟩ := exists_of_mem_toDigits h
    exact plain_digitChar d hd
  · obtain rfl := List.mem_singleton.1 h
    decide

theorem not_isControl_of_mem_escape {c d : Char} (h : d ∈ escape c) : ¬IsControl d := by
  rcases escape_cases c with ⟨letter, hletter, hescape⟩ | ⟨-, -, hescape⟩ | ⟨-, hshown, hescape⟩
  · rw [hescape] at h
    simp only [List.mem_cons, List.not_mem_nil, or_false] at h
    rcases h with rfl | rfl
    · decide
    · unfold letter? at hletter
      split at hletter <;> cases hletter <;> decide
  · rw [hescape] at h
    exact (plain_of_mem_codePoint h).2
  · rw [hescape, List.mem_singleton] at h
    subst h
    intro hcontrol
    simp [isHidden, isUnprintable_of_isControl hcontrol] at hshown

/-- A quote is only ever written after a backslash. -/
theorem eq_of_escape_eq {c : Char} {before after : List Char}
    (h : escape c = before ++ '"' :: after) : before = ['\\'] := by
  rcases escape_cases c with ⟨letter, -, hescape⟩ | ⟨-, -, hescape⟩ | ⟨hletter, -, hescape⟩
  · rw [hescape, List.cons_eq_append_iff] at h
    rcases h with ⟨-, h⟩ | ⟨rest, rfl, h⟩
    · cases h
    · rw [List.cons_eq_append_iff] at h
      rcases h with ⟨rfl, -⟩ | ⟨_, -, h⟩
      · rfl
      · simp at h
  · have hquote : '"' ∈ codePoint c := by simp [← hescape, h]
    exact absurd rfl (plain_of_mem_codePoint hquote).1
  · have hquote : '"' ∈ [c] := by simp [← hescape, h]
    obtain rfl := List.mem_singleton.1 hquote
    cases hletter

/-! ## Backslashes before a quote -/

/-- How many backslashes stand in a row at the end of `text`. -/
def slashesAtEnd (text : List Char) : Nat :=
  (text.rtakeWhile (· == '\\')).length

theorem slashesAtEnd_concat_slash (text : List Char) :
    slashesAtEnd (text ++ ['\\']) = slashesAtEnd text + 1 := by
  simp [slashesAtEnd, List.rtakeWhile_concat_pos]

theorem slashesAtEnd_concat_of_ne (text : List Char) {c : Char} (h : c ≠ '\\') :
    slashesAtEnd (text ++ [c]) = 0 := by
  simp [slashesAtEnd, List.rtakeWhile_concat_neg, h]

/-- A backslash is written as two, and nothing else ends in one. -/
theorem escape_slash_or_concat (c : Char) :
    escape c = ['\\', '\\'] ∨ ∃ front last, escape c = front ++ [last] ∧ last ≠ '\\' := by
  rcases escape_cases c with ⟨letter, hletter, hescape⟩ | ⟨-, -, hescape⟩ | ⟨hletter, -, hescape⟩
  · by_cases hslash : letter = '\\'
    · exact .inl (hslash ▸ hescape)
    · exact .inr ⟨['\\'], letter, hescape, hslash⟩
  · exact .inr ⟨_, '\x7d', hescape, by decide⟩
  · exact .inr ⟨[], c, hescape, ne_backslash_of_letter? hletter⟩

theorem encode_append (left right : List Char) :
    encode (left ++ right) = encode left ++ encode right :=
  List.flatMap_append

theorem encode_singleton (c : Char) : encode [c] = escape c := by
  simp [encode]

theorem even_slashesAtEnd_encode (text : List Char) : Even (slashesAtEnd (encode text)) := by
  induction text using List.reverseRecOn with
  | nil => exact Even.zero
  | append_singleton text c ih =>
      rw [encode_append, encode_singleton]
      rcases escape_slash_or_concat c with hescape | ⟨front, last, hescape, hlast⟩
      · have htwo : encode text ++ ['\\', '\\'] = (encode text ++ ['\\']) ++ ['\\'] := by simp
        rw [hescape, htwo, slashesAtEnd_concat_slash, slashesAtEnd_concat_slash]
        exact ih.add_one.add_one
      · rw [hescape, ← List.append_assoc, slashesAtEnd_concat_of_ne _ hlast]
        exact Even.zero

/-- What stands before a quote ends in the backslash of its escape, and what stands before that is
encoded text. -/
theorem odd_slashesAtEnd_of_encode_eq {text before after : List Char}
    (h : encode text = before ++ '"' :: after) : Odd (slashesAtEnd before) := by
  induction text using List.reverseRecOn generalizing after with
  | nil => simp [encode] at h
  | append_singleton text c ih =>
      rw [encode_append, encode_singleton, List.append_eq_append_iff] at h
      rcases h with ⟨start, rfl, hescape⟩ | ⟨rest, htext, hrest⟩
      · rw [eq_of_escape_eq hescape, slashesAtEnd_concat_slash]
        exact (even_slashesAtEnd_encode text).add_one
      · cases rest with
        | nil =>
            have hescape : escape c = [] ++ '"' :: after := hrest.symm
            cases eq_of_escape_eq hescape
        | cons q rest =>
            obtain ⟨rfl, -⟩ := List.cons.inj hrest
            exact ih htext

end Quoted

end Text

namespace Rejection

open Text

/-- How the message of a mismatch begins, up to the quoted text. -/
def opening : String :=
  "dice string does not match requirements: "

theorem message_mismatch (text : String) :
    (mismatch text).message = opening ++ Quoted.quote text :=
  rfl

theorem toList_message_mismatch (text : String) :
    (mismatch text).message.toList =
      opening.toList ++ ['"'] ++ Quoted.encode text.toList ++ ['"'] := by
  simp [message_mismatch, Quoted.quote]

/-- The text that a message quotes, if it is the message of a mismatch. -/
def quoted? (message : String) : Option String :=
  let start := opening.toList ++ ['"']
  if start.isPrefixOf message.toList then
    (Quoted.decode? (message.toList.drop start.length).dropLast).map String.ofList
  else none

theorem quoted?_message_mismatch (text : String) :
    quoted? (mismatch text).message = some text := by
  have hstart := List.prefix_append (opening.toList ++ ['"']) (Quoted.encode text.toList ++ ['"'])
  rw [quoted?, toList_message_mismatch, List.append_assoc,
    if_pos (List.isPrefixOf_iff_prefix.2 hstart), List.drop_left, List.dropLast_concat,
    Quoted.decode?_encode, Option.map_some, String.ofList_toList]

theorem message_zeroSides : zeroSides.message = "a die needs at least one side" :=
  rfl

theorem quoted?_message_zeroSides : quoted? zeroSides.message = none := by
  simp [quoted?, opening, message_zeroSides]

theorem message_mismatch_ne (text : String) : (mismatch text).message ≠ zeroSides.message := by
  intro h
  have hquoted := quoted?_message_mismatch text
  rw [h, quoted?_message_zeroSides] at hquoted
  cases hquoted

theorem not_isControl_of_mem_message {r : Rejection} {c : Char} (hc : c ∈ r.message.toList) :
    ¬IsControl c := by
  cases r with
  | mismatch text =>
      rw [toList_message_mismatch, List.mem_append, List.mem_append, List.mem_append] at hc
      rcases hc with ((hc | hc) | hc) | hc
      · have hopening : ∀ d ∈ opening.toList, ¬IsControl d := by simp [opening, IsControl]
        exact hopening c hc
      · obtain rfl := List.mem_singleton.1 hc
        decide
      · obtain ⟨d, -, hc⟩ := List.mem_flatMap.1 hc
        exact Quoted.not_isControl_of_mem_escape hc
      · obtain rfl := List.mem_singleton.1 hc
        decide
  | zeroSides =>
      have hall : ∀ d ∈ zeroSides.message.toList, ¬IsControl d := by
        simp [message_zeroSides, IsControl]
      exact hall c hc

end Rejection

/-- The message of a text that is no formula gives back this text, so that it belongs to no other
text and to no other kind of rejection. No message has a control character in it, and no quote
within the quotation could be taken for its end. -/
theorem Formula.message_gives_back_text :
    (∀ text carried, parse text = .error (.mismatch carried) →
      Rejection.quoted? (Rejection.mismatch carried).message = some text) ∧
    (∀ a b r q, parse a = .error (.mismatch r) → parse b = .error (.mismatch q) → a ≠ b →
      (Rejection.mismatch r).message ≠ (Rejection.mismatch q).message) ∧
    (∀ text, (Rejection.mismatch text).message ≠ Rejection.zeroSides.message) ∧
    (∀ r : Rejection, ∀ c ∈ r.message.toList, ¬Text.IsControl c) ∧
    ∀ text, ∃ body, (Rejection.mismatch text).message.toList =
        Rejection.opening.toList ++ ['"'] ++ body ++ ['"'] ∧
      ∀ before after, body = before ++ '"' :: after → Odd (Text.Quoted.slashesAtEnd before) := by
  have hback {text carried : String} (h : parse text = .error (.mismatch carried)) :
      Rejection.quoted? (Rejection.mismatch carried).message = some text := by
    obtain ⟨rfl, -⟩ := parse_eq_mismatch_iff.1 h
    exact Rejection.quoted?_message_mismatch carried
  refine ⟨fun _ _ h ↦ hback h, ?_, Rejection.message_mismatch_ne,
    fun r c hc ↦ Rejection.not_isControl_of_mem_message hc, ?_⟩
  · intro a b r q ha hb hne hmessage
    apply hne
    apply Option.some.inj
    rw [← hback ha, ← hback hb, hmessage]
  · intro text
    exact ⟨_, Rejection.toList_message_mismatch text, fun before after h ↦
      Text.Quoted.odd_slashesAtEnd_of_encode_eq h⟩

theorem Formula.mark_and_its_escape_told_apart :
    let mark := "\u0301"
    let escaped := "\\u\x7b301\x7d"
    parse mark = .error (.mismatch mark) ∧ parse escaped = .error (.mismatch escaped) ∧
      Rejection.quoted? (Rejection.mismatch escaped).message = some escaped ∧
      (Rejection.mismatch mark).message ≠ (Rejection.mismatch escaped).message := by
  intro mark escaped
  have hmark : parse mark = .error (.mismatch mark) := by
    simp only [mark, parse, String.reduceToList]
    rfl
  have hescaped : parse escaped = .error (.mismatch escaped) := by
    simp only [escaped, parse, String.reduceToList]
    rfl
  have hne : mark ≠ escaped := by decide
  obtain ⟨hback, hdistinct, -⟩ := message_gives_back_text
  exact ⟨hmark, hescaped, hback _ _ hescaped, hdistinct _ _ _ _ hmark hescaped hne⟩

end Tabletop
