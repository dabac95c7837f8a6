import Tabletop.Formula.Basic
import Tabletop.Text.Decimal

/-!
# A formula as it is written

The parts of the text: digits before the `d`, digits after it and, perhaps, a sign with digits of
its own. `ofChars?` finds the parts of a text, and `toChars` puts them together again.
-/

namespace Tabletop

open Text.Decimal (IsNumeral)

structure Written where
  count : List Char
  sides : List Char
  suffix : Option (Sign × List Char) := none
  deriving DecidableEq, Repr

namespace Written

def toChars (w : Written) : List Char :=
  w.count ++ 'd' :: w.sides ++ (w.suffix.map fun (sign, amount) => sign.symbol :: amount).getD []

/-- The digits of the amount. Without a sign there are none. -/
def amount (w : Written) : List Char :=
  (w.suffix.map Prod.snd).getD []

/-- The limits on what may be written: the count and the amount may lack digits, the sides may
not. -/
def Valid (w : Written) : Prop :=
  IsNumeral 3 w.count ∧ IsNumeral 3 w.sides ∧ w.sides ≠ [] ∧ IsNumeral 2 w.amount

instance (w : Written) : Decidable w.Valid :=
  inferInstanceAs (Decidable (_ ∧ _ ∧ _ ∧ _))

/-- The only parts that a text can have, whatever their lengths. -/
def split? (text : List Char) : Option Written :=
  match text.dropWhile Char.isDigit with
  | 'd' :: rest =>
      let count := text.takeWhile Char.isDigit
      let sides := rest.takeWhile Char.isDigit
      match rest.dropWhile Char.isDigit with
      | [] => some { count, sides }
      | c :: amount =>
          (Sign.ofChar? c).map fun sign => { count, sides, suffix := some (sign, amount) }
  | _ => none

def ofChars? (text : List Char) : Option Written :=
  (split? text).filter fun w => decide w.Valid

/-! ## Splitting undoes joining -/

theorem symbol_not_isDigit (s : Sign) : s.symbol.isDigit = false := by
  cases s <;> rfl

/-- A run of digits ends where something else stands. -/
theorem takeWhile_numeral {most : Nat} {digits : List Char} (h : IsNumeral most digits)
    {rest : List Char} (hrest : ∀ c ∈ rest.head?, c.isDigit = false) :
    (digits ++ rest).takeWhile Char.isDigit = digits ∧
      (digits ++ rest).dropWhile Char.isDigit = rest := by
  rw [List.takeWhile_append_of_pos h.2, List.dropWhile_append_of_pos h.2]
  cases rest with
  | nil => simp
  | cons c rest => simp [hrest c rfl]

theorem toChars_of_split? {text : List Char} {w : Written} (h : split? text = some w) :
    w.toChars = text := by
  unfold split? at h
  split at h
  · rename_i rest hrest
    have htext : text.takeWhile Char.isDigit ++ text.dropWhile Char.isDigit = text :=
      List.takeWhile_append_dropWhile
    have hsides : rest.takeWhile Char.isDigit ++ rest.dropWhile Char.isDigit = rest :=
      List.takeWhile_append_dropWhile
    rw [hrest] at htext
    split at h
    · rename_i hend
      rw [hend, List.append_nil] at hsides
      simp at h
      subst h
      simp [toChars, hsides, htext]
    · rename_i c amount hend
      obtain ⟨sign, hsign, rfl⟩ := Option.map_eq_some_iff.1 h
      obtain rfl := Sign.ofChar?_eq_some_iff.1 hsign
      rw [hend] at hsides
      simp [toChars, hsides, htext]
  · simp at h

theorem split?_toChars {w : Written} (h : w.Valid) : split? w.toChars = some w := by
  obtain ⟨count, sides, suffix⟩ := w
  obtain ⟨hcount, hsides, -, -⟩ := h
  have hd : ∀ rest, ∀ c ∈ ('d' :: rest : List Char).head?, c.isDigit = false := by
    rintro rest c ⟨⟩
    rfl
  cases suffix with
  | none =>
      have hleft := takeWhile_numeral hcount (hd sides)
      have hright : sides.takeWhile Char.isDigit = sides ∧ sides.dropWhile Char.isDigit = [] := by
        simpa using @takeWhile_numeral 3 sides hsides [] (by simp)
      simp [toChars, split?, hleft, hright]
  | some suffix =>
      obtain ⟨sign, amount⟩ := suffix
      have hleft := takeWhile_numeral hcount (hd (sides ++ sign.symbol :: amount))
      have hright := @takeWhile_numeral 3 sides hsides (sign.symbol :: amount)
        (by simp [symbol_not_isDigit])
      simp [toChars, split?, hleft, hright]

theorem ofChars?_eq_some_iff {text : List Char} {w : Written} :
    ofChars? text = some w ↔ w.Valid ∧ w.toChars = text := by
  rw [ofChars?, Option.filter_eq_some_iff, decide_eq_true_iff]
  constructor
  · rintro ⟨hsplit, hvalid⟩
    exact ⟨hvalid, toChars_of_split? hsplit⟩
  · rintro ⟨hvalid, rfl⟩
    exact ⟨split?_toChars hvalid, hvalid⟩

end Written

end Tabletop
