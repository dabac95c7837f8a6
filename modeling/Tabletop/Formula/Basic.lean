/-!
# Dice formulas

A formula such as `2d6+1` asks for a number of equal dice and, perhaps, a flat adjustment of their
sum. A zero adjustment is kept as it was written, but it takes no part in equality or in the hash,
because it takes no part in a roll.
-/

namespace Tabletop

/-- Faces, sums and results are counted in 32 bits. -/
abbrev Score := UInt32

/-- The direction of an adjustment. -/
inductive Sign where
  | plus
  | minus
  deriving DecidableEq, Repr

namespace Sign

def symbol : Sign → Char
  | .plus => '+'
  | .minus => '-'

def ofChar? : Char → Option Sign
  | '+' => some .plus
  | '-' => some .minus
  | _ => none

@[simp] theorem ofChar?_symbol (s : Sign) : ofChar? s.symbol = some s := by
  cases s <;> rfl

theorem ofChar?_eq_some_iff {c : Char} {s : Sign} : ofChar? c = some s ↔ c = s.symbol := by
  constructor
  · intro h
    unfold ofChar? at h
    split at h <;> simp_all [symbol] <;> subst h <;> rfl
  · rintro rfl
    exact ofChar?_symbol s

end Sign

/-- An amount that is added to a sum of dice or taken from it. -/
structure Adjustment where
  sign : Sign
  amount : UInt8
  deriving DecidableEq, Repr

/-- Taking away stops at zero. -/
def Adjustment.apply (a : Adjustment) (sum : Score) : Score :=
  match a.sign with
  | .plus => sum + a.amount.toUInt32
  | .minus => if sum ≤ a.amount.toUInt32 then 0 else sum - a.amount.toUInt32

/-- `count` dice with the faces `1` to `sides`, and the adjustment as it was written. -/
structure Formula where
  count : UInt16
  sides : UInt16
  adjustment : Option Adjustment := none
  deriving Repr

namespace Formula

/-- How many dice a formula asks for when it names no number. -/
def defaultCount : UInt16 := 1

def sign? (f : Formula) : Option Sign :=
  f.adjustment.map Adjustment.sign

def amount? (f : Formula) : Option UInt8 :=
  f.adjustment.map Adjustment.amount

/-- The result that belongs to a sum of dice. -/
def adjust (f : Formula) (sum : Score) : Score :=
  match f.adjustment with
  | some a => a.apply sum
  | none => sum

/-- The result when every die shows `face`. -/
def resultOfAll (f : Formula) (face : Score) : Score :=
  f.adjust (f.count.toUInt32 * face)

def minRoll (f : Formula) : Score :=
  f.resultOfAll 1

def maxRoll (f : Formula) : Score :=
  f.resultOfAll f.sides.toUInt32

def admits (f : Formula) (result : Score) : Bool :=
  f.minRoll ≤ result && result ≤ f.maxRoll

/-- The adjustment as it tells in a roll: a zero amount is none. -/
def effective (f : Formula) : Option Adjustment :=
  f.adjustment.filter (·.amount != 0)

/-- Equality of formulas looks past a zero adjustment. -/
def same (f g : Formula) : Bool :=
  f.count == g.count && f.sides == g.sides && f.effective == g.effective

instance : BEq Formula := ⟨same⟩

/-- The numbers that go into the hash, in their order. An absent adjustment counts as `0`, one that
is there as `1` and the numbers of its sign and amount. -/
def hashWords (f : Formula) : List UInt64 :=
  f.count.toUInt64 :: f.sides.toUInt64 ::
    match f.effective with
    | none => [0]
    | some ⟨.plus, amount⟩ => [1, 0, amount.toUInt64]
    | some ⟨.minus, amount⟩ => [1, 1, amount.toUInt64]

instance : Hashable Formula := ⟨fun f => f.hashWords.foldl mixHash 7⟩

theorem beq_iff {f g : Formula} :
    (f == g) = true ↔ f.count = g.count ∧ f.sides = g.sides ∧ f.effective = g.effective := by
  change same f g = true ↔ _
  simp [same, and_assoc]

theorem hashWords_congr {f g : Formula} (h : (f == g) = true) : f.hashWords = g.hashWords := by
  obtain ⟨hcount, hsides, heffective⟩ := beq_iff.1 h
  simp [hashWords, hcount, hsides, heffective]

instance : EquivBEq Formula where
  rfl := beq_iff.2 ⟨rfl, rfl, rfl⟩
  symm h :=
    have ⟨hcount, hsides, heffective⟩ := beq_iff.1 h
    beq_iff.2 ⟨hcount.symm, hsides.symm, heffective.symm⟩
  trans h k :=
    have ⟨hcount, hsides, heffective⟩ := beq_iff.1 h
    have ⟨kcount, ksides, keffective⟩ := beq_iff.1 k
    beq_iff.2 ⟨hcount.trans kcount, hsides.trans ksides, heffective.trans keffective⟩

instance : LawfulHashable Formula where
  hash_eq f g h := by
    change List.foldl mixHash 7 f.hashWords = List.foldl mixHash 7 g.hashWords
    rw [hashWords_congr h]

end Formula

end Tabletop
