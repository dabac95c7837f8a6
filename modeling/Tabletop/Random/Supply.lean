import Tabletop.Attempt
import Tabletop.Random.Fraction

/-!
# Supplies of random words

A supply hands out words one after another and counts them. It may run dry, and then it stays dry.
`pending` lists the words that are still to come: taking a word takes the first of them, and a
supply is dry when there are none.
-/

namespace Tabletop

/-- Where the words of a supply come from. -/
inductive Source where
  | words (ws : List Word)
  /-- Fractions of which each gives one word. -/
  | fractions (ks : List BinaryFraction)
  /-- A linear congruential generator of 64 bits that may still be asked `left` times. -/
  | congruential (state : UInt64) (left : Nat)

def Source.advance (state : UInt64) : UInt64 :=
  state * 6364136223846793005 + 1442695040888963407

def Source.upper (state : UInt64) : Word :=
  (state >>> 32).toUInt32

/-- The words of the congruential generator after `state`. -/
def Source.stream (state : UInt64) : Nat → List Word
  | 0 => []
  | n + 1 => upper (advance state) :: stream (advance state) n

namespace Source

def next? : Source → Option (Word × Source)
  | .words [] => none
  | .words (w :: ws) => some (w, .words ws)
  | .fractions [] => none
  | .fractions (k :: ks) => some (k.word, .fractions ks)
  | .congruential _ 0 => none
  | .congruential state (left + 1) =>
      some (upper (advance state), .congruential (advance state) left)

/-- How many words are still to come. -/
def left : Source → Nat
  | .words ws => ws.length
  | .fractions ks => ks.length
  | .congruential _ left => left

def pending : Source → List Word
  | .words ws => ws
  | .fractions ks => ks.map BinaryFraction.word
  | .congruential state left => stream state left

theorem left_of_next? {s t : Source} {w : Word} (h : s.next? = some (w, t)) :
    s.left = t.left + 1 := by
  unfold next? at h
  split at h <;> simp at h
  all_goals
    obtain ⟨-, rfl⟩ := h
    simp [left]

theorem pending_eq_nil_iff {s : Source} : s.pending = [] ↔ s.next? = none := by
  unfold next?
  split <;> simp [pending, stream]

theorem pending_of_next? {s t : Source} {w : Word} (h : s.next? = some (w, t)) :
    s.pending = w :: t.pending := by
  unfold next? at h
  split at h <;> simp at h
  all_goals
    obtain ⟨rfl, rfl⟩ := h
    simp [pending, stream]

end Source

/-- A source, and how many of its words have been handed out. -/
structure Supply where
  source : Source
  delivered : Nat := 0

namespace Supply

def ofWords (ws : List Word) : Supply :=
  { source := .words ws }

def ofFractions (ks : List BinaryFraction) : Supply :=
  { source := .fractions ks }

/-- A congruential generator stops after `2 ^ 62` words. -/
def stock : Nat :=
  0x4000000000000000

def seeded (seed : UInt64) : Supply :=
  { source := .congruential seed stock }

def next? (s : Supply) : Option (Word × Supply) :=
  s.source.next?.map fun (w, source) => (w, { source, delivered := s.delivered + 1 })

def left (s : Supply) : Nat :=
  s.source.left

def pending (s : Supply) : List Word :=
  s.source.pending

theorem next?_eq_some_iff {s t : Supply} {w : Word} :
    s.next? = some (w, t) ↔
      s.source.next? = some (w, t.source) ∧ t.delivered = s.delivered + 1 := by
  obtain ⟨source, delivered⟩ := t
  simp only [next?, Option.map_eq_some_iff, Prod.mk.injEq, Supply.mk.injEq, Prod.exists]
  constructor
  · rintro ⟨_, _, h, rfl, rfl, rfl⟩
    exact ⟨h, rfl⟩
  · rintro ⟨h, rfl⟩
    exact ⟨w, source, h, rfl, rfl, rfl⟩

theorem left_lt_of_next? {s t : Supply} {w : Word} (h : s.next? = some (w, t)) :
    t.left < s.left := by
  have hleft := Source.left_of_next? (next?_eq_some_iff.1 h).1
  simp only [left]
  omega

theorem pending_of_next? {s t : Supply} {w : Word} (h : s.next? = some (w, t)) :
    s.pending = w :: t.pending :=
  Source.pending_of_next? (next?_eq_some_iff.1 h).1

theorem delivered_of_next? {s t : Supply} {w : Word} (h : s.next? = some (w, t)) :
    t.delivered = s.delivered + 1 :=
  (next?_eq_some_iff.1 h).2

theorem next?_eq_none_iff {s : Supply} : s.next? = none ↔ s.pending = [] := by
  simp [next?, pending, Source.pending_eq_nil_iff]

end Supply

/-- An attempt to take words from a supply. It fails when the supply is dry, and the words it has
taken by then stay taken. -/
abbrev Draw := Attempt Supply

def Draw.word : Draw Word :=
  .ofResult fun s =>
    match s.next? with
    | none => (none, s)
    | some (w, rest) => (some w, rest)

end Tabletop
