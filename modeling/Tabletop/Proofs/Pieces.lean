import Mathlib
import Tabletop.Proofs.Requests

/-!
# Bytes in pieces

A run of bytes is made of the first bytes of the words still to come. Where it ends within a word,
the rest of this word is lost, and so two runs in a row come to what one run of both lengths comes
to only if the first of them ends with a word, or the second is empty.
-/

namespace Tabletop

namespace Word

theorem flatMap_bytes_take (ws : List Word) (m : Nat) :
    (ws.take m).flatMap bytes = (ws.flatMap bytes).take (4 * m) := by
  induction ws generalizing m with
  | nil => simp
  | cons w ws ih =>
      cases m with
      | zero => simp
      | succ m =>
          have hlength : 4 * (m + 1) = w.bytes.length + 4 * m := by
            rw [Nat.mul_succ, Nat.add_comm]
            rfl
          rw [List.take_succ_cons, List.flatMap_cons, ih, List.flatMap_cons, hlength,
            List.take_length_add_append]

theorem flatMap_bytes_drop (ws : List Word) (m : Nat) :
    (ws.drop m).flatMap bytes = (ws.flatMap bytes).drop (4 * m) := by
  have hsplit : (ws.take m).flatMap bytes ++ (ws.drop m).flatMap bytes =
      (ws.flatMap bytes).take (4 * m) ++ (ws.flatMap bytes).drop (4 * m) := by
    rw [← List.flatMap_append, List.take_append_drop, List.take_append_drop]
  rw [flatMap_bytes_take] at hsplit
  exact List.append_cancel_left hsplit

theorem flatMap_bytes_replicate {w : Word} {b : UInt8} (hw : w.bytes = List.replicate 4 b)
    (m : Nat) : (List.replicate m w).flatMap bytes = List.replicate (4 * m) b := by
  induction m with
  | zero => rfl
  | succ m ih =>
      rw [List.replicate_succ, List.flatMap_cons, ih, hw, List.replicate_append_replicate,
        Nat.mul_succ, Nat.add_comm]

end Word

/-- The bytes of the words that are still to come. -/
def Supply.bytes (s : Supply) : List UInt8 :=
  s.pending.flatMap Word.bytes

theorem Supply.length_pending_ofFractions (ks : List BinaryFraction) :
    (ofFractions ks).pending.length = ks.length :=
  List.length_map _

theorem Supply.Asked.bytes {s t : Supply} {m : Nat} (h : s.Asked m t) :
    t.bytes = s.bytes.drop (4 * m) := by
  rw [Supply.bytes, h.pending, Word.flatMap_bytes_drop, Supply.bytes]

namespace Draw

/-! ## One run and two -/

/-- The words that `n` bytes begin have room for them. -/
theorem le_four_mul_ceilDiv (n : Nat) : n ≤ 4 * (n ⌈/⌉ 4) :=
  (ceilDiv_le_iff_le_mul four_pos).1 le_rfl

theorem four_mul_ceilDiv_eq_iff {a : Nat} : 4 * (a ⌈/⌉ 4) = a ↔ 4 ∣ a := by
  constructor
  · intro h
    exact ⟨a ⌈/⌉ 4, h.symm⟩
  · rintro ⟨k, rfl⟩
    exact congrArg (4 * ·) (smul_ceilDiv four_pos k)

theorem result_bytes (n : Nat) (s : Supply) :
    ∃ t, (bytes n).result s =
        (if n ⌈/⌉ 4 ≤ s.pending.length then some (s.bytes.take n) else none, t) ∧
      s.Asked (n ⌈/⌉ 4) t := by
  obtain ⟨t, htimes, hst⟩ := result_times_word (n ⌈/⌉ 4) s
  have hneed : (n + 3) / 4 = n ⌈/⌉ 4 := (Nat.ceilDiv_eq_add_pred_div n 4).symm
  refine ⟨t, ?_, hst⟩
  rw [bytes, Attempt.result_bind, hneed, htimes]
  split_ifs
  · have hround : n ≤ 4 * (n ⌈/⌉ 4) := le_four_mul_ceilDiv _
    have htake : ((s.pending.take (n ⌈/⌉ 4)).flatMap Word.bytes).take n = s.bytes.take n := by
      rw [Word.flatMap_bytes_take, List.take_take, Nat.min_eq_left hround, Supply.bytes]
    simp only [Attempt.result_pure, htake]
  · rfl

/-- Two runs of bytes, one after the other. -/
def bytesInPieces (a b : Nat) : Draw (List UInt8) := do
  let front ← bytes a
  let back ← bytes b
  pure (front ++ back)

/-- The second run begins with the first word that the first one has left whole. -/
theorem result_bytesInPieces (a b : Nat) (s : Supply) :
    ∃ t, (bytesInPieces a b).result s =
        (if a ⌈/⌉ 4 + b ⌈/⌉ 4 ≤ s.pending.length then
          some (s.bytes.take a ++ (s.bytes.drop (4 * (a ⌈/⌉ 4))).take b) else none, t) ∧
      s.Asked (a ⌈/⌉ 4 + b ⌈/⌉ 4) t := by
  obtain ⟨t, hfront, hst⟩ := result_bytes a s
  obtain ⟨u, hback, htu⟩ := result_bytes b t
  rw [hst.bytes, hst.pending, List.length_drop] at hback
  rw [bytesInPieces, Attempt.result_bind, hfront]
  by_cases ha : a ⌈/⌉ 4 ≤ s.pending.length
  · refine ⟨u, ?_, hst.trans htu⟩
    have hboth : b ⌈/⌉ 4 ≤ s.pending.length - a ⌈/⌉ 4 ↔
        a ⌈/⌉ 4 + b ⌈/⌉ 4 ≤ s.pending.length := by omega
    simp only [if_pos ha, Attempt.result_bind, hback, hboth]
    split_ifs <;> rfl
  · have hboth : ¬a ⌈/⌉ 4 + b ⌈/⌉ 4 ≤ s.pending.length := by omega
    have hdry : t.next? = none := by
      rw [Supply.next?_eq_none_iff, hst.pending, List.drop_eq_nil_iff]
      omega
    refine ⟨t, ?_, hst.trans (.of_dry hdry _)⟩
    rw [if_neg ha, if_neg hboth]

/-! ## Where the pieces join -/

theorem ceilDiv_add_of_joins {a b : Nat} (h : 4 ∣ a ∨ b = 0) :
    a ⌈/⌉ 4 + b ⌈/⌉ 4 = (a + b) ⌈/⌉ 4 := by
  simp only [Nat.ceilDiv_eq_add_pred_div]
  omega

/-- Where nothing is lost between the pieces, they are the bytes of one run and take as many
words. -/
theorem bytesInPieces_of_joins {a b : Nat} (h : 4 ∣ a ∨ b = 0) (s : Supply) :
    ((bytesInPieces a b).result s).1 = ((bytes (a + b)).result s).1 ∧
      ((bytesInPieces a b).result s).2.delivered = ((bytes (a + b)).result s).2.delivered := by
  obtain ⟨t, hpieces, hst⟩ := result_bytesInPieces a b s
  obtain ⟨u, hrun, hsu⟩ := result_bytes (a + b) s
  have hbytes : s.bytes.take a ++ (s.bytes.drop (4 * (a ⌈/⌉ 4))).take b = s.bytes.take (a + b) := by
    rw [List.take_add]
    rcases h with h | rfl
    · rw [four_mul_ceilDiv_eq_iff.2 h]
    · rw [List.take_zero, List.take_zero]
  rw [hpieces, hrun, hbytes, ceilDiv_add_of_joins h, hst.delivered, hsu.delivered,
    ceilDiv_add_of_joins h]
  exact ⟨rfl, rfl⟩

/-- Numbers for two runs: none of the words for the first has a bit set, and all of those for the
second have all. -/
def tellingNumbers (a b : Nat) : List BinaryFraction :=
  List.replicate (a ⌈/⌉ 4) ⟨0, by decide⟩ ++
    List.replicate (b ⌈/⌉ 4) ⟨2 ^ 53 - 1, by decide⟩

theorem bytes_ofFractions_tellingNumbers (a b : Nat) :
    (Supply.ofFractions (tellingNumbers a b)).bytes =
      List.replicate (4 * (a ⌈/⌉ 4)) 0 ++ List.replicate (4 * (b ⌈/⌉ 4)) 0xff := by
  have hzero : (⟨0, by decide⟩ : BinaryFraction).word.bytes = List.replicate 4 0 := by decide
  have hfull : (⟨2 ^ 53 - 1, by decide⟩ : BinaryFraction).word.bytes = List.replicate 4 0xff := by
    decide
  rw [Supply.bytes, Supply.ofFractions, Supply.pending]
  change ((tellingNumbers a b).map BinaryFraction.word).flatMap Word.bytes = _
  rw [tellingNumbers, List.map_append, List.map_replicate, List.map_replicate,
    List.flatMap_append, Word.flatMap_bytes_replicate hzero, Word.flatMap_bytes_replicate hfull]

/-- After a first piece that ends within a word, one run goes on with this word and the second piece
with the next. -/
theorem bytesInPieces_tellingNumbers {a b : Nat} (ha : ¬4 ∣ a) (hb : b ≠ 0) :
    let s := Supply.ofFractions (tellingNumbers a b)
    ∃ bs cs, ((bytesInPieces a b).result s).1 = some bs ∧ ((bytes (a + b)).result s).1 = some cs ∧
      bs ≠ cs := by
  intro s
  obtain ⟨t, hpieces, -⟩ := result_bytesInPieces a b s
  obtain ⟨u, hrun, -⟩ := result_bytes (a + b) s
  have hlength : s.pending.length = a ⌈/⌉ 4 + b ⌈/⌉ 4 := by
    rw [Supply.length_pending_ofFractions, tellingNumbers, List.length_append,
      List.length_replicate, List.length_replicate]
  have hfewer : (a + b) ⌈/⌉ 4 ≤ a ⌈/⌉ 4 + b ⌈/⌉ 4 := by
    simp only [Nat.ceilDiv_eq_add_pred_div]
    omega
  rw [hlength, if_pos le_rfl] at hpieces
  rw [hlength, if_pos hfewer, List.take_add] at hrun
  refine ⟨_, _, by rw [hpieces], by rw [hrun], ?_⟩
  intro heq
  -- The byte in place `a` is the first in which the two differ.
  have hplace : s.bytes[4 * (a ⌈/⌉ 4)]? = s.bytes[a]? := by
    have hhead := congrArg List.head? (List.append_cancel_left heq)
    rwa [List.head?_take, List.head?_take, if_neg hb, if_neg hb, List.head?_drop,
      List.head?_drop] at hhead
  have hround : a < 4 * (a ⌈/⌉ 4) :=
    lt_of_le_of_ne (le_four_mul_ceilDiv _) fun h ↦ ha (four_mul_ceilDiv_eq_iff.1 h.symm)
  have hnext : 0 < 4 * (b ⌈/⌉ 4) :=
    lt_of_lt_of_le (Nat.pos_of_ne_zero hb) (le_four_mul_ceilDiv _)
  rw [bytes_ofFractions_tellingNumbers] at hplace
  simp [List.getElem?_append, hround, hnext] at hplace

/-! ## Numbers of any count -/

theorem isSome_bytes_iff (n : Nat) (ks : List BinaryFraction) :
    ((bytes n).result (.ofFractions ks)).1.isSome ↔ n ⌈/⌉ 4 ≤ ks.length := by
  obtain ⟨t, hrun, -⟩ := result_bytes n (.ofFractions ks)
  rw [hrun, Supply.length_pending_ofFractions]
  split_ifs with hle <;> simpa using hle

theorem isSome_bytesInPieces_iff (a b : Nat) (ks : List BinaryFraction) :
    ((bytesInPieces a b).result (.ofFractions ks)).1.isSome ↔ a ⌈/⌉ 4 + b ⌈/⌉ 4 ≤ ks.length := by
  obtain ⟨t, hpieces, -⟩ := result_bytesInPieces a b (.ofFractions ks)
  rw [hpieces, Supply.length_pending_ofFractions]
  split_ifs with hle <;> simpa using hle

theorem prefix_of_result_bytes {a c : Nat} (hac : a ≤ c) {s : Supply} {bs : List UInt8}
    (h : ((bytes c).result s).1 = some bs) :
    ∃ front, ((bytes a).result s).1 = some front ∧ front.length = a ∧ front <+: bs := by
  obtain ⟨t, hfront, -⟩ := result_bytes a s
  obtain ⟨u, hrun, -⟩ := result_bytes c s
  rw [hrun] at h
  dsimp only at h
  split_ifs at h with hc
  obtain rfl := Option.some.inj h
  have hneed : a ⌈/⌉ 4 ≤ c ⌈/⌉ 4 := (gc_mul_ceilDiv four_pos).monotone_l hac
  refine ⟨s.bytes.take a, ?_, ?_, List.take_prefix_take_left hac⟩
  · rw [hfront, if_pos (hneed.trans hc)]
  · have hround : a ≤ 4 * (a ⌈/⌉ 4) := le_four_mul_ceilDiv _
    rw [List.length_take, Supply.bytes, Word.length_flatMap_bytes]
    omega

/-- From whatever numbers, if they are enough, bytes that are had in two pieces are those of one run
exactly if the first piece is made of whole words or the second is empty, and then they take as many
numbers. The bytes of a shorter run are the front of those of a longer one. -/
theorem pieces_join_at_words (a b : Nat) :
    let inPieces (ks : List BinaryFraction) := (bytesInPieces a b).result (.ofFractions ks)
    let atOnce (ks : List BinaryFraction) := (bytes (a + b)).result (.ofFractions ks)
    (∀ ks, (inPieces ks).1.isSome ↔ a ⌈/⌉ 4 + b ⌈/⌉ 4 ≤ ks.length) ∧
    (∀ ks, (atOnce ks).1.isSome ↔ (a + b) ⌈/⌉ 4 ≤ ks.length) ∧
    ((∀ ks, (inPieces ks).1.isSome → (atOnce ks).1.isSome → (inPieces ks).1 = (atOnce ks).1) ↔
      4 ∣ a ∨ b = 0) ∧
    (4 ∣ a ∨ b = 0 → ∀ ks, (inPieces ks).1 = (atOnce ks).1 ∧
      (inPieces ks).2.delivered = (atOnce ks).2.delivered) ∧
    ∀ c, a ≤ c → ∀ ks bs, ((bytes c).result (.ofFractions ks)).1 = some bs →
      ∃ front, ((bytes a).result (.ofFractions ks)).1 = some front ∧ front.length = a ∧
        front <+: bs := by
  intro inPieces atOnce
  refine ⟨isSome_bytesInPieces_iff a b, isSome_bytes_iff (a + b), ⟨?_, ?_⟩, ?_, ?_⟩
  · intro hall
    by_contra hnot
    obtain ⟨ha, hb⟩ := not_or.1 hnot
    obtain ⟨bs, cs, hbs, hcs, hne⟩ := bytesInPieces_tellingNumbers ha hb
    have heq : some bs = some cs := by
      rw [← hbs, ← hcs]
      exact hall _ (Option.isSome_of_eq_some hbs) (Option.isSome_of_eq_some hcs)
    exact hne (Option.some.inj heq)
  · intro hjoins ks _ _
    exact (bytesInPieces_of_joins hjoins _).1
  · intro hjoins ks
    exact bytesInPieces_of_joins hjoins _
  · intro c hac ks bs hbs
    exact prefix_of_result_bytes hac hbs

theorem five_bytes_in_pieces :
    (∃ ks, 2 ≤ ks.length ∧ ((bytesInPieces 3 2).result (.ofFractions ks)).1 ≠
        ((bytes 5).result (.ofFractions ks)).1) ∧
      ∀ ks, ((bytesInPieces 4 1).result (.ofFractions ks)).1 =
        ((bytes 5).result (.ofFractions ks)).1 := by
  obtain ⟨hcomplete, -, hjoins, -⟩ := pieces_join_at_words 3 2
  obtain ⟨-, -, -, hjoined, -⟩ := pieces_join_at_words 4 1
  have hapart := mt hjoins.1 (by decide)
  push Not at hapart
  obtain ⟨ks, hpieces, -, hne⟩ := hapart
  exact ⟨⟨ks, (hcomplete ks).1 hpieces, hne⟩, fun ks ↦ (hjoined (.inl dvd_rfl) ks).1⟩

end Draw

end Tabletop
