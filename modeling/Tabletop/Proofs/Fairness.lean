import Mathlib
import Tabletop.Proofs.Outcomes

/-!
# Fair dice

Each sequence of faces is shown by the same number of tuples of accepted words. It is a count and
not an estimate: the tuples are fibered over the sequences of faces, and the fibers multiply along
the dice. Fractions stand over words in the same way, and so over faces.
-/

namespace Tabletop

/-! ## Counting by fibers -/

theorem ncard_eq_mul_of_fibers {α β : Type} {S : Set α} {T : Set β} {c : Nat} (φ : α → β)
    (hT : T.Finite) (hc : c ≠ 0) (hmaps : ∀ a ∈ S, φ a ∈ T)
    (hfiber : ∀ b ∈ T, {a | a ∈ S ∧ φ a = b}.ncard = c) : S.ncard = c * T.ncard := by
  have hunion : S = ⋃ b ∈ T, {a | a ∈ S ∧ φ a = b} := by
    ext a
    simp only [Set.mem_iUnion, exists_prop]
    constructor
    · intro ha
      exact ⟨φ a, hmaps a ha, ha, rfl⟩
    · rintro ⟨b, -, ha, -⟩
      exact ha
  have hfinite : ∀ b ∈ T, {a | a ∈ S ∧ φ a = b}.Finite := by
    intro b hb
    apply Set.finite_of_ncard_ne_zero
    rwa [hfiber b hb]
  have hdisjoint : T.PairwiseDisjoint fun b ↦ {a | a ∈ S ∧ φ a = b} := by
    intro b _ b' _ hne
    rw [Function.onFun, Set.disjoint_left]
    rintro a ⟨-, hb⟩ ⟨-, hb'⟩
    exact hne (hb.symm.trans hb')
  rw [hunion, hT.ncard_biUnion hfinite hdisjoint, finsum_mem_congr rfl hfiber,
    finsum_mem_eq_finite_toFinset_sum _ hT, Finset.sum_const, smul_eq_mul,
    ← Set.ncard_eq_toFinset_card T hT, Nat.mul_comm]

/-- The fibers of a list are the products of the fibers of its members. -/
theorem ncard_lists_map_eq {α β : Type} {p : α → Prop} {g : α → β} {c : Nat} {ys : List β}
    (hfiber : ∀ y ∈ ys, {x | p x ∧ g x = y}.ncard = c) :
    {xs : List α | (∀ x ∈ xs, p x) ∧ xs.map g = ys}.ncard = c ^ ys.length := by
  induction ys with
  | nil =>
      have hset : {xs : List α | (∀ x ∈ xs, p x) ∧ xs.map g = []} = {[]} := by
        ext xs
        cases xs <;> simp
      rw [hset, Set.ncard_singleton, List.length_nil, pow_zero]
  | cons y ys ih =>
      obtain ⟨hy, hys⟩ := List.forall_mem_cons.1 hfiber
      have hset : {xs : List α | (∀ x ∈ xs, p x) ∧ xs.map g = y :: ys} =
          (fun q : α × List α ↦ q.1 :: q.2) ''
            ({x | p x ∧ g x = y} ×ˢ {xs | (∀ x ∈ xs, p x) ∧ xs.map g = ys}) := by
        ext xs
        constructor
        · rintro ⟨hp, hmap⟩
          cases xs with
          | nil => cases hmap
          | cons x xs =>
              obtain ⟨hx, hxs⟩ := List.forall_mem_cons.1 hp
              obtain ⟨hgx, hgxs⟩ := List.cons.inj hmap
              exact ⟨(x, xs), ⟨⟨hx, hgx⟩, hxs, hgxs⟩, rfl⟩
        · rintro ⟨⟨x, xs⟩, ⟨⟨hx, hgx⟩, hxs, hgxs⟩, rfl⟩
          exact ⟨List.forall_mem_cons.2 ⟨hx, hxs⟩, by rw [List.map_cons, hgx, hgxs]⟩
      have hinjective : Function.Injective fun q : α × List α ↦ q.1 :: q.2 := by
        rintro ⟨x, xs⟩ ⟨x', xs'⟩ h
        obtain ⟨rfl, rfl⟩ := List.cons.inj h
        rfl
      rw [hset, Set.ncard_image_of_injective _ hinjective, Set.ncard_prod, hy, ih hys,
        List.length_cons, pow_succ, Nat.mul_comm]

theorem BinaryFraction.toNat_word (k : BinaryFraction) :
    k.word.toNat = k.numerator / 2 ^ 21 := by
  have hlt := k.numerator_lt
  have hdiv : k.numerator * 0x100000000 / 0x20000000000000 = k.numerator / 2 ^ 21 := by omega
  rw [word, hdiv, UInt32.toNat_ofNat']
  exact Nat.mod_eq_of_lt (by omega)

/-- Each word stands at the front of equally many fractions. -/
theorem BinaryFraction.ncard_word_eq (w : Word) :
    {k : BinaryFraction | k.word = w}.ncard = 2 ^ 21 := by
  have himage : numerator '' {k : BinaryFraction | k.word = w} =
      Set.Ico (w.toNat * 2 ^ 21) (w.toNat * 2 ^ 21 + 2 ^ 21) := by
    ext n
    constructor
    · rintro ⟨k, rfl, rfl⟩
      rw [toNat_word]
      constructor <;> omega
    · rintro ⟨hlow, hhigh⟩
      have hw := w.toNat_lt
      refine ⟨⟨n, by omega⟩, ?_, rfl⟩
      change word _ = w
      rw [← UInt32.toNat_inj, toNat_word]
      change n / 2 ^ 21 = w.toNat
      omega
  have hinjective : Function.Injective numerator := by
    rintro ⟨n, _⟩ ⟨n', _⟩ h
    cases h
    rfl
  rw [← Set.ncard_image_of_injective _ hinjective, himage, Set.ncard_Ico_nat,
    Nat.add_sub_cancel_left]

/-! ## Tuples that a formula rolls -/

section Reading

variable {τ : Type} {read : τ → Word} {supply : List τ → Supply} {places : Nat}

theorem Die.ncard_accepted_face {sides : UInt16} {face : Nat} (hface : face ∈ Set.Icc 1 sides.toNat)
    (hread : ∀ w, {k | read k = w}.ncard = 2 ^ places) :
    {k | Accepts sides (read k) ∧ faceOf sides (read k) = face}.ncard =
      2 ^ (leadingZeros sides + places) := by
  have hfiber : ∀ w ∈ {w | Accepts sides w ∧ faceOf sides w = face},
      {k | k ∈ {k | Accepts sides (read k) ∧ faceOf sides (read k) = face} ∧
        read k = w}.ncard = 2 ^ places := by
    intro w hw
    rw [← hread w]
    congr 1
    ext k
    constructor
    · exact And.right
    · rintro rfl
      exact ⟨hw, rfl⟩
  have hcount := ncard_eq_mul_of_fibers read (Set.toFinite _) (by positivity)
    (S := {k | Accepts sides (read k) ∧ faceOf sides (read k) = face}) (fun k hk ↦ hk) hfiber
  rw [hcount, ncard_words_of_face hface, ← pow_add, Nat.add_comm]

theorem Die.ncard_accepted {sides : UInt16} (hsides : 0 < sides.toNat)
    (hread : ∀ w, {k | read k = w}.ncard = 2 ^ places) :
    {k | Accepts sides (read k)}.ncard = 2 ^ (leadingZeros sides + places) * sides.toNat := by
  have hcount := ncard_eq_mul_of_fibers (fun k ↦ faceOf sides (read k))
    (Set.finite_Icc 1 sides.toNat) (by positivity) (S := {k | Accepts sides (read k)})
    (fun k _ ↦ faceOf_mem_Icc hsides (read k)) fun face hface ↦ ncard_accepted_face hface hread
  rw [hcount, Set.ncard_Icc_nat, Nat.add_sub_cancel]

theorem Die.le_ncard_accepted {sides : UInt16} (hsides : 0 < sides.toNat)
    (hread : ∀ w, {k | read k = w}.ncard = 2 ^ places) :
    2 ^ (31 + places) ≤ {k | Accepts sides (read k)}.ncard := by
  have hhalf := (sides_mul_two_pow_mem hsides.ne').1
  rw [ncard_accepted hsides hread, pow_add, pow_add, Nat.mul_right_comm, Nat.mul_comm _ sides.toNat]
  exact Nat.mul_le_mul_right _ hhalf

namespace Formula

variable {f : Formula}

theorem Accepts.facesFrom_supply (hsupply : ∀ ks, (supply ks).pending = ks.map read) {ks : List τ}
    (h : f.Accepts (ks.map read)) :
    f.facesFrom (supply ks) = some (ks.map fun k ↦ Die.faceOf f.sides (read k)) := by
  rw [← hsupply] at h
  rw [h.facesFrom_eq, hsupply, List.map_map]
  rfl

theorem ncard_tuples_of_faces (hread : ∀ w, {k | read k = w}.ncard = 2 ^ places)
    (hsupply : ∀ ks, (supply ks).pending = ks.map read) {faces : List Nat}
    (hfaces : f.Shows faces) :
    {ks | f.Accepts (ks.map read) ∧ f.facesFrom (supply ks) = some faces}.ncard =
      2 ^ (f.count.toNat * (Die.leadingZeros f.sides + places)) := by
  have hset : {ks | f.Accepts (ks.map read) ∧ f.facesFrom (supply ks) = some faces} =
      {ks | (∀ k ∈ ks, Die.Accepts f.sides (read k)) ∧
        ks.map (fun k ↦ Die.faceOf f.sides (read k)) = faces} := by
    ext ks
    constructor
    · rintro ⟨haccepts, hks⟩
      rw [haccepts.facesFrom_supply hsupply] at hks
      exact ⟨List.forall_mem_map.1 haccepts.accepts, Option.some.inj hks⟩
    · rintro ⟨haccepts, rfl⟩
      have hlength := hfaces.length
      rw [List.length_map] at hlength
      have hall : f.Accepts (ks.map read) :=
        ⟨by rw [List.length_map, hlength], List.forall_mem_map.2 haccepts⟩
      exact ⟨hall, hall.facesFrom_supply hsupply⟩
  rw [hset, ncard_lists_map_eq fun face hface ↦
    Die.ncard_accepted_face (hfaces.mem_Icc face hface) hread, hfaces.length, ← pow_mul,
    Nat.mul_comm]

theorem finite_setOf_shows (f : Formula) : {faces | f.Shows faces}.Finite := by
  have hsubset : {faces | f.Shows faces} ⊆
      List.map Fin.val '' {faces : List (Fin (f.sides.toNat + 1)) |
        faces.length = f.count.toNat} := by
    intro faces hfaces
    have hlt : ∀ face ∈ faces, face < f.sides.toNat + 1 := fun face hface ↦
      Nat.lt_succ_of_le (hfaces.mem_Icc face hface).2
    refine ⟨faces.attach.map fun face ↦ ⟨face.1, hlt _ face.2⟩, ?_, ?_⟩
    · simpa using hfaces.length
    · simp
  exact ((List.finite_length_eq _ _).image _).subset hsubset

theorem ncard_tuples_of_result (hf : f.Limited)
    (hread : ∀ w, {k | read k = w}.ncard = 2 ^ places)
    (hsupply : ∀ ks, (supply ks).pending = ks.map read) (v : Nat) :
    {ks | f.Accepts (ks.map read) ∧ f.resultFrom (supply ks) = some v}.ncard =
      2 ^ (f.count.toNat * (Die.leadingZeros f.sides + places)) *
        {faces | f.Shows faces ∧ f.exact faces.sum = v}.ncard := by
  have hfinite : {faces | f.Shows faces ∧ f.exact faces.sum = v}.Finite :=
    f.finite_setOf_shows.subset fun faces hfaces ↦ hfaces.1
  -- The tuples are fibered over the sequences of faces that they show.
  apply ncard_eq_mul_of_fibers (fun ks ↦ ks.map fun k ↦ Die.faceOf f.sides (read k)) hfinite
    (by positivity)
  · rintro ks ⟨haccepts, hresult⟩
    have hks := haccepts.facesFrom_supply hsupply
    rw [hf.resultFrom_eq, hks] at hresult
    exact ⟨hf.shows_of_facesFrom hks, Option.some.inj hresult⟩
  · rintro faces ⟨hfaces, rfl⟩
    rw [← ncard_tuples_of_faces hread hsupply hfaces]
    congr 1
    ext ks
    constructor
    · rintro ⟨⟨haccepts, -⟩, rfl⟩
      exact ⟨haccepts, haccepts.facesFrom_supply hsupply⟩
    · rintro ⟨haccepts, hks⟩
      refine ⟨⟨haccepts, ?_⟩, ?_⟩
      · rw [hf.resultFrom_eq, hks, Option.map_some]
      · rw [haccepts.facesFrom_supply hsupply] at hks
        exact Option.some.inj hks

end Formula

end Reading

/-- Every sequence of faces is shown by the same number of tuples of accepted words, so a result is
as likely as the sequences of faces that come to it are many, and at least half of all words are
accepted. The same holds of fractions, each of which yields the word at its front. -/
theorem Formula.rolling_is_fair {text : String} {f : Formula} (h : parse text = .ok f) :
    let dice := f.count.toNat
    let free := Die.leadingZeros f.sides
    (∀ faces, f.Shows faces →
      {ws | f.Accepts ws ∧ f.facesFrom (.ofWords ws) = some faces}.ncard = 2 ^ (dice * free)) ∧
    (∀ v, {ws | f.Accepts ws ∧ f.resultFrom (.ofWords ws) = some v}.ncard =
      2 ^ (dice * free) * {faces | f.Shows faces ∧ f.exact faces.sum = v}.ncard) ∧
    2 ^ 31 ≤ {w | Die.Accepts f.sides w}.ncard ∧
    (∀ k : BinaryFraction, k.word.toNat = k.numerator / 2 ^ 21) ∧
    (∀ faces, f.Shows faces →
      {ks | f.Accepts (ks.map BinaryFraction.word) ∧
        f.facesFrom (.ofFractions ks) = some faces}.ncard = 2 ^ (dice * (free + 21))) ∧
    (∀ v, {ks | f.Accepts (ks.map BinaryFraction.word) ∧
        f.resultFrom (.ofFractions ks) = some v}.ncard =
      2 ^ (dice * (free + 21)) * {faces | f.Shows faces ∧ f.exact faces.sum = v}.ncard) ∧
    2 ^ 52 ≤ {k : BinaryFraction | Die.Accepts f.sides k.word}.ncard := by
  have hf := Limited.of_parse h
  have hwords (w : Word) : {k : Word | id k = w}.ncard = 2 ^ 0 := by
    rw [pow_zero, ← Set.ncard_singleton w]
    rfl
  have hpending (ws : List Word) : (Supply.ofWords ws).pending = ws.map id := by
    rw [List.map_id]
    rfl
  refine ⟨?_, ?_, Die.le_ncard_accepted hf.sides_pos hwords, BinaryFraction.toNat_word, ?_, ?_,
    Die.le_ncard_accepted hf.sides_pos BinaryFraction.ncard_word_eq⟩
  · intro faces hfaces
    simpa only [List.map_id, Nat.add_zero] using ncard_tuples_of_faces hwords hpending hfaces
  · intro v
    simpa only [List.map_id, Nat.add_zero] using ncard_tuples_of_result hf hwords hpending v
  · intro faces hfaces
    exact ncard_tuples_of_faces BinaryFraction.ncard_word_eq (fun _ ↦ rfl) hfaces
  · intro v
    exact ncard_tuples_of_result hf BinaryFraction.ncard_word_eq (fun _ ↦ rfl) v

theorem Formula.two_dice_show_three_and_five :
    parse "2d6+1" = .ok ⟨2, 6, some ⟨.plus, 1⟩⟩ ∧ Formula.Shows ⟨2, 6, some ⟨.plus, 1⟩⟩ [3, 5] ∧
      {ws | Formula.Accepts ⟨2, 6, some ⟨.plus, 1⟩⟩ ws ∧
        Formula.facesFrom ⟨2, 6, some ⟨.plus, 1⟩⟩ (.ofWords ws) = some [3, 5]}.ncard = 2 ^ 58 := by
  have hparse : parse "2d6+1" = .ok ⟨2, 6, some ⟨.plus, 1⟩⟩ := by
    simp only [Formula.parse, String.reduceToList]
    rfl
  have hshows : Formula.Shows ⟨2, 6, some ⟨.plus, 1⟩⟩ [3, 5] := ⟨rfl, by decide⟩
  exact ⟨hparse, hshows, (rolling_is_fair hparse).1 [3, 5] hshows⟩

end Tabletop
