import Mathlib
import Tabletop.Proofs.Fairness
import Tabletop.Proofs.Runs
import Tabletop.Request

/-!
# Requests to a supply of numbers

Words, double words and bytes are all made of whole words, which the requests take one after another
from what is left. A request that asks for more than that takes the rest and comes to nothing.
-/

namespace Tabletop

/-- `t` is `s` after `k` more words have been asked for, whether or not there were as many. -/
structure Supply.Asked (s : Supply) (k : Nat) (t : Supply) : Prop where
  pending : t.pending = s.pending.drop k
  delivered : t.delivered = s.delivered + min k s.pending.length

namespace Supply.Asked

theorem zero (s : Supply) : s.Asked 0 s := by
  constructor <;> simp

theorem trans {s t u : Supply} {k l : Nat} (hst : s.Asked k t) (htu : t.Asked l u) :
    s.Asked (k + l) u := by
  constructor
  · simp [htu.pending, hst.pending]
  · simp only [htu.delivered, hst.delivered, hst.pending, List.length_drop]
    omega

theorem of_next? {s t : Supply} {w : Word} (h : s.next? = some (w, t)) : s.Asked 1 t := by
  constructor
  · simp [pending_of_next? h]
  · simp [pending_of_next? h, delivered_of_next? h]

theorem of_dry {s : Supply} (h : s.next? = none) (k : Nat) : s.Asked k s := by
  constructor <;> simp [next?_eq_none_iff.1 h]

end Supply.Asked

theorem Supply.map_toNat_pending_ofFractions (ks : List BinaryFraction) :
    (ofFractions ks).pending.map UInt32.toNat = ks.map fun k ↦ k.numerator / 2 ^ 21 := by
  simp only [ofFractions, pending, Source.pending, List.map_map]
  apply List.map_congr_left
  intro k _
  rw [Function.comp_apply, BinaryFraction.toNat_word]

namespace Draw

theorem result_word (s : Supply) :
    ∃ t, word.result s = (s.pending.head?, t) ∧ s.Asked 1 t := by
  cases h : s.next? with
  | none =>
      refine ⟨s, ?_, .of_dry h 1⟩
      simp [word, h, Supply.next?_eq_none_iff.1 h]
  | some next =>
      obtain ⟨w, t⟩ := next
      refine ⟨t, ?_, .of_next? h⟩
      simp [word, h, Supply.pending_of_next? h]

theorem result_times_word (m : Nat) (s : Supply) :
    ∃ t, (word.times m).result s =
        (if m ≤ s.pending.length then some (s.pending.take m) else none, t) ∧ s.Asked m t := by
  induction m generalizing s with
  | zero => exact ⟨s, by simp, .zero s⟩
  | succ m ih =>
      obtain ⟨t, hword, hst⟩ := result_word s
      rw [Attempt.result_times_succ, hword]
      have hpending := hst.pending
      cases hs : s.pending with
      | nil =>
          have hdry : t.next? = none := by
            apply Supply.next?_eq_none_iff.2
            simp [hpending, hs]
          refine ⟨t, by simp, ?_⟩
          rw [Nat.add_comm]
          exact hst.trans (.of_dry hdry m)
      | cons w ws =>
          obtain ⟨u, htimes, htu⟩ := ih t
          simp only [hpending, hs, List.drop_one, List.tail_cons] at htimes
          refine ⟨u, ?_, ?_⟩
          · simp only [List.head?_cons, htimes, List.length_cons, Nat.add_le_add_iff_right,
              List.take_succ_cons]
            split_ifs <;> rfl
          · rw [Nat.add_comm]
            exact hst.trans htu

end Draw

namespace Word

theorem toNat_doubleWord (upper lower : Word) :
    (upper.toUInt64 <<< 32 ||| lower.toUInt64).toNat = upper.toNat * 2 ^ 32 + lower.toNat := by
  have hupper := upper.toNat_lt
  have hlower := lower.toNat_lt
  have hshift : (upper.toUInt64 <<< 32).toNat = upper.toNat <<< 32 := by
    rw [UInt64.toNat_shiftLeft, UInt32.toNat_toUInt64]
    apply Nat.mod_eq_of_lt
    change upper.toNat <<< 32 < 2 ^ 64
    rw [Nat.shiftLeft_eq]
    omega
  rw [UInt64.toNat_or, hshift, UInt32.toNat_toUInt64, ← Nat.shiftLeft_add_eq_or_of_lt hlower,
    Nat.shiftLeft_eq]

theorem testBit_bytes {w : Word} {i j : Nat} {b : UInt8} (hb : w.bytes[i]? = some b)
    (hj : j < 8) : b.toNat.testBit j = w.toNat.testBit (8 * i + j) := by
  have hcut (n : Nat) : (n % 256).testBit j = n.testBit j := by
    simpa [hj] using Nat.testBit_mod_two_pow n 8 j
  have hi : i < 4 := (List.getElem?_eq_some_iff.1 hb).1
  interval_cases i <;> simp [bytes] at hb <;> subst hb <;> simp [hcut, Nat.testBit_shiftRight]

theorem getElem?_flatMap_bytes (ws : List Word) (i : Nat) :
    (ws.flatMap bytes)[i]? = ws[i / 4]?.bind fun w ↦ w.bytes[i % 4]? := by
  induction ws generalizing i with
  | nil => simp
  | cons w ws ih =>
      rw [List.flatMap_cons]
      by_cases hi : i < 4
      · have hlength : i < w.bytes.length := hi
        simp [List.getElem?_append_left hlength, Nat.div_eq_of_lt hi, Nat.mod_eq_of_lt hi]
      · have hlength : w.bytes.length ≤ i := Nat.le_of_not_lt hi
        obtain ⟨k, rfl⟩ := Nat.exists_eq_add_of_le (Nat.le_of_not_lt hi)
        have hrest : 4 + k - w.bytes.length = k := by
          change 4 + k - 4 = k
          omega
        have hdiv : (4 + k) / 4 = k / 4 + 1 := by omega
        have hmod : (4 + k) % 4 = k % 4 := by omega
        rw [List.getElem?_append_right hlength, hrest, ih, hdiv, hmod, List.getElem?_cons_succ]

theorem length_flatMap_bytes (ws : List Word) : (ws.flatMap bytes).length = 4 * ws.length := by
  induction ws with
  | nil => simp
  | cons w ws ih =>
      have hlength : w.bytes.length = 4 := rfl
      simp [ih, hlength]
      omega

theorem exists_of_getElem?_flatMap_bytes {ws : List Word} {n i : Nat} {b : UInt8}
    (hb : ((ws.flatMap bytes).take n)[i]? = some b) :
    ∃ w ∈ ws[i / 4]?, ∀ j < 8, b.toNat.testBit j = w.toNat.testBit (8 * (i % 4) + j) := by
  have hb : (ws.flatMap bytes)[i]? = some b := by
    rw [List.getElem?_take] at hb
    split at hb
    · exact hb
    · cases hb
  rw [getElem?_flatMap_bytes, Option.bind_eq_some_iff] at hb
  obtain ⟨w, hw, hb⟩ := hb
  exact ⟨w, hw, fun j hj ↦ testBit_bytes hb hj⟩

end Word

namespace Request

/-- How many words a request asks for. A roll asks for at least one for each of its dice. -/
def need : Request → Nat
  | .word => 1
  | .doubleWord => 2
  | .bytes n | .tryBytes n => n ⌈/⌉ 4
  | .roll f => f.count.toNat

/-- What the words that a request has taken come to. -/
inductive Answers : Request → List Nat → Response → Prop
  | word (w : Word) : Answers .word [w.toNat] (.word w)
  | doubleWord {upper lower : Nat} {w : UInt64} (h : w.toNat = upper * 2 ^ 32 + lower) :
      Answers .doubleWord [upper, lower] (.doubleWord w)
  /-- A byte is eight bits of its word, the lowest first. -/
  | bytes {n : Nat} {ws : List Nat} {bs : List UInt8} (hlength : bs.length = n)
      (h : ∀ i b, bs[i]? = some b → ∃ w ∈ ws[i / 4]?, ∀ j < 8,
        b.toNat.testBit j = w.testBit (8 * (i % 4) + j)) :
      Answers (.bytes n) ws (.bytes bs)
  | tryBytes {n : Nat} {ws : List Nat} {response : Response}
      (h : Answers (.bytes n) ws response) : Answers (.tryBytes n) ws response

/-- A request is answered where there are enough words, and not otherwise. -/
inductive Served (request : Request) (left : List Nat) : Option Response → Prop
  | answered {response : Response} (hleft : request.need ≤ left.length)
      (h : request.Answers (left.take request.need) response) : Served request left (some response)
  | dry (hleft : left.length < request.need) : Served request left none

namespace Served

variable {request : Request} {left : List Nat} {response? : Option Response}

theorem exists_answer (h : request.Served left response?) (hleft : request.need ≤ left.length) :
    ∃ response, response? = some response ∧ request.Answers (left.take request.need) response := by
  cases h with
  | answered _ h => exact ⟨_, rfl, h⟩
  | dry hshort => exact absurd hleft (Nat.not_le_of_lt hshort)

theorem eq_none (h : request.Served left response?) (hleft : left.length < request.need) :
    response? = none := by
  cases h with
  | answered hneed _ => exact absurd hneed (Nat.not_le_of_lt hleft)
  | dry _ => rfl

theorem isSome_iff (h : request.Served left response?) :
    response?.isSome ↔ request.need ≤ left.length := by
  cases h with
  | answered hleft _ => simpa using hleft
  | dry hleft => simpa using hleft

end Served

theorem served_word (s : Supply) :
    ∃ response? t, Request.word.answer.result s = (response?, t) ∧ s.Asked 1 t ∧
      Request.word.Served (s.pending.map UInt32.toNat) response? := by
  obtain ⟨t, hword, hst⟩ := Draw.result_word s
  rw [answer, Attempt.result_bind, hword]
  cases hs : s.pending with
  | nil => exact ⟨none, t, rfl, hst, .dry (by decide)⟩
  | cons w ws =>
      refine ⟨some (.word w), t, rfl, hst, .answered ?_ (.word w)⟩
      simp [need]

theorem served_doubleWord (s : Supply) :
    ∃ response? t, Request.doubleWord.answer.result s = (response?, t) ∧ s.Asked 2 t ∧
      Request.doubleWord.Served (s.pending.map UInt32.toNat) response? := by
  obtain ⟨t, hupper, hst⟩ := Draw.result_word s
  obtain ⟨u, hlower, htu⟩ := Draw.result_word t
  have hpending := hst.pending
  rw [answer, Attempt.result_bind, Draw.doubleWord, Attempt.result_bind, hupper]
  cases hs : s.pending with
  | nil =>
      have ht : t.pending = [] := by simp [hpending, hs]
      refine ⟨none, t, rfl, ?_, .dry (by decide)⟩
      exact hst.trans (.of_dry (Supply.next?_eq_none_iff.2 ht) 1)
  | cons upper ws =>
      simp only [List.head?_cons, Attempt.result_bind, hlower]
      have ht : t.pending = ws := by simp [hpending, hs]
      rw [ht]
      cases ws with
      | nil => exact ⟨none, u, rfl, hst.trans htu, .dry (by simp [need])⟩
      | cons lower ws =>
          refine ⟨_, u, rfl, hst.trans htu, .answered ?_ (.doubleWord ?_)⟩
          · simp [need]
          · exact Word.toNat_doubleWord upper lower

theorem served_bytes (n : Nat) (s : Supply) :
    ∃ response? t, (Request.bytes n).answer.result s = (response?, t) ∧ s.Asked (n ⌈/⌉ 4) t ∧
      (Request.bytes n).Served (s.pending.map UInt32.toNat) response? := by
  obtain ⟨t, htimes, hst⟩ := Draw.result_times_word (n ⌈/⌉ 4) s
  have hneed : (n + 3) / 4 = n ⌈/⌉ 4 := (Nat.ceilDiv_eq_add_pred_div n 4).symm
  rw [answer, Attempt.result_bind, Draw.bytes, Attempt.result_bind, hneed, htimes]
  split_ifs with hle
  · refine ⟨_, t, rfl, hst, .answered ?_ (.bytes ?_ ?_)⟩
    · rwa [List.length_map]
    · have hround : n ≤ 4 * (n ⌈/⌉ 4) := by
        rw [← hneed]
        omega
      simp only [List.length_take, Word.length_flatMap_bytes]
      omega
    · intro i b hb
      obtain ⟨w, hw, hbits⟩ := Word.exists_of_getElem?_flatMap_bytes hb
      refine ⟨w.toNat, ?_, hbits⟩
      rw [need, ← List.map_take, List.getElem?_map, Option.mem_def.1 hw]
      rfl
  · refine ⟨none, t, rfl, hst, .dry ?_⟩
    rw [List.length_map]
    exact Nat.lt_of_not_le hle

theorem served {request : Request} (h : ∀ f, request ≠ .roll f) (s : Supply) :
    ∃ response? t, request.answer.result s = (response?, t) ∧ s.Asked request.need t ∧
      request.Served (s.pending.map UInt32.toNat) response? := by
  cases request with
  | word => exact served_word s
  | doubleWord => exact served_doubleWord s
  | bytes n => exact served_bytes n s
  | tryBytes n =>
      obtain ⟨response?, t, hresult, hst, hserved⟩ := served_bytes n s
      refine ⟨response?, t, hresult, hst, ?_⟩
      cases hserved with
      | answered hleft h => exact .answered hleft (.tryBytes h)
      | dry hleft => exact .dry hleft
  | roll f => exact absurd rfl (h f)

/-! ## Requests in a row -/

theorem run_serve (request : Request) (s : Supply) :
    (serve request).run s =
      (((request.answer.result s).1, (request.answer.result s).2.delivered),
        (request.answer.result s).2) :=
  rfl

theorem asked_after {requests : List Request} (h : ∀ f, .roll f ∉ requests) (s : Supply) :
    s.Asked (requests.map need).sum (Runs.after serve requests s) := by
  induction requests generalizing s with
  | nil => exact .zero s
  | cons request requests ih =>
      have hrequest (f : Formula) : request ≠ .roll f := by
        rintro rfl
        exact h f List.mem_cons_self
      obtain ⟨response?, t, hresult, hst, -⟩ := served hrequest s
      have htail := ih (fun f hf ↦ h f (List.mem_cons_of_mem _ hf)) t
      rw [Runs.after_cons, run_serve, hresult]
      simpa using hst.trans htail

theorem need_eq_zero_iff {request : Request} (h : ∀ f, request ≠ .roll f) :
    request.need = 0 ↔ request = .bytes 0 ∨ request = .tryBytes 0 := by
  cases request with
  | roll f => exact absurd rfl (h f)
  | word | doubleWord => simp [need]
  | bytes n | tryBytes n =>
      simp only [need, Nat.ceilDiv_eq_add_pred_div, bytes.injEq, tryBytes.injEq, reduceCtorEq,
        or_false, false_or]
      omega

/-- How many words the first `i` requests ask for together. -/
def asked (requests : List Request) (i : Nat) : Nat :=
  ((requests.take i).map need).sum

theorem asked_add_need_le {requests : List Request} {request : Request} {i j : Nat}
    (hi : requests[i]? = some request) (hij : i < j) :
    asked requests i + request.need ≤ asked requests j := by
  calc
    asked requests i + request.need = asked requests (i + 1) := by
      simp [asked, List.take_add_one, hi]
    _ ≤ asked requests j := by
      simp only [asked, List.map_take]
      exact List.monotone_sum_take _ hij

theorem exists_outcome {requests : List Request} (h : ∀ f, .roll f ∉ requests) (s : Supply)
    {request : Request} {i : Nat} (hi : requests[i]? = some request) :
    ∃ response?, (Runs.outcomes serve requests s)[i]? =
        some (response?, s.delivered + min (asked requests i + request.need) s.pending.length) ∧
      request.Served ((s.pending.map UInt32.toNat).drop (asked requests i)) response? := by
  have hrequest (f : Formula) : request ≠ .roll f := by
    rintro rfl
    exact h f (List.mem_of_getElem? hi)
  have hbefore : ∀ f, .roll f ∉ requests.take i := fun f hf ↦ h f (List.mem_of_mem_take hf)
  have hasked := asked_after hbefore s
  obtain ⟨response?, t, hresult, ht, hserved⟩ :=
    served hrequest (Runs.after serve (requests.take i) s)
  refine ⟨response?, ?_, ?_⟩
  · rw [Runs.getElem?_outcomes, hi, Option.map_some, run_serve, hresult,
      (hasked.trans ht).delivered, asked]
  · rwa [hasked.pending, List.map_drop] at hserved

/-! ## Requests to numbers -/

section Numbers

variable {requests : List Request} (h : ∀ f, .roll f ∉ requests) (ks : List BinaryFraction)
  {request : Request} {i : Nat} (hi : requests[i]? = some request)

include h hi

theorem exists_outcome_ofFractions :
    ∃ response?, ((answerAll requests).run (.ofFractions ks)).1[i]? =
        some (response?, min (asked requests i + request.need) ks.length) ∧
      request.Served ((ks.map fun k ↦ k.numerator / 2 ^ 21).drop (asked requests i)) response? := by
  obtain ⟨response?, hresponse, hserved⟩ := exists_outcome h (.ofFractions ks) hi
  have hpending : (Supply.ofFractions ks).pending.length = ks.length := List.length_map _
  have hdelivered : (Supply.ofFractions ks).delivered = 0 := rfl
  rw [hpending, hdelivered, Nat.zero_add] at hresponse
  rw [Supply.map_toNat_pending_ofFractions] at hserved
  exact ⟨response?, hresponse, hserved⟩

/-- Where no numbers are left, only a request that needs none is answered. -/
theorem exists_outcome_of_dry (hdry : ks.length ≤ asked requests i) :
    ∃ response?, ((answerAll requests).run (.ofFractions ks)).1[i]? = some (response?, ks.length) ∧
      (response?.isSome ↔ request = .bytes 0 ∨ request = .tryBytes 0) := by
  obtain ⟨response?, hresponse, hserved⟩ := exists_outcome_ofFractions h ks hi
  have hrequest (f : Formula) : request ≠ .roll f := by
    rintro rfl
    exact h f (List.mem_of_getElem? hi)
  have hnothing : (ks.map fun k ↦ k.numerator / 2 ^ 21).drop (asked requests i) = [] :=
    List.drop_eq_nil_of_le (by rwa [List.length_map])
  refine ⟨response?, ?_, ?_⟩
  · rw [hresponse, Nat.min_eq_right (by omega)]
  · rw [hserved.isSome_iff, hnothing, List.length_nil, Nat.le_zero, need_eq_zero_iff hrequest]

end Numbers

/-- Whatever is asked for and in whatever order, each request takes as many of the numbers as it
needs, and these directly follow those taken before it. Where they are too few, it takes them all
and comes to nothing, and then only bytes of which there are none can still be had. -/
theorem requests_share_out_numbers {requests : List Request} (h : ∀ f, .roll f ∉ requests)
    (ks : List BinaryFraction) :
    let words := ks.map fun k ↦ k.numerator / 2 ^ 21
    let outcomes := ((answerAll requests).run (.ofFractions ks)).1
    (∀ w ∈ words, w < 2 ^ 32) ∧ (∀ n, (tryBytes n).answer = (bytes n).answer) ∧
    outcomes.length = requests.length ∧
    ∀ i request, requests[i]? = some request →
      let before := min (asked requests i) ks.length
      ∃ response?, outcomes[i]? = some (response?, min (before + request.need) ks.length) ∧
        request.Served (words.drop before) response? ∧
        (response? = none → ∀ j later, i < j → requests[j]? = some later →
          ∃ later?, outcomes[j]? = some (later?, ks.length) ∧
            (later?.isSome ↔ later = .bytes 0 ∨ later = .tryBytes 0)) := by
  intro words outcomes
  have hlength : words.length = ks.length := List.length_map _
  refine ⟨?_, fun n ↦ rfl, Runs.length_outcomes requests _, ?_⟩
  · intro w hw
    obtain ⟨k, -, rfl⟩ := List.mem_map.1 hw
    have hlt := k.numerator_lt
    omega
  · intro i request hi before
    obtain ⟨response?, hresponse, hserved⟩ := exists_outcome_ofFractions h ks hi
    have htaken : min (before + request.need) ks.length =
        min (asked requests i + request.need) ks.length := by omega
    have hleft : words.drop before = words.drop (asked requests i) := by
      rw [List.drop_eq_drop_iff, hlength]
      omega
    rw [htaken, hleft]
    refine ⟨response?, hresponse, hserved, ?_⟩
    rintro rfl j later hij hj
    apply exists_outcome_of_dry h ks hj
    -- The request that found too few words leaves none, so there are none for later ones either.
    have hle := asked_add_need_le hi hij
    cases hserved with
    | dry hshort =>
        rw [List.length_drop, hlength] at hshort
        omega

/-- Five bytes take two numbers and a word the third. The last one is not enough for a double word,
but is lost with it. -/
theorem numbers_run_out_in_a_double_word :
    let requests : List Request := [.bytes 5, .word, .doubleWord, .tryBytes 0, .tryBytes 1]
    let ks : List BinaryFraction :=
      [⟨2 ^ 52, by decide⟩, ⟨2 ^ 53 - 1, by decide⟩, ⟨3 * 2 ^ 21 + 1, by decide⟩, ⟨0, by decide⟩]
    let outcomes := ((answerAll requests).run (.ofFractions ks)).1
    (∀ f, .roll f ∉ requests) ∧
      (∃ response, outcomes[0]? = some (some response, 2) ∧
        Answers (.bytes 5) [2 ^ 31, 2 ^ 32 - 1] response) ∧
      (∃ response, outcomes[1]? = some (some response, 3) ∧ Answers .word [3] response) ∧
      outcomes[2]? = some (none, 4) ∧
      (∃ response, outcomes[3]? = some (some response, 4)) ∧ outcomes[4]? = some (none, 4) := by
  intro requests ks outcomes
  have hrequests : ∀ f, .roll f ∉ requests := by simp [requests]
  obtain ⟨-, -, -, houtcome⟩ := requests_share_out_numbers hrequests ks
  obtain ⟨bytes?, hbytes, hbytesServed, -⟩ := houtcome 0 (.bytes 5) rfl
  obtain ⟨word?, hword, hwordServed, -⟩ := houtcome 1 .word rfl
  obtain ⟨double?, hdouble, hdoubleServed, hlater⟩ := houtcome 2 .doubleWord rfl
  obtain ⟨bytes, rfl, hbytesAnswer⟩ := hbytesServed.exists_answer (by decide)
  obtain ⟨word, rfl, hwordAnswer⟩ := hwordServed.exists_answer (by decide)
  obtain rfl := hdoubleServed.eq_none (by decide)
  obtain ⟨none?, hnone, hnoneSome⟩ := hlater rfl 3 (.tryBytes 0) (by decide) rfl
  obtain ⟨last?, hlast, hlastSome⟩ := hlater rfl 4 (.tryBytes 1) (by decide) rfl
  obtain ⟨response, rfl⟩ := Option.isSome_iff_exists.1 (hnoneSome.2 (.inr rfl))
  have hlastNone : last? = none := by simpa using hlastSome
  rw [hlastNone] at hlast
  exact ⟨hrequests, ⟨bytes, hbytes, hbytesAnswer⟩, ⟨word, hword, hwordAnswer⟩, hdouble,
    ⟨response, hnone⟩, hlast⟩

end Request

end Tabletop
