import Mathlib
import Tabletop.Collection

/-!
# What a collection holds

A collection lists each of its members once, as it came in, and gives it back to whoever asks with
an equal formula. What comes in by an operation is the formula of that operation and nothing else.
-/

namespace Tabletop

namespace Collection

variable {c : Collection} {f g : Formula}

theorem get?_congr (h : (f == g) = true) : c.get? f = c.get? g :=
  Std.HashSet.get?_congr h

theorem contains_congr (h : (f == g) = true) : c.contains f = c.contains g :=
  Std.HashSet.contains_congr h

theorem beq_of_get? (h : c.get? f = some g) : (g == f) = true := by
  have hall := @Std.HashSet.get?_beq _ _ _ c.formulas _ _ f
  rw [show c.formulas.get? f = some g from h] at hall
  exact hall

/-- A formula is listed where it is given back for itself. An equal formula may be the member. -/
theorem mem_toList_iff : f ∈ c.toList ↔ c.get? f = some f := by
  rw [toList, List.mem_mergeSort]
  change f ∈ c.formulas.inner.keys ↔ c.formulas.inner.getKey? f = some f
  rw [← Std.HashMap.map_fst_toList_eq_keys, List.mem_map]
  constructor
  · rintro ⟨⟨_, _⟩, hmem, rfl⟩
    exact (Std.HashMap.mem_toList_iff_getKey?_eq_some_and_getElem?_eq_some.1 hmem).1
  · intro hget
    have hmem := Std.HashMap.mem_of_getKey?_eq_some hget
    have hvalue := Std.HashMap.getElem?_eq_some_getElem hmem
    exact ⟨_, Std.HashMap.mem_toList_iff_getKey?_eq_some_and_getElem?_eq_some.2 ⟨hget, hvalue⟩, rfl⟩

theorem mem_toList_of_get? (h : c.get? f = some g) : g ∈ c.toList := by
  rw [mem_toList_iff, get?_congr (beq_of_get? h), h]

theorem contains_of_mem_toList (h : f ∈ c.toList) : c.contains f = true := by
  rw [contains_eq_isSome_get?, mem_toList_iff.1 h, Option.isSome_some]

theorem length_toList (c : Collection) : c.toList.length = c.size := by
  rw [toList, List.length_mergeSort]
  exact Std.HashSet.length_toList

theorem distinct_toList (c : Collection) : c.toList.Pairwise fun f g ↦ (f == g) = false := by
  have hperm : c.toList.Perm c.formulas.toList := List.mergeSort_perm _ _
  refine (hperm.pairwise_iff ?_).2 Std.HashSet.distinct_toList
  intro f g h
  rw [BEq.comm, h]

theorem mem_toList_insert (h : g ∈ (c.insert f).toList) : g = f ∨ g ∈ c.toList := by
  rw [mem_toList_iff, get?_insert] at h
  split_ifs at h
  · exact .inl (Option.some.inj h).symm
  · exact .inr (mem_toList_iff.2 h)

theorem mem_toList_replace (h : g ∈ (c.replace f).toList) : g = f ∨ g ∈ c.toList := by
  rw [mem_toList_iff, get?_replace] at h
  split_ifs at h
  · exact .inl (Option.some.inj h).symm
  · exact .inr (mem_toList_iff.2 h)

theorem mem_toList_erase (h : g ∈ (c.erase f).toList) : g ∈ c.toList := by
  rw [mem_toList_iff, get?_erase] at h
  split_ifs at h
  exact mem_toList_iff.2 h

/-! ## Operations -/

theorem mem_toList_perform {op : Operation} (h : g ∈ (c.perform f op).2.toList) :
    g = f ∨ g ∈ c.toList := by
  cases op with
  | insert => exact mem_toList_insert h
  | replace => exact mem_toList_replace h
  | contains => exact .inr h
  | find => exact .inr h
  | remove => exact .inr (mem_toList_erase h)

end Collection

end Tabletop
