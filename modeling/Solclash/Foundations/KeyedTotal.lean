import Mathlib.Algebra.BigOperators.Group.Finset.Basic
import Mathlib.Algebra.BigOperators.Ring.Finset
import Mathlib.Algebra.Order.BigOperators.Group.Finset
import Mathlib.Data.Fintype.Basic
import Mathlib.Tactic.Linarith
import Mathlib.Tactic.Ring

-- Totals of a weight over a partial map, under insertion and removal of a key.
namespace KeyedTotal
open Finset
variable {K V : Type} [Fintype K]

def total (weight : V → Int) (m : K → Option V) : Int := ∑ k, (m k).elim 0 weight

theorem total_empty {weight : V → Int} {m : K → Option V} (empty : ∀ k, m k = none) :
    total weight m = 0 := by
  simp [total,empty]

theorem total_split [DecidableEq K] (weight : V → Int) (m : K → Option V) (k : K) :
    total weight m = (m k).elim 0 weight + ∑ j ∈ univ.erase k, (m j).elim 0 weight :=
  (add_sum_erase univ _ (mem_univ k)).symm

theorem total_update [DecidableEq K] (weight : V → Int) (m : K → Option V) (k : K) (o : Option V) :
    total weight (Function.update m k o) = total weight m - (m k).elim 0 weight + o.elim 0 weight := by
  have rest : ∑ j ∈ univ.erase k, (Function.update m k o j).elim 0 weight =
      ∑ j ∈ univ.erase k, (m j).elim 0 weight := by
    apply sum_congr rfl
    intro j member
    rw [Function.update_of_ne (ne_of_mem_erase member)]
  rw [total_split weight _ k,total_split weight m k,rest,Function.update_self]
  ring

theorem total_insert [DecidableEq K] {weight : V → Int} {m : K → Option V} {k : K} {v : V} (fresh : m k = none) :
    total weight (Function.update m k (some v)) = total weight m + weight v := by
  rw [total_update,fresh]
  simp

theorem total_erase [DecidableEq K] {weight : V → Int} {m : K → Option V} {k : K} {v : V} (found : m k = some v) :
    total weight (Function.update m k none) = total weight m - weight v := by
  rw [total_update,found]
  simp

theorem total_le {weight heavier : V → Int} {m : K → Option V}
    (below : ∀ k v, m k = some v → weight v ≤ heavier v) : total weight m ≤ total heavier m := by
  apply sum_le_sum
  intro k _
  cases found : m k with
  | none => simp
  | some v => simpa using below k v found

theorem total_nonneg {weight : V → Int} {m : K → Option V}
    (nonneg : ∀ k v, m k = some v → 0 ≤ weight v) : 0 ≤ total weight m := by
  apply sum_nonneg
  intro k _
  cases found : m k with
  | none => simp
  | some v => simpa using nonneg k v found

theorem le_total [DecidableEq K] {weight : V → Int} {m : K → Option V} {k : K} {v : V}
    (nonneg : ∀ k v, m k = some v → 0 ≤ weight v) (found : m k = some v) : weight v ≤ total weight m := by
  have rest : 0 ≤ total weight (Function.update m k none) := by
    apply total_nonneg
    intro j u present
    by_cases same : j = k
    · subst j; simp at present
    · exact nonneg j u (by simpa [same] using present)
  rw [total_erase found] at rest
  omega

theorem total_zero {weight : V → Int} {m : K → Option V} (zero : ∀ k v, m k = some v → weight v = 0) :
    total weight m = 0 := by
  apply sum_eq_zero
  intro k _
  cases found : m k with
  | none => rfl
  | some v => exact zero k v found

theorem total_occupied {weight : V → Int} {m : K → Option V} (occupied : total weight m ≠ 0) :
    ∃ k v, m k = some v ∧ weight v ≠ 0 := by
  apply Classical.byContradiction
  intro missing
  apply occupied
  apply total_zero
  intro k v found
  apply Classical.byContradiction
  intro nonzero
  exact missing ⟨k,v,found,nonzero⟩

theorem total_mul {weight : V → Int} {m : K → Option V} (c : Int) :
    total (fun v => c * weight v) m = c * total weight m := by
  unfold total
  rw [mul_sum]
  apply sum_congr rfl
  intro k _
  cases m k <;> simp

theorem total_add {weight other : V → Int} {m : K → Option V} :
    total (fun v => weight v + other v) m = total weight m + total other m := by
  unfold total
  rw [← sum_add_distrib]
  apply sum_congr rfl
  intro k _
  cases m k <;> simp

theorem total_congr {weight other : V → Int} {m : K → Option V}
    (same : ∀ k v, m k = some v → weight v = other v) : total weight m = total other m :=
  le_antisymm (total_le fun k v found => (same k v found).le) (total_le fun k v found => (same k v found).ge)

theorem total_map {W : Type} (f : V → W) (weight : W → Int) (m : K → Option V) :
    total weight (fun k => (m k).map f) = total (fun v => weight (f v)) m := by
  apply sum_congr rfl
  intro k _
  cases found : m k <;> simp [found]

end KeyedTotal
