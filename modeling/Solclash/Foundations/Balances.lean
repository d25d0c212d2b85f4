import Mathlib.Algebra.BigOperators.Group.Finset.Basic
import Mathlib.Algebra.Order.BigOperators.Group.Finset
import Mathlib.Tactic.Linarith
import Solclash.Foundations.RangedInt

-- Balances of arbitrary accounts under transfers. `Capped` says that all money
-- together fits in one balance, which no transfer changes.
namespace Balances
open Finset
variable {A : Type} [DecidableEq A] {hi : Int}

def debit (l : A → RangedInt 0 hi) (a : A) (x : RangedInt 0 hi) : Option (A → RangedInt 0 hi) :=
  ((l a).checkedSub x).map (Function.update l a)
def credit (l : A → RangedInt 0 hi) (a : A) (x : RangedInt 0 hi) : Option (A → RangedInt 0 hi) :=
  ((l a).checkedAdd x).map (Function.update l a)

variable {l next after : A → RangedInt 0 hi} {a b : A} {x : RangedInt 0 hi}

theorem debit_parts (ran : debit l a x = some next) :
    (next a).val = (l a).val - x.val ∧ ∀ c, c ≠ a → next c = l c := by
  obtain ⟨v,sub,rfl⟩ := Option.map_eq_some_iff.mp ran
  refine ⟨?_,fun c other => Function.update_of_ne other _ _⟩
  rw [Function.update_self]
  exact RangedInt.checkedSub_some.mp sub

theorem credit_parts (ran : credit l a x = some next) :
    (next a).val = (l a).val + x.val ∧ ∀ c, c ≠ a → next c = l c := by
  obtain ⟨v,sum,rfl⟩ := Option.map_eq_some_iff.mp ran
  refine ⟨?_,fun c other => Function.update_of_ne other _ _⟩
  rw [Function.update_self]
  exact RangedInt.checkedAdd_some.mp sum

theorem debit_possible (enough : x.val ≤ (l a).val) : ∃ next, debit l a x = some next := by
  cases ran : debit l a x with
  | some next => exact ⟨next,rfl⟩
  | none =>
      have failed := RangedInt.checkedSub_none.mp (Option.map_eq_none_iff.mp ran)
      have bound := (l a).upper
      have nonneg := x.lower
      omega

theorem credit_possible (room : (l a).val + x.val ≤ hi) : ∃ next, credit l a x = some next := by
  cases ran : credit l a x with
  | some next => exact ⟨next,rfl⟩
  | none =>
      have failed := RangedInt.checkedAdd_none.mp (Option.map_eq_none_iff.mp ran)
      have bound := (l a).lower
      have nonneg := x.lower
      omega

-- The joint effect of a debit and a credit on two different accounts.
structure Moved (l : A → RangedInt 0 hi) (a b : A) (amount : Int) (after : A → RangedInt 0 hi) : Prop where
  pays : (after a).val = (l a).val - amount
  gets : (after b).val = (l b).val + amount
  others : ∀ c, c ≠ a → c ≠ b → after c = l c

theorem moved (distinct : a ≠ b) (paid : debit l a x = some next) (got : credit next b x = some after) :
    Moved l a b x.val after := by
  obtain ⟨less,kept⟩ := debit_parts paid
  obtain ⟨more,same⟩ := credit_parts got
  refine ⟨?_,?_,?_⟩
  · rw [same a distinct]; exact less
  · rw [more,kept b distinct.symm]
  · intro c notA notB
    rw [same c notB,kept c notA]

def Capped (l : A → RangedInt 0 hi) : Prop := ∀ accounts : Finset A, ∑ c ∈ accounts, (l c).val ≤ hi

theorem sum_changed {accounts : Finset A} (same : ∀ c, c ≠ a → next c = l c) (member : a ∈ accounts) :
    ∑ c ∈ accounts, (next c).val = ∑ c ∈ accounts, (l c).val - (l a).val + (next a).val := by
  have rest : ∑ c ∈ accounts.erase a, (next c).val = ∑ c ∈ accounts.erase a, (l c).val :=
    sum_congr rfl fun c present => by rw [same c (ne_of_mem_erase present)]
  have oldSplit := add_sum_erase accounts (fun c => (l c).val) member
  have newSplit := add_sum_erase accounts (fun c => (next c).val) member
  omega

omit [DecidableEq A] in
theorem sum_unchanged {accounts : Finset A} (same : ∀ c, c ≠ a → next c = l c) (absent : a ∉ accounts) :
    ∑ c ∈ accounts, (next c).val = ∑ c ∈ accounts, (l c).val :=
  sum_congr rfl fun c present => by rw [same c (fun equal => absent (equal ▸ present))]

theorem capped_pair (capped : Capped l) (distinct : a ≠ b) : (l a).val + (l b).val ≤ hi := by
  simpa [sum_pair distinct] using capped {a,b}

theorem capped_debit (capped : Capped l) (paid : debit l a x = some next) :
    ∀ accounts : Finset A, ∑ c ∈ accounts, (next c).val ≤ hi - if a ∈ accounts then 0 else x.val := by
  intro accounts
  obtain ⟨less,kept⟩ := debit_parts paid
  have room := (next a).lower
  by_cases member : a ∈ accounts
  · have bound := capped accounts
    have nonneg := x.lower
    rw [sum_changed kept member]
    simp only [member,if_true]
    omega
  · have bound := capped (insert a accounts)
    rw [sum_insert member] at bound
    rw [sum_unchanged kept member]
    simp only [member,if_false]
    omega

theorem capped_moved (capped : Capped l) (paid : debit l a x = some next)
    (got : credit next b x = some after) : Capped after := by
  intro accounts
  obtain ⟨less,kept⟩ := debit_parts paid
  obtain ⟨more,same⟩ := credit_parts got
  have nonneg := x.lower
  by_cases credited : b ∈ accounts
  · by_cases debited : a ∈ accounts
    · have before := capped accounts
      rw [sum_changed same credited,sum_changed kept debited]
      omega
    · have room := capped_debit capped paid accounts
      rw [sum_changed same credited]
      simp only [debited,if_false] at room
      omega
  · have room := capped_debit capped paid accounts
    rw [sum_unchanged same credited]
    split at room <;> omega

-- Whoever can pay finds that the receiver has room.
theorem move_possible (capped : Capped l) (enough : x.val ≤ (l a).val) :
    ∃ next after, debit l a x = some next ∧ credit next b x = some after := by
  obtain ⟨next,paid⟩ := debit_possible enough
  obtain ⟨less,kept⟩ := debit_parts paid
  have room : (next b).val + x.val ≤ hi := by
    by_cases same : b = a
    · subst b
      have bound := (l a).upper
      omega
    · have pair := capped_pair capped (Ne.symm same)
      rw [kept b same]
      omega
  obtain ⟨after,got⟩ := credit_possible room
  exact ⟨next,after,paid,got⟩

omit [DecidableEq A] in
theorem capped_renamed (e : A ≃ A) (capped : Capped l) : Capped fun c => l (e c) := by
  intro accounts
  have bound := capped (accounts.map e.toEmbedding)
  rw [sum_map] at bound
  exact bound

theorem capped_support (support : Finset A) (outside : ∀ c, c ∉ support → (l c).val = 0)
    (small : ∑ c ∈ support, (l c).val ≤ hi) : Capped l := by
  intro accounts
  refine le_trans ?_ small
  calc ∑ c ∈ accounts, (l c).val
      ≤ ∑ c ∈ accounts ∪ support, (l c).val :=
        sum_le_sum_of_subset_of_nonneg subset_union_left fun c _ _ => (l c).lower
    _ = ∑ c ∈ support, (l c).val := by
        symm
        exact sum_subset subset_union_right fun c _ absent => outside c absent

end Balances
