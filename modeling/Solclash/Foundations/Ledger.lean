import Mathlib.Algebra.BigOperators.Group.Finset.Piecewise
import Solclash.Foundations.Balances

-- Journals of movements between accounts, newest first, and what they do to
-- balances: a movement takes from its source exactly what its target gets.
namespace Ledger
open Finset

structure Movement (A M : Type) where
  memo : M
  source : A
  target : A
  amount : Int

variable {A M : Type} [DecidableEq A] {hi : Int}

def Movement.received (a : A) (m : Movement A M) : Int := if m.target = a then m.amount else 0
def Movement.spent (a : A) (m : Movement A M) : Int := if m.source = a then m.amount else 0

def received (a : A) (journal : List (Movement A M)) : Int := (journal.map (Movement.received a)).sum
def spent (a : A) (journal : List (Movement A M)) : Int := (journal.map (Movement.spent a)).sum

-- What the journal takes from one account to some others.
def Movement.flow (source : A) (targets : Finset A) (m : Movement A M) : Int :=
  if m.source = source ∧ m.target ∈ targets then m.amount else 0
def flow (source : A) (targets : Finset A) (journal : List (Movement A M)) : Int :=
  (journal.map (Movement.flow source targets)).sum

-- Every balance is the old one with the journal booked on it.
structure Posted (l : A → RangedInt 0 hi) (journal : List (Movement A M)) (after : A → RangedInt 0 hi) : Prop where
  balance : ∀ a, (after a).val = (l a).val + received a journal - spent a journal

variable {l middle after : A → RangedInt 0 hi} {journal older newer : List (Movement A M)} {a : A}

theorem received_append (a : A) (newer older : List (Movement A M)) :
    received a (newer ++ older) = received a newer + received a older := by
  simp only [received,List.map_append,List.sum_append]

theorem spent_append (a : A) (newer older : List (Movement A M)) :
    spent a (newer ++ older) = spent a newer + spent a older := by
  simp only [spent,List.map_append,List.sum_append]

theorem flow_append (source : A) (targets : Finset A) (newer older : List (Movement A M)) :
    flow source targets (newer ++ older) = flow source targets newer + flow source targets older := by
  simp only [flow,List.map_append,List.sum_append]

theorem flow_nil (source : A) (targets : Finset A) : flow source targets ([] : List (Movement A M)) = 0 := rfl
theorem flow_cons (source : A) (targets : Finset A) (m : Movement A M) (journal : List (Movement A M)) :
    flow source targets (m :: journal) = m.flow source targets + flow source targets journal := List.sum_cons

-- Movements from elsewhere are no part of it.
theorem flow_elsewhere {source : A} {targets : Finset A} (other : ∀ m ∈ journal, m.source ≠ source) :
    flow source targets journal = 0 := by
  induction journal with
  | nil => rfl
  | cons m journal ih =>
      obtain ⟨first,rest⟩ := List.forall_mem_cons.mp other
      rw [flow_cons,ih rest,Movement.flow,if_neg fun both => first both.1,Int.add_zero]

theorem Posted.nothing (l : A → RangedInt 0 hi) : Posted l ([] : List (Movement A M)) l where
  balance := by intro a; simp [received,spent]

theorem Posted.append (first : Posted l older middle) (second : Posted middle newer after) :
    Posted l (newer ++ older) after where
  balance := by
    intro a
    have before := first.balance a
    have next := second.balance a
    rw [received_append,spent_append]
    omega

-- A debit and a credit of the same amount, even of one account with itself.
theorem Posted.moved {source target : A} {x : RangedInt 0 hi} (memo : M)
    (paid : Balances.debit l source x = some middle) (got : Balances.credit middle target x = some after) :
    Posted l [(⟨memo,source,target,x.val⟩ : Movement A M)] after where
  balance := by
    intro c
    obtain ⟨less,kept⟩ := Balances.debit_parts paid
    obtain ⟨more,same⟩ := Balances.credit_parts got
    simp only [received,spent,List.map_cons,List.map_nil,List.sum_cons,List.sum_nil,Movement.received,Movement.spent]
    by_cases target' : target = c
    · subst target'
      rw [more]
      by_cases source' : source = target
      · subst source'
        rw [less]
        simp
      · rw [kept target (Ne.symm source')]
        simp [source']
    · rw [same c (Ne.symm target')]
      by_cases source' : source = c
      · subst source'
        rw [less]
        simp [target']
      · rw [kept c (Ne.symm source')]
        simp [source',target']

-- Nothing is posted for a movement of nothing.
theorem Posted.idle (memo : M) (source target : A) (l : A → RangedInt 0 hi) :
    Posted l [(⟨memo,source,target,0⟩ : Movement A M)] l where
  balance := by intro c; simp [received,spent,Movement.received,Movement.spent]

theorem received_nonneg (amounts : ∀ m ∈ journal, 0 ≤ m.amount) (a : A) : 0 ≤ received a journal := by
  induction journal with
  | nil => exact Int.le_refl 0
  | cons m journal ih =>
      have rest := ih fun m' member => amounts m' (List.mem_cons_of_mem _ member)
      have one := amounts m (List.mem_cons_self ..)
      simp only [received,List.map_cons,List.sum_cons,Movement.received] at rest ⊢
      split <;> omega

theorem spent_none (unspent : ∀ m ∈ journal, m.source ≠ a) : spent a journal = 0 := by
  induction journal with
  | nil => rfl
  | cons m journal ih =>
      have rest := ih fun m' member => unspent m' (List.mem_cons_of_mem _ member)
      have one := unspent m (List.mem_cons_self ..)
      simp only [spent,List.map_cons,List.sum_cons,Movement.spent,if_neg one] at rest ⊢
      omega

-- An account that is nowhere a source only grows.
theorem Posted.grows (posted : Posted l journal after) (amounts : ∀ m ∈ journal, 0 ≤ m.amount)
    (unspent : ∀ m ∈ journal, m.source ≠ a) : (l a).val ≤ (after a).val := by
  have balance := posted.balance a
  have gained := received_nonneg amounts a
  rw [spent_none unspent] at balance
  omega

section total
variable [Fintype A]

theorem total_received (journal : List (Movement A M)) :
    ∑ a, received a journal = (journal.map (·.amount)).sum := by
  induction journal with
  | nil => simp [received]
  | cons m journal ih =>
      simp only [received,List.map_cons,List.sum_cons,sum_add_distrib] at ih ⊢
      rw [ih]
      simp [Movement.received]

theorem total_spent (journal : List (Movement A M)) : ∑ a, spent a journal = (journal.map (·.amount)).sum := by
  induction journal with
  | nil => simp [spent]
  | cons m journal ih =>
      simp only [spent,List.map_cons,List.sum_cons,sum_add_distrib] at ih ⊢
      rw [ih]
      simp [Movement.spent]

-- Whatever is posted, the accounts together hold what they held.
theorem Posted.total (posted : Posted l journal after) : ∑ a, (after a).val = ∑ a, (l a).val := by
  calc ∑ a, (after a).val
      = ∑ a, ((l a).val + received a journal - spent a journal) := sum_congr rfl fun a _ => posted.balance a
    _ = ∑ a, (l a).val + ∑ a, received a journal - ∑ a, spent a journal := by
        rw [sum_sub_distrib,sum_add_distrib]
    _ = ∑ a, (l a).val := by
        rw [total_received,total_spent]
        omega

end total

end Ledger
