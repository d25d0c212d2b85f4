import Solclash.Foundations.FloorShare
import Solclash.Foundations.KeyedTotal

-- The pari-mutuel game over arbitrary bettors and outcomes: one pot, a verdict,
-- and what each position is then worth. All amounts are whole units.
namespace Parimutuel
open FloorShare KeyedTotal
variable {K O : Type} [Fintype K] [DecidableEq O]

structure Position (O : Type) where
  outcome : O
  stake : Int

-- A cost that is taken once a price has been asked for, and the fee on what
-- is then left, taken only when there is a winner.
structure Rules where
  cost : Int
  feeBps : Int

inductive Verdict (O : Type) where
  | void
  | undecided
  | winner (outcome : O)

def weight (outcome : O) (p : Position O) : Int := if p.outcome = outcome then p.stake else 0

def pot (book : K → Option (Position O)) : Int := total (·.stake) book
def side (book : K → Option (Position O)) (outcome : O) : Int := total (weight outcome) book

def kept (rules : Rules) (pot : Int) : Verdict O → Int
  | .void => 0
  | .undecided => rules.cost
  | .winner _ => rules.cost + (pot - rules.cost) * rules.feeBps / 10000

def pool (rules : Rules) (book : K → Option (Position O)) (verdict : Verdict O) : Int :=
  pot book - kept rules (pot book) verdict

def payoff (rules : Rules) (book : K → Option (Position O)) (verdict : Verdict O) (p : Position O) : Int :=
  match verdict with
  | .void => p.stake
  | .undecided => share (pool rules book .undecided) p.stake (pot book)
  | .winner outcome =>
    if p.outcome = outcome then share (pool rules book verdict) p.stake (side book outcome) else 0

variable {rules : Rules} {book : K → Option (Position O)} {p q : Position O} {outcome outcome' : O} {k : K}

theorem weight_same (same : p.outcome = outcome) : weight outcome p = p.stake := if_pos same
theorem weight_other (other : p.outcome ≠ outcome) : weight outcome p = 0 := if_neg other

theorem payoff_won (won : p.outcome = outcome) :
    payoff rules book (.winner outcome) p = share (pool rules book (.winner outcome)) p.stake (side book outcome) :=
  if_pos won
theorem payoff_lost (lost : p.outcome ≠ outcome) : payoff rules book (.winner outcome) p = 0 := if_neg lost

omit [DecidableEq O] in
theorem stake_le_pot [DecidableEq K] (nonneg : ∀ k p, book k = some p → 0 ≤ p.stake) (found : book k = some p) :
    p.stake ≤ pot book := le_total nonneg found

omit [DecidableEq O] in
-- Proportional shares of a pool cost no more than the pool.
theorem shares_affordable {claims : Position O → Int} (book : K → Option (Position O)) {whole reserve : Int}
    (positive : 0 < whole) (sum : total claims book = whole) :
    total (fun p => share reserve (claims p) whole) book ≤ reserve := by
  have each : total (fun p => whole * share reserve (claims p) whole) book ≤
      total (fun p => reserve * claims p) book := by
    apply total_le
    intro k p _
    rw [mul_comm]
    exact share_mul_le reserve (claims p) positive
  rw [total_mul,total_mul,sum,mul_comm reserve] at each
  exact le_of_mul_le_mul_left each positive

-- There is somebody to share the pool.
def Backed (book : K → Option (Position O)) : Verdict O → Prop
  | .void => True
  | .undecided => 0 < pot book
  | .winner outcome => 0 < side book outcome

theorem payoffs_affordable {verdict : Verdict O} (backed : Backed book verdict) :
    total (payoff rules book verdict) book ≤ pool rules book verdict := by
  cases verdict with
  | void =>
      have whole : pool rules book (.void : Verdict O) = pot book := Int.sub_zero _
      rw [whole]
      exact le_refl _
  | undecided => exact shares_affordable book backed rfl
  | winner outcome =>
      have shared : total (fun p => share (pool rules book (.winner outcome)) (weight outcome p) (side book outcome)) book ≤
          pool rules book (.winner outcome) := shares_affordable book backed rfl
      refine (total_le ?_).trans shared
      intro k p _
      by_cases won : p.outcome = outcome
      · rw [payoff_won won,weight_same won]
      · rw [payoff_lost won,weight_other won]
        simp [share]

-- On one side, more stake is never worth less.
theorem payoff_order {verdict : Verdict O} (backed : Backed book verdict) (solvent : 0 ≤ pool rules book verdict)
    (same : p.outcome = q.outcome) (order : p.stake ≤ q.stake) :
    payoff rules book verdict p ≤ payoff rules book verdict q := by
  cases verdict with
  | void => exact order
  | undecided => exact Int.ediv_le_ediv backed (mul_le_mul_of_nonneg_left order solvent)
  | winner outcome =>
      by_cases won : p.outcome = outcome
      · rw [payoff_won won,payoff_won (same ▸ won)]
        exact Int.ediv_le_ediv backed (mul_le_mul_of_nonneg_left order solvent)
      · rw [payoff_lost won,payoff_lost (same ▸ won)]

-- Whoever wins gets his stake back exactly when the pool covers his side.
theorem share_gains {reserve stake whole : Int} (positive : 0 < whole) (staked : 0 < stake) :
    stake ≤ share reserve stake whole ↔ whole ≤ reserve := by
  unfold share
  rw [Int.le_ediv_iff_mul_le positive,mul_comm reserve]
  exact mul_le_mul_iff_of_pos_left staked

theorem sides_whole (differ : outcome ≠ outcome')
    (covered : ∀ k p, book k = some p → p.outcome = outcome ∨ p.outcome = outcome') :
    pot book = side book outcome + side book outcome' := by
  rw [pot,side,side,← total_add]
  apply total_congr
  intro k p found
  rcases covered k p found with first | second
  · rw [weight_same first,weight_other (first ▸ differ),Int.add_zero]
  · rw [weight_same second,weight_other (second ▸ differ.symm),Int.zero_add]

theorem payoff_nonneg {verdict : Verdict O} (backed : Backed book verdict) (solvent : 0 ≤ pool rules book verdict)
    (staked : 0 ≤ p.stake) : 0 ≤ payoff rules book verdict p := by
  cases verdict with
  | void => exact staked
  | undecided => exact Int.ediv_nonneg (mul_nonneg solvent staked) (le_of_lt backed)
  | winner outcome =>
      by_cases won : p.outcome = outcome
      · rw [payoff_won won]
        exact Int.ediv_nonneg (mul_nonneg solvent staked) (le_of_lt backed)
      · rw [payoff_lost won]

-- The positions that some bettors hold together.
def part [DecidableEq K] (members : Finset K) (book : K → Option (Position O)) (k : K) : Option (Position O) :=
  if k ∈ members then book k else none

section part
variable [DecidableEq K] {members : Finset K}

omit [Fintype K] [DecidableEq O] in
theorem part_found (found : part members book k = some p) : book k = some p := by
  unfold part at found
  split at found
  · exact found
  · cases found

omit [DecidableEq O] in
theorem total_part (weight : Position O → Int) :
    total weight (part members book) = ∑ k ∈ members, (book k).elim 0 weight := by
  have each : ∀ k, (part members book k).elim 0 weight = if k ∈ members then (book k).elim 0 weight else 0 := by
    intro k
    unfold part
    split <;> rfl
  rw [total,Finset.sum_congr rfl fun k _ => each k,Finset.sum_ite_mem,Finset.univ_inter]

-- Together, winners get at most their proportion of the pool.
theorem part_winnings (backed : Backed book (.winner outcome)) :
    side book outcome * total (payoff rules book (.winner outcome)) (part members book) ≤
      pool rules book (.winner outcome) * side (part members book) outcome := by
  rw [side,← total_mul,side,← total_mul]
  apply total_le
  intro k p _
  by_cases won : p.outcome = outcome
  · rw [payoff_won won,weight_same won,mul_comm]
    exact share_mul_le _ _ backed
  · rw [payoff_lost won,weight_other won,mul_zero,mul_zero]

-- Bets on both outcomes cannot be worth their stakes under both, nor with an
-- extra that is small against what the game keeps.
theorem hedge_loses {extra : Int} (differ : outcome ≠ outcome')
    (covered : ∀ k p, book k = some p → p.outcome = outcome ∨ p.outcome = outcome')
    (backed : Backed book (.winner outcome)) (backed' : Backed book (.winner outcome'))
    (small : pot book * extra < kept rules (pot book) (.winner outcome) * pot (part members book)) :
    total (payoff rules book (.winner outcome)) (part members book) + extra < pot (part members book) ∨
      total (payoff rules book (.winner outcome')) (part members book) + extra < pot (part members book) := by
  apply Classical.byContradiction
  intro neither
  obtain ⟨first,second⟩ := not_or.mp neither
  have one := mul_le_mul_of_nonneg_left (not_lt.mp first) (le_of_lt (show 0 < side book outcome from backed))
  have other := mul_le_mul_of_nonneg_left (not_lt.mp second) (le_of_lt (show 0 < side book outcome' from backed'))
  have stakes : pot (part members book) = side (part members book) outcome + side (part members book) outcome' :=
    sides_whole differ fun k p found => covered k p (part_found found)
  have whole : pot book = side book outcome + side book outcome' := sides_whole differ covered
  have reserve : pool rules book (.winner outcome') = pool rules book (.winner outcome) := rfl
  rw [mul_add] at one other
  have both : pot book * pot (part members book) ≤
      pool rules book (.winner outcome) * pot (part members book) + pot book * extra := by
    calc pot book * pot (part members book)
        = side book outcome * pot (part members book) + side book outcome' * pot (part members book) := by
          rw [whole,add_mul]
      _ ≤ (pool rules book (.winner outcome) * side (part members book) outcome + side book outcome * extra) +
            (pool rules book (.winner outcome) * side (part members book) outcome' + side book outcome' * extra) :=
          add_le_add (one.trans (add_le_add_left (part_winnings backed) _))
            (other.trans (add_le_add_left (reserve ▸ part_winnings backed') _))
      _ = pool rules book (.winner outcome) * pot (part members book) + pot book * extra := by
          rw [stakes,whole,mul_add,add_mul]
          exact add_add_add_comm ..
  have split : pot book * pot (part members book) =
      pool rules book (.winner outcome) * pot (part members book) +
        kept rules (pot book) (.winner outcome) * pot (part members book) := by
    rw [← add_mul,pool,sub_add_cancel]
  omega

end part

end Parimutuel
