import Solclash.Foundations.Fallible
import Solclash.State

namespace Solclash
open Fallible

def normalizeToE8 (value : I128) (exponent : I32) : Except SolclashError I128 := do
  let shift ← okOr (exponent.checkedAdd (.lit 8)) .oracleExponentOutOfRange
  if 0 ≤ shift.val then do
    let factor ← okOr ((RangedInt.lit 10 : I128).checkedPow shift.val.toNat) .oracleExponentOutOfRange
    okOr (value.checkedMul factor) .mathOverflow
  else do
    let magnitude ← okOr shift.checkedNeg .oracleExponentOutOfRange
    let factor ← okOr ((RangedInt.lit 10 : I128).checkedPow magnitude.val.toNat) .oracleExponentOutOfRange
    okOr (value.checkedDiv factor) .mathOverflow

def resolveConfidenceBand (condition : U8) (priceE8 confE8 thresholdE8 : I128) :
    Except SolclashError (Option U8) := do
  let lower ← okOr (priceE8.checkedSub confE8) .mathOverflow
  let upper ← okOr (priceE8.checkedAdd confE8) .mathOverflow
  if condition = conditionGreaterThan then
    if thresholdE8 < lower then pure (some outcomeYes)
    else if upper ≤ thresholdE8 then pure (some outcomeNo)
    else pure none
  else if condition = conditionLessThan then
    if upper < thresholdE8 then pure (some outcomeYes)
    else if thresholdE8 ≤ lower then pure (some outcomeNo)
    else pure none
  else .error .invalidCondition

def confidenceRatioBps (priceE8 confE8 : I128) : Except SolclashError U64 := do
  if priceE8.val ≤ 0 then .error .oracleInvalidPrice
  else do
    let numerator ← okOr (confE8.checkedMul (.lit 10000)) .mathOverflow
    let ratio ← okOr (numerator.checkedDiv priceE8) .mathOverflow
    okOr ratio.tryFrom .mathOverflow

def proRataShare (payoutPool shareStake totalStake : U64) : Except SolclashError U64 := do
  let numerator ← okOr ((payoutPool.widen : U128).checkedMul shareStake.widen) .mathOverflow
  let share ← okOr (numerator.checkedDiv totalStake.widen) .mathOverflow
  okOr share.tryFrom .mathOverflow

def computeClaim (payoutPool stake winningStake : U64) : Except SolclashError U64 :=
  if winningStake.val = 0 then .error .zeroWinningStake else proRataShare payoutPool stake winningStake

def computeRefund (payoutPool stake pot : U64) : Except SolclashError U64 :=
  if pot.val = 0 then .error .zeroPot else proRataShare payoutPool stake pot

theorem proRataShare_parts {payoutPool stake totalStake share : U64} :
    proRataShare payoutPool stake totalStake = .ok share ↔
      totalStake.val ≠ 0 ∧ share.val = payoutPool.val * stake.val / totalStake.val := by
  have pool := payoutPool.lower
  have poolUpper := payoutPool.upper
  have part := stake.lower
  have partUpper := stake.upper
  have nonneg : 0 ≤ payoutPool.val * stake.val := Int.mul_nonneg pool part
  have bounded : payoutPool.val * stake.val ≤ 18446744073709551615 * 18446744073709551615 :=
    Int.mul_le_mul poolUpper partUpper part (by decide)
  have small : payoutPool.val * stake.val / totalStake.val ≤ payoutPool.val * stake.val :=
    Int.ediv_le_self _ nonneg
  have quotient : 0 ≤ payoutPool.val * stake.val / totalStake.val := Int.ediv_nonneg nonneg totalStake.lower
  simp only [proRataShare,bind_ok,okOr_ok,RangedInt.checkedMul_some,RangedInt.checkedDiv_some,
    RangedInt.tryFrom_some,RangedInt.widen_val]
  constructor
  · rintro ⟨numerator,product,divided,⟨nonzero,division⟩,converted⟩
    refine ⟨nonzero,?_⟩
    rw [converted,division,product,Int.tdiv_eq_ediv_of_nonneg nonneg]
  · rintro ⟨nonzero,value⟩
    refine ⟨⟨payoutPool.val * stake.val,nonneg,by omega⟩,rfl,
      ⟨payoutPool.val * stake.val / totalStake.val,quotient,by omega⟩,⟨nonzero,?_⟩,value⟩
    exact (Int.tdiv_eq_ediv_of_nonneg nonneg).symm

theorem computeClaim_parts {payoutPool stake winningStake payout : U64} :
    computeClaim payoutPool stake winningStake = .ok payout ↔
      winningStake.val ≠ 0 ∧ payout.val = payoutPool.val * stake.val / winningStake.val := by
  unfold computeClaim
  split <;> simp_all [proRataShare_parts]

theorem computeRefund_parts {payoutPool stake pot refund : U64} :
    computeRefund payoutPool stake pot = .ok refund ↔
      pot.val ≠ 0 ∧ refund.val = payoutPool.val * stake.val / pot.val := by
  unfold computeRefund
  split <;> simp_all [proRataShare_parts]

def Representable (n : Int) : Prop := ∃ m : I128, m.val = n

-- The product must fit; the quotient always does.
theorem confidenceRatioBps_parts {priceE8 confE8 : I128} {ratioBps : U64} :
    confidenceRatioBps priceE8 confE8 = .ok ratioBps ↔
      0 < priceE8.val ∧ Representable (confE8.val * 10000) ∧
        ratioBps.val = (confE8.val * 10000).tdiv priceE8.val := by
  unfold confidenceRatioBps
  by_cases positive : 0 < priceE8.val
  · rw [if_neg (not_le_of_gt positive)]
    simp only [bind_ok,okOr_ok,RangedInt.checkedMul_some,RangedInt.checkedDiv_some,RangedInt.tryFrom_some,
      RangedInt.lit_val]
    constructor
    · rintro ⟨numerator,product,ratio,⟨_,quotient⟩,converted⟩
      exact ⟨positive,⟨numerator,product⟩,by rw [converted,quotient,product]⟩
    · rintro ⟨_,⟨numerator,product⟩,value⟩
      have least := ratioBps.lower
      have most := ratioBps.upper
      rw [← product] at value
      exact ⟨numerator,product,⟨numerator.val.tdiv priceE8.val,by omega,by omega⟩,⟨positive.ne',rfl⟩,value⟩
  · rw [if_pos (not_lt.mp positive)]
    simp [positive]

-- What a condition says of one price.
def Holds (condition : U8) (price threshold : Int) : Prop :=
  (condition = conditionGreaterThan ∧ threshold < price) ∨ (condition = conditionLessThan ∧ price < threshold)

-- The three answers of the band, per condition.
def bandAnswer (condition : U8) (lower upper threshold : Int) : Option U8 :=
  if condition = conditionGreaterThan then
    if threshold < lower then some outcomeYes else if upper ≤ threshold then some outcomeNo else none
  else if upper < threshold then some outcomeYes else if threshold ≤ lower then some outcomeNo else none

theorem resolveConfidenceBand_parts {condition : U8} {priceE8 confE8 thresholdE8 : I128} {outcome : Option U8}
    (ran : resolveConfidenceBand condition priceE8 confE8 thresholdE8 = .ok outcome) :
    (condition = conditionGreaterThan ∨ condition = conditionLessThan) ∧
      outcome = bandAnswer condition (priceE8.val - confE8.val) (priceE8.val + confE8.val) thresholdE8.val := by
  simp only [resolveConfidenceBand,bind_ok,okOr_ok,RangedInt.checkedSub_some,RangedInt.checkedAdd_some] at ran
  obtain ⟨lower,difference,upper,sum,answer⟩ := ran
  rw [← difference,← sum]
  unfold bandAnswer
  simp only [RangedInt.lt_iff,RangedInt.le_iff] at answer
  by_cases greater : condition = conditionGreaterThan
  · refine ⟨.inl greater,?_⟩
    simp only [greater,if_true] at answer ⊢
    refine Except.ok.inj (answer.symm.trans ?_)
    split
    · rfl
    · split <;> rfl
  · simp only [greater,if_false] at answer ⊢
    split at answer
    · rename_i less
      refine ⟨.inr less,?_⟩
      refine Except.ok.inj (answer.symm.trans ?_)
      split
      · rfl
      · split <;> rfl
    · cases answer

-- The four ways to a definite answer.
theorem bandAnswer_parts (known : condition = conditionGreaterThan ∨ condition = conditionLessThan)
    (answered : bandAnswer condition lower upper threshold = some outcome) :
    (condition = conditionGreaterThan ∧ outcome = outcomeYes ∧ threshold < lower) ∨
      (condition = conditionGreaterThan ∧ outcome = outcomeNo ∧ upper ≤ threshold) ∨
      (condition = conditionLessThan ∧ outcome = outcomeYes ∧ upper < threshold) ∨
      (condition = conditionLessThan ∧ outcome = outcomeNo ∧ threshold ≤ lower) := by
  unfold bandAnswer at answered
  split at answered
  · rename_i greater
    split at answered
    · rename_i above; cases answered; exact .inl ⟨greater,rfl,above⟩
    · split at answered
      · rename_i below; cases answered; exact .inr (.inl ⟨greater,rfl,below⟩)
      · cases answered
  · rename_i other
    have less := known.resolve_left other
    split at answered
    · rename_i below; cases answered; exact .inr (.inr (.inl ⟨less,rfl,below⟩))
    · split at answered
      · rename_i above; cases answered; exact .inr (.inr (.inr ⟨less,rfl,above⟩))
      · cases answered

theorem bandAnswer_known (answered : bandAnswer condition lower upper threshold = some outcome) :
    outcome = outcomeNo ∨ outcome = outcomeYes := by
  unfold bandAnswer at answered
  split at answered
  · split at answered
    · cases answered; exact .inr rfl
    · split at answered
      · cases answered; exact .inl rfl
      · cases answered
  · split at answered
    · cases answered; exact .inr rfl
    · split at answered
      · cases answered; exact .inl rfl
      · cases answered

section refusals

theorem normalizeToE8_refused :
    RefusesOnly (fun cause => cause = .oracleExponentOutOfRange ∨ cause = .mathOverflow) (normalizeToE8 value exponent) := by
  unfold normalizeToE8
  apply RefusesOnly.lookup (.inl rfl)
  intro shift _
  split
  · apply RefusesOnly.lookup (.inl rfl)
    intro factor _
    exact .found (.inr rfl)
  · apply RefusesOnly.lookup (.inl rfl)
    intro magnitude _
    apply RefusesOnly.lookup (.inl rfl)
    intro factor _
    exact .found (.inr rfl)

theorem resolveConfidenceBand_refused : RefusesOnly (fun cause => cause = .mathOverflow ∨ cause = .invalidCondition)
    (resolveConfidenceBand condition priceE8 confE8 thresholdE8) := by
  unfold resolveConfidenceBand
  apply RefusesOnly.lookup (.inl rfl)
  intro lower _
  apply RefusesOnly.lookup (.inl rfl)
  intro upper _
  split
  · split
    · exact .returned _
    · split <;> exact .returned _
  · split
    · split
      · exact .returned _
      · split <;> exact .returned _
    · exact .raised (.inr rfl)

theorem confidenceRatioBps_refused : RefusesOnly (fun cause => cause = .oracleInvalidPrice ∨ cause = .mathOverflow)
    (confidenceRatioBps priceE8 confE8) := by
  unfold confidenceRatioBps
  split
  · exact .raised (.inl rfl)
  · apply RefusesOnly.lookup (.inr rfl)
    intro numerator _
    apply RefusesOnly.lookup (.inr rfl)
    intro ratio _
    exact .found (.inr rfl)

end refusals

end Solclash
