import Solclash.Oracle
import Solclash.MathLaws

-- A definite outcome of the confidence band against the exact rational price
-- and confidence of the update it was computed from.
namespace Solclash.OracleDecision
open Fallible DecimalScale MathLaws

-- What the update says, before any rounding.
def price (update : ExtractedPriceUpdate) : ℚ := exact update.price.val update.exponent.val
def confidence (update : ExtractedPriceUpdate) : ℚ := exact update.conf.val update.exponent.val
def threshold (thresholdE8 : I128) : ℚ := exact thresholdE8.val (-8)
def tick : ℚ := exact 1 (-8)

theorem tick_positive : 0 < tick := by unfold tick exact; positivity

theorem exact_ticks (value exponent : Int) : exact value exponent = exact value (exponent + 8) * tick := by
  unfold tick exact
  rw [zpow_add₀ (by norm_num)]
  norm_num [mul_assoc]

theorem threshold_ticks (thresholdE8 : I128) : threshold thresholdE8 = thresholdE8.val * tick := by
  unfold threshold tick exact
  norm_num

structure Rounded (update : ExtractedPriceUpdate) (verified : VerifiedPrice) : Prop where
  priceLow : verified.priceE8.val * tick ≤ price update
  priceHigh : price update < (verified.priceE8.val + 1) * tick
  confLow : verified.confE8.val * tick ≤ confidence update
  confHigh : confidence update < (verified.confE8.val + 1) * tick

theorem rounded_of (accepted : verifyPriceUpdate update feedId resolutionTime = .ok verified) :
    Rounded update verified := by
  obtain ⟨_,_,_,_,_,positive,priceE8,confE8,_⟩ := verifyPriceUpdate_parts accepted
  have nonneg := update.conf.lower
  obtain ⟨priceLow,priceHigh⟩ := truncated_close positive.le (update.exponent.val + 8)
  obtain ⟨confLow,confHigh⟩ := truncated_close nonneg (update.exponent.val + 8)
  have priceValue := normalizeToE8_truncates priceE8
  have confValue := normalizeToE8_truncates confE8
  rw [RangedInt.widen_val] at priceValue confValue
  rw [← priceValue] at priceLow priceHigh
  rw [← confValue] at confLow confHigh
  have unit := tick_positive
  exact {
    priceLow := by rw [price,exact_ticks]; exact mul_le_mul_of_nonneg_right priceLow unit.le
    priceHigh := by rw [price,exact_ticks]; exact mul_lt_mul_of_pos_right priceHigh unit
    confLow := by rw [confidence,exact_ticks]; exact mul_le_mul_of_nonneg_right confLow unit.le
    confHigh := by rw [confidence,exact_ticks]; exact mul_lt_mul_of_pos_right confHigh unit }

-- The outcome holds over the whole exact band.
def DecisionExact (condition outcome : U8) (p c t : ℚ) : Prop :=
  (condition = conditionGreaterThan ∧ outcome = outcomeYes ∧ t < p - c) ∨
    (condition = conditionGreaterThan ∧ outcome = outcomeNo ∧ p + c ≤ t) ∨
    (condition = conditionLessThan ∧ outcome = outcomeYes ∧ p + c < t) ∨
    (condition = conditionLessThan ∧ outcome = outcomeNo ∧ t ≤ p - c)

-- What truncation leaves of it: only YES above the threshold stays exact.
def DecisionWithin (unit : ℚ) (condition outcome : U8) (p c t : ℚ) : Prop :=
  (condition = conditionGreaterThan ∧ outcome = outcomeYes ∧ t < p - c) ∨
    (condition = conditionGreaterThan ∧ outcome = outcomeNo ∧ p + c < t + 2 * unit) ∨
    (condition = conditionLessThan ∧ outcome = outcomeYes ∧ p + c < t + unit) ∨
    (condition = conditionLessThan ∧ outcome = outcomeNo ∧ t - unit < p - c)

-- Both the price and the confidence have at most eight decimals.
def EightDecimals (update : ExtractedPriceUpdate) : Prop :=
  Lossless update.price.val (update.exponent.val + 8) ∧ Lossless update.conf.val (update.exponent.val + 8)

theorem in_ticks {a b : Int} (order : a ≤ b) : (a : ℚ) * tick ≤ b * tick :=
  mul_le_mul_of_nonneg_right (by exact_mod_cast order) tick_positive.le

-- The answer of the band on the grid of ticks, where strict means a whole tick.
theorem band_ticks {price conf : Int} (thresholdE8 : I128)
    (known : condition = conditionGreaterThan ∨ condition = conditionLessThan)
    (answered : bandAnswer condition (price - conf) (price + conf) thresholdE8.val = some outcome) :
    (condition = conditionGreaterThan ∧ outcome = outcomeYes ∧
        threshold thresholdE8 + tick ≤ price * tick - conf * tick) ∨
      (condition = conditionGreaterThan ∧ outcome = outcomeNo ∧
        price * tick + conf * tick ≤ threshold thresholdE8) ∨
      (condition = conditionLessThan ∧ outcome = outcomeYes ∧
        price * tick + conf * tick + tick ≤ threshold thresholdE8) ∨
      (condition = conditionLessThan ∧ outcome = outcomeNo ∧
        threshold thresholdE8 ≤ price * tick - conf * tick) := by
  rw [threshold_ticks]
  rcases bandAnswer_parts known answered with
    ⟨greater,yes,above⟩ | ⟨greater,no,below⟩ | ⟨less,yes,below⟩ | ⟨less,no,above⟩
  · have order := in_ticks (Int.add_one_le_iff.mpr above)
    push_cast at order
    exact .inl ⟨greater,yes,by linarith⟩
  · have order := in_ticks below
    push_cast at order
    exact .inr (.inl ⟨greater,no,by linarith⟩)
  · have order := in_ticks (Int.add_one_le_iff.mpr below)
    push_cast at order
    exact .inr (.inr (.inl ⟨less,yes,by linarith⟩))
  · have order := in_ticks above
    push_cast at order
    exact .inr (.inr (.inr ⟨less,no,by linarith⟩))

theorem within_of (rounded : Rounded update verified) (thresholdE8 : I128)
    (known : condition = conditionGreaterThan ∨ condition = conditionLessThan)
    (answered : bandAnswer condition (verified.priceE8.val - verified.confE8.val)
      (verified.priceE8.val + verified.confE8.val) thresholdE8.val = some outcome) :
    DecisionWithin tick condition outcome (price update) (confidence update) (threshold thresholdE8) := by
  obtain ⟨priceLow,priceHigh,confLow,confHigh⟩ := rounded
  rcases band_ticks thresholdE8 known answered with
    ⟨greater,yes,above⟩ | ⟨greater,no,below⟩ | ⟨less,yes,below⟩ | ⟨less,no,above⟩
  · exact .inl ⟨greater,yes,by linarith⟩
  · exact .inr (.inl ⟨greater,no,by linarith⟩)
  · exact .inr (.inr (.inl ⟨less,yes,by linarith⟩))
  · exact .inr (.inr (.inr ⟨less,no,by linarith⟩))

theorem exact_of (accepted : verifyPriceUpdate update feedId resolutionTime = .ok verified)
    (whole : EightDecimals update) (thresholdE8 : I128)
    (known : condition = conditionGreaterThan ∨ condition = conditionLessThan)
    (answered : bandAnswer condition (verified.priceE8.val - verified.confE8.val)
      (verified.priceE8.val + verified.confE8.val) thresholdE8.val = some outcome) :
    DecisionExact condition outcome (price update) (confidence update) (threshold thresholdE8) := by
  obtain ⟨_,_,_,_,_,_,priceE8,confE8,_⟩ := verifyPriceUpdate_parts accepted
  have priceValue : price update = verified.priceE8.val * tick := by
    rw [price,exact_ticks,← truncated_exact whole.1,normalizeToE8_truncates priceE8]; rfl
  have confValue : confidence update = verified.confE8.val * tick := by
    rw [confidence,exact_ticks,← truncated_exact whole.2,normalizeToE8_truncates confE8]; rfl
  have unit := tick_positive
  rw [priceValue,confValue]
  rcases band_ticks thresholdE8 known answered with
    ⟨greater,yes,above⟩ | ⟨greater,no,below⟩ | ⟨less,yes,below⟩ | ⟨less,no,above⟩
  · exact .inl ⟨greater,yes,by linarith⟩
  · exact .inr (.inl ⟨greater,no,below⟩)
  · exact .inr (.inr (.inl ⟨less,yes,by linarith⟩))
  · exact .inr (.inr (.inr ⟨less,no,above⟩))

theorem decision_sound (accepted : verifyPriceUpdate update feedId resolutionTime = .ok verified)
    (decided : resolveConfidenceBand condition verified.priceE8 verified.confE8 thresholdE8 = .ok (some outcome)) :
    DecisionWithin tick condition outcome (price update) (confidence update) (threshold thresholdE8) ∧
      (EightDecimals update →
        DecisionExact condition outcome (price update) (confidence update) (threshold thresholdE8)) := by
  obtain ⟨known,answered⟩ := resolveConfidenceBand_parts decided
  exact ⟨within_of (rounded_of accepted) thresholdE8 known answered.symm,
    fun whole => exact_of accepted whole thresholdE8 known answered.symm⟩

section sample

-- Nine decimals: 1.9 ticks with a confidence of 0.9 become exactly one tick.
def nineDecimals : ExtractedPriceUpdate := ⟨true,true,0,.lit 19,.lit 9,.lit (-9),.lit 390⟩
def oneTick : VerifiedPrice := ⟨.lit 1,.lit 0,.lit 390⟩

theorem decision_sound_sample :
    DecisionWithin tick conditionGreaterThan outcomeNo (price nineDecimals) (confidence nineDecimals)
      (threshold (.lit 1)) := by
  have accepted : verifyPriceUpdate nineDecimals 0 (.lit 400) = .ok oneTick := by decide +kernel
  have decided : resolveConfidenceBand conditionGreaterThan oneTick.priceE8 oneTick.confE8 (.lit 1) =
      .ok (some outcomeNo) := by decide +kernel
  exact (decision_sound accepted decided).1

theorem straddling_band_decided : ¬ ∀ {update : ExtractedPriceUpdate} {feedId : FeedId} {resolutionTime : I64}
    {verified : VerifiedPrice} {condition outcome : U8} {thresholdE8 : I128},
    verifyPriceUpdate update feedId resolutionTime = .ok verified →
    resolveConfidenceBand condition verified.priceE8 verified.confE8 thresholdE8 = .ok (some outcome) →
    DecisionExact condition outcome (price update) (confidence update) (threshold thresholdE8) := by
  intro claimed
  have accepted : verifyPriceUpdate nineDecimals 0 (.lit 400) = .ok oneTick := by decide +kernel
  have decided : resolveConfidenceBand conditionGreaterThan oneTick.priceE8 oneTick.confE8 (.lit 1) =
      .ok (some outcomeNo) := by decide +kernel
  have differ : conditionGreaterThan ≠ conditionLessThan := by decide
  have apart : outcomeNo ≠ outcomeYes := by decide
  rcases claimed accepted decided with ⟨_,no,_⟩ | ⟨_,_,below⟩ | ⟨less,_,_⟩ | ⟨less,_,_⟩
  · exact apart no
  · have crossed : threshold (.lit 1) < price nineDecimals + confidence nineDecimals := by
      norm_num [threshold,price,confidence,exact,nineDecimals,RangedInt.lit]
    exact absurd below (not_le_of_gt crossed)
  · exact differ less
  · exact differ less
end sample

end Solclash.OracleDecision
