import Solclash.OracleDecision

-- The last check of an update, on its confidence: what it compares, what the
-- truncation of the two numbers does to it and with which error it refuses.
namespace Solclash.PriceGate
open Fallible DecimalScale MathLaws OracleDecision SolclashError

-- Everything that is checked before the first number is normalized.
structure Admitted (update : ExtractedPriceUpdate) (eventFeedId : FeedId) (resolutionTime : I64) : Prop where
  owner : update.ownerOk = true
  full : update.verificationFull = true
  feed : update.feedId = eventFeedId
  past : update.publishTime.val ≤ resolutionTime.val
  earliest : -9223372036854775808 ≤ resolutionTime.val - publishWindowSecs.val
  recent : resolutionTime.val - publishWindowSecs.val ≤ update.publishTime.val
  positive : 0 < update.price.val

-- The rest of verify_price_update, once both numbers are normalized.
def gate (update : ExtractedPriceUpdate) (priceE8 confE8 : I128) : Except SolclashError VerifiedPrice := do
  let ratioBps ← confidenceRatioBps priceE8 confE8
  require (ratioBps ≤ confMaxRatioBpsDev) oracleConfidenceTooWide
  pure ⟨priceE8,confE8,update.publishTime⟩

variable {update : ExtractedPriceUpdate} {eventFeedId : FeedId} {resolutionTime : I64} {priceE8 confE8 : I128}

-- The start of the publish window, where it is a clock value.
theorem window_start (earliest : -9223372036854775808 ≤ resolutionTime.val - publishWindowSecs.val) :
    ∃ start, resolutionTime.checkedSub publishWindowSecs = some start ∧
      start.val = resolutionTime.val - publishWindowSecs.val := by
  have upper := resolutionTime.upper
  have window : publishWindowSecs.val = 60 := rfl
  exact ⟨⟨resolutionTime.val - publishWindowSecs.val,earliest,by omega⟩,RangedInt.checkedSub_some.mpr rfl,rfl⟩

theorem verify_gate (admitted : Admitted update eventFeedId resolutionTime)
    (price : normalizeToE8 update.price.widen update.exponent = .ok priceE8)
    (conf : normalizeToE8 update.conf.widen update.exponent = .ok confE8) :
    verifyPriceUpdate update eventFeedId resolutionTime = gate update priceE8 confE8 := by
  obtain ⟨owner,full,feed,past,earliest,recent,positive⟩ := admitted
  obtain ⟨start,sub,begins⟩ := window_start earliest
  have past' : update.publishTime ≤ resolutionTime := past
  have recent' : start ≤ update.publishTime := begins.trans_le recent
  simp only [verifyPriceUpdate,gate,require,okOr,bind,Except.bind,owner,full,feed,past',sub,recent',positive,price,conf,
    if_true]

theorem gate_unpriced (free : priceE8.val = 0) : gate update priceE8 confE8 = .error oracleInvalidPrice := by
  have refused : confidenceRatioBps priceE8 confE8 = .error oracleInvalidPrice := if_pos free.le
  simp only [gate,refused,bind,Except.bind]

theorem ratio_overflow (positive : 0 < priceE8.val) (ran : confidenceRatioBps priceE8 confE8 = .error cause) :
    cause = mathOverflow := by
  unfold confidenceRatioBps at ran
  rw [if_neg (not_le_of_gt positive)] at ran
  rcases okOr_refused.mp ran with ⟨_,rfl⟩ | ⟨_,_,ran⟩
  · exact rfl
  rcases okOr_refused.mp ran with ⟨_,rfl⟩ | ⟨_,_,ran⟩
  · exact rfl
  · exact (okOr_error.mp ran).2.symm

-- A ratio of 2^64 basis points or more is not too wide but no number.
theorem gate_exact (update : ExtractedPriceUpdate) (positive : 0 < priceE8.val) (nonneg : 0 ≤ confE8.val)
    (product : Representable (confE8.val * 10000)) :
    gate update priceE8 confE8 =
      if confE8.val * 10000 < 501 * priceE8.val then .ok ⟨priceE8,confE8,update.publishTime⟩
      else if confE8.val * 10000 < 18446744073709551616 * priceE8.val then .error oracleConfidenceTooWide
      else .error mathOverflow := by
  have quotient : (confE8.val * 10000).tdiv priceE8.val = confE8.val * 10000 / priceE8.val :=
    Int.tdiv_eq_ediv_of_nonneg (by omega)
  have least : 0 ≤ confE8.val * 10000 / priceE8.val := Int.ediv_nonneg (by omega) positive.le
  cases ran : confidenceRatioBps priceE8 confE8 with
  | ok ratioBps =>
      obtain ⟨_,_,ratio⟩ := confidenceRatioBps_parts.mp ran
      have most := ratioBps.upper
      rw [quotient] at ratio
      have small : confE8.val * 10000 < 18446744073709551616 * priceE8.val :=
        (Int.ediv_lt_iff_lt_mul positive).mp (by omega)
      have narrow : ratioBps ≤ confMaxRatioBpsDev ↔ confE8.val * 10000 < 501 * priceE8.val := by
        rw [← Int.ediv_lt_iff_lt_mul positive,RangedInt.le_iff,ratio]
        exact Int.lt_add_one_iff.symm
      by_cases passes : confE8.val * 10000 < 501 * priceE8.val
      · rw [if_pos passes]
        simp only [gate,ran,bind,Except.bind,require,if_pos (narrow.mpr passes)]
        rfl
      · rw [if_neg passes,if_pos small]
        simp only [gate,ran,bind,Except.bind,require,if_neg (mt narrow.mp passes)]
  | error cause =>
      have large : ¬ confE8.val * 10000 < 18446744073709551616 * priceE8.val := by
        intro small
        have most := (Int.ediv_lt_iff_lt_mul positive).mpr small
        have done := (@confidenceRatioBps_parts _ _ ⟨confE8.val * 10000 / priceE8.val,least,by omega⟩).mpr
          ⟨positive,product,quotient.symm⟩
        exact not_both done ran
      have wide : ¬ confE8.val * 10000 < 501 * priceE8.val := by omega
      rw [if_neg wide,if_neg large]
      simp only [gate,ran,bind,Except.bind,ratio_overflow positive ran]

-- An update on which only the ratio is left to decide.
structure Gated (update : ExtractedPriceUpdate) (eventFeedId : FeedId) (resolutionTime : I64) (priceE8 confE8 : I128) :
    Prop where
  admitted : Admitted update eventFeedId resolutionTime
  price : normalizeToE8 update.price.widen update.exponent = .ok priceE8
  conf : normalizeToE8 update.conf.widen update.exponent = .ok confE8
  positive : 0 < priceE8.val
  product : Representable (confE8.val * 10000)

def Accepts (update : ExtractedPriceUpdate) (eventFeedId : FeedId) (resolutionTime : I64) : Prop :=
  ∃ verified, verifyPriceUpdate update eventFeedId resolutionTime = .ok verified

-- The ratio of the raw numbers, and the two units in which raw and normalized
-- numbers are compared: one of them is 1.
def Narrow (update : ExtractedPriceUpdate) : Prop :=
  10000 * update.conf.val / update.price.val ≤ confMaxRatioBpsDev.val
instance (update : ExtractedPriceUpdate) : Decidable (Narrow update) := inferInstanceAs (Decidable (_ ≤ _))
def raised (update : ExtractedPriceUpdate) : Int := 10 ^ (update.exponent.val + 8).toNat
def dropped (update : ExtractedPriceUpdate) : Int := 10 ^ (-(update.exponent.val + 8)).toNat

theorem Gated.nonneg (gated : Gated update eventFeedId resolutionTime priceE8 confE8) : 0 ≤ confE8.val := by
  rw [normalizeToE8_truncates gated.conf]
  exact truncated_nonneg update.conf.lower _

theorem accepts_iff (gated : Gated update eventFeedId resolutionTime priceE8 confE8) :
    Accepts update eventFeedId resolutionTime ↔ 10000 * confE8.val < 501 * priceE8.val := by
  unfold Accepts
  rw [verify_gate gated.admitted gated.price gated.conf,gate_exact update gated.positive gated.nonneg gated.product,
    mul_comm confE8.val]
  split
  · rename_i narrow
    exact ⟨fun _ => narrow,fun _ => ⟨_,rfl⟩⟩
  · rename_i wide
    refine ⟨?_,fun narrow => (wide narrow).elim⟩
    rintro ⟨verified,accepted⟩
    split at accepted <;> cases accepted

theorem narrow_iff (positive : 0 < update.price.val) :
    Narrow update ↔ 10000 * update.conf.val < 501 * update.price.val := by
  unfold Narrow
  rw [← Int.ediv_lt_iff_lt_mul positive]
  exact Int.lt_add_one_iff.symm

theorem accepts_lossless (gated : Gated update eventFeedId resolutionTime priceE8 confE8)
    (whole : EightDecimals update) : Accepts update eventFeedId resolutionTime ↔ Narrow update := by
  rw [accepts_iff gated,narrow_iff gated.admitted.positive,normalizeToE8_truncates gated.price,
    normalizeToE8_truncates gated.conf]
  exact truncated_order whole.2 whole.1 10000 501

-- When digits are lost the decision is off by less than one unit of them.
theorem accepts_near (gated : Gated update eventFeedId resolutionTime priceE8 confE8) :
    (Accepts update eventFeedId resolutionTime →
      10000 * (update.conf.val * raised update) < 501 * (update.price.val * raised update) + 10000 * dropped update) ∧
    (¬ Accepts update eventFeedId resolutionTime →
      501 * (update.price.val * raised update - dropped update) < 10000 * (update.conf.val * raised update)) := by
  obtain ⟨priceLow,priceHigh⟩ := truncated_within gated.admitted.positive.le (update.exponent.val + 8)
  obtain ⟨confLow,confHigh⟩ := truncated_within update.conf.lower (update.exponent.val + 8)
  have priceValue := normalizeToE8_truncates gated.price
  have confValue := normalizeToE8_truncates gated.conf
  have unit : 0 < dropped update := ten_power_pos _
  rw [RangedInt.widen_val] at priceValue confValue
  rw [← priceValue] at priceLow priceHigh
  rw [← confValue] at confLow confHigh
  change priceE8.val * dropped update ≤ update.price.val * raised update at priceLow
  change update.price.val * raised update < (priceE8.val + 1) * dropped update at priceHigh
  change confE8.val * dropped update ≤ update.conf.val * raised update at confLow
  change update.conf.val * raised update < (confE8.val + 1) * dropped update at confHigh
  rw [accepts_iff gated]
  constructor
  · intro narrow
    have scaled : 10000 * confE8.val * dropped update < 501 * priceE8.val * dropped update :=
      mul_lt_mul_of_pos_right narrow unit
    linarith
  · intro wide
    have scaled : 501 * priceE8.val * dropped update ≤ 10000 * confE8.val * dropped update :=
      mul_le_mul_of_nonneg_right (not_lt.mp wide) unit.le
    linarith

theorem gate_scaled (gated : Gated update eventFeedId resolutionTime priceE8 confE8) :
    (Accepts update eventFeedId resolutionTime ↔ 10000 * confE8.val < 501 * priceE8.val) ∧
    (-8 ≤ update.exponent.val → EightDecimals update) ∧
    (EightDecimals update → (Accepts update eventFeedId resolutionTime ↔ Narrow update)) ∧
    (∀ {exponent : I32} {priceE8' confE8' : I128},
      Gated {update with exponent} eventFeedId resolutionTime priceE8' confE8' →
      EightDecimals update → EightDecimals {update with exponent} →
      (Accepts update eventFeedId resolutionTime ↔ Accepts {update with exponent} eventFeedId resolutionTime)) ∧
    (Accepts update eventFeedId resolutionTime →
      10000 * (update.conf.val * raised update) < 501 * (update.price.val * raised update) + 10000 * dropped update) ∧
    (¬ Accepts update eventFeedId resolutionTime →
      501 * (update.price.val * raised update - dropped update) < 10000 * (update.conf.val * raised update)) := by
  refine ⟨accepts_iff gated,?_,accepts_lossless gated,?_,accepts_near gated⟩
  · intro high
    exact ⟨.inl (by omega),.inl (by omega)⟩
  · intro exponent priceE8' confE8' gated' whole whole'
    rw [accepts_lossless gated whole,accepts_lossless gated' whole']
    exact Iff.rfl

section sample

theorem nineDecimals_gated : Gated nineDecimals 0 (.lit 400) (.lit 1) (.lit 0) where
  admitted := ⟨rfl,rfl,rfl,by decide,by decide,by decide,by decide⟩
  price := by decide +kernel
  conf := by decide +kernel
  positive := by decide
  product := ⟨.lit 0,rfl⟩

theorem gate_scaled_sample : Accepts nineDecimals 0 (.lit 400) ∧ ¬ Narrow nineDecimals := by
  obtain ⟨decision,_⟩ := gate_scaled nineDecimals_gated
  exact ⟨decision.mpr (by decide),by decide⟩

theorem wide_accepted : ¬ ∀ {update : ExtractedPriceUpdate} {eventFeedId : FeedId} {resolutionTime : I64}
    {priceE8 confE8 : I128}, Gated update eventFeedId resolutionTime priceE8 confE8 →
    (Accepts update eventFeedId resolutionTime ↔ Narrow update) := by
  intro claimed
  have accepted : Accepts nineDecimals 0 (.lit 400) := (accepts_iff nineDecimals_gated).mpr (by decide)
  have narrow := (claimed nineDecimals_gated).mp accepted
  revert narrow
  decide
end sample

-- The list of checks as it is meant, each with the error of its own, over the
-- exact normalized numbers.
def checkList (update : ExtractedPriceUpdate) (eventFeedId : FeedId) (resolutionTime : I64) (priceE8 confE8 : I128) :
    Except SolclashError VerifiedPrice :=
  if ¬ update.ownerOk = true then .error oracleOwnerMismatch
  else if ¬ update.verificationFull = true then .error oracleVerificationNotFull
  else if ¬ update.feedId = eventFeedId then .error oracleFeedMismatch
  else if ¬ update.publishTime.val ≤ resolutionTime.val then .error oraclePublishTimeInFuture
  else if ¬ resolutionTime.val - publishWindowSecs.val ≤ update.publishTime.val then .error oraclePublishTimeTooOld
  else if update.price.val ≤ 0 ∨ priceE8.val = 0 then .error oracleInvalidPrice
  else if 501 * priceE8.val ≤ confE8.val * 10000 then .error oracleConfidenceTooWide
  else .ok ⟨priceE8,confE8,update.publishTime⟩

-- The updates for which each of these numbers exists.
structure Normalized (update : ExtractedPriceUpdate) (resolutionTime : I64) (priceE8 confE8 : I128) : Prop where
  earliest : -9223372036854775808 + 60 ≤ resolutionTime.val
  low : -46 ≤ update.exponent.val
  high : update.exponent.val ≤ 30
  price : priceE8.val = truncated update.price.val (update.exponent.val + 8)
  conf : confE8.val = truncated update.conf.val (update.exponent.val + 8)
  product : Representable (confE8.val * 10000)

theorem checkList_admitted (admitted : Admitted update eventFeedId resolutionTime) (priceE8 confE8 : I128) :
    checkList update eventFeedId resolutionTime priceE8 confE8 =
      if priceE8.val = 0 then .error oracleInvalidPrice
      else if 501 * priceE8.val ≤ confE8.val * 10000 then .error oracleConfidenceTooWide
      else .ok ⟨priceE8,confE8,update.publishTime⟩ := by
  obtain ⟨owner,full,feed,past,_,recent,positive⟩ := admitted
  simp only [checkList,owner,full,feed,past,recent,not_true,not_le_of_gt positive,if_false,false_or]

-- Up to the normalization the function is the list.
theorem verify_early (normalized : Normalized update resolutionTime priceE8 confE8)
    (refused : ¬ Admitted update eventFeedId resolutionTime) :
    verifyPriceUpdate update eventFeedId resolutionTime =
      checkList update eventFeedId resolutionTime priceE8 confE8 := by
  have room := normalized.earliest
  have window : publishWindowSecs.val = 60 := rfl
  have earliest : -9223372036854775808 ≤ resolutionTime.val - publishWindowSecs.val := by omega
  obtain ⟨start,sub,begins⟩ := window_start earliest
  simp only [verifyPriceUpdate,checkList,require_bind,RangedInt.le_iff]
  by_cases owner : ¬ update.ownerOk = true
  · rw [if_pos owner,if_pos owner]
  rw [if_neg owner,if_neg owner]
  by_cases full : ¬ update.verificationFull = true
  · rw [if_pos full,if_pos full]
  rw [if_neg full,if_neg full]
  by_cases feed : ¬ update.feedId = eventFeedId
  · rw [if_pos feed,if_pos feed]
  rw [if_neg feed,if_neg feed]
  by_cases past : ¬ update.publishTime.val ≤ resolutionTime.val
  · rw [if_pos past,if_pos past]
  rw [if_neg past,if_neg past,sub,okOr_bind,begins]
  by_cases recent : ¬ resolutionTime.val - publishWindowSecs.val ≤ update.publishTime.val
  · rw [if_pos recent,if_pos recent]
  rw [if_neg recent,if_neg recent]
  -- all that an admitted update can still lack is a price
  have free : ¬ 0 < update.price.val := fun positive => refused
    ⟨not_not.mp owner,not_not.mp full,not_not.mp feed,not_not.mp past,earliest,not_not.mp recent,positive⟩
  rw [if_pos free,if_pos (.inl (not_lt.mp free))]

theorem verify_checks (normalized : Normalized update resolutionTime priceE8 confE8) :
    verifyPriceUpdate update eventFeedId resolutionTime =
        checkList update eventFeedId resolutionTime priceE8 confE8 ↔
      (Admitted update eventFeedId resolutionTime → priceE8.val ≠ 0 →
        confE8.val * 10000 < 18446744073709551616 * priceE8.val) := by
  by_cases admitted : Admitted update eventFeedId resolutionTime
  · have price : normalizeToE8 update.price.widen update.exponent = .ok priceE8 :=
      normalizeToE8_parts.mpr ⟨⟨normalized.low,normalized.high⟩,normalized.price⟩
    have conf : normalizeToE8 update.conf.widen update.exponent = .ok confE8 :=
      normalizeToE8_parts.mpr ⟨⟨normalized.low,normalized.high⟩,normalized.conf⟩
    have priceNonneg : 0 ≤ priceE8.val := by
      rw [normalized.price]
      exact truncated_nonneg admitted.positive.le _
    have confNonneg : 0 ≤ confE8.val := by
      rw [normalized.conf]
      exact truncated_nonneg update.conf.lower _
    rw [verify_gate admitted price conf,checkList_admitted admitted]
    by_cases free : priceE8.val = 0
    · rw [gate_unpriced free,if_pos free]
      exact ⟨fun _ _ priced => (priced free).elim,fun _ => rfl⟩
    · rw [gate_exact update (by omega) confNonneg normalized.product,if_neg free]
      by_cases narrow : confE8.val * 10000 < 501 * priceE8.val
      · rw [if_pos narrow,if_neg (not_le_of_gt narrow)]
        exact ⟨fun _ _ _ => by omega,fun _ => rfl⟩
      · rw [if_neg narrow,if_pos (not_lt.mp narrow)]
        by_cases small : confE8.val * 10000 < 18446744073709551616 * priceE8.val
        · rw [if_pos small]
          exact ⟨fun _ _ _ => small,fun _ => rfl⟩
        · rw [if_neg small]
          refine ⟨fun same => ?_,fun all => (small (all admitted free)).elim⟩
          cases same
  · exact ⟨fun _ admitted' => (admitted admitted').elim,fun _ => verify_early normalized admitted⟩

section sample

theorem nineDecimals_normalized : Normalized nineDecimals (.lit 400) (.lit 1) (.lit 0) :=
  ⟨by decide,by decide,by decide,by decide +kernel,by decide +kernel,⟨.lit 0,rfl⟩⟩

theorem verify_checks_sample : verifyPriceUpdate nineDecimals 0 (.lit 400) =
    checkList nineDecimals 0 (.lit 400) (.lit 1) (.lit 0) :=
  (verify_checks nineDecimals_normalized).mpr fun _ _ => by decide

-- The smallest price under the largest confidence.
def widest : ExtractedPriceUpdate := ⟨true,true,0,.lit 1,.lit 18446744073709551615,.lit (-8),.lit 390⟩

theorem widest_normalized : Normalized widest (.lit 400) (.lit 1) (.lit 18446744073709551615) :=
  ⟨by decide,by decide,by decide,by decide +kernel,by decide +kernel,⟨.lit 184467440737095516150000,rfl⟩⟩

theorem widest_overflows : ¬ ∀ {update : ExtractedPriceUpdate} {eventFeedId : FeedId} {resolutionTime : I64}
    {priceE8 confE8 : I128}, Normalized update resolutionTime priceE8 confE8 →
    verifyPriceUpdate update eventFeedId resolutionTime = checkList update eventFeedId resolutionTime priceE8 confE8 := by
  intro claimed
  have meant := @claimed widest 0 _ _ _ widest_normalized
  have overflow : verifyPriceUpdate widest 0 (.lit 400) = .error mathOverflow := by decide +kernel
  have wide : checkList widest 0 (.lit 400) (.lit 1) (.lit 18446744073709551615) = .error oracleConfidenceTooWide := by
    decide +kernel
  rw [overflow,wide] at meant
  cases meant
end sample

end Solclash.PriceGate
