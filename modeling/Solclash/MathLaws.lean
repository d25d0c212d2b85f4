import Mathlib.Order.Interval.Set.Basic
import Solclash.Foundations.FloorShare
import Solclash.Foundations.DecimalScale
import Solclash.Math

-- The pure functions on their own: what they answer on every input they can be
-- called with, and on which they answer nothing.
namespace Solclash.MathLaws
open Fallible FloorShare DecimalScale SolclashError

section scaling
variable {value v : I128} {exponent : I32}

theorem ten_power_fits {n : Nat} : (10 : Int) ^ n ≤ 170141183460469231731687303715884105727 ↔ n ≤ 38 := by
  constructor
  · intro fits
    apply Classical.byContradiction
    intro large
    have grows : (10 : Int) ^ 39 ≤ 10 ^ n := pow_le_pow_right₀ (by decide) (by omega)
    have beyond : (170141183460469231731687303715884105727 : Int) < 10 ^ 39 := by norm_num
    omega
  · intro small
    calc (10 : Int) ^ n ≤ 10 ^ 38 := pow_le_pow_right₀ (by decide) small
      _ ≤ 170141183460469231731687303715884105727 := by norm_num

theorem ten_factor_some {n : Nat} {factor : I128} :
    (RangedInt.lit 10 : I128).checkedPow n = some factor ↔ factor.val = 10 ^ n :=
  RangedInt.checkedPow_some (by decide) (by decide)

theorem ten_factor_none {n : Nat} : (RangedInt.lit 10 : I128).checkedPow n = none ↔ 38 < n := by
  rw [RangedInt.checkedPow_none (by decide) (by decide),← not_le,RangedInt.lit_val,ten_power_fits,not_le]

theorem ten_factor_small {n : Nat} {factor : I128} (power : (RangedInt.lit 10 : I128).checkedPow n = some factor) :
    n ≤ 38 := by
  apply not_lt.mp
  intro large
  rw [ten_factor_none.mpr large] at power
  cases power

-- The two branches are one: the exact scaled number, truncated, if it fits.
theorem normalizeToE8_scales (value : I128) (exponent : I32) : normalizeToE8 value exponent =
    if -46 ≤ exponent.val ∧ exponent.val ≤ 30 then
      okOr (RangedInt.narrow (truncated value.val (exponent.val + 8))) mathOverflow
    else .error oracleExponentOutOfRange := by
  unfold normalizeToE8
  cases sum : exponent.checkedAdd (.lit 8) with
  | none =>
      have large := RangedInt.checkedAdd_none.mp sum
      have least := exponent.lower
      rw [RangedInt.lit_val] at large
      rw [if_neg (by omega)]
      rfl
  | some shift =>
      have moved : shift.val = exponent.val + 8 := RangedInt.checkedAdd_some.mp sum
      rw [okOr_bind,← moved]
      by_cases up : 0 ≤ shift.val
      · rw [if_pos up]
        cases power : (RangedInt.lit 10 : I128).checkedPow shift.val.toNat with
        | none =>
            have large := ten_factor_none.mp power
            rw [if_neg (by omega)]
            rfl
        | some factor =>
            have small := ten_factor_small power
            rw [if_pos (by omega),okOr_bind,truncated,if_pos up,← ten_factor_some.mp power]
            rfl
      · rw [if_neg up]
        have least := exponent.lower
        have fits : -shift.val ≤ 2147483647 := by omega
        have negated : shift.checkedNeg = some ⟨-shift.val,by omega,fits⟩ := RangedInt.checkedNeg_some.mpr rfl
        rw [negated,okOr_bind]
        cases power : (RangedInt.lit 10 : I128).checkedPow (-shift.val).toNat with
        | none =>
            have large := ten_factor_none.mp power
            rw [if_neg (by omega)]
            rfl
        | some factor =>
            have small := ten_factor_small power
            have scale := ten_factor_some.mp power
            have nonzero : factor.val ≠ 0 := by
              rw [scale]
              exact (ten_power_pos _).ne'
            rw [if_pos (by omega),okOr_bind,truncated,if_neg up,← scale,RangedInt.checkedDiv,if_neg nonzero]

theorem normalizeToE8_parts : normalizeToE8 value exponent = .ok v ↔
    (-46 ≤ exponent.val ∧ exponent.val ≤ 30) ∧ v.val = truncated value.val (exponent.val + 8) := by
  rw [normalizeToE8_scales]
  split
  · rename_i range
    rw [okOr_ok,RangedInt.narrow_some]
    exact ⟨fun same => ⟨range,same⟩,fun both => both.2⟩
  · rename_i beyond
    constructor
    · intro refused
      cases refused
    · intro both
      exact (beyond both.1).elim

theorem normalizeToE8_truncates (ran : normalizeToE8 value exponent = .ok v) :
    v.val = truncated value.val (exponent.val + 8) := (normalizeToE8_parts.mp ran).2

theorem narrow_missing {n : Int} : (RangedInt.narrow n : Option I128) = none ↔ ¬ Representable n := by
  constructor
  · rintro missing ⟨m,same⟩
    rw [RangedInt.narrow_some.mpr same] at missing
    cases missing
  · intro outside
    cases found : (RangedInt.narrow n : Option I128) with
    | none => rfl
    | some m => exact (outside ⟨m,RangedInt.narrow_some.mp found⟩).elim

-- Only digits that are added can be too many.
theorem scaled_fits (value : I128) (places : Int) :
    ¬ Representable (truncated value.val places) ↔ 0 ≤ places ∧ ¬ Representable (value.val * 10 ^ places.toNat) := by
  by_cases up : 0 ≤ places
  · rw [truncated,if_pos up]
    exact ⟨fun outside => ⟨up,outside⟩,fun both => both.2⟩
  · have lower := value.lower
    have upper := value.upper
    obtain ⟨least,most⟩ := truncated_shrinks (not_le.mp up) value.val
    have inside : Representable (truncated value.val places) :=
      ⟨⟨truncated value.val places,by omega,by omega⟩,rfl⟩
    exact ⟨fun outside => (outside inside).elim,fun both => (up both.1).elim⟩

theorem normalizeToE8_outOfRange : normalizeToE8 value exponent = .error oracleExponentOutOfRange ↔
    exponent.val < -46 ∨ 30 < exponent.val := by
  rw [normalizeToE8_scales]
  split
  · rename_i range
    constructor
    · intro refused
      cases (okOr_error.mp refused).2
    · intro outside
      omega
  · rename_i beyond
    constructor
    · intro _
      omega
    · intro _
      rfl

theorem normalizeToE8_overflows (range : -46 ≤ exponent.val ∧ exponent.val ≤ 30) :
    normalizeToE8 value exponent = .error mathOverflow ↔
      -8 ≤ exponent.val ∧ ¬ Representable (value.val * 10 ^ (exponent.val + 8).toNat) := by
  have places : 0 ≤ exponent.val + 8 ↔ -8 ≤ exponent.val := by omega
  rw [normalizeToE8_scales,if_pos range,okOr_error,narrow_missing,scaled_fits,places]
  exact and_iff_left rfl

theorem normalizeToE8_returns (range : -46 ≤ exponent.val ∧ exponent.val ≤ 30)
    (kept : normalizeToE8 value exponent ≠ .error mathOverflow) : ∃ v, normalizeToE8 value exponent = .ok v := by
  apply returns
  intro cause ran
  rcases normalizeToE8_refused.only ran with rfl | rfl
  · have outside := normalizeToE8_outOfRange.mp ran
    omega
  · exact kept ran

-- The source casts a shift to u32 in two places; the cast keeps the low bits.
def asU32 (n : I32) : U32 :=
  ⟨n.val % 4294967296,Int.emod_nonneg _ (by decide),Int.le_of_lt_add_one (Int.emod_lt_of_pos _ (by decide))⟩

theorem asU32_kept {n : I32} (nonneg : 0 ≤ n.val) : (asU32 n).val = n.val := by
  have upper := n.upper
  exact Int.emod_eq_of_lt nonneg (by omega)

-- Neither cast changes the number it is given.
theorem shift_kept {shift : I32} (moved : exponent.checkedAdd (.lit 8) = some shift) :
    (0 ≤ shift.val → (asU32 shift).val = shift.val) ∧
      (shift.val < 0 → ∃ magnitude, shift.checkedNeg = some magnitude ∧ (asU32 magnitude).val = -shift.val) := by
  have sum := RangedInt.checkedAdd_some.mp moved
  have least := exponent.lower
  rw [RangedInt.lit_val] at sum
  refine ⟨asU32_kept,?_⟩
  intro down
  have fits : -shift.val ≤ 2147483647 := by omega
  have kept : (asU32 ⟨-shift.val,by omega,fits⟩).val = -shift.val := asU32_kept (by change 0 ≤ -shift.val; omega)
  exact ⟨⟨-shift.val,by omega,fits⟩,RangedInt.checkedNeg_some.mpr rfl,kept⟩

theorem normalize_truncates (value : I128) (exponent : I32) :
    (normalizeToE8 value exponent = .error oracleExponentOutOfRange ↔ exponent.val < -46 ∨ 30 < exponent.val) ∧
    (-46 ≤ exponent.val ∧ exponent.val ≤ 30 →
      (normalizeToE8 value exponent = .error mathOverflow ↔
        -8 ≤ exponent.val ∧ ¬ Representable (value.val * 10 ^ (exponent.val + 8).toNat)) ∧
      (normalizeToE8 value exponent ≠ .error mathOverflow → ∃ v, normalizeToE8 value exponent = .ok v)) ∧
    (∀ v, normalizeToE8 value exponent = .ok v →
      v.val = towardZero (exact value.val (exponent.val + 8)) ∧
      (0 ≤ value.val → 0 ≤ v.val) ∧ (value.val ≤ 0 → v.val ≤ 0) ∧
      ∀ larger w, value ≤ larger → normalizeToE8 larger exponent = .ok w → v ≤ w) ∧
    (∀ shift, exponent.checkedAdd (.lit 8) = some shift →
      (0 ≤ shift.val → (asU32 shift).val = shift.val) ∧
      (shift.val < 0 → ∃ magnitude, shift.checkedNeg = some magnitude ∧ (asU32 magnitude).val = -shift.val)) := by
  refine ⟨normalizeToE8_outOfRange,?_,?_,fun shift => shift_kept⟩
  · intro range
    exact ⟨normalizeToE8_overflows range,normalizeToE8_returns range⟩
  · intro v ran
    have scaled := normalizeToE8_truncates ran
    rw [scaled]
    refine ⟨truncated_towardZero _ _,?_,?_,?_⟩
    · intro nonneg
      exact truncated_nonneg nonneg _
    · intro nonpos
      exact truncated_nonpos nonpos _
    · intro larger w order ran'
      rw [RangedInt.le_iff,scaled,normalizeToE8_truncates ran']
      exact truncated_mono order _

-- Below zero the lost digits move the result up.
theorem normalize_truncates_sample :
    normalizeToE8 (.lit (-19)) (.lit (-9)) = .ok (.lit (-1)) ∧ towardZero (exact (-19) (-1)) = -1 := by
  obtain ⟨_,_,scaled,_⟩ := normalize_truncates (.lit (-19)) (.lit (-9))
  have ran : normalizeToE8 (.lit (-19)) (.lit (-9)) = .ok (.lit (-1)) := by rfl
  exact ⟨ran,(scaled _ ran).1.symm⟩

end scaling

-- An answer about a set of prices as a whole.
structure Unanimous (prices : Set Int) (meets : Int → Prop) (answer : Option U8) : Prop where
  yes : answer = some outcomeYes ↔ ∀ price ∈ prices, meets price
  no : answer = some outcomeNo ↔ ∀ price ∈ prices, ¬ meets price
  divided : answer = none ↔ (∃ price ∈ prices, meets price) ∧ ∃ price ∈ prices, ¬ meets price

section unanimity
variable {prices fewer : Set Int} {meets : Int → Prop} {answer narrowed : Option U8}

theorem unanimous {yes no : Prop} [Decidable yes] [Decidable no] (inhabited : prices.Nonempty)
    (all : yes ↔ ∀ price ∈ prices, meets price) (nobody : no ↔ ∀ price ∈ prices, ¬ meets price) :
    Unanimous prices meets (if yes then some outcomeYes else if no then some outcomeNo else none) := by
  obtain ⟨price,member⟩ := inhabited
  have apart : yes → ¬ no := fun accepted refused => nobody.mp refused price member (all.mp accepted price member)
  have doubt : (∃ price ∈ prices, ¬ meets price) ↔ ¬ yes := by
    rw [all]
    push Not
    exact Iff.rfl
  have hope : (∃ price ∈ prices, meets price) ↔ ¬ no := by
    rw [nobody]
    push Not
    exact Iff.rfl
  have distinct : outcomeYes ≠ outcomeNo := by decide
  by_cases accepted : yes
  · have kept := apart accepted
    constructor
    · simp [accepted,← all]
    · simp [accepted,kept,← nobody,distinct]
    · simp [accepted,doubt]
  · by_cases refused : no
    · constructor
      · simp [accepted,refused,← all,distinct.symm]
      · simp [accepted,refused,← nobody]
      · simp [accepted,refused,hope]
    · constructor
      · simp [accepted,refused,← all]
      · simp [accepted,refused,← nobody]
      · simp [accepted,refused,hope,doubt]

-- Fewer prices say no less than more of them did.
theorem Unanimous.kept (wide : Unanimous prices meets answer) (narrow : Unanimous fewer meets narrowed)
    (inside : fewer ⊆ prices) (definite : answer = some outcomeNo ∨ answer = some outcomeYes) : narrowed = answer := by
  rcases definite with refused | accepted
  · rw [refused]
    apply narrow.no.mpr
    intro price member
    exact wide.no.mp refused price (inside member)
  · rw [accepted]
    apply narrow.yes.mpr
    intro price member
    exact wide.yes.mp accepted price (inside member)

end unanimity

section band
variable {condition : U8} {priceE8 confE8 thresholdE8 : I128} {price conf wider threshold : Int}

-- The prices that an update leaves possible.
def band (price conf : Int) : Set Int := {p | price - conf ≤ p ∧ p ≤ price + conf}

theorem band_mid (nonneg : 0 ≤ conf) : price ∈ band price conf := ⟨by omega,by omega⟩

theorem band_widens (wide : conf ≤ wider) : band price conf ⊆ band price wider :=
  Set.Icc_subset_Icc (by omega) (by omega)

structure BandFits (price conf : Int) : Prop where
  lower : Representable (price - conf)
  upper : Representable (price + conf)

def KnownCondition (condition : U8) : Prop := condition = conditionGreaterThan ∨ condition = conditionLessThan

theorem holds_greater : Holds conditionGreaterThan price threshold ↔ threshold < price := by
  constructor
  · rintro (⟨_,above⟩ | ⟨same,_⟩)
    · exact above
    · cases same
  · intro above
    exact .inl ⟨rfl,above⟩

theorem holds_less : Holds conditionLessThan price threshold ↔ price < threshold := by
  constructor
  · rintro (⟨same,_⟩ | ⟨_,below⟩)
    · cases same
    · exact below
  · intro below
    exact .inr ⟨rfl,below⟩

-- Each condition looks at the edge where the last price could disagree.
theorem bandAnswer_unanimous (known : KnownCondition condition) (nonneg : 0 ≤ conf) :
    Unanimous (band price conf) (Holds condition · threshold)
      (bandAnswer condition (price - conf) (price + conf) threshold) := by
  have inhabited : (band price conf).Nonempty := ⟨price,band_mid nonneg⟩
  have ordered : price - conf ≤ price + conf := by omega
  rcases known with rfl | rfl
  · apply unanimous inhabited
    · simp only [holds_greater]
      exact (Set.Icc_subset_Ioi_iff ordered).symm
    · simp only [holds_greater,not_lt]
      exact (Set.Icc_subset_Iic_iff ordered).symm
  · apply unanimous inhabited
    · simp only [holds_less]
      exact (Set.Icc_subset_Iio_iff ordered).symm
    · simp only [holds_less,not_lt]
      exact (Set.Icc_subset_Ici_iff ordered).symm

-- With its edges in range the band only depends on the condition.
theorem band_fits (fits : BandFits priceE8.val confE8.val) :
    resolveConfidenceBand condition priceE8 confE8 thresholdE8 = .error cause ↔
      cause = invalidCondition ∧ ¬ KnownCondition condition := by
  obtain ⟨⟨lower,low⟩,⟨upper,high⟩⟩ := fits
  have sub : priceE8.checkedSub confE8 = some lower := RangedInt.checkedSub_some.mpr low
  have add : priceE8.checkedAdd confE8 = some upper := RangedInt.checkedAdd_some.mpr high
  unfold resolveConfidenceBand
  rw [sub,add,okOr_bind,okOr_bind]
  by_cases greater : condition = conditionGreaterThan
  · rw [if_pos greater]
    have known : KnownCondition condition := .inl greater
    split
    · simp [pure_error,known]
    · split <;> simp [pure_error,known]
  · rw [if_neg greater]
    by_cases less : condition = conditionLessThan
    · rw [if_pos less]
      have known : KnownCondition condition := .inr less
      split
      · simp [pure_error,known]
      · split <;> simp [pure_error,known]
    · rw [if_neg less]
      have unknown : ¬ KnownCondition condition := fun known => known.elim greater less
      simp [unknown,eq_comm]

theorem band_overflows (cut : ¬ BandFits priceE8.val confE8.val) :
    resolveConfidenceBand condition priceE8 confE8 thresholdE8 = .error mathOverflow := by
  unfold resolveConfidenceBand
  cases sub : priceE8.checkedSub confE8 with
  | none => rfl
  | some lower =>
      rw [okOr_bind]
      cases add : priceE8.checkedAdd confE8 with
      | none => rfl
      | some upper =>
          have low := RangedInt.checkedSub_some.mp sub
          have high := RangedInt.checkedAdd_some.mp add
          exact (cut ⟨⟨lower,low⟩,⟨upper,high⟩⟩).elim

theorem band_refused : resolveConfidenceBand condition priceE8 confE8 thresholdE8 = .error cause ↔
    (cause = mathOverflow ∧ ¬ BandFits priceE8.val confE8.val) ∨
      (cause = invalidCondition ∧ BandFits priceE8.val confE8.val ∧ ¬ KnownCondition condition) := by
  by_cases fits : BandFits priceE8.val confE8.val
  · rw [band_fits fits]
    simp [fits]
  · rw [band_overflows fits]
    simp [fits,eq_comm]

theorem band_answers (fits : BandFits priceE8.val confE8.val) (known : KnownCondition condition) :
    resolveConfidenceBand condition priceE8 confE8 thresholdE8 =
      .ok (bandAnswer condition (priceE8.val - confE8.val) (priceE8.val + confE8.val) thresholdE8.val) := by
  cases ran : resolveConfidenceBand condition priceE8 confE8 thresholdE8 with
  | ok outcome => rw [(resolveConfidenceBand_parts ran).2]
  | error cause => exact ((band_fits fits).mp ran).2.elim known

-- What was answered at all was answered for the whole band.
theorem band_whole (nonneg : 0 ≤ confE8.val)
    (ran : resolveConfidenceBand condition priceE8 confE8 thresholdE8 = .ok answer) :
    Unanimous (band priceE8.val confE8.val) (Holds condition · thresholdE8.val) answer := by
  obtain ⟨known,rfl⟩ := resolveConfidenceBand_parts ran
  exact bandAnswer_unanimous known nonneg

-- A wider band may answer less, never something else.
theorem band_keeps {widerE8 : I128} {outcome : U8} (nonneg : 0 ≤ confE8.val) (wide : confE8.val ≤ widerE8.val)
    (narrow : resolveConfidenceBand condition priceE8 confE8 thresholdE8 = .ok (some outcome))
    (ran : resolveConfidenceBand condition priceE8 widerE8 thresholdE8 = .ok answer) :
    answer = none ∨ answer = some outcome := by
  cases answer with
  | none => exact .inl rfl
  | some other =>
      have definite := bandAnswer_known (resolveConfidenceBand_parts ran).2.symm
      have larger := band_whole (nonneg.trans wide) ran
      have smaller := band_whole nonneg narrow
      refine .inr (larger.kept smaller (band_widens wide) ?_).symm
      rcases definite with rfl | rfl
      · exact .inl rfl
      · exact .inr rfl

-- At the middle of the band one of the two conditions fails.
theorem band_contrary (nonneg : 0 ≤ confE8.val)
    (greater : resolveConfidenceBand conditionGreaterThan priceE8 confE8 thresholdE8 = .ok (some outcomeYes))
    (less : resolveConfidenceBand conditionLessThan priceE8 confE8 thresholdE8 = .ok (some outcomeYes)) : False := by
  have above := holds_greater.mp ((band_whole nonneg greater).yes.mp rfl _ (band_mid nonneg))
  have below := holds_less.mp ((band_whole nonneg less).yes.mp rfl _ (band_mid nonneg))
  exact lt_asymm above below

-- Around 100 either answer is lost when 5 becomes 15.
theorem band_blurs (known : KnownCondition condition) (definite : outcome = outcomeNo ∨ outcome = outcomeYes) :
    ∃ priceE8 confE8 widerE8 thresholdE8, 0 ≤ confE8.val ∧ confE8.val ≤ widerE8.val ∧
      resolveConfidenceBand condition priceE8 confE8 thresholdE8 = .ok (some outcome) ∧
      resolveConfidenceBand condition priceE8 widerE8 thresholdE8 = .ok none := by
  rcases known with rfl | rfl <;> rcases definite with rfl | rfl
  · exact ⟨.lit 90,.lit 5,.lit 15,.lit 100,by decide,by decide,by rfl,by rfl⟩
  · exact ⟨.lit 110,.lit 5,.lit 15,.lit 100,by decide,by decide,by rfl,by rfl⟩
  · exact ⟨.lit 110,.lit 5,.lit 15,.lit 100,by decide,by decide,by rfl,by rfl⟩
  · exact ⟨.lit 90,.lit 5,.lit 15,.lit 100,by decide,by decide,by rfl,by rfl⟩

theorem band_unanimous (condition : U8) (priceE8 confE8 thresholdE8 : I128) :
    (0 ≤ confE8.val → BandFits priceE8.val confE8.val → KnownCondition condition →
      (resolveConfidenceBand condition priceE8 confE8 thresholdE8 = .ok (some outcomeYes) ↔
        ∀ p ∈ band priceE8.val confE8.val, Holds condition p thresholdE8.val) ∧
      (resolveConfidenceBand condition priceE8 confE8 thresholdE8 = .ok (some outcomeNo) ↔
        ∀ p ∈ band priceE8.val confE8.val, ¬ Holds condition p thresholdE8.val) ∧
      (resolveConfidenceBand condition priceE8 confE8 thresholdE8 = .ok none ↔
        (∃ p ∈ band priceE8.val confE8.val, Holds condition p thresholdE8.val) ∧
        ∃ p ∈ band priceE8.val confE8.val, ¬ Holds condition p thresholdE8.val)) ∧
    (∀ cause, resolveConfidenceBand condition priceE8 confE8 thresholdE8 = .error cause ↔
      (cause = mathOverflow ∧ ¬ BandFits priceE8.val confE8.val) ∨
        (cause = invalidCondition ∧ BandFits priceE8.val confE8.val ∧ ¬ KnownCondition condition)) ∧
    (0 ≤ confE8.val →
      ¬ (resolveConfidenceBand conditionGreaterThan priceE8 confE8 thresholdE8 = .ok (some outcomeYes) ∧
        resolveConfidenceBand conditionLessThan priceE8 confE8 thresholdE8 = .ok (some outcomeYes))) ∧
    (∀ (widerE8 : I128) (outcome : U8) (answer : Option U8), 0 ≤ confE8.val → confE8.val ≤ widerE8.val →
      resolveConfidenceBand condition priceE8 confE8 thresholdE8 = .ok (some outcome) →
      resolveConfidenceBand condition priceE8 widerE8 thresholdE8 = .ok answer →
      answer = none ∨ answer = some outcome) ∧
    (KnownCondition condition → ∀ outcome, outcome = outcomeNo ∨ outcome = outcomeYes →
      ∃ priceE8 confE8 widerE8 thresholdE8, 0 ≤ confE8.val ∧ confE8.val ≤ widerE8.val ∧
        resolveConfidenceBand condition priceE8 confE8 thresholdE8 = .ok (some outcome) ∧
        resolveConfidenceBand condition priceE8 widerE8 thresholdE8 = .ok none) := by
  refine ⟨?_,fun cause => band_refused,?_,?_,?_⟩
  · intro nonneg fits known
    have ran := @band_answers condition priceE8 confE8 thresholdE8 fits known
    have whole := band_whole nonneg ran
    rw [ran]
    simp only [Except.ok.injEq]
    exact ⟨whole.yes,whole.no,whole.divided⟩
  · rintro nonneg ⟨greater,less⟩
    exact band_contrary nonneg greater less
  · intro widerE8 outcome answer nonneg wide narrow ran
    exact band_keeps nonneg wide narrow ran
  · intro known outcome definite
    exact band_blurs known definite

-- A band from 100 to 110 does not lie above a threshold of 100.
theorem band_unanimous_sample :
    resolveConfidenceBand conditionGreaterThan (.lit 105) (.lit 5) (.lit 100) = .ok none ∧
      (∃ p ∈ band 105 5, Holds conditionGreaterThan p 100) ∧ ∃ p ∈ band 105 5, ¬ Holds conditionGreaterThan p 100 := by
  have fits : BandFits 105 5 := ⟨⟨.lit 100,rfl⟩,⟨.lit 110,rfl⟩⟩
  have law := band_unanimous conditionGreaterThan (.lit 105) (.lit 5) (.lit 100)
  have ran : resolveConfidenceBand conditionGreaterThan (.lit 105) (.lit 5) (.lit 100) = .ok none := by rfl
  exact ⟨ran,(law.1 (by decide) fits (.inl rfl)).2.2.mp ran⟩

end band

section shares
variable {pool total stake payout : U64} {stakes payouts : List U64}

def lamports (amounts : List U64) : Int := (amounts.map (·.val)).sum

-- A stake is paid its share of the pool, and no step on the way overflows.
structure Pays (pool total stake payout : U64) : Prop where
  claim : computeClaim pool stake total = .ok payout
  refund : computeRefund pool stake total = .ok payout
  product : ∃ numerator : U128, (pool.widen : U128).checkedMul stake.widen = some numerator
  floor : payout.val = pool.val * stake.val / total.val

theorem product_fits (pool stake : U64) :
    ∃ numerator : U128, (pool.widen : U128).checkedMul stake.widen = some numerator := by
  have nonneg : 0 ≤ pool.val * stake.val := Int.mul_nonneg pool.lower stake.lower
  have bounded : pool.val * stake.val ≤ 18446744073709551615 * 18446744073709551615 :=
    Int.mul_le_mul pool.upper stake.upper stake.lower (by decide)
  exact ⟨⟨pool.val * stake.val,nonneg,by omega⟩,RangedInt.checkedMul_some.mpr rfl⟩

theorem pays (pool stake : U64) (positive : 0 < total.val) (part : stake.val ≤ total.val) :
    ∃ payout, Pays pool total stake payout := by
  have nonneg := share_nonneg pool.lower stake.lower positive.le
  have within := share_le_pool positive pool.lower part
  have upper := pool.upper
  refine ⟨⟨share pool.val stake.val total.val,nonneg,by omega⟩,?_,?_,product_fits pool stake,rfl⟩
  · exact computeClaim_parts.mpr ⟨positive.ne',rfl⟩
  · exact computeRefund_parts.mpr ⟨positive.ne',rfl⟩

theorem lamports_cons : lamports (stake :: stakes) = stake.val + lamports stakes := by
  unfold lamports
  rw [List.map_cons,List.sum_cons]

theorem lamports_nonneg (amounts : List U64) : 0 ≤ lamports amounts := by
  induction amounts with
  | nil => exact le_refl 0
  | cons amount amounts ih =>
      have nonneg := amount.lower
      rw [lamports_cons]
      omega

-- The whole list is served when its total is part of the stake shared among.
theorem pays_list (pool : U64) (positive : 0 < total.val) (part : lamports stakes ≤ total.val) :
    ∃ payouts, List.Forall₂ (Pays pool total) stakes payouts := by
  induction stakes with
  | nil => exact ⟨[],.nil⟩
  | cons stake stakes ih =>
      rw [lamports_cons] at part
      have nonneg := stake.lower
      have rest := lamports_nonneg stakes
      obtain ⟨payout,paid⟩ := pays pool stake positive (by omega)
      obtain ⟨payouts,others⟩ := ih (by omega)
      exact ⟨payout :: payouts,.cons paid others⟩

theorem paid_shares (paid : List.Forall₂ (Pays pool total) stakes payouts) :
    lamports payouts = ((stakes.map (·.val)).map (share pool.val · total.val)).sum := by
  induction paid with
  | nil => rfl
  | cons paid _ ih =>
      rw [lamports_cons,ih,paid.floor]
      rfl

theorem paid_drawn (positive : 0 < total.val) (paid : List.Forall₂ (Pays pool total) stakes payouts) :
    Drawn pool.val total.val (lamports stakes) (lamports payouts) stakes.length := by
  have drawn := drawn_list pool.val positive (stakes.map (·.val))
  rw [paid_shares paid]
  rw [List.length_map] at drawn
  exact drawn

-- Paying a stake in several parts costs at most the rounding of each part.
theorem pro_rata_law (pool total : U64) (stakes : List U64) (positive : 0 < total.val) (someone : stakes ≠ [])
    (part : lamports stakes ≤ total.val) :
    ∃ (sum whole : U64) (payouts : List U64), sum.val = lamports stakes ∧ Pays pool total sum whole ∧
      List.Forall₂ (Pays pool total) stakes payouts ∧ lamports payouts ≤ whole.val ∧
      whole.val < lamports payouts + stakes.length ∧ lamports payouts ≤ pool.val ∧
      (sum = total → pool.val - stakes.length < lamports payouts) := by
  have upper := total.upper
  have nonneg := lamports_nonneg stakes
  let sum : U64 := ⟨lamports stakes,nonneg,by omega⟩
  obtain ⟨whole,served⟩ := pays pool sum positive part
  obtain ⟨payouts,paid⟩ := pays_list pool positive part
  have drawn := paid_drawn positive paid
  have count : 0 < (stakes.length : Int) := by
    have length := List.length_pos_iff.mpr someone
    omega
  have below : lamports payouts ≤ whole.val := by
    rw [served.floor]
    exact drawn.paid_le_share positive
  have above : whole.val < lamports payouts + stakes.length := by
    rw [served.floor]
    exact drawn.share_lt positive count
  refine ⟨sum,whole,payouts,rfl,served,paid,below,above,drawn.paid_le positive pool.lower part,?_⟩
  intro same
  have all : whole.val = pool.val := by
    rw [served.floor,same]
    exact share_whole pool.val positive
  omega

-- Stakes of 1, 2 and 3 in a pool of 1000 leave less than three lamports.
theorem pro_rata_law_sample : ∃ payouts : List U64,
    List.Forall₂ (Pays (.lit 1000) (.lit 6)) [.lit 1,.lit 2,.lit 3] payouts ∧ 997 < lamports payouts ∧
      lamports payouts ≤ 1000 := by
  obtain ⟨sum,whole,payouts,counted,_,paid,_,_,within,rest⟩ :=
    pro_rata_law (.lit 1000) (.lit 6) [.lit 1,.lit 2,.lit 3] (by decide) (by simp) (by decide)
  have all : sum = .lit 6 := RangedInt.ext_val counted
  exact ⟨payouts,paid,rest all,within⟩

end shares
end Solclash.MathLaws
