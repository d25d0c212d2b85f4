import Solclash.MathLaws

-- The script that computes the expected values of the fixtures, in integers
-- without bounds, against the checked machine arithmetic it is to be run on.
namespace Solclash.ReferenceVectors
open Fallible FloorShare DecimalScale MathLaws

inductive Raised where
  | valueError | zeroDivisionError | assertionError
  deriving DecidableEq

-- `//`
def floorDiv (a b : Int) : Except Raised Int := if b = 0 then .error .zeroDivisionError else .ok (a.fdiv b)

def truncatingDiv (a b : Int) : Except Raised Int := do
  let q ← floorDiv a.natAbs b.natAbs
  pure (if decide (a < 0) ≠ decide (b < 0) then -q else q)

def normalizeToE8 (value exponent : Int) : Except Raised Int :=
  let shift := exponent + 8
  if 0 ≤ shift then .ok (value * 10 ^ shift.toNat) else truncatingDiv value (10 ^ (-shift).toNat)

def outcomeNo : Int := 0
def outcomeYes : Int := 1

def resolveConfidenceBand (condition priceE8 confE8 thresholdE8 : Int) : Except Raised (Option Int) :=
  let lower := priceE8 - confE8
  let upper := priceE8 + confE8
  if condition = 0 then
    if thresholdE8 < lower then .ok (some outcomeYes)
    else if upper ≤ thresholdE8 then .ok (some outcomeNo)
    else .ok none
  else if condition = 1 then
    if upper < thresholdE8 then .ok (some outcomeYes)
    else if thresholdE8 ≤ lower then .ok (some outcomeNo)
    else .ok none
  else .error .valueError

def proRataShare (payoutPool shareStake totalStake : Int) : Except Raised Int :=
  floorDiv (payoutPool * shareStake) totalStake

structure Fixture where
  payoutPool : Int
  total : Int
  stakes : List Int
  expected : List Int
  expectedTotalPaid : Int
  expectedRemainder : Int

-- What the two builders below do with their stakes.
def buildFixture (payoutPool total : Int) (stakes : List Int) : Except Raised Fixture := do
  let expected ← stakes.mapM (proRataShare payoutPool · total)
  let totalPaid := expected.sum
  let remainder := payoutPool - totalPaid
  require (totalPaid ≤ payoutPool) Raised.assertionError
  require (0 ≤ remainder) Raised.assertionError
  pure ⟨payoutPool,total,stakes,expected,totalPaid,remainder⟩

def build50Stakes : List Int :=
  (List.range 50).map fun i => 1000000 + (i * 37919 : Int) % 4500000 + (i % 7 : Int) * 11003

def buildPayoutFixture : Except Raised Fixture :=
  let stakes := build50Stakes
  let winningStake := stakes.sum
  buildFixture 987654321123 winningStake stakes

def buildRefundFixture : Except Raised Fixture :=
  let stakes := build50Stakes
  let pot := stakes.sum
  buildFixture (pot - 1830000) pot stakes

section agreement
variable {a b : Int} {pool total stake : U64}

theorem truncatingDiv_toward (nonzero : b ≠ 0) : truncatingDiv a b = .ok (a.tdiv b) := by
  have divisor : (b.natAbs : Int) ≠ 0 := by simpa using nonzero
  have quotient : floorDiv a.natAbs b.natAbs = .ok ((a.natAbs : Int).tdiv b.natAbs) := by
    rw [floorDiv,if_neg divisor,Int.fdiv_eq_tdiv_of_nonneg (Int.natCast_nonneg _) (Int.natCast_nonneg _)]
  refine bind_ok.mpr ⟨_,quotient,congrArg Except.ok ?_⟩
  -- the sign is taken off both numbers and put back on the quotient
  have minus : ∀ {n : Int}, n < 0 → (n.natAbs : Int) = -n := fun negative => Int.ofNat_natAbs_of_nonpos negative.le
  have plus : ∀ {n : Int}, ¬ n < 0 → (n.natAbs : Int) = n := fun nonneg => Int.natAbs_of_nonneg (not_lt.mp nonneg)
  by_cases dividend : a < 0
  · by_cases divisor : b < 0
    · simp only [dividend,divisor,minus dividend,minus divisor,Int.neg_tdiv_neg]
      rfl
    · simp only [dividend,divisor,minus dividend,plus divisor,Int.neg_tdiv,neg_neg]
      rfl
  · by_cases divisor : b < 0
    · simp only [dividend,divisor,plus dividend,minus divisor,Int.tdiv_neg,neg_neg]
      rfl
    · simp only [dividend,divisor,plus dividend,plus divisor]
      rfl

theorem normalizeToE8_truncated (value exponent : Int) : normalizeToE8 value exponent = .ok (truncated value (exponent + 8)) := by
  simp only [normalizeToE8,truncated]
  split
  · rfl
  · exact truncatingDiv_toward (ten_power_pos _).ne'

theorem proRataShare_floor (nonzero : total.val ≠ 0) :
    proRataShare pool.val stake.val total.val = .ok (pool.val * stake.val / total.val) := by
  rw [proRataShare,floorDiv,if_neg nonzero,Int.fdiv_eq_ediv_of_nonneg _ total.lower]

theorem share_agrees (share : U64) : Solclash.proRataShare pool stake total = .ok share ↔
    proRataShare pool.val stake.val total.val = .ok share.val := by
  rw [proRataShare_parts]
  by_cases zero : total.val = 0
  · simp [zero,proRataShare,floorDiv]
  · rw [proRataShare_floor zero,Except.ok.injEq]
    exact ⟨fun both => both.2.symm,fun same => ⟨zero,same.symm⟩⟩

theorem script_answers (known : KnownCondition condition) (price conf threshold : Int) :
    resolveConfidenceBand condition.val price conf threshold =
      .ok ((bandAnswer condition (price - conf) (price + conf) threshold).map (·.val)) := by
  have greater : conditionGreaterThan.val = 0 := rfl
  have less : conditionLessThan.val = 1 := rfl
  unfold resolveConfidenceBand bandAnswer
  rcases known with rfl | rfl
  · rw [if_pos greater,if_pos rfl]
    by_cases above : threshold < price - conf
    · rw [if_pos above,if_pos above]; rfl
    · rw [if_neg above,if_neg above]
      by_cases below : price + conf ≤ threshold
      · rw [if_pos below,if_pos below]; rfl
      · rw [if_neg below,if_neg below]; rfl
  · rw [if_neg (by decide : conditionLessThan.val ≠ 0),if_pos less,
      if_neg (by decide : conditionLessThan ≠ conditionGreaterThan)]
    by_cases below : price + conf < threshold
    · rw [if_pos below,if_pos below]; rfl
    · rw [if_neg below,if_neg below]
      by_cases above : threshold ≤ price - conf
      · rw [if_pos above,if_pos above]; rfl
      · rw [if_neg above,if_neg above]; rfl

theorem script_raises (unknown : ¬ KnownCondition condition) (price conf threshold : Int) :
    resolveConfidenceBand condition.val price conf threshold = .error .valueError := by
  obtain ⟨greater,less⟩ := not_or.mp unknown
  have notGreater : condition.val ≠ 0 := fun same => greater (RangedInt.ext_val same)
  have notLess : condition.val ≠ 1 := fun same => less (RangedInt.ext_val same)
  rw [resolveConfidenceBand,if_neg notGreater,if_neg notLess]

theorem band_agrees (condition : U8) (priceE8 confE8 thresholdE8 : I128) (outcome : Option U8) :
    Solclash.resolveConfidenceBand condition priceE8 confE8 thresholdE8 = .ok outcome ↔
      BandFits priceE8.val confE8.val ∧ resolveConfidenceBand condition.val priceE8.val confE8.val thresholdE8.val =
        .ok (outcome.map (·.val)) := by
  constructor
  · intro ran
    obtain ⟨known,answer⟩ := resolveConfidenceBand_parts ran
    refine ⟨?_,by rw [script_answers known,answer]⟩
    apply Classical.byContradiction
    intro cut
    rw [band_overflows cut] at ran
    cases ran
  · rintro ⟨fits,scripted⟩
    by_cases known : KnownCondition condition
    · rw [script_answers known,Except.ok.injEq] at scripted
      rw [band_answers fits known]
      exact congrArg Except.ok (Option.map_injective (fun _ _ => RangedInt.ext_val) scripted)
    · rw [script_raises known] at scripted
      cases scripted

theorem normalize_agrees (value : I128) (exponent : I32) (v : I128) : Solclash.normalizeToE8 value exponent = .ok v ↔
    (-46 ≤ exponent.val ∧ exponent.val ≤ 30) ∧ normalizeToE8 value.val exponent.val = .ok v.val := by
  rw [normalizeToE8_parts,normalizeToE8_truncated,Except.ok.injEq]
  exact and_congr_right fun _ => eq_comm

theorem claim_agrees (payout : U64) : computeClaim pool stake total = .ok payout ↔
    proRataShare pool.val stake.val total.val = .ok payout.val := by
  rw [← share_agrees,computeClaim_parts,proRataShare_parts]
theorem refund_agrees (payout : U64) : computeRefund pool stake total = .ok payout ↔
    proRataShare pool.val stake.val total.val = .ok payout.val := by
  rw [← share_agrees,computeRefund_parts,proRataShare_parts]

theorem mapM_paid (paid : List.Forall₂ (Pays pool total) stakes payouts) :
    (stakes.map (·.val)).mapM (proRataShare pool.val · total.val) = .ok (payouts.map (·.val)) := by
  induction paid with
  | nil => rfl
  | cons first _ ih =>
      have share := (claim_agrees _).mp first.claim
      simp only [List.map_cons,List.mapM_cons,share,ih]
      rfl

-- The fixture of any stakes in any pool: its assertions hold, its values are
-- the machine's, and less than one lamport a bettor remains.
structure FixtureAgrees (pool total : U64) (stakes : List U64) (fixture : Fixture) : Prop where
  built : buildFixture pool.val total.val (stakes.map (·.val)) = .ok fixture
  machine : ∃ payouts, List.Forall₂ (Pays pool total) stakes payouts ∧ fixture.expected = payouts.map (·.val)
  remainder : 0 ≤ fixture.expectedRemainder ∧ (stakes ≠ [] → fixture.expectedRemainder < stakes.length)

theorem fixture_agrees (positive : 0 < total.val) (sum : lamports stakes = total.val) :
    ∃ fixture, FixtureAgrees pool total stakes fixture := by
  obtain ⟨payouts,paid⟩ := pays_list pool positive sum.le
  have drawn := paid_drawn positive paid
  rw [sum] at drawn
  have within := drawn.paid_le positive pool.lower (le_refl _)
  have remains : 0 ≤ pool.val - lamports payouts := Int.sub_nonneg.mpr within
  refine ⟨⟨pool.val,total.val,stakes.map (·.val),payouts.map (·.val),lamports payouts,pool.val - lamports payouts⟩,
    ?_,⟨payouts,paid,rfl⟩,remains,?_⟩
  · rw [buildFixture,mapM_paid paid]
    refine bind_ok.mpr ⟨_,rfl,bind_ok.mpr ⟨(),require_ok.mpr within,bind_ok.mpr ⟨(),require_ok.mpr remains,rfl⟩⟩⟩
  · intro someone
    have count : 0 < (stakes.length : Int) := Int.natCast_pos.mpr (List.length_pos_iff.mpr someone)
    have above := drawn.share_lt positive count
    rw [share_whole _ positive] at above
    change pool.val - lamports payouts < stakes.length
    omega

-- The committed stakes as machine integers.
def machineStakes : List U64 := build50Stakes.filterMap RangedInt.narrow

theorem machineStakes_val : machineStakes.map (·.val) = build50Stakes := by decide +kernel

theorem build50Stakes_sum : build50Stakes.sum = 98068216 := by decide +kernel

theorem committed_agrees (pool total : U64) (sum : total.val = 98068216) :
    ∃ fixture, buildFixture pool.val build50Stakes.sum build50Stakes = .ok fixture ∧
      FixtureAgrees pool total machineStakes fixture := by
  have positive : 0 < total.val := by rw [sum]; decide
  have staked : lamports machineStakes = total.val := by rw [lamports,machineStakes_val,build50Stakes_sum,sum]
  have described : ∃ fixture, FixtureAgrees pool total machineStakes fixture := fixture_agrees positive staked
  obtain ⟨fixture,agrees⟩ := described
  have built := agrees.built
  rw [machineStakes_val,sum,← build50Stakes_sum] at built
  exact ⟨fixture,built,agrees⟩

theorem payoutFixture_agrees : ∃ pool total fixture,
    buildPayoutFixture = .ok fixture ∧ FixtureAgrees pool total machineStakes fixture := by
  obtain ⟨fixture,built,agrees⟩ := committed_agrees (.lit 987654321123) (.lit 98068216) rfl
  exact ⟨_,_,fixture,built,agrees⟩

-- The refund pool is the pot less the reward that the program deducts.
theorem refundFixture_agrees : ∃ pool total fixture, pool.val = total.val - resolverRewardDev.val ∧
    buildRefundFixture = .ok fixture ∧ FixtureAgrees pool total machineStakes fixture := by
  obtain ⟨fixture,built,agrees⟩ := committed_agrees (.lit 96238216) (.lit 98068216) rfl
  refine ⟨_,_,fixture,rfl,?_,agrees⟩
  have pool : buildRefundFixture = buildFixture (build50Stakes.sum - 1830000) build50Stakes.sum build50Stakes := rfl
  rw [pool]
  rw [build50Stakes_sum] at built ⊢
  exact built

structure Agrees : Prop where
  normalize : ∀ value exponent v, Solclash.normalizeToE8 value exponent = .ok v ↔
    (-46 ≤ exponent.val ∧ exponent.val ≤ 30) ∧ normalizeToE8 value.val exponent.val = .ok v.val
  band : ∀ condition priceE8 confE8 thresholdE8 outcome,
    Solclash.resolveConfidenceBand condition priceE8 confE8 thresholdE8 = .ok outcome ↔
      BandFits priceE8.val confE8.val ∧ resolveConfidenceBand condition.val priceE8.val confE8.val thresholdE8.val =
        .ok (outcome.map (·.val))
  claim : ∀ pool stake total payout : U64, computeClaim pool stake total = .ok payout ↔
    proRataShare pool.val stake.val total.val = .ok payout.val
  refund : ∀ pool stake total payout : U64, computeRefund pool stake total = .ok payout ↔
    proRataShare pool.val stake.val total.val = .ok payout.val
  fixtures : ∀ (pool total : U64) (stakes : List U64), 0 < total.val → lamports stakes = total.val →
    ∃ fixture, FixtureAgrees pool total stakes fixture
  payoutFixture : ∃ pool total fixture, buildPayoutFixture = .ok fixture ∧ FixtureAgrees pool total machineStakes fixture
  refundFixture : ∃ pool total fixture, pool.val = total.val - resolverRewardDev.val ∧
    buildRefundFixture = .ok fixture ∧ FixtureAgrees pool total machineStakes fixture

theorem vectors_agree : Agrees where
  normalize := normalize_agrees
  band := band_agrees
  claim := fun _ _ _ => claim_agrees
  refund := fun _ _ _ => refund_agrees
  fixtures := fun _ _ _ => fixture_agrees
  payoutFixture := payoutFixture_agrees
  refundFixture := refundFixture_agrees

end agreement
end Solclash.ReferenceVectors
