import Mathlib.Algebra.Order.Field.Basic
import Mathlib.Algebra.Order.Field.Power
import Mathlib.Data.Rat.Cast.Order
import Mathlib.Data.Rat.Floor
import Mathlib.Tactic.Linarith
import Mathlib.Tactic.Positivity
import Mathlib.Tactic.NormNum

-- Moving the decimal point of an integer by any number of places: the exact
-- rational, the integer truncated toward zero, and how far apart the two are.
namespace DecimalScale

def exact (value places : Int) : ℚ := value * (10 : ℚ) ^ places
def truncated (value places : Int) : Int :=
  if 0 ≤ places then value * 10 ^ places.toNat else value.tdiv (10 ^ (-places).toNat)

-- The integer next to a rational on the side of zero.
def towardZero (q : ℚ) : Int := if 0 ≤ q then ⌊q⌋ else ⌈q⌉

-- No digit falls off the end.
def Lossless (value places : Int) : Prop := 0 ≤ places ∨ (10 : Int) ^ (-places).toNat ∣ value

theorem ten_power_pos (n : Nat) : (0 : Int) < 10 ^ n := by positivity

theorem exact_up {places : Int} (up : 0 ≤ places) (value : Int) :
    exact value places = ((value * 10 ^ places.toNat : Int) : ℚ) := by
  obtain ⟨n,rfl⟩ := Int.eq_ofNat_of_zero_le up
  unfold exact
  rw [zpow_natCast,Int.toNat_natCast]
  push_cast
  rfl

theorem exact_down {places : Int} (down : places < 0) (value : Int) :
    exact value places * ((10 ^ (-places).toNat : Int) : ℚ) = value := by
  obtain ⟨n,same⟩ := Int.eq_ofNat_of_zero_le (by omega : 0 ≤ -places)
  have negative : places = -(n : Int) := by omega
  subst negative
  unfold exact
  rw [neg_neg,Int.toNat_natCast,zpow_neg,zpow_natCast]
  push_cast
  rw [mul_assoc,inv_mul_cancel₀ (by positivity),mul_one]

theorem truncated_exact {value places : Int} (lossless : Lossless value places) :
    (truncated value places : ℚ) = exact value places := by
  unfold truncated
  split
  · rename_i up
    exact (exact_up up value).symm
  · rename_i down
    rcases lossless with up | divides
    · exact (down up).elim
    obtain ⟨whole,rfl⟩ := divides
    have positive := ten_power_pos (-places).toNat
    rw [Int.mul_tdiv_cancel_left whole positive.ne']
    have scaled := exact_down (by omega : places < 0) (10 ^ (-places).toNat * whole)
    have nonzero : ((10 ^ (-places).toNat : Int) : ℚ) ≠ 0 := by exact_mod_cast positive.ne'
    apply mul_right_cancel₀ nonzero
    rw [scaled]
    push_cast
    exact mul_comm _ _

-- The same in integers: one of the two powers is 1.
theorem truncated_scaled (lossless : Lossless value places) :
    truncated value places * 10 ^ (-places).toNat = value * 10 ^ places.toNat := by
  unfold truncated
  split
  · rename_i up
    rw [Int.toNat_of_nonpos (by omega : -places ≤ 0),pow_zero,mul_one]
  · rename_i down
    obtain ⟨whole,rfl⟩ := lossless.resolve_left down
    rw [Int.mul_tdiv_cancel_left whole (ten_power_pos _).ne',Int.toNat_of_nonpos (by omega : places ≤ 0),pow_zero,
      mul_one,mul_comm]

-- Moving the point of both sides moves no multiple past another.
theorem truncated_order (one : Lossless a places) (two : Lossless b places) (m n : Int) :
    m * truncated a places < n * truncated b places ↔ m * a < n * b := by
  have up := ten_power_pos places.toNat
  have down := ten_power_pos (-places).toNat
  rw [← mul_lt_mul_iff_of_pos_right down,mul_assoc,mul_assoc,truncated_scaled one,truncated_scaled two,← mul_assoc,
    ← mul_assoc,mul_lt_mul_iff_of_pos_right up]

theorem truncated_nonneg {value : Int} (nonneg : 0 ≤ value) (places : Int) : 0 ≤ truncated value places := by
  unfold truncated
  split
  · exact mul_nonneg nonneg (ten_power_pos _).le
  · exact Int.tdiv_nonneg nonneg (ten_power_pos _).le

theorem exact_scaled (value places : Int) :
    exact value places * ((10 ^ (-places).toNat : Int) : ℚ) = ((value * 10 ^ places.toNat : Int) : ℚ) := by
  by_cases up : 0 ≤ places
  · rw [exact_up up,Int.toNat_of_nonpos (by omega : -places ≤ 0),pow_zero,Int.cast_one,mul_one]
  · rw [exact_down (not_le.mp up),Int.toNat_of_nonpos (by omega : places ≤ 0),pow_zero,mul_one]

-- A nonnegative value only loses digits that fall off below the point.
theorem truncated_within {value : Int} (nonneg : 0 ≤ value) (places : Int) :
    truncated value places * 10 ^ (-places).toNat ≤ value * 10 ^ places.toNat ∧
      value * 10 ^ places.toNat < (truncated value places + 1) * 10 ^ (-places).toNat := by
  by_cases up : 0 ≤ places
  · have unit := ten_power_pos (-places).toNat
    rw [add_mul,one_mul,truncated_scaled (.inl up)]
    exact ⟨le_refl _,Int.lt_add_of_pos_right _ unit⟩
  · have positive := ten_power_pos (-places).toNat
    have split := Int.mul_ediv_add_emod value (10 ^ (-places).toNat)
    have least := Int.emod_nonneg value positive.ne'
    have most := Int.emod_lt_of_pos value positive
    rw [truncated,if_neg up,Int.tdiv_eq_ediv_of_nonneg nonneg,Int.toNat_of_nonpos (by omega : places ≤ 0),pow_zero,
      mul_one,add_mul,one_mul,mul_comm (value / _)]
    exact ⟨by omega,by omega⟩

-- The same against the exact rational: less than one unit is lost.
theorem truncated_close {value : Int} (nonneg : 0 ≤ value) (places : Int) :
    (truncated value places : ℚ) ≤ exact value places ∧ exact value places < truncated value places + 1 := by
  obtain ⟨below,above⟩ := truncated_within nonneg places
  have unit : (0 : ℚ) < ((10 ^ (-places).toNat : Int) : ℚ) := by exact_mod_cast ten_power_pos (-places).toNat
  have lower : (truncated value places : ℚ) * ((10 ^ (-places).toNat : Int) : ℚ) ≤
      exact value places * ((10 ^ (-places).toNat : Int) : ℚ) := by
    rw [exact_scaled]
    exact_mod_cast below
  have upper : exact value places * ((10 ^ (-places).toNat : Int) : ℚ) <
      ((truncated value places : ℚ) + 1) * ((10 ^ (-places).toNat : Int) : ℚ) := by
    rw [exact_scaled]
    exact_mod_cast above
  exact ⟨le_of_mul_le_mul_right lower unit,lt_of_mul_lt_mul_right upper unit.le⟩

theorem truncated_neg (value places : Int) : truncated (-value) places = -truncated value places := by
  unfold truncated
  split
  · exact Int.neg_mul _ _
  · exact Int.neg_tdiv _ _

theorem exact_neg (value places : Int) : exact (-value) places = -exact value places := by
  unfold exact
  rw [Int.cast_neg,neg_mul]

theorem exact_nonneg (value places : Int) : 0 ≤ exact value places ↔ 0 ≤ value := by
  have unit : (0 : ℚ) < 10 ^ places := zpow_pos (by norm_num) places
  unfold exact
  rw [mul_nonneg_iff_of_pos_right unit]
  exact Int.cast_nonneg_iff

-- Below zero the ceiling is the nearer integer, by symmetry.
theorem truncated_towardZero (value places : Int) : truncated value places = towardZero (exact value places) := by
  unfold towardZero
  by_cases nonneg : 0 ≤ value
  · rw [if_pos ((exact_nonneg value places).mpr nonneg)]
    exact (Int.floor_eq_iff.mpr (truncated_close nonneg places)).symm
  · rw [if_neg (mt (exact_nonneg value places).mp nonneg)]
    have mirrored := Int.floor_eq_iff.mpr (truncated_close (by omega : 0 ≤ -value) places)
    rw [exact_neg,truncated_neg,Int.floor_neg] at mirrored
    omega

theorem truncated_mono {a b : Int} (order : a ≤ b) (places : Int) : truncated a places ≤ truncated b places := by
  unfold truncated
  split
  · exact mul_le_mul_of_nonneg_right order (ten_power_pos _).le
  · exact Int.tdiv_le_tdiv (ten_power_pos _) order

theorem truncated_nonpos {value : Int} (nonpos : value ≤ 0) (places : Int) : truncated value places ≤ 0 := by
  have mirrored := truncated_nonneg (by omega : 0 ≤ -value) places
  rw [truncated_neg] at mirrored
  omega

-- Dropping digits never leaves the range between the value and zero.
theorem truncated_shrinks {places : Int} (down : places < 0) (value : Int) :
    min value 0 ≤ truncated value places ∧ truncated value places ≤ max value 0 := by
  have size := Int.natAbs_tdiv_le_natAbs value (10 ^ (-places).toNat)
  have quotient : truncated value places = value.tdiv (10 ^ (-places).toNat) := if_neg (not_le.mpr down)
  rcases le_total 0 value with nonneg | nonpos
  · have above := truncated_nonneg nonneg places
    omega
  · have below := truncated_nonpos nonpos places
    omega

end DecimalScale
