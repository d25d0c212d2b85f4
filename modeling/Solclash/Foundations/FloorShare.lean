import Mathlib.Algebra.Order.Ring.Int
import Mathlib.Tactic.Linarith
import Mathlib.Tactic.Ring

-- Paying floored proportional shares of a pool, one holder at a time. `Drawn`
-- bounds from both sides what the holders settled so far were paid, whatever
-- the order in which they came.
namespace FloorShare

def share (pool stake whole : Int) : Int := pool * stake / whole

theorem share_mul_le (pool stake : Int) {whole : Int} (positive : 0 < whole) :
    share pool stake whole * whole ≤ pool * stake :=
  Int.ediv_mul_le _ (ne_of_gt positive)

theorem share_mul_gt (pool stake : Int) {whole : Int} (positive : 0 < whole) :
    pool * stake ≤ share pool stake whole * whole + (whole - 1) := by
  have split := Int.mul_ediv_add_emod (pool * stake) whole
  have rest := Int.emod_lt_of_pos (pool * stake) positive
  unfold share
  linarith [mul_comm whole (pool * stake / whole)]

theorem share_nonneg {pool stake whole : Int} (hp : 0 ≤ pool) (hs : 0 ≤ stake) (hw : 0 ≤ whole) :
    0 ≤ share pool stake whole := Int.ediv_nonneg (mul_nonneg hp hs) hw

theorem share_le_pool {pool stake whole : Int} (positive : 0 < whole) (hp : 0 ≤ pool) (part : stake ≤ whole) :
    share pool stake whole ≤ pool := by
  have bound := share_mul_le pool stake positive
  have scaled : pool * stake ≤ pool * whole := mul_le_mul_of_nonneg_left part hp
  exact le_of_mul_le_mul_right (bound.trans scaled) positive

theorem share_whole (pool : Int) {whole : Int} (positive : 0 < whole) : share pool whole whole = pool :=
  Int.mul_ediv_cancel _ (ne_of_gt positive)

-- Shares are ordered like the rates they are taken at.
theorem share_rate {pool whole pool' whole' stake : Int} (positive : 0 < whole) (positive' : 0 < whole')
    (nonneg : 0 ≤ stake) (rate : pool * whole' ≤ pool' * whole) : share pool stake whole ≤ share pool' stake whole' := by
  apply Int.le_ediv_of_mul_le positive'
  have below := share_mul_le pool stake positive
  have scaled : share pool stake whole * whole' * whole ≤ pool' * stake * whole := by
    calc share pool stake whole * whole' * whole
        = share pool stake whole * whole * whole' := by ring
      _ ≤ pool * stake * whole' := mul_le_mul_of_nonneg_right below positive'.le
      _ = pool * whole' * stake := by ring
      _ ≤ pool' * whole * stake := mul_le_mul_of_nonneg_right rate nonneg
      _ = pool' * stake * whole := by ring
  exact le_of_mul_le_mul_right scaled positive

-- The same proportion rounded up, for what is taken away instead of paid.
def ceilShare (part stake whole : Int) : Int := -share (-part) stake whole

theorem ceilShare_rate {part whole part' whole' stake : Int} (positive : 0 < whole) (positive' : 0 < whole')
    (nonneg : 0 ≤ stake) (rate : part * whole' ≤ part' * whole) :
    ceilShare part stake whole ≤ ceilShare part' stake whole' := by
  apply Int.neg_le_neg
  apply share_rate positive' positive nonneg
  linarith

-- Taking a part off the pool takes the same proportion off each share.
theorem share_rest (part stake : Int) {whole : Int} (positive : 0 < whole) :
    share (whole - part) stake whole = stake - ceilShare part stake whole := by
  have split : (whole - part) * stake = -part * stake + whole * stake := by ring
  unfold ceilShare share
  rw [split,Int.add_mul_ediv_left _ _ (ne_of_gt positive)]
  ring

structure Drawn (pool whole settled paid count : Int) : Prop where
  upper : paid * whole ≤ pool * settled
  lower : pool * settled ≤ paid * whole + count * (whole - 1)

theorem Drawn.start (pool whole : Int) : Drawn pool whole 0 0 0 := ⟨by simp,by simp⟩

theorem Drawn.draw {pool whole settled paid count : Int} (drawn : Drawn pool whole settled paid count)
    (positive : 0 < whole) (stake : Int) :
    Drawn pool whole (settled + stake) (paid + share pool stake whole) (count + 1) := by
  have above := share_mul_le pool stake positive
  have below := share_mul_gt pool stake positive
  constructor
  · calc (paid + share pool stake whole) * whole
        = paid * whole + share pool stake whole * whole := by ring
      _ ≤ pool * settled + pool * stake := Int.add_le_add drawn.upper above
      _ = pool * (settled + stake) := by ring
  · calc pool * (settled + stake)
        = pool * settled + pool * stake := by ring
      _ ≤ (paid * whole + count * (whole - 1)) +
            (share pool stake whole * whole + (whole - 1)) := Int.add_le_add drawn.lower below
      _ = (paid + share pool stake whole) * whole + (count + 1) * (whole - 1) := by ring

theorem Drawn.paid_le {pool whole settled paid count : Int} (drawn : Drawn pool whole settled paid count)
    (positive : 0 < whole) (hp : 0 ≤ pool) (part : settled ≤ whole) : paid ≤ pool := by
  have scaled : pool * settled ≤ pool * whole := mul_le_mul_of_nonneg_left part hp
  exact le_of_mul_le_mul_right (drawn.upper.trans scaled) positive

theorem Drawn.paid_le_share {pool whole settled paid count : Int} (drawn : Drawn pool whole settled paid count)
    (positive : 0 < whole) : paid ≤ share pool settled whole := Int.le_ediv_of_mul_le positive drawn.upper

-- Rounding keeps back less than one unit from each holder.
theorem Drawn.share_lt {pool whole settled paid count : Int} (drawn : Drawn pool whole settled paid count)
    (positive : 0 < whole) (someone : 0 < count) : share pool settled whole < paid + count := by
  have above := share_mul_le pool settled positive
  have kept : share pool settled whole * whole < (paid + count) * whole := by
    calc share pool settled whole * whole
        ≤ pool * settled := above
      _ ≤ paid * whole + count * (whole - 1) := drawn.lower
      _ = (paid + count) * whole - count := by ring
      _ < (paid + count) * whole := by omega
  exact lt_of_mul_lt_mul_right kept positive.le

theorem Drawn.share_le {pool whole settled paid count : Int} (drawn : Drawn pool whole settled paid count)
    (positive : 0 < whole) (nobody : count = 0) : share pool settled whole ≤ paid := by
  have above := share_mul_le pool settled positive
  have below := drawn.lower
  rw [nobody,Int.zero_mul,Int.add_zero] at below
  exact le_of_mul_le_mul_right (above.trans below) positive

-- A whole list of holders.
theorem drawn_list (pool : Int) {whole : Int} (positive : 0 < whole) (stakes : List Int) :
    Drawn pool whole stakes.sum (stakes.map (share pool · whole)).sum stakes.length := by
  induction stakes with
  | nil => exact .start pool whole
  | cons stake stakes ih =>
      have drawn := ih.draw positive stake
      rw [List.sum_cons,List.map_cons,List.sum_cons,List.length_cons,Int.add_comm stake,
        Int.add_comm (share pool stake whole)]
      exact drawn

-- The next holder never finds the pool short, the last one included.
theorem Drawn.affords {pool whole settled paid count : Int} (drawn : Drawn pool whole settled paid count)
    (positive : 0 < whole) (hp : 0 ≤ pool) {stake : Int} (part : settled + stake ≤ whole) :
    paid + share pool stake whole ≤ pool :=
  (drawn.draw positive stake).paid_le positive hp part

end FloorShare
