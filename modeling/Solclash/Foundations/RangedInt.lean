import Mathlib.Algebra.Order.Ring.Int
import Mathlib.Algebra.Order.Ring.Pow
import Mathlib.Data.Int.Interval
import Mathlib.Tactic.Ring

-- A machine integer is its exact value together with the proof that the value
-- fits. Checked operations return none exactly when the exact result does not.
structure RangedInt (lo hi : Int) where
  val : Int
  lower : lo ≤ val
  upper : val ≤ hi
  deriving DecidableEq

namespace RangedInt
variable {lo hi lo' hi' : Int}

theorem ext_val {a b : RangedInt lo hi} (same : a.val = b.val) : a = b := by
  cases a; cases b; cases same; rfl

instance : Finite (RangedInt lo hi) := by
  apply Finite.of_injective (β:=Set.Icc lo hi) fun r => ⟨r.val,r.lower,r.upper⟩
  intro a b same
  exact ext_val (congrArg Subtype.val same)

instance : LE (RangedInt lo hi) := ⟨fun a b => a.val ≤ b.val⟩
instance : LT (RangedInt lo hi) := ⟨fun a b => a.val < b.val⟩
instance (a b : RangedInt lo hi) : Decidable (a ≤ b) := inferInstanceAs (Decidable (a.val ≤ b.val))
instance (a b : RangedInt lo hi) : Decidable (a < b) := inferInstanceAs (Decidable (a.val < b.val))

theorem le_iff {a b : RangedInt lo hi} : a ≤ b ↔ a.val ≤ b.val := Iff.rfl
theorem lt_iff {a b : RangedInt lo hi} : a < b ↔ a.val < b.val := Iff.rfl

-- The range of a literal is checked when its definition is compiled.
def lit (v : Int) (fits : decide (lo ≤ v ∧ v ≤ hi) = true := by exact Eq.refl true) : RangedInt lo hi :=
  ⟨v,(of_decide_eq_true fits).1,(of_decide_eq_true fits).2⟩

@[simp] theorem lit_val (v : Int) (fits : decide (lo ≤ v ∧ v ≤ hi) = true) : (lit v fits).val = v := rfl

def narrow (v : Int) : Option (RangedInt lo hi) :=
  if fits : lo ≤ v ∧ v ≤ hi then some ⟨v,fits.1,fits.2⟩ else none

theorem narrow_some {v : Int} {r : RangedInt lo hi} : narrow v = some r ↔ r.val = v := by
  unfold narrow
  split
  · rename_i fits
    constructor
    · intro equal; cases equal; rfl
    · intro same; exact congrArg some (ext_val same.symm)
  · rename_i unfit
    constructor
    · intro equal; cases equal
    · intro same; exact False.elim (unfit (same ▸ ⟨r.lower,r.upper⟩))

theorem narrow_none {v : Int} : (narrow v : Option (RangedInt lo hi)) = none ↔ v < lo ∨ hi < v := by
  unfold narrow
  split
  · rename_i fits
    simp only [reduceCtorEq,false_iff]
    omega
  · rename_i unfit
    simp only [true_iff]
    omega

def checkedAdd (a b : RangedInt lo hi) : Option (RangedInt lo hi) := narrow (a.val + b.val)
def checkedSub (a b : RangedInt lo hi) : Option (RangedInt lo hi) := narrow (a.val - b.val)
def checkedMul (a b : RangedInt lo hi) : Option (RangedInt lo hi) := narrow (a.val * b.val)
def checkedNeg (a : RangedInt lo hi) : Option (RangedInt lo hi) := narrow (-a.val)
-- Division truncates toward zero.
def checkedDiv (a b : RangedInt lo hi) : Option (RangedInt lo hi) :=
  if b.val = 0 then none else narrow (a.val.tdiv b.val)
-- Stops at the first power that does not fit.
def checkedPow (a : RangedInt lo hi) : Nat → Option (RangedInt lo hi)
  | 0 => narrow 1
  | exp + 1 => (checkedPow a exp).bind (checkedMul · a)
-- Conversion to another integer type: `narrow` may fail, `widen` may not.
def tryFrom (a : RangedInt lo hi) : Option (RangedInt lo' hi') := narrow a.val
def widen (a : RangedInt lo hi) (wider : decide (lo' ≤ lo ∧ hi ≤ hi') = true := by exact Eq.refl true) :
    RangedInt lo' hi' :=
  ⟨a.val,Int.le_trans (of_decide_eq_true wider).1 a.lower,Int.le_trans a.upper (of_decide_eq_true wider).2⟩

@[simp] theorem widen_val (a : RangedInt lo hi) (wider : decide (lo' ≤ lo ∧ hi ≤ hi') = true) :
    (widen a wider).val = a.val := rfl

variable {a b c : RangedInt lo hi}

theorem checkedAdd_some : checkedAdd a b = some c ↔ c.val = a.val + b.val := narrow_some
theorem checkedSub_some : checkedSub a b = some c ↔ c.val = a.val - b.val := narrow_some
theorem checkedMul_some : checkedMul a b = some c ↔ c.val = a.val * b.val := narrow_some
theorem checkedNeg_some : checkedNeg a = some c ↔ c.val = -a.val := narrow_some
theorem tryFrom_some {r : RangedInt lo' hi'} : tryFrom a = some r ↔ r.val = a.val := narrow_some

theorem checkedDiv_some : checkedDiv a b = some c ↔ b.val ≠ 0 ∧ c.val = a.val.tdiv b.val := by
  unfold checkedDiv
  split <;> simp_all [narrow_some]

theorem checkedPow_some (unit : lo ≤ 1) (positive : 1 ≤ a.val) {exp : Nat} :
    checkedPow a exp = some c ↔ c.val = a.val ^ exp := by
  induction exp generalizing c with
  | zero => simpa [checkedPow] using narrow_some
  | succ exp ih =>
      have least : 1 ≤ a.val ^ exp := one_le_pow₀ positive
      simp only [checkedPow,Option.bind_eq_some_iff,pow_succ]
      constructor
      · rintro ⟨power,prior,product⟩
        rw [checkedMul_some.mp product,ih.mp prior]
      · intro equal
        have below : a.val ^ exp ≤ hi := by
          have upper := c.upper
          have grows : a.val ^ exp * 1 ≤ a.val ^ exp * a.val := Int.mul_le_mul_of_nonneg_left positive (by omega)
          omega
        refine ⟨⟨a.val ^ exp,by omega,below⟩,ih.mpr rfl,checkedMul_some.mpr equal⟩

theorem checkedPow_none (unit : lo ≤ 1) (positive : 1 ≤ a.val) {exp : Nat} :
    checkedPow a exp = none ↔ hi < a.val ^ exp := by
  have least : 1 ≤ a.val ^ exp := one_le_pow₀ positive
  constructor
  · intro missing
    apply Classical.byContradiction
    intro fits
    rw [(checkedPow_some (c:=⟨a.val ^ exp,by omega,by omega⟩) unit positive).mpr rfl] at missing
    cases missing
  · intro large
    cases ran : checkedPow a exp with
    | none => rfl
    | some power =>
        have value := (checkedPow_some unit positive).mp ran
        have upper := power.upper
        omega

theorem checkedAdd_none : checkedAdd a b = none ↔ a.val + b.val < lo ∨ hi < a.val + b.val := narrow_none
theorem checkedSub_none : checkedSub a b = none ↔ a.val - b.val < lo ∨ hi < a.val - b.val := narrow_none

end RangedInt

abbrev U8 := RangedInt 0 255
abbrev U32 := RangedInt 0 4294967295
abbrev U64 := RangedInt 0 18446744073709551615
abbrev U128 := RangedInt 0 340282366920938463463374607431768211455
abbrev I32 := RangedInt (-2147483648) 2147483647
abbrev I64 := RangedInt (-9223372036854775808) 9223372036854775807
abbrev I128 := RangedInt (-170141183460469231731687303715884105728) 170141183460469231731687303715884105727

example : (RangedInt.lit 250 : U8).checkedAdd (.lit 5) = some (.lit 255) ∧
    (RangedInt.lit 250 : U8).checkedAdd (.lit 6) = none := by decide
