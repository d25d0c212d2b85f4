-- Rules for programs that either return a value or stop with an error: what it
-- means for a sequence to succeed, and which step a failure came from.
namespace Fallible

def require (p : Prop) [Decidable p] (e : ε) : Except ε Unit :=
  if p then .ok () else .error e

def okOr (o : Option α) (e : ε) : Except ε α :=
  match o with
  | some a => .ok a
  | none => .error e

theorem require_ok {p : Prop} [Decidable p] {e : ε} {u : Unit} : require p e = .ok u ↔ p := by
  unfold require
  split <;> simp_all

theorem require_error {p : Prop} [Decidable p] {e e' : ε} : require p e = .error e' ↔ ¬ p ∧ e = e' := by
  unfold require
  split <;> simp_all

-- A check in front of the rest is a branch.
theorem require_bind {p : Prop} [Decidable p] {e : ε} {f : Unit → Except ε α} :
    require p e >>= f = if ¬ p then .error e else f () := by
  by_cases holds : p <;> simp [require,holds,bind,Except.bind]

theorem okOr_bind {a : α} {e : ε} {f : α → Except ε β} : okOr (some a) e >>= f = f a := rfl

theorem okOr_ok {o : Option α} {e : ε} {a : α} : okOr o e = .ok a ↔ o = some a := by
  cases o <;> simp [okOr]

theorem okOr_error {o : Option α} {e e' : ε} : okOr o e = .error e' ↔ o = none ∧ e = e' := by
  cases o <;> simp [okOr]

theorem bind_ok {x : Except ε α} {f : α → Except ε β} {b : β} :
    x >>= f = .ok b ↔ ∃ a, x = .ok a ∧ f a = .ok b := by
  cases x <;> simp [bind,Except.bind]

theorem bind_error {x : Except ε α} {f : α → Except ε β} {e : ε} :
    x >>= f = .error e ↔ x = .error e ∨ ∃ a, x = .ok a ∧ f a = .error e := by
  cases x <;> simp [bind,Except.bind]

-- A check or a lookup in front of the rest is refused itself, or the rest is.
theorem require_refused {p : Prop} [Decidable p] {e e' : ε} {f : Unit → Except ε α} :
    require p e >>= f = .error e' ↔ (¬ p ∧ e' = e) ∨ (p ∧ f () = .error e') := by
  rw [bind_error]
  constructor
  · rintro (failed | ⟨_,passed,rest⟩)
    · obtain ⟨fails,same⟩ := require_error.mp failed
      exact .inl ⟨fails,same.symm⟩
    · exact .inr ⟨require_ok.mp passed,rest⟩
  · rintro (⟨fails,same⟩ | ⟨holds,rest⟩)
    · exact .inl (require_error.mpr ⟨fails,same.symm⟩)
    · exact .inr ⟨(),require_ok.mpr holds,rest⟩

theorem okOr_refused {o : Option α} {e e' : ε} {f : α → Except ε β} :
    okOr o e >>= f = .error e' ↔ (o = none ∧ e' = e) ∨ ∃ a, o = some a ∧ f a = .error e' := by
  cases o with
  | none => simp [okOr,bind,Except.bind,eq_comm]
  | some a => simp [okOr_bind]

-- Past a step that returned, only the rest can be refused.
theorem bind_past {x : Except ε α} {a : α} {f : α → Except ε β} (done : x = .ok a) : x >>= f = f a := by
  rw [done]
  rfl

theorem pure_ok {a b : α} : (pure a : Except ε α) = .ok b ↔ a = b := by
  simp [pure,Except.pure]

theorem pure_error {a : α} {e : ε} : (pure a : Except ε α) = .error e ↔ False := by
  simp [pure,Except.pure]

-- A computation that is never refused returns something.
theorem returns {x : Except ε α} (refused : ∀ e, x ≠ .error e) : ∃ a, x = .ok a := by
  cases x with
  | ok a => exact ⟨a,rfl⟩
  | error e => exact (refused e rfl).elim

theorem not_both {x : Except ε α} {a : α} {e : ε} (done : x = .ok a) (failed : x = .error e) : False := by
  rw [done] at failed
  cases failed

-- Rules for the errors that a whole sequence can stop with, one for each step.
structure RefusesOnly (allowed : ε → Prop) (x : Except ε α) : Prop where
  only : ∀ {e}, x = .error e → allowed e

namespace RefusesOnly
variable {allowed : ε → Prop} {x : Except ε α} {f : α → Except ε β}

theorem returned (a : α) : RefusesOnly allowed (pure a : Except ε α) where
  only ran := (pure_error.mp ran).elim

theorem raised (listed : allowed e) : RefusesOnly allowed (.error e : Except ε α) where
  only ran := by cases ran; exact listed

theorem sequence (first : RefusesOnly allowed x) (rest : ∀ a, x = .ok a → RefusesOnly allowed (f a)) :
    RefusesOnly allowed (x >>= f) := by
  constructor
  intro e ran
  rcases bind_error.mp ran with failed | ⟨a,done,ran⟩
  · exact first.only failed
  · exact (rest a done).only ran

theorem found {o : Option α} (listed : allowed e) : RefusesOnly allowed (okOr o e) := by
  constructor
  intro e' ran
  obtain ⟨_,rfl⟩ := okOr_error.mp ran
  exact listed

theorem lookup {o : Option α} (listed : allowed e) (rest : ∀ a, o = some a → RefusesOnly allowed (f a)) :
    RefusesOnly allowed (okOr o e >>= f) := by
  apply sequence (found listed)
  intro a done
  exact rest a (okOr_ok.mp done)

theorem check {p : Prop} [Decidable p] {f : Unit → Except ε β} (listed : allowed e)
    (rest : p → RefusesOnly allowed (f ())) : RefusesOnly allowed (require p e >>= f) := by
  constructor
  intro e' ran
  rcases require_refused.mp ran with ⟨_,rfl⟩ | ⟨holds,ran⟩
  · exact listed
  · exact (rest holds).only ran

theorem weaken {wider : ε → Prop} (refuses : RefusesOnly allowed x) (implied : ∀ e, allowed e → wider e) :
    RefusesOnly wider x where
  only ran := implied _ (refuses.only ran)

end RefusesOnly

-- Rules for two sequences whose results differ by a translation of what they
-- return, step by step; where one is refused, the other is with the same error.
structure Carries (m : α → β) (x : Except ε α) (y : Except ε β) : Prop where
  same : y = x.map m

namespace Carries
variable {m : α → β} {h : γ → δ} {x : Except ε α} {y : Except ε β} {f : α → Except ε γ} {g : β → Except ε δ}

theorem returned (same : m a = b) : Carries m (pure a : Except ε α) (pure b) := ⟨congrArg Except.ok same.symm⟩

theorem raised : Carries m (.error e : Except ε α) (.error e) := ⟨rfl⟩

theorem identity : Carries (fun a => a) x x where
  same := by cases x <;> rfl

theorem sequence (first : Carries m x y) (rest : ∀ a, x = .ok a → Carries h (f a) (g (m a))) :
    Carries h (x >>= f) (y >>= g) := by
  constructor
  rw [first.same]
  cases x with
  | ok a => exact (rest a rfl).same
  | error e => rfl

theorem unchanged {f : α → Except ε γ} {g : α → Except ε δ} (rest : ∀ a, x = .ok a → Carries h (f a) (g a)) :
    Carries h (x >>= f) (x >>= g) := by
  cases x with
  | ok a => exact rest a rfl
  | error e => exact raised

theorem check {p q : Prop} [Decidable p] [Decidable q] {f : Unit → Except ε γ} {g : Unit → Except ε δ}
    (same : q ↔ p) (rest : p → Carries h (f ()) (g ())) :
    Carries h (require p e >>= f) (require q e >>= g) := by
  rw [require_bind,require_bind]
  by_cases holds : p
  · rw [if_neg (not_not_intro holds),if_neg (not_not_intro (same.mpr holds))]
    exact rest holds
  · rw [if_pos holds,if_pos (holds ∘ same.mp)]
    exact raised

theorem found {o : Option α} {o' : Option β} (same : o' = o.map m) : Carries m (okOr o e) (okOr o' e) := by
  rw [same]
  cases o with
  | some a => exact ⟨rfl⟩
  | none => exact ⟨rfl⟩

theorem ok (carried : Carries m x y) (done : x = .ok a) : y = .ok (m a) := by rw [carried.same,done]; rfl

end Carries

end Fallible
