import Solclash.Foundations.Histories

-- Two runs of one machine that agree on what one observer puts in. When the
-- conditions hold step by step, he cannot tell the two runs apart.
namespace Machine
variable {S A I O : Type} {m : Machine S A} {R : S → S → Prop} {input : Transition S A → Option I}
  {answer : Transition S A → Option O}

-- A transition without an input is not the observer's and answers nothing.
structure Unwinding (m : Machine S A) (R : S → S → Prop) (input : Transition S A → Option I)
    (answer : Transition S A → Option O) : Prop where
  symmetric : ∀ {s s'}, R s s' → R s' s
  hidden : ∀ {s s' action next}, R s s' → m.step s action = some next → input ⟨s,action,next⟩ = none →
    R next s' ∧ answer ⟨s,action,next⟩ = none
  shown : ∀ {s s' action action' next next' i}, R s s' → m.step s action = some next →
    m.step s' action' = some next' → input ⟨s,action,next⟩ = some i → input ⟨s',action',next'⟩ = some i →
    R next next' ∧ answer ⟨s,action,next⟩ = answer ⟨s',action',next'⟩

-- A run of hidden transitions only.
theorem Unwinding.quiet (unwinding : Unwinding m R input answer) (related : R s s')
    (run : History m s history t) (silent : history.filterMap input = []) :
    R t s' ∧ history.filterMap answer = [] := by
  induction run with
  | nil => exact ⟨related,rfl⟩
  | cons _ step ih =>
      obtain ⟨first,rest⟩ := List.forall_mem_cons.mp (List.filterMap_eq_nil_iff.mp silent)
      obtain ⟨before,unanswered⟩ := ih (List.filterMap_eq_nil_iff.mpr rest)
      obtain ⟨after,nothing⟩ := unwinding.hidden before step first
      exact ⟨after,by rw [List.filterMap_cons_none nothing,unanswered]⟩

theorem Unwinding.runs (unwinding : Unwinding m R input answer) (related : R s s')
    (run : History m s history t) (run' : History m s' history' t')
    (same : history.filterMap input = history'.filterMap input) :
    R t t' ∧ history.filterMap answer = history'.filterMap answer := by
  induction run generalizing history' t' with
  | nil =>
      obtain ⟨after,nothing⟩ := unwinding.quiet (unwinding.symmetric related) run' same.symm
      exact ⟨unwinding.symmetric after,nothing.symm⟩
  | @cons earlier middle action next _ step ih =>
      cases given : input ⟨middle,action,next⟩ with
      | none =>
          rw [List.filterMap_cons_none given] at same
          obtain ⟨before,answers⟩ := ih run' same
          obtain ⟨after,nothing⟩ := unwinding.hidden before step given
          exact ⟨after,by rw [List.filterMap_cons_none nothing,answers]⟩
      | some i =>
          -- the same input is somewhere in the other run, with hidden transitions after it
          rw [List.filterMap_cons_some given] at same
          obtain ⟨newer,t₁,older,rfl,silent,given',rest⟩ := List.filterMap_eq_cons_iff.mp same.symm
          obtain ⟨prior,step',later⟩ := run'.around
          obtain ⟨before,answers⟩ := ih prior rest.symm
          obtain ⟨after,equal⟩ := unwinding.shown before step step' given given'
          obtain ⟨still,nothing⟩ :=
            unwinding.quiet (unwinding.symmetric after) later (List.filterMap_eq_nil_iff.mpr silent)
          refine ⟨unwinding.symmetric still,?_⟩
          rw [List.filterMap_append,nothing,List.nil_append,List.filterMap_cons,List.filterMap_cons,answers,equal]

end Machine
