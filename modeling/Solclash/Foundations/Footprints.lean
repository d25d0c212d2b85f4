import Mathlib.Data.List.Nodup
import Mathlib.Data.Set.Basic
import Solclash.Foundations.Histories

-- Actions that read and write only some places of a memory. Where no action of
-- a block writes what another one reads, their order does not matter; in
-- general it matters only between those that do.
namespace Footprints
variable {S A P V R E : Type}

structure Footprint (P : Type) where
  reads : Set P
  writes : Set P
  written : writes ⊆ reads

def Footprint.Meets (a b : Footprint P) : Prop :=
  (∃ p, p ∈ a.writes ∧ p ∈ b.reads) ∨ ∃ p, p ∈ a.reads ∧ p ∈ b.writes

def Agree (cell : S → P → V) (places : Set P) (s t : S) : Prop := ∀ p ∈ places, cell s p = cell t p

-- An action leaves alone what it does not write; what it does and answers is
-- decided by what it reads.
structure Local (m : Machine S A) (answer : S → A → R) (cell : S → P → V) (footprint : A → Footprint P) : Prop where
  faithful : ∀ {s t}, (∀ p, cell s p = cell t p) → s = t
  frame : ∀ {s a next}, m.step s a = some next → ∀ p, p ∉ (footprint a).writes → cell next p = cell s p
  decided : ∀ {s t a next}, Agree cell (footprint a).reads s t → m.step s a = some next →
    ∃ next', m.step t a = some next' ∧ Agree cell (footprint a).writes next next'
  answered : ∀ {s t a}, Agree cell (footprint a).reads s t → answer s a = answer t a

-- A block of actions, the oldest first, each with its answer.
inductive Block (m : Machine S A) (answer : S → A → R) (action : E → A) : S → List (E × R) → S → Prop where
  | nil : Block m answer action s [] s
  | cons : m.step s (action e) = some next → Block m answer action next rest final →
      Block m answer action s ((e,answer s (action e)) :: rest) final

section order
variable {m : Machine S A} {answer : S → A → R} {cell : S → P → V} {footprint : A → Footprint P} {action : E → A}
  {s middle next final : S} {a b : A} {x y : E × R} {earlier later rest log log' : List (E × R)}

theorem Footprint.meets_symm {a b : Footprint P} (meets : a.Meets b) : b.Meets a := by
  rcases meets with ⟨p,written,read⟩ | ⟨p,read,written⟩
  · exact .inr ⟨p,read,written⟩
  · exact .inl ⟨p,written,read⟩

-- What another action reads is as it was before the step.
theorem unread (isLocal : Local m answer cell footprint) (apart : ¬ (footprint a).Meets (footprint b))
    (step : m.step s a = some next) : Agree cell (footprint b).reads next s := by
  intro p read
  apply isLocal.frame step
  intro written
  exact apart (.inl ⟨p,written,read⟩)

theorem commute (isLocal : Local m answer cell footprint) (apart : ¬ (footprint a).Meets (footprint b))
    (first : m.step s a = some middle) (second : m.step middle b = some next) :
    ∃ middle', m.step s b = some middle' ∧ m.step middle' a = some next ∧
      answer s b = answer middle b ∧ answer middle' a = answer s a := by
  have apart' : ¬ (footprint b).Meets (footprint a) := fun meets => apart (Footprint.meets_symm meets)
  have before := unread isLocal apart first
  obtain ⟨middle',first',same⟩ := isLocal.decided before second
  have before' := unread isLocal apart' first'
  obtain ⟨next',second',same'⟩ := isLocal.decided (fun p read => (before' p read).symm) first
  have ends : next' = next := by
    apply isLocal.faithful
    intro p
    -- each place was written by one of the two at most
    by_cases ofA : p ∈ (footprint a).writes
    · have notB : p ∉ (footprint b).writes := fun ofB => apart (.inl ⟨p,ofA,(footprint b).written ofB⟩)
      rw [← same' p ofA,isLocal.frame second p notB]
    · rw [isLocal.frame second' p ofA]
      by_cases ofB : p ∈ (footprint b).writes
      · exact (same p ofB).symm
      · rw [isLocal.frame first' p ofB,isLocal.frame second p ofB,isLocal.frame first p ofA]
  exact ⟨middle',first',ends ▸ second',(isLocal.answered before).symm,isLocal.answered before'⟩

theorem Block.swap (isLocal : Local m answer cell footprint)
    (apart : ¬ (footprint (action x.1)).Meets (footprint (action y.1)))
    (path : Block m answer action s (x :: y :: rest) final) : Block m answer action s (y :: x :: rest) final := by
  cases path with
  | cons first path =>
      cases path with
      | cons second path =>
          obtain ⟨middle,first',second',early,late⟩ := commute isLocal apart first second
          rw [← early,← late]
          exact .cons first' (.cons second' path)

theorem Block.forward (isLocal : Local m answer cell footprint)
    (apart : ∀ y ∈ earlier, ¬ (footprint (action y.1)).Meets (footprint (action x.1)))
    (path : Block m answer action s (earlier ++ x :: rest) final) :
    Block m answer action s (x :: (earlier ++ rest)) final := by
  induction earlier generalizing s with
  | nil => exact path
  | cons y earlier ih =>
      cases path with
      | cons step path =>
          have moved := ih (fun z member => apart z (List.mem_cons_of_mem _ member)) path
          exact (Block.cons step moved).swap isLocal (apart _ List.mem_cons_self)

theorem head_again (pair : List.Sublist [y,x] (x :: later)) : x ∈ later := by
  rcases List.sublist_cons_iff.mp pair with inside | ⟨_,same,inside⟩
  · exact inside.subset (List.mem_cons_of_mem _ List.mem_cons_self)
  · cases same
    exact inside.subset List.mem_cons_self

-- Any order that keeps the pairs which meet has the same answers and the same end.
theorem Block.reordered (isLocal : Local m answer cell footprint) (distinct : log.Nodup) (perm : log'.Perm log)
    (kept : ∀ x y, (footprint (action x.1)).Meets (footprint (action y.1)) →
      List.Sublist [x,y] log → List.Sublist [x,y] log')
    (path : Block m answer action s log final) : Block m answer action s log' final := by
  induction log' generalizing s log with
  | nil =>
      rw [List.nil_perm.mp perm] at path
      exact path
  | cons x later ih =>
      obtain ⟨earlier,rest,rfl⟩ := List.append_of_mem (perm.subset List.mem_cons_self)
      have once : x ∉ later := (List.nodup_cons.mp (perm.nodup_iff.mpr distinct)).1
      obtain ⟨absent,distinct'⟩ := List.nodup_cons.mp (List.nodup_middle.mp distinct)
      have apart : ∀ y ∈ earlier, ¬ (footprint (action y.1)).Meets (footprint (action x.1)) := by
        intro y member meets
        have pair : List.Sublist [y,x] (earlier ++ x :: rest) :=
          (List.singleton_sublist.mpr member).append (List.singleton_sublist.mpr List.mem_cons_self)
        exact once (head_again (kept y x meets pair))
      have less : List.Sublist (earlier ++ rest) (earlier ++ x :: rest) :=
        (List.Sublist.refl earlier).append (List.sublist_cons_self x rest)
      cases path.forward isLocal apart with
      | cons step path =>
          refine .cons step (ih distinct' (perm.trans List.perm_middle).cons_inv ?_ path)
          intro y z meets pair
          rcases List.sublist_cons_iff.mp (kept y z meets (pair.trans less)) with inside | ⟨_,same,_⟩
          · exact inside
          · cases same
            exact absurd (pair.subset List.mem_cons_self) absent
end order

end Footprints
