import Mathlib.Algebra.Order.Ring.Int

-- Deterministic machines over arbitrary states and actions, the histories of
-- their runs (newest transition first) and the projection of a history to the
-- labelled protocol that one component of the machine follows.
structure Machine (S A : Type) where
  start : S → Prop
  step : S → A → Option S

structure Transition (S A : Type) where
  before : S
  action : A
  after : S

namespace Machine
variable {S A L V : Type} {m : Machine S A}

inductive History (m : Machine S A) (origin : S) : List (Transition S A) → S → Prop where
  | nil : History m origin [] origin
  | cons : History m origin earlier s → m.step s action = some next →
      History m origin (⟨s,action,next⟩ :: earlier) next

def Reachable (m : Machine S A) (s : S) : Prop := ∃ origin history, m.start origin ∧ History m origin history s

theorem History.append (first : History m origin earlier middle) (second : History m middle later s) :
    History m origin (later ++ earlier) s := by
  induction second with
  | nil => exact first
  | cons _ step ih => exact .cons ih step

theorem History.split (path : History m origin (later ++ earlier) s) :
    ∃ middle, History m origin earlier middle ∧ History m middle later s := by
  induction later generalizing s with
  | nil => exact ⟨s,path,.nil⟩
  | cons t later ih =>
      cases path with
      | cons prior step =>
          obtain ⟨middle,first,second⟩ := ih prior
          exact ⟨middle,first,.cons second step⟩

-- What surrounds one transition of a history.
theorem History.around (path : History m origin (later ++ t :: earlier) s) :
    History m origin earlier t.before ∧ m.step t.before t.action = some t.after ∧
      History m t.after later s := by
  obtain ⟨middle,first,second⟩ := path.split
  cases first with
  | cons prior step => exact ⟨prior,step,second⟩

theorem Reachable.extend (reached : Reachable m origin) (path : History m origin history s) : Reachable m s := by
  obtain ⟨first,earlier,started,prior⟩ := reached
  exact ⟨first,history ++ earlier,started,prior.append path⟩

-- The history of a given list of actions, oldest action first; none when one
-- of them is not admitted.
def replay (m : Machine S A) : List A → List (Transition S A) → S → Option (List (Transition S A) × S)
  | [],earlier,s => some (earlier,s)
  | action :: rest,earlier,s =>
    match m.step s action with
    | none => none
    | some next => replay m rest (⟨s,action,next⟩ :: earlier) next

theorem replay_history (prior : History m origin earlier s)
    (ran : replay m actions earlier s = some (history,next)) : History m origin history next := by
  induction actions generalizing earlier s with
  | nil => cases ran; exact prior
  | cons action rest ih =>
      unfold replay at ran
      split at ran
      · cases ran
      · rename_i middle step
        exact ih (.cons prior step) ran

-- A history carried along a translation of states and actions.
theorem History.carried {T B : Type} {m' : Machine T B} {f : S → T} {g : A → B}
    (commutes : ∀ s action, m'.step (f s) (g action) = (m.step s action).map f) (path : History m origin history s) :
    History m' (f origin) (history.map fun t => ⟨f t.before,g t.action,f t.after⟩) (f s) := by
  induction path with
  | nil => exact .nil
  | @cons earlier s action next _ step ih =>
      refine .cons ih ?_
      rw [commutes,step]
      rfl

-- A protocol seen through a view: labelled steps on the viewed states.
inductive Path (R : V → L → V → Prop) (origin : V) : List L → V → Prop where
  | nil : Path R origin [] origin
  | cons : Path R origin earlier v → R v label next → Path R origin (label :: earlier) next

theorem History.project {f : S → V} {g : Transition S A → L} {R : V → L → V → Prop}
    (sound : ∀ {s action next}, m.step s action = some next → R (f s) (g ⟨s,action,next⟩) (f next))
    (path : History m origin history s) : Path R (f origin) (history.map g) (f s) := by
  induction path with
  | nil => exact .nil
  | cons _ step ih => exact .cons ih (sound step)

theorem Path.invariant {R : V → L → V → Prop} {I : List L → V → Prop} (initial : I [] origin)
    (preserved : ∀ {earlier v label next}, I earlier v → R v label next → I (label :: earlier) next)
    (path : Path R origin labels v) : I labels v := by
  induction path with
  | nil => exact initial
  | cons _ step ih => exact preserved ih step

-- Amortized cost along a path: what a label costs is taken out of a potential,
-- which some labels fill up again.
theorem Path.amortized {R : V → L → V → Prop} {I : List L → V → Prop} {cost gain : L → Int} {potential : V → Int}
    (initial : I [] origin) (preserved : ∀ {earlier v label next}, I earlier v → R v label next → I (label :: earlier) next)
    (paid : ∀ {earlier v label next}, I earlier v → R v label next →
      cost label + potential next ≤ potential v + gain label)
    (path : Path R origin labels v) :
    (labels.map cost).sum + potential v ≤ potential origin + (labels.map gain).sum := by
  have along : I labels v ∧ (labels.map cost).sum + potential v ≤ potential origin + (labels.map gain).sum := by
    induction path with
    | nil => exact ⟨initial,by simp⟩
    | cons _ step ih =>
        obtain ⟨before,spent⟩ := ih
        have one := paid before step
        refine ⟨preserved before step,?_⟩
        rw [List.map_cons,List.map_cons,List.sum_cons,List.sum_cons]
        omega
  exact along.2

-- Where every good state short of the goal allows a step to a good state of
-- smaller measure, some finite schedule of allowed actions reaches the goal.
theorem drains {good goal : S → Prop} {allowed : A → Prop} (measure : S → Nat)
    (forward : ∀ s, good s → ¬ goal s →
      ∃ action next, allowed action ∧ m.step s action = some next ∧ good next ∧ measure next < measure s)
    (ready : good s) : ∃ history s', History m s history s' ∧ (∀ t ∈ history, allowed t.action) ∧ goal s' := by
  generalize bound : measure s = n
  induction n using Nat.strongRecOn generalizing s with
  | ind n ih =>
      by_cases done : goal s
      · exact ⟨[],s,.nil,fun t member => (by cases member),done⟩
      · obtain ⟨action,next,admitted,step,still,less⟩ := forward s ready done
        obtain ⟨history,s',path,all,reached⟩ := ih (measure next) (bound ▸ less) still rfl
        have first : History m s [⟨s,action,next⟩] next := .cons .nil step
        refine ⟨history ++ [⟨s,action,next⟩],s',first.append path,?_,reached⟩
        intro t member
        rcases List.mem_append.mp member with later | now
        · exact all t later
        · rw [List.mem_singleton.mp now]
          exact admitted

end Machine
