import Solclash.Lifetimes

-- What happens to the entry of one wallet at one event: it is placed when there
-- is none and leaves again by exactly one payment.
namespace Solclash.EntryProtocol
open EventProtocol EventBook Lifetimes

structure Payment where
  bettor : Pubkey
  entry : BetEntry
  amount : Int
  deriving DecidableEq

def payment : Label → Option Payment
  | .cancelled _ bettor entry paid | .claimed _ bettor entry paid | .refunded _ bettor entry paid =>
      some ⟨bettor,entry,paid⟩
  | _ => none
def bettorOf : Label → Option Pubkey
  | .placed _ bettor _ | .cancelled _ bettor _ _ | .claimed _ bettor _ _ | .refunded _ bettor _ _ => some bettor
  | _ => none
def places (bettor : Pubkey) : Label → Bool
  | .placed _ placer _ => placer = bettor
  | _ => false

inductive EntryStep (bettor : Pubkey) : Option BetEntry → Label → Option BetEntry → Prop where
  | placed : EntryStep bettor none (.placed now bettor entry) (some entry)
  | paid : payment l = some ⟨bettor,entry,amount⟩ → EntryStep bettor (some entry) l none
  | other : bettorOf l ≠ some bettor → EntryStep bettor held l held

variable {key : EventKey} {bettor : Pubkey} {entry : BetEntry} {l : Label} {labels : List Label}

theorem paid_bettor (paid : payment l = some p) : bettorOf l = some p.bettor := by
  cases l with
  | cancelled => cases paid; rfl
  | claimed => cases paid; rfl
  | refunded => cases paid; rfl
  | _ => cases paid

theorem EntryStep.place {bets : Pubkey → Option BetEntry} (vacant : bets placer = none) :
    EntryStep bettor (bets bettor) (.placed now placer entry) (Function.update bets placer (some entry) bettor) := by
  by_cases same : placer = bettor
  · subst same
    rw [vacant,Function.update_self]
    exact .placed
  · rw [Function.update_of_ne (Ne.symm same)]
    exact .other fun equal => same (Option.some.inj equal)

theorem EntryStep.pay {bets : Pubkey → Option BetEntry} (held : bets owner = some entry)
    (paid : payment l = some ⟨owner,entry,amount⟩) :
    EntryStep bettor (bets bettor) l (Function.update bets owner none bettor) := by
  by_cases same : owner = bettor
  · subst same
    rw [held,Function.update_self]
    exact .paid paid
  · rw [Function.update_of_ne (Ne.symm same)]
    refine .other fun equal => same ?_
    rw [paid_bettor paid] at equal
    exact Option.some.inj equal

-- The event's protocol, seen from one wallet.
theorem entry_step (step : EventStep key v l next) (bettor : Pubkey) :
    EntryStep bettor (v.bets bettor) l (next.bets bettor) := by
  cases step with
  | placed _ _ _ _ vacant => exact .place vacant
  | cancelled _ _ _ held => exact .pay held rfl
  | claimed _ _ _ _ held => exact .pay held rfl
  | refunded _ _ _ _ held => exact .pay held rfl
  | _ => exact .other (by intro absurd; cases absurd)

theorem entry_run (run : Run born history s) (bettor : Pubkey) :
    Machine.Path (EntryStep bettor) (born.bets key bettor) (labelsAt key history) (s.bets key bettor) :=
  Machine.History.project (f:=fun s => s.bets key bettor) (g:=label key)
    (fun step => entry_step (advance_projects key step) bettor) run

def paymentsTo (bettor : Pubkey) (labels : List Label) : List Payment :=
  (labels.filterMap payment).filter (·.bettor = bettor)

theorem paymentsTo_paid (paid : payment l = some ⟨bettor,entry,amount⟩) :
    paymentsTo bettor (l :: labels) = ⟨bettor,entry,amount⟩ :: paymentsTo bettor labels := by
  rw [paymentsTo,List.filterMap_cons_some paid,List.filter_cons_of_pos (by simp)]
  rfl

theorem paymentsTo_silent (silent : bettorOf l ≠ some bettor) :
    paymentsTo bettor (l :: labels) = paymentsTo bettor labels := by
  cases paid : payment l with
  | none => rw [paymentsTo,List.filterMap_cons_none paid]; rfl
  | some p =>
      have other : p.bettor ≠ bettor := by
        intro same
        exact silent (same ▸ paid_bettor paid)
      rw [paymentsTo,List.filterMap_cons_some paid,List.filter_cons_of_neg (by simpa using other)]
      rfl

-- While the wallet places no further bet, its open entry is paid at most once.
theorem paid_at_most_once (path : Machine.Path (EntryStep bettor) (some entry) labels held)
    (noRebet : ∀ l ∈ labels, places bettor l = false) :
    (paymentsTo bettor labels = [] ∧ held = some entry) ∨
      ∃ amount, paymentsTo bettor labels = [⟨bettor,entry,amount⟩] ∧ held = none := by
  induction path with
  | nil => exact .inl ⟨rfl,rfl⟩
  | cons _ step ih =>
      have prior := ih fun l' member => noRebet l' (List.mem_cons_of_mem _ member)
      cases step with
      | placed =>
          have placing := noRebet _ (List.mem_cons_self ..)
          simp [places] at placing
      | paid paid =>
          rw [paymentsTo_paid paid]
          rcases prior with ⟨unpaid,same⟩ | ⟨_,_,gone⟩
          · cases same
            exact .inr ⟨_,by rw [unpaid],rfl⟩
          · cases gone
      | other silent =>
          rw [paymentsTo_silent silent]
          exact prior

-- An entry that is open was placed in the current life of the event, and the
-- wallet did nothing at the event since.
def Placed (labels : List Label) (bettor : Pubkey) (entry : BetEntry) : Prop :=
  ∃ now newer older, labels = newer ++ .placed now bettor entry :: older ∧ ∀ l ∈ newer, bettorOf l ≠ some bettor

def OriginsAt (labels : List Label) (v : View) : Prop :=
  ∀ bettor entry, v.bets bettor = some entry → Placed (sinceCreation labels) bettor entry

theorem Placed.later (placed : Placed labels bettor entry) (silent : bettorOf l ≠ some bettor) :
    Placed (l :: labels) bettor entry := by
  obtain ⟨now,newer,older,split,quiet⟩ := placed
  refine ⟨now,l :: newer,older,by rw [split]; rfl,?_⟩
  intro l' member
  rcases List.mem_cons.mp member with rfl | old
  · exact silent
  · exact quiet l' old

theorem origins_step (book : BookAt key labels v) (before : OriginsAt labels v) (step : EventStep key v l next) :
    OriginsAt (l :: labels) next := by
  intro bettor entry held
  by_cases creating : Creating l
  · cases step with
    | created vacant =>
        have nobody := book.vacant vacant bettor
        change v.bets bettor = some entry at held
        rw [nobody] at held
        cases held
    | _ => cases creating
  · have living : sinceCreation (l :: labels) = l :: sinceCreation labels := by
      cases l with
      | created => exact False.elim (creating rfl)
      | _ => rfl
    rw [living]
    have own := entry_step step bettor
    rw [held] at own
    generalize past : v.bets bettor = old at own
    cases own with
    | placed => exact ⟨_,[],_,rfl,fun l member => (by cases member)⟩
    | other silent => exact (before bettor entry past).later silent

theorem origins_run (genesis : Genesis origin) (run : Run origin history s) (key : EventKey) :
    OriginsAt (labelsAt key history) (view key s) := by
  induction run with
  | nil =>
      intro bettor entry held
      have vacant := genesis.noBets key bettor
      change origin.bets key bettor = some entry at held
      rw [vacant] at held
      cases held
  | cons prior step ih =>
      exact origins_step (sound_reachable key genesis prior).book ih (advance_projects key step)

end Solclash.EntryProtocol
