import Solclash.Lifetimes

-- How an event came to its end, and what its payout pool then is: the whole pot
-- without a price, the pot less the reward (and the fee) with one.
namespace Solclash.Endings
open EventProtocol EventBook Lifetimes

def finalizes : Label → Bool
  | .finalized _ => true
  | _ => false
def Finalized (labels : List Label) : Prop := ∃ l ∈ labels, finalizes l = true

def potAfterReward (e : Event) : Int := e.pot.val - resolverRewardDev.val
def protocolFee (e : Event) : Int := potAfterReward e * 1000 / 10000

structure Ending (labels : List Label) (e : Event) : Prop where
  pending : ¬ Terminal e.status → ¬ Finalized labels
  returned : e.status = .refundable → ¬ Finalized labels → e.payoutPool = e.pot
  voided : e.status = .refundable → Finalized labels →
    e.candidateOutcome = none ∧ e.payoutPool.val = potAfterReward e ∧ 2 * minStakeLamportsDev.val ≤ e.pot.val
  decided : e.status = .resolved → Finalized labels ∧ e.payoutPool.val = potAfterReward e - protocolFee e

variable {key : EventKey} {labels : List Label} {l : Label} {e e' : Event} {v next : View}

theorem finalized_cons : Finalized (l :: labels) ↔ finalizes l = true ∨ Finalized labels := by
  simp [Finalized]

theorem Finalized.skip (other : finalizes l = false) : Finalized (l :: labels) ↔ Finalized labels := by
  simp [finalized_cons,other]

theorem finalized_now (now : I64) (labels : List Label) : Finalized (.finalized now :: labels) :=
  ⟨_,List.mem_cons_self ..,rfl⟩

-- A step before the end.
theorem ending_early (ending : Ending labels e) (early : ¬ Terminal e.status) (other : finalizes l = false)
    (still : ¬ Terminal e'.status) : Ending (l :: labels) e' where
  pending := fun _ => by rw [Finalized.skip other]; exact ending.pending early
  returned := fun refundable => (still (.inr refundable)).elim
  voided := fun refundable => (still (.inr refundable)).elim
  decided := fun resolved => (still (.inl resolved)).elim

-- The end without a price.
theorem ending_returned (ending : Ending labels e) (early : ¬ Terminal e.status) (other : finalizes l = false)
    (refundable : e'.status = .refundable) (whole : e'.payoutPool = e'.pot) : Ending (l :: labels) e' where
  pending := fun still => (still (.inr refundable)).elim
  returned := fun _ _ => whole
  voided := by
    intro _ finalized
    exact (ending.pending early ((Finalized.skip other).mp finalized)).elim
  decided := by
    intro resolved
    rw [refundable] at resolved
    cases resolved

-- A step after the end.
theorem ending_late (ending : Ending labels e) (terminal : Terminal e.status) (other : finalizes l = false)
    (count : U32) : Ending (l :: labels) {e with betsClosed := count} where
  pending := fun still => (still terminal).elim
  returned := by
    rw [Finalized.skip other]
    exact ending.returned
  voided := by
    rw [Finalized.skip other]
    exact ending.voided
  decided := by
    rw [Finalized.skip other]
    exact ending.decided

theorem ending_idle (ending : Ending labels e) (other : finalizes l = false) : Ending (l :: labels) e where
  pending := by rw [Finalized.skip other]; exact ending.pending
  returned := by rw [Finalized.skip other]; exact ending.returned
  voided := by rw [Finalized.skip other]; exact ending.voided
  decided := by rw [Finalized.skip other]; exact ending.decided

theorem ending_fresh (fresh : Fresh key now e) : Ending [] e where
  pending := fun _ finalized => by obtain ⟨l,member,_⟩ := finalized; cases member
  returned := fun refundable => (not_terminal_open fresh.status (.inr refundable)).elim
  voided := fun refundable => (not_terminal_open fresh.status (.inr refundable)).elim
  decided := fun resolved => (not_terminal_open fresh.status (.inl resolved)).elim

theorem two_minimums (book : Book key labels e bets) (resolving : e.status = .resolving) :
    2 * minStakeLamportsDev.val ≤ e.pot.val := by
  obtain ⟨yes,no⟩ := book.twoSided (.inr (.inl resolving))
  have pot := book.pot
  omega

theorem ending_step (book : Book key labels e v.bets) (ending : Ending labels e) (step : EventStep key v l next)
    (found : v.event = some e) (found' : next.event = some e') : Ending (l :: labels) e' := by
  cases step with
  | created vacant => rw [found] at vacant; cases vacant
  | placed same _ opened =>
      rw [found] at same; cases same; cases found'
      refine ending_early ending (not_terminal_open opened) rfl ?_
      rw [Event.withBook_status]
      exact not_terminal_open opened
  | cancelled same _ opened =>
      rw [found] at same; cases same; cases found'
      refine ending_early ending (not_terminal_open opened) rfl ?_
      rw [Event.withBook_status]
      exact not_terminal_open opened
  | locked same _ opened =>
      rw [found] at same; cases same; cases found'
      exact ending_early ending (not_terminal_open opened) rfl (not_terminal_locked rfl)
  | oneSided same _ opened =>
      rw [found] at same; cases same; cases found'
      exact ending_returned ending (not_terminal_open opened) rfl rfl rfl
  | resolved same _ isLocked =>
      rw [found] at same; cases same; cases found'
      exact ending_early ending (not_terminal_locked isLocked) rfl (not_terminal_resolving rfl)
  | challenged same _ resolving =>
      rw [found] at same; cases same; cases found'
      exact ending_early ending (not_terminal_resolving resolving) rfl (not_terminal_resolving resolving)
  | ambiguous same _ resolving _ undecided difference =>
      rw [found] at same; cases same; cases found'
      have least := two_minimums book resolving
      exact {
        pending := fun still => (still (.inr rfl)).elim
        returned := fun _ other => (other (finalized_now ..)).elim
        voided := fun _ _ => ⟨undecided,difference,least⟩
        decided := fun resolved => (by cases resolved) }
  | decided same _ _ _ _ charged difference =>
      rw [found] at same; cases same; cases found'
      rw [charged] at difference
      exact {
        pending := fun still => (still (.inl rfl)).elim
        returned := fun refundable => (by cases refundable)
        voided := fun refundable => (by cases refundable)
        decided := fun _ => ⟨finalized_now ..,difference⟩ }
  | claimed same _ resolved =>
      rw [found] at same; cases same; cases found'
      exact ending_late ending (.inl resolved) rfl _
  | marked same _ isLocked =>
      rw [found] at same; cases same; cases found'
      exact ending_returned ending (not_terminal_locked isLocked) rfl rfl rfl
  | refunded same _ refundable =>
      rw [found] at same; cases same; cases found'
      exact ending_late ending (.inr refundable) rfl _
  | closed => cases found'
  | donated => rw [show v.event = some e' from found'] at found; cases found; exact ending_idle ending rfl
  | quiet => rw [show v.event = some e' from found'] at found; cases found; exact ending_idle ending rfl

theorem ending_run (genesis : Genesis born) (run : Run born history s) (found : s.events key = some e) :
    Ending (sinceCreation (labelsAt key history)) e :=
  life_run (P:=Ending) ending_fresh ending_step genesis run found

end Solclash.Endings
