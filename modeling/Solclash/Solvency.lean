import Solclash.Lifetimes

-- The PDA of an event always covers its rent and everything it still owes.
namespace Solclash.Solvency
open EventProtocol EventBook EventPurse EventSchedule Lifetimes

variable {key : EventKey} {labels : List Label} {e : Event} {bets : Pubkey → Option BetEntry}

-- A two-sided book holds at least two minimum stakes, more than the reward.
theorem reward_covered (book : Book key labels e bets) (twoSided : TwoSided e.status) :
    resolverRewardDev.val ≤ e.pot.val := by
  obtain ⟨yes,no⟩ := book.twoSided twoSided
  have pot := book.pot
  have small : resolverRewardDev.val ≤ minStakeLamportsDev.val + minStakeLamportsDev.val := by decide
  omega

theorem liability_nonneg (book : Book key labels e bets) (purse : Purse base labels e escrow) :
    0 ≤ liability e labels := by
  cases status : e.status with
  | «open» => simp only [liability,status]; exact e.pot.lower
  | locked => simp only [liability,status]; exact e.pot.lower
  | resolving =>
      have covered := reward_covered book (.inr (.inl status))
      simp only [liability,status]
      omega
  | resolved =>
      have within := purse.within (.inl status)
      simp only [liability,status]
      omega
  | refundable =>
      have within := purse.within (.inr status)
      simp only [liability,status]
      omega

theorem rent_covered (purse : Purse base labels e escrow) :
    e.rentExemptMinimum.val + liability e labels ≤ escrow := by
  have rent := purse.rent
  have gifts := donated_nonneg labels
  have balance := purse.balance
  omega

theorem escrow_solvent {t : Step} {later past : List Step} (genesis : Genesis origin)
    (run : Run origin (later ++ t :: past) s) (created : label key t = .created escrow)
    (unclosed : ∀ l ∈ labelsAt key later, ¬ Closing l) :
    ∃ e, s.events key = some e ∧
      (s.lamports (.eventPda key)).val = (t.after.lamports (.eventPda key)).val +
        donatedTotal (labelsAt key later) + liability e (labelsAt key later) ∧
      0 ≤ liability e (labelsAt key later) ∧
      e.rentExemptMinimum.val + liability e (labelsAt key later) ≤ (s.lamports (.eventPda key)).val := by
  obtain ⟨alive,life,birth,funded⟩ := life_of run created unclosed
  obtain ⟨e,found⟩ := Option.ne_none_iff_exists'.mp alive
  have sound := sound_reachable key genesis run
  have book := sound.book.kept e found
  have purse := sound.purse e found
  rw [life] at book purse
  rw [birth,← funded] at purse
  exact ⟨e,found,purse.balance,liability_nonneg book purse,rent_covered purse⟩

section sample
open SampleMarket

def creation : Step := stepOf [] create
def sinceSampleCreation : List Step := (historyOf settling).take 6

theorem escrow_solvent_sample : ∃ e, (stateOf settling).events market = some e ∧
    ((stateOf settling).lamports (.eventPda market)).val = (creation.after.lamports (.eventPda market)).val +
      donatedTotal (labelsAt market sinceSampleCreation) + liability e (labelsAt market sinceSampleCreation) ∧
    0 ≤ liability e (labelsAt market sinceSampleCreation) ∧
    e.rentExemptMinimum.val + liability e (labelsAt market sinceSampleCreation) ≤
      ((stateOf settling).lamports (.eventPda market)).val := by
  have run : Run opening (sinceSampleCreation ++ creation :: []) (stateOf settling) := 
    play_run (rfl : (play settling).isSome = true)
  have created : label market creation = .created (creation.after.lamports (.eventPda market)) := rfl
  refine escrow_solvent opening_genesis run created ?_
  decide
end sample

end Solclash.Solvency
