import Solclash.Endings
import Solclash.Exits

-- What the end of an event leaves to whom: how much of a stake is sure to come
-- back, and how little can be left for the creator when all are paid.
namespace Solclash.Recovery
open EventProtocol EventBook EventPurse Lifetimes TerminalPhase Solvency Refusals Exits Endings FloorShare

-- Without a price every settled stake was paid back to the last lamport.
structure Returned (labels : List Label) (e : Event) : Prop where
  ending : Ending labels e
  whole : e.status = .refundable → ¬ Finalized labels → paidTotal labels = settledPart e labels

variable {key : EventKey} {labels : List Label} {l : Label} {e e' : Event} {v next : View}
  {bets : Pubkey → Option BetEntry} {bettor : Pubkey} {entry : BetEntry}

theorem returned_fresh (fresh : Fresh key now e) : Returned [] e :=
  ⟨ending_fresh fresh,fun refundable => (not_terminal_open fresh.status (.inr refundable)).elim⟩

theorem whole_start (book : Book key labels e bets) (early : ¬ Terminal e.status) (silent : Silent l) (e' : Event) :
    paidTotal (l :: labels) = settledPart e' (l :: labels) := by
  obtain ⟨_,nothing,unpaid⟩ := book.unsettled early
  rw [settledPart_zero fun outcome => by rw [silent.settledStake]; exact nothing outcome,silent.paidTotal]
  exact unpaid

theorem whole_silent (whole : paidTotal labels = settledPart e labels) (silent : Silent l) :
    paidTotal (l :: labels) = settledPart e (l :: labels) := by
  rw [silent.paidTotal,settledPart_silent silent]
  exact whole

-- A share of the whole pot, by the pot, is the stake itself.
theorem whole_refunded (whole : paidTotal labels = settledPart e labels) (pool : e.payoutPool = e.pot)
    (staked : e.pot.val ≠ 0)
    (grown : settledPart e (.refunded now bettor entry paid :: labels) = settledPart e labels + entry.stake.val)
    (share : paid = e.payoutPool.val * entry.stake.val / e.pot.val) :
    paidTotal (.refunded now bettor entry paid :: labels) = settledPart e (.refunded now bettor entry paid :: labels) := by
  rw [pool,Int.mul_ediv_cancel_left _ staked] at share
  have total : paidTotal (.refunded now bettor entry paid :: labels) = paid + paidTotal labels := tally_cons ..
  rw [total,grown,share,whole]
  exact Int.add_comm ..

theorem returned_step (book : Book key labels e v.bets) (before : Returned labels e) (step : EventStep key v l next)
    (found : v.event = some e) (found' : next.event = some e') : Returned (l :: labels) e' := by
  refine ⟨ending_step book before.ending step found found',?_⟩
  obtain ⟨ending,whole⟩ := before
  intro refundable unfinalized
  cases step with
  | created vacant => rw [found] at vacant; cases vacant
  | placed same _ opened =>
      rw [found] at same; cases same; cases found'
      rw [Event.withBook_status,opened] at refundable
      cases refundable
  | cancelled same _ opened =>
      rw [found] at same; cases same; cases found'
      rw [Event.withBook_status,opened] at refundable
      cases refundable
  | locked => cases found'; cases refundable
  | oneSided same _ opened =>
      rw [found] at same; cases same; cases found'
      exact whole_start book (not_terminal_open opened) (silent_of rfl) _
  | resolved => cases found'; cases refundable
  | challenged _ _ resolving =>
      cases found'
      cases resolving.symm.trans refundable
  | ambiguous => exact (unfinalized (finalized_now ..)).elim
  | decided => exact (unfinalized (finalized_now ..)).elim
  | claimed _ _ resolved =>
      cases found'
      cases resolved.symm.trans refundable
  | marked same _ isLocked =>
      rw [found] at same; cases same; cases found'
      exact whole_start book (not_terminal_locked isLocked) (silent_of rfl) _
  | refunded same _ _ _ held staked =>
      rw [found] at same; cases same; cases found'
      rw [Finalized.skip rfl] at unfinalized
      have known := (book.entries _ _ held).known
      exact whole_refunded (whole refundable unfinalized) (ending.returned refundable unfinalized) staked
        (grown_refund (fun _ => rfl) refundable known) rfl
  | closed => cases found'
  | donated =>
      rw [show v.event = some e' from found'] at found; cases found
      rw [Finalized.skip rfl] at unfinalized
      exact whole_silent (whole refundable unfinalized) (silent_of rfl)
  | quiet =>
      rw [show v.event = some e' from found'] at found; cases found
      rw [Finalized.skip rfl] at unfinalized
      exact whole_silent (whole refundable unfinalized) (silent_of rfl)

theorem returned_run (genesis : Genesis origin) (run : Run origin history s) (found : s.events key = some e) :
    Returned (sinceCreation (labelsAt key history)) e :=
  life_run (P:=Returned) returned_fresh returned_step genesis run found

-- When nobody waits for a payment any more, all that divides the pool is settled.
theorem settled_won (book : Book key labels e bets) (resolved : e.status = .resolved) (known : Known winner)
    (won : e.candidateOutcome = some winner) (paid : AllPaid e bets) : settledPart e labels = divisor e := by
  have nobody : openStake winner bets = 0 := by
    apply Classical.byContradiction
    intro occupied
    obtain ⟨bettor,entry,held,weight⟩ := KeyedTotal.total_occupied occupied
    have same : entry.outcome = winner := by
      apply Classical.byContradiction
      intro other
      exact weight (sideWeight_other other)
    exact paid bettor entry held (fun _ => same ▸ won)
  have side := book.sides winner known
  rw [divisor_won resolved won,settledPart_won resolved won]
  omega

theorem settled_refund (book : Book key labels e bets) (refundable : e.status = .refundable) (paid : AllPaid e bets) :
    settledPart e labels = divisor e := by
  have vacant := nobody_left refundable paid
  have yes := book.sides outcomeYes (.inr rfl)
  have no := book.sides outcomeNo (.inl rfl)
  have pot := book.pot
  have yesEmpty : openStake outcomeYes bets = 0 := KeyedTotal.total_empty vacant
  have noEmpty : openStake outcomeNo bets = 0 := KeyedTotal.total_empty vacant
  rw [side_yes,yesEmpty] at yes
  rw [side_no,noEmpty] at no
  rw [divisor_refund refundable,settledPart_refund refundable]
  omega

structure Dust (labels : List Label) (e : Event) (dust : Int) : Prop where
  none : settledCount labels = 0 → dust = 0
  some : 0 < settledCount labels → 0 ≤ dust ∧ dust < settledCount labels
  whole : e.status = .refundable → ¬ Finalized labels → dust = 0

theorem dust_zero (labels : List Label) (e : Event) : Dust labels e 0 :=
  ⟨fun _ => rfl,fun someone => ⟨Int.le_refl 0,someone⟩,fun _ _ => rfl⟩

theorem dust_drawn (drawn : Drawn e.payoutPool.val (divisor e) (divisor e) (paidTotal labels) (settledCount labels))
    (positive : 0 < divisor e) (within : paidTotal labels ≤ e.payoutPool.val)
    (finalized : e.status = .refundable → Finalized labels) : Dust labels e (e.payoutPool.val - paidTotal labels) where
  none := by
    intro nobody
    have least := drawn.share_le positive nobody
    rw [share_whole _ positive] at least
    omega
  some := by
    intro someone
    have most := drawn.share_lt positive someone
    rw [share_whole _ positive] at most
    exact ⟨by omega,by omega⟩
  whole := fun refundable unfinalized => (unfinalized (finalized refundable)).elim

theorem dust_left (book : Book key labels e bets) (purse : Purse base labels e escrow) (returned : Returned labels e)
    (terminal : Terminal e.status) (paid : AllPaid e bets) :
    Dust labels e (e.payoutPool.val - paidTotal labels) := by
  have drawn := purse.drawn terminal
  have within := purse.within terminal
  rcases terminal with resolved | refundable
  · obtain ⟨winner,won⟩ := purse.decided resolved
    have known := purse.winner (.inr resolved) winner won
    rw [settled_won book resolved known won paid] at drawn
    exact dust_drawn drawn (divisor_positive book resolved won known) within
      (fun refundable => by rw [resolved] at refundable; cases refundable)
  · by_cases finalized : Finalized labels
    · obtain ⟨_,_,least⟩ := returned.ending.voided refundable finalized
      have staked : 0 < 2 * minStakeLamportsDev.val := by decide
      rw [settled_refund book refundable paid] at drawn
      refine dust_drawn drawn ?_ within (fun _ => finalized)
      rw [divisor_refund refundable]
      omega
    · have pool := returned.ending.returned refundable finalized
      have whole := returned.whole refundable finalized
      rw [settled_refund book refundable paid,divisor_refund refundable] at whole
      rw [whole,pool,Int.sub_self]
      exact dust_zero labels e

-- What the closing sweeps, in a life that began with the step t.
def Swept (key : EventKey) (t : Step) (later : List Step) (e : Event) (amount : Int) : Prop :=
  ∃ dust, Dust (labelsAt key later) e dust ∧
    amount = (t.after.lamports (.eventPda key)).val + donatedTotal (labelsAt key later) + dust

theorem creator_sweeps_dust {t : Step} {later past : List Step} (genesis : Genesis origin)
    (run : Run origin (later ++ t :: past) s) (created : label key t = .created escrow)
    (unclosed : ∀ l ∈ labelsAt key later, ¬ Closing l) :
    ∃ e, s.events key = some e ∧
      (Terminal e.status → AllPaid e (s.bets key) → Swept key t later e (s.lamports (.eventPda key)).val) ∧
      ∀ {ctx : CloseEvent} {after}, ctx.event = key → closeEvent ctx s = .ok after →
        Terminal e.status ∧ AllPaid e (s.bets key) ∧
        Swept key t later e ((after.lamports (.wallet e.creator)).val - (s.lamports (.wallet e.creator)).val) ∧
        (after.lamports (.eventPda key)).val = 0 := by
  obtain ⟨alive,life,birth,funded⟩ := life_of run created unclosed
  obtain ⟨e,found⟩ := Option.ne_none_iff_exists'.mp alive
  have sound := sound_reachable key genesis run
  have book := sound.book.kept e found
  have purse := sound.purse e found
  have returned := returned_run genesis run found
  rw [life] at book purse returned
  rw [birth,← funded] at purse
  have swept : Terminal e.status → AllPaid e (s.bets key) → Swept key t later e (s.lamports (.eventPda key)).val := by
    intro terminal paid
    refine ⟨_,dust_left book purse returned terminal paid,?_⟩
    have balance := purse.balance
    rcases terminal with status | status <;> simp only [liability,status] at balance <;> exact balance
  refine ⟨e,found,swept,?_⟩
  intro ctx after own ran
  obtain ⟨e',lamports,loaded,recipient,terminal,complete,closed,rfl⟩ := closeEvent_parts ran
  obtain ⟨present,_⟩ := loadEvent_parts.mp loaded
  subst own
  rw [found] at present
  cases present
  have paid : AllPaid e (s.bets ctx.event) := by
    intro bettor entry held
    have vacant : s.bets ctx.event bettor = none := book_empty book complete bettor
    rw [vacant] at held
    cases held
  have moved := closeAccount_moved (by simp) closed
  have gets := moved.gets
  have pays := moved.pays
  rw [recipient] at gets
  refine ⟨terminal,paid,?_,?_⟩
  · have amount : (lamports (.wallet e.creator)).val - (s.lamports (.wallet e.creator)).val =
        (s.lamports (.eventPda ctx.event)).val := by omega
    rw [putEvent_lamports,amount]
    exact swept terminal paid
  · rw [putEvent_lamports,pays]
    exact Int.sub_self _

section sample
open SampleMarket

def sinceRefundedCreation : List Step := (historyOf refunded).take 3

theorem creator_sweeps_dust_sample : ∃ after, closeEvent ⟨bob,market,creator⟩ (stateOf refunded) = .ok after ∧
    Swept market (stepOf [] create) sinceRefundedCreation refundedEvent
      ((after.lamports (.wallet creator)).val - ((stateOf refunded).lamports (.wallet creator)).val) := by
  have run : Run opening (sinceRefundedCreation ++ stepOf [] create :: []) (stateOf refunded) :=
    play_run (rfl : (play refunded).isSome = true)
  have created : label market (stepOf [] create) = .created ((stepOf [] create).after.lamports (.eventPda market)) := rfl
  have unclosed : ∀ l ∈ labelsAt market sinceRefundedCreation, ¬ Closing l := by decide
  obtain ⟨e,found,_,closing⟩ := creator_sweeps_dust opening_genesis run created unclosed
  have same : e = refundedEvent := Option.some.inj (found.symm.trans rfl)
  subst same
  exact ⟨_,rfl,(@closing ⟨bob,market,creator⟩ _ rfl rfl).2.2.1⟩
end sample

-- What an open entry of an ended event is worth, by the way the event ended.
structure Guaranteed (labels : List Label) (e : Event) (entry : BetEntry) (amount : Int) : Prop where
  returned : e.status = .refundable → ¬ Finalized labels → amount = entry.stake.val
  voided : e.status = .refundable → Finalized labels →
    amount = entry.stake.val - ceilShare resolverRewardDev.val entry.stake.val e.pot.val ∧
      entry.stake.val - ceilShare 1 entry.stake.val 20 ≤ amount
  won : e.status = .resolved → 9 * entry.stake.val / 10 ≤ amount

structure Recovered (key : EventKey) (s after : Chain) (bettor : Pubkey) (amount : Int) : Prop where
  wallet : (after.lamports (.wallet bettor)).val =
    (s.lamports (.wallet bettor)).val + amount + (s.lamports (.betPda key bettor)).val
  escrow : (s.lamports (.eventPda key)).val - (after.lamports (.eventPda key)).val = amount

section guarantees
variable {s after : Chain} {sys : Sysvars} {base : Int}

theorem due_won (resolved : e.status = .resolved) (won : e.candidateOutcome = some entry.outcome) :
    due e entry = e.payoutPool.val * entry.stake.val / (e.side entry.outcome).val := by
  rw [due,divisor_won resolved won]; rfl
theorem due_refund (refundable : e.status = .refundable) :
    due e entry = e.payoutPool.val * entry.stake.val / e.pot.val := by
  rw [due,divisor_refund refundable]; rfl

-- The fee takes a tenth, and the other side pays for the reward.
theorem won_rate (book : Book key labels e bets) (ending : Ending labels e) (resolved : e.status = .resolved)
    (known : Known outcome) : 9 * (e.side outcome).val ≤ e.payoutPool.val * 10 := by
  obtain ⟨_,pool⟩ := ending.decided resolved
  obtain ⟨yes,no⟩ := book.twoSided (.inr (.inr resolved))
  have pot := book.pot
  have reward : resolverRewardDev.val = 1830000 := rfl
  have least : minStakeLamportsDev.val = 18300000 := rfl
  have part : (e.side outcome).val + minStakeLamportsDev.val ≤ e.pot.val := by
    rcases known with rfl | rfl
    · rw [side_no]; omega
    · rw [side_yes]; omega
  unfold protocolFee potAfterReward at pool
  omega

theorem guaranteed (facts : Facts key s e labels base) (ending : Ending labels e) (terminal : Terminal e.status)
    (held : s.bets key bettor = some entry) (right : entitled e entry) : Guaranteed labels e entry (due e entry) := by
  obtain ⟨positive,_⟩ := share_payable facts terminal held right
  have nonneg := entry.stake.lower
  exact {
    returned := by
      intro refundable unfinalized
      rw [divisor_refund refundable] at positive
      rw [due_refund refundable,ending.returned refundable unfinalized]
      exact Int.mul_ediv_cancel_left _ positive.ne'
    voided := by
      intro refundable finalized
      obtain ⟨_,pool,least⟩ := ending.voided refundable finalized
      rw [divisor_refund refundable] at positive
      have rest : due e entry = entry.stake.val - ceilShare resolverRewardDev.val entry.stake.val e.pot.val := by
        rw [due,divisor_refund refundable,pool,potAfterReward]
        exact share_rest _ _ positive
      have twentieth : resolverRewardDev.val * 20 ≤ 1 * e.pot.val := by
        have reward : resolverRewardDev.val * 20 = 2 * minStakeLamportsDev.val := rfl
        omega
      have most := ceilShare_rate positive (by decide) nonneg twentieth
      exact ⟨rest,by omega⟩
    won := by
      intro resolved
      have won := right resolved
      have known := (facts.book.entries bettor entry held).known
      rw [due,divisor_won resolved won]
      rw [divisor_won resolved won] at positive
      exact share_rate (by decide) positive nonneg (won_rate facts.book ending resolved known) }

theorem recovered (found : s.events key = some e) (terminal : Terminal e.status)
    (held : s.bets key bettor = some entry) (settles : Settles bettor key instruction)
    (ran : execute sys instruction s = .ok after) : Recovered key s after bettor (due e entry) := by
  rcases settles with rfl | rfl | rfl
  · obtain ⟨e',_,_,_,_,_,_,loaded,_,opened,_⟩ := cancelBet_parts ran
    obtain ⟨present,_⟩ := loadEvent_parts.mp loaded
    rw [found] at present
    cases present
    exact (not_terminal_open opened terminal).elim
  · obtain ⟨e',entry',payout,_,_,_,loaded,held',resolved,_,won,share,_,paid,closed,rfl⟩ := claim_parts ran
    obtain ⟨present,_⟩ := loadEvent_parts.mp loaded
    rw [found] at present
    rw [held] at held'
    cases present
    cases held'
    obtain ⟨_,amount⟩ := computeClaim_parts.mp share
    rw [due_won resolved won,← amount]
    obtain ⟨wallet,escrow⟩ := Payouts.paid_out paid closed
    exact ⟨wallet,escrow⟩
  · obtain ⟨e',entry',refund,_,_,_,loaded,held',refundable,_,share,_,paid,closed,rfl⟩ := claimRefund_parts ran
    obtain ⟨present,_⟩ := loadEvent_parts.mp loaded
    rw [found] at present
    rw [held] at held'
    cases present
    cases held'
    obtain ⟨_,amount⟩ := computeRefund_parts.mp share
    rw [due_refund refundable,← amount]
    obtain ⟨wallet,escrow⟩ := Payouts.paid_out paid closed
    exact ⟨wallet,escrow⟩

theorem settle_possible (reached : Reachable s) (later : s.clock.val ≤ sys.unixTimestamp.val)
    (nonneg : 0 ≤ sys.unixTimestamp.val) (found : s.events key = some e) (terminal : Terminal e.status)
    (held : s.bets key bettor = some entry) (right : entitled e entry) :
    ∃ instruction after, Settles bettor key instruction ∧ execute sys instruction s = .ok after := by
  rcases terminal with resolved | refundable
  · obtain ⟨after,ran⟩ := claim_possible reached later nonneg found held resolved (right resolved)
    exact ⟨_,after,.inr (.inl rfl),ran⟩
  · obtain ⟨after,ran⟩ := claimRefund_possible reached later nonneg found held refundable
    exact ⟨_,after,.inr (.inr rfl),ran⟩
end guarantees

theorem guaranteed_recovery (genesis : Genesis origin) (run : Run origin history s) (found : s.events key = some e)
    (terminal : Terminal e.status) (held : s.bets key bettor = some entry) (right : entitled e entry) :
    ∃ amount, Guaranteed (sinceCreation (labelsAt key history)) e entry amount ∧
      (∀ {sys : Sysvars} {instruction after}, Settles bettor key instruction → execute sys instruction s = .ok after →
        Recovered key s after bettor amount) ∧
      ∀ {sys : Sysvars}, s.clock ≤ sys.unixTimestamp → 0 ≤ sys.unixTimestamp.val →
        ∃ instruction after, Settles bettor key instruction ∧ execute sys instruction s = .ok after := by
  have sound := sound_reachable key genesis run
  have facts : Facts key s e (sinceCreation (labelsAt key history)) (birthEscrow (labelsAt key history)) :=
    ⟨found,sound.book.kept e found,sound.purse e found,sound.schedule e found,capped_run genesis.capped run⟩
  refine ⟨due e entry,guaranteed facts (ending_run genesis run found) terminal held right,?_,?_⟩
  · intro sys instruction after settles ran
    exact recovered found terminal held settles ran
  · intro sys later nonneg
    exact settle_possible ⟨origin,history,genesis,run⟩ later nonneg found terminal held right

section sample
open SampleMarket

-- Nine tenths of Alice's stake, before anybody has collected.
theorem guaranteed_recovery_sample : ∃ e amount, (stateOf deciding).events market = some e ∧
    Guaranteed (sinceCreation (labelsAt market (historyOf deciding))) e aliceEntry amount ∧ 18000000 ≤ amount ∧
    ∃ instruction after, Settles alice market instruction ∧
      execute (sysvars (.lit 700)) instruction (stateOf deciding) = .ok after ∧
      Recovered market (stateOf deciding) after alice amount := by
  have run : Run opening (historyOf deciding) (stateOf deciding) := play_run (rfl : (play deciding).isSome = true)
  have found : (stateOf deciding).events market = some (((stateOf deciding).events market).get rfl) := rfl
  have held : (stateOf deciding).bets market alice = some aliceEntry := rfl
  obtain ⟨amount,sure,pays,possible⟩ := guaranteed_recovery opening_genesis run found (.inl rfl) held (fun _ => rfl)
  obtain ⟨instruction,after,settles,ran⟩ := @possible (sysvars (.lit 700)) (by decide) (by decide)
  exact ⟨_,amount,found,sure,sure.won rfl,instruction,after,settles,ran,pays settles ran⟩
end sample

end Solclash.Recovery
