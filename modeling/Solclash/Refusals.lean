import Solclash.Payouts
import Solclash.Solvency

-- Every way in which an instruction can be refused in a reachable state. The
-- arithmetic, escrow and division guards behind the named checks never fire.
namespace Solclash.Refusals
open EventProtocol EventBook EventPurse EventSchedule Lifetimes Bookkeeping TerminalPhase Solvency
open Fallible FloorShare SolclashError AnchorError

structure Facts (key : EventKey) (s : Chain) (e : Event) (labels : List Label) (base : Int) : Prop where
  found : s.events key = some e
  book : Book key labels e (s.bets key)
  purse : Purse base labels e (s.lamports (.eventPda key)).val
  schedule : Schedule labels e s.clock.val
  capped : Balances.Capped s.lamports

variable {key : EventKey} {s : Chain} {sys : Sysvars} {e : Event} {entry : BetEntry} {bettor : Pubkey}
  {labels : List Label} {bets : Pubkey → Option BetEntry} {err : ProgramError}

theorem reachable_facts (reached : Reachable s) (found : s.events key = some e) :
    ∃ labels base, Facts key s e labels base := by
  obtain ⟨labels,sound⟩ := reachable_sound reached key
  exact ⟨_,_,found,sound.book.kept e found,sound.purse e found,sound.schedule e found,reachable_capped reached⟩

theorem Facts.loads (facts : Facts key s e labels base) : loadEvent s key = .ok e :=
  loadEvent_parts.mpr ⟨facts.found,facts.book.creator,facts.book.eventId⟩

theorem loadEvent_refused (reached : Reachable s) (ran : loadEvent s key = .error err) :
    err = accountNotInitialized ∧ s.events key = none := by
  cases found : s.events key with
  | none =>
      simp only [loadEvent,found,okOr] at ran
      cases ran
      exact ⟨rfl,rfl⟩
  | some e =>
      obtain ⟨_,_,facts⟩ := reachable_facts reached found
      exact (not_both facts.loads ran).elim

theorem loadBet_refused (ran : loadBet s key bettor = .error err) :
    err = accountNotInitialized ∧ s.bets key bettor = none := by
  obtain ⟨missing,rfl⟩ := okOr_error.mp ran
  exact ⟨rfl,missing⟩

-- What every handler reads first, and the facts about what it then holds.
theorem event_read (reached : Reachable s) {f : Event → Except ProgramError α}
    (ran : loadEvent s key >>= f = .error err) :
    (err = accountNotInitialized ∧ s.events key = none) ∨
      ∃ e labels base, s.events key = some e ∧ Facts key s e labels base ∧ f e = .error err := by
  rcases bind_error.mp ran with missing | ⟨e,loaded,ran⟩
  · exact .inl (loadEvent_refused reached missing)
  · have found := (loadEvent_parts.mp loaded).1
    obtain ⟨labels,base,facts⟩ := reachable_facts reached found
    exact .inr ⟨e,labels,base,found,facts,ran⟩

theorem entry_read (reached : Reachable s) {f : Event → BetEntry → Except ProgramError α}
    (ran : (loadEvent s key >>= fun e => loadBet s key bettor >>= f e) = .error err) :
    (err = accountNotInitialized ∧ (s.events key = none ∨ s.bets key bettor = none)) ∨
      ∃ e entry labels base, s.events key = some e ∧ s.bets key bettor = some entry ∧ Facts key s e labels base ∧
        f e entry = .error err := by
  rcases event_read reached ran with ⟨same,absent⟩ | ⟨e,labels,base,found,facts,ran⟩
  · exact .inl ⟨same,.inl absent⟩
  rcases bind_error.mp ran with missing | ⟨entry,taken,ran⟩
  · obtain ⟨same,absent⟩ := loadBet_refused missing
    exact .inl ⟨same,.inr absent⟩
  · exact .inr ⟨e,entry,labels,base,found,loadBet_parts.mp taken,facts,ran⟩

theorem requireEscrow_holds {lamports : Lamports}
    (covered : e.rentExemptMinimum.val + e.outstandingLiability.val ≤ (lamports (.eventPda key)).val)
    (ran : requireEscrow lamports key e = .error err) : False := by
  have passes : requireEscrow lamports key e = .ok () := requireEscrow_parts.mpr covered
  exact not_both passes ran

-- Every open entry stands for at least one minimum stake of the pot.
theorem count_bound (book : Book key labels e bets) (early : ¬ Terminal e.status) :
    minStakeLamportsDev.val * e.bettorCount.val ≤ e.pot.val := by
  have yes := book.sides outcomeYes (.inr rfl)
  have no := book.sides outcomeNo (.inl rfl)
  have count := book.count
  have pot := book.pot
  obtain ⟨nobody,nothing,_⟩ := book.unsettled early
  rw [side_yes,nothing] at yes
  rw [side_no,nothing] at no
  have each : KeyedTotal.total (fun _ => minStakeLamportsDev.val * 1) bets ≤
      KeyedTotal.total (fun entry => sideWeight outcomeYes entry + sideWeight outcomeNo entry) bets := by
    apply KeyedTotal.total_le
    intro bettor entry held
    have valid := book.entries bettor entry held
    have least := valid.least
    rcases valid.known with same | same
    · rw [sideWeight_same same,sideWeight_other (same ▸ outcomes_differ)]
      omega
    · rw [sideWeight_same same,sideWeight_other (same ▸ outcomes_differ.symm)]
      omega
  rw [KeyedTotal.total_mul,KeyedTotal.total_add] at each
  change minStakeLamportsDev.val * openCount bets ≤ openStake outcomeYes bets + openStake outcomeNo bets at each
  have plain : e.bettorCount.val = openCount bets := by omega
  rw [plain]
  omega

-- Whoever may still settle finds a positive divisor and the share in the PDA.
theorem share_payable (facts : Facts key s e labels base) (terminal : Terminal e.status)
    (held : s.bets key bettor = some entry) (right : entitled e entry) :
    0 < divisor e ∧ (∃ payout : U64, payout.val = due e entry) ∧
      due e entry ≤ (s.lamports (.eventPda key)).val := by
  have valid := facts.book.entries bettor entry held
  have least := valid.least
  have staked : 0 < minStakeLamportsDev.val := by decide
  have room : settledPart e labels + entry.stake.val ≤ divisor e := by
    rcases terminal with resolved | refundable
    · exact room_won facts.book resolved held (right resolved)
    · exact room_refund facts.book refundable held
  have settled : 0 ≤ settledPart e labels := by
    have yes := settledStake_nonneg outcomeYes labels
    have no := settledStake_nonneg outcomeNo labels
    unfold settledPart
    split
    · exact settledStake_nonneg _ labels
    · omega
  have positive : 0 < divisor e := by omega
  have pool := e.payoutPool.lower
  have affords := (facts.purse.drawn terminal).affords positive pool room
  have covered := rent_covered facts.purse
  have rent := e.rentExemptMinimum.lower
  have least : 0 ≤ due e entry := share_nonneg pool entry.stake.lower positive.le
  have most : due e entry ≤ e.payoutPool.val := share_le_pool positive pool (by omega)
  refine ⟨positive,⟨⟨due e entry,least,most.trans e.payoutPool.upper⟩,rfl⟩,?_⟩
  unfold due
  rcases terminal with status | status <;> simp only [liability,status] at covered <;> omega

theorem count_room (book : Book key labels e bets) (held : bets bettor = some entry) :
    e.betsClosed.val + 1 ≤ e.bettorCount.val := by
  have count := book.count
  have closed := book.closed
  have one := openCount_held held
  omega

theorem closeAccount_refused {lamports : Lamports} (capped : Balances.Capped lamports)
    (ran : closeAccount lamports account destination = .error err) : False := by
  have possible : ∃ after, closeAccount lamports account destination = .ok after := closeAccount_ok capped
  obtain ⟨after,closed⟩ := possible
  exact not_both closed ran

theorem transferFromPda_refused {lamports : Lamports} (capped : Balances.Capped lamports)
    (enough : amount.val ≤ (lamports source).val)
    (ran : transferFromPda lamports source target amount = .error err) : False := by
  have possible : ∃ after, transferFromPda lamports source target amount = .ok after := transferFromPda_ok capped enough
  obtain ⟨after,paid⟩ := possible
  exact not_both paid ran

theorem closed_counter (book : Book key labels e bets) (held : bets bettor = some entry) :
    e.betsClosed.checkedAdd (.lit 1) ≠ none := by
  intro overflow
  have room := count_room book held
  have lower := e.betsClosed.lower
  have upper := e.bettorCount.upper
  have failed := RangedInt.checkedAdd_none.mp overflow
  rw [RangedInt.lit_val] at failed
  omega

-- Once the amount is known and covered, nothing stops a settlement.
theorem settling_kept {payout : U64} {g : U32 → Lamports → Chain} (facts : Facts key s e labels base)
    (held : s.bets key bettor = some entry) (covered : payout.val ≤ (s.lamports (.eventPda key)).val)
    (ran : (do
      let lamports ← transferFromPda s.lamports (.eventPda key) (.wallet bettor) payout
      let betsClosed ← okOr (e.betsClosed.checkedAdd (.lit 1)) (mathOverflow : ProgramError)
      let lamports ← closeAccount lamports (.betPda key bettor) (.wallet bettor)
      pure (g betsClosed lamports)) = .error err) : False := by
  rcases bind_error.mp ran with failed | ⟨middle,transferred,ran⟩
  · exact transferFromPda_refused facts.capped covered failed
  rcases okOr_refused.mp ran with ⟨overflow,rfl⟩ | ⟨count,_,ran⟩
  · exact closed_counter facts.book held overflow
  rcases bind_error.mp ran with failed | ⟨_,_,ran⟩
  · exact closeAccount_refused (transferFromPda_capped facts.capped transferred) failed
  · exact pure_error.mp ran

theorem claim_refused (reached : Reachable s) (later : s.clock.val ≤ sys.unixTimestamp.val)
    (nonneg : 0 ≤ sys.unixTimestamp.val) {ctx : Claim} (ran : claim sys ctx s = .error err) :
    (err = accountNotInitialized ∧ (s.events ctx.event = none ∨ s.bets ctx.event ctx.bettor = none)) ∨
      ∃ e entry, s.events ctx.event = some e ∧ s.bets ctx.event ctx.bettor = some entry ∧
        ((err = eventNotResolved ∧ e.status ≠ .resolved) ∨
          (err = notWinningOutcome ∧ e.candidateOutcome ≠ some entry.outcome)) := by
  unfold claim at ran
  rcases entry_read reached ran with missing | ⟨e,entry,labels,base,found,held,facts,ran⟩
  · exact .inl missing
  refine .inr ⟨e,entry,found,held,?_⟩
  rcases require_refused.mp ran with ⟨unresolved,rfl⟩ | ⟨resolved,ran⟩
  · exact .inl ⟨rfl,unresolved⟩
  rcases require_refused.mp ran with ⟨early,rfl⟩ | ⟨_,ran⟩
  · have settleable := facts.schedule.settleable (.inl resolved)
    rw [RangedInt.le_iff] at early
    omega
  rcases okOr_refused.mp ran with ⟨undecided,rfl⟩ | ⟨winner,decided,ran⟩
  · obtain ⟨winner,decided⟩ := facts.purse.decided resolved
    rw [decided] at undecided
    cases undecided
  rcases require_refused.mp ran with ⟨lost,rfl⟩ | ⟨won,ran⟩
  · exact .inr ⟨rfl,by rw [decided]; exact fun same => lost (Option.some.inj same).symm⟩
  have right : e.candidateOutcome = some entry.outcome := by rw [decided,won]
  obtain ⟨positive,payable,covered⟩ := share_payable facts (.inl resolved) held (fun _ => right)
  rw [divisor_won resolved decided] at positive
  obtain ⟨payout,value⟩ := payable
  have share : computeClaim e.payoutPool entry.stake (e.side winner) = .ok payout :=
    computeClaim_parts.mpr ⟨positive.ne',by rw [value,due,divisor_won resolved decided]; rfl⟩
  change (lift (computeClaim e.payoutPool entry.stake (e.side winner)) >>= _) = _ at ran
  rw [bind_past (lift_ok.mpr share)] at ran
  exact (settling_kept facts held (by omega) ran).elim

theorem claimRefund_refused (reached : Reachable s) (later : s.clock.val ≤ sys.unixTimestamp.val)
    (nonneg : 0 ≤ sys.unixTimestamp.val) {ctx : ClaimRefund} (ran : claimRefund sys ctx s = .error err) :
    (err = accountNotInitialized ∧ (s.events ctx.event = none ∨ s.bets ctx.event ctx.bettor = none)) ∨
      ∃ e, s.events ctx.event = some e ∧ err = eventNotRefundable ∧ e.status ≠ .refundable := by
  unfold claimRefund at ran
  rcases entry_read reached ran with missing | ⟨e,entry,labels,base,found,held,facts,ran⟩
  · exact .inl missing
  refine .inr ⟨e,found,?_⟩
  rcases require_refused.mp ran with ⟨other,rfl⟩ | ⟨refundable,ran⟩
  · exact ⟨rfl,other⟩
  rcases require_refused.mp ran with ⟨early,rfl⟩ | ⟨_,ran⟩
  · have settleable := facts.schedule.settleable (.inr refundable)
    rw [RangedInt.le_iff] at early
    omega
  have right : entitled e entry := fun resolved => by rw [refundable] at resolved; cases resolved
  obtain ⟨positive,payable,covered⟩ := share_payable facts (.inr refundable) held right
  rw [divisor_refund refundable] at positive
  obtain ⟨refund,value⟩ := payable
  have share : computeRefund e.payoutPool entry.stake e.pot = .ok refund :=
    computeRefund_parts.mpr ⟨positive.ne',by rw [value,due,divisor_refund refundable]; rfl⟩
  rw [bind_past (lift_ok.mpr share)] at ran
  exact (settling_kept facts held (by omega) ran).elim

theorem side_le_pot (book : Book key labels e bets) (outcome : U8) : (e.side outcome).val ≤ e.pot.val := by
  have pot := book.pot
  have yes := e.yesStake.lower
  have no := e.noStake.lower
  unfold Event.side
  split <;> omega

-- The stake of an open entry is part of its side and of the pot.
theorem stake_counted (book : Book key labels e bets) (early : ¬ Terminal e.status)
    (held : bets bettor = some entry) : entry.stake.val ≤ (e.side entry.outcome).val ∧
      (e.side entry.outcome).val ≤ e.pot.val ∧ 1 ≤ e.bettorCount.val := by
  have known := (book.entries bettor entry held).known
  have side := book.sides entry.outcome known
  have part := openStake_held held
  have one := openCount_held held
  have count := book.count
  obtain ⟨nobody,nothing,_⟩ := book.unsettled early
  rw [nothing] at side
  exact ⟨by omega,side_le_pot book entry.outcome,by omega⟩

theorem escrow_early (facts : Facts key s e labels base) (early : e.status = .open ∨ e.status = .locked) :
    e.rentExemptMinimum.val + e.pot.val ≤ (s.lamports (.eventPda key)).val := by
  have covered := rent_covered facts.purse
  rcases early with status | status <;> simp only [liability,status] at covered <;> exact covered

theorem removeFromSide_refused {outcome : U8} {stake : U64} (enough : stake.val ≤ (e.side outcome).val)
    (ran : removeFromSide e outcome stake = .error err) : False := by
  have lower := stake.lower
  have upper := (e.side outcome).upper
  have done : removeFromSide e outcome stake = .ok _ :=
    removeFromSide_parts.mpr ⟨⟨(e.side outcome).val - stake.val,by omega,by omega⟩,rfl,rfl⟩
  exact not_both done ran

theorem addToSide_refused {outcome : U8} {stake : U64}
    (room : (e.side outcome).val + stake.val ≤ 18446744073709551615)
    (ran : addToSide e outcome stake = .error err) : False := by
  have lower := stake.lower
  have least := (e.side outcome).lower
  have done : addToSide e outcome stake = .ok _ :=
    addToSide_parts.mpr ⟨⟨(e.side outcome).val + stake.val,by omega,room⟩,rfl,rfl⟩
  exact not_both done ran

theorem withSide_bettorCount (outcome : U8) (side : U64) :
    (e.withSide outcome side).bettorCount = e.bettorCount := by
  unfold Event.withSide
  split <;> rfl

theorem cancelBet_refused (reached : Reachable s) {ctx : CancelBet} (ran : cancelBet ctx s = .error err) :
    (err = accountNotInitialized ∧ (s.events ctx.event = none ∨ s.bets ctx.event ctx.bettor = none)) ∨
      ∃ e, s.events ctx.event = some e ∧ err = cancelNotOpen ∧ e.status ≠ .open := by
  unfold cancelBet at ran
  rcases entry_read reached ran with missing | ⟨e,entry,labels,base,found,held,facts,ran⟩
  · exact .inl missing
  refine .inr ⟨e,found,?_⟩
  rcases require_refused.mp ran with ⟨other,rfl⟩ | ⟨opened,ran⟩
  · exact ⟨rfl,other⟩
  obtain ⟨part,whole,one⟩ := stake_counted facts.book (not_terminal_open opened) held
  have escrow := escrow_early facts (.inl opened)
  rcases okOr_refused.mp ran with ⟨overflow,rfl⟩ | ⟨pot,difference,ran⟩
  · have short := RangedInt.checkedSub_none.mp overflow
    have upper := e.pot.upper
    have positive := entry.stake.lower
    omega
  have less := RangedInt.checkedSub_some.mp difference
  rcases bind_error.mp ran with failed | ⟨booked,removed,ran⟩
  · have enough : entry.stake.val ≤ (({e with pot} : Event).side entry.outcome).val := part
    exact (removeFromSide_refused enough failed).elim
  obtain ⟨side,_,rfl⟩ := removeFromSide_parts.mp removed
  rcases okOr_refused.mp ran with ⟨overflow,rfl⟩ | ⟨count,_,ran⟩
  · have short := RangedInt.checkedSub_none.mp overflow
    rw [withSide_bettorCount,RangedInt.lit_val] at short
    have upper := e.bettorCount.upper
    change e.bettorCount.val - 1 < 0 ∨ 4294967295 < e.bettorCount.val - 1 at short
    omega
  rcases bind_error.mp ran with failed | ⟨middle,transferred,ran⟩
  · have rent := e.rentExemptMinimum.lower
    exact (transferFromPda_refused facts.capped (by omega) failed).elim
  rcases bind_error.mp ran with failed | ⟨_,_,ran⟩
  · refine (requireEscrow_holds ?_ failed).elim
    have left := (transferFromPda_moved (by simp) transferred).pays
    change (e.withBook entry.outcome pot side count).rentExemptMinimum.val +
      (e.withBook entry.outcome pot side count).outstandingLiability.val ≤ _
    simp only [Event.outstandingLiability,Event.withBook_status,opened,Event.withBook_pot,
      Event.withBook_rentExemptMinimum]
    omega
  rcases bind_error.mp ran with failed | ⟨_,_,ran⟩
  · exact (closeAccount_refused (transferFromPda_capped facts.capped transferred) failed).elim
  cases ran

theorem lockEvent_refused (reached : Reachable s) {ctx : LockEvent} (ran : lockEvent sys ctx s = .error err) :
    (err = accountNotInitialized ∧ s.events ctx.event = none) ∨
      ∃ e, s.events ctx.event = some e ∧ ((err = lockNotOpen ∧ e.status ≠ .open) ∨
        (err = lockTooEarly ∧ sys.unixTimestamp.val < e.bettingCloseTime.val)) := by
  unfold lockEvent at ran
  rcases event_read reached ran with missing | ⟨e,labels,base,found,facts,ran⟩
  · exact .inl missing
  refine .inr ⟨e,found,?_⟩
  rcases require_refused.mp ran with ⟨other,rfl⟩ | ⟨passed,ran⟩
  · exact .inl ⟨rfl,other⟩
  have escrow := escrow_early facts (.inl passed)
  rcases require_refused.mp ran with ⟨early,rfl⟩ | ⟨_,ran⟩
  · exact .inr ⟨rfl,Int.lt_of_not_ge early⟩
  rcases bind_error.mp ran with failed | ⟨_,_,ran⟩
  · refine (requireEscrow_holds ?_ failed).elim
    split <;> exact escrow
  cases ran

theorem markRefundable_refused (reached : Reachable s) {ctx : MarkRefundable}
    (ran : markRefundable sys ctx s = .error err) :
    (err = accountNotInitialized ∧ s.events ctx.event = none) ∨
      ∃ e, s.events ctx.event = some e ∧ ((err = markRefundableNotLocked ∧ e.status ≠ .locked) ∨
        (err = mathOverflow ∧ 9223372036854775807 < e.resolutionTime.val + resolutionTimeoutSecsDev.val) ∨
        (err = timeoutNotReached ∧
          sys.unixTimestamp.val < e.resolutionTime.val + resolutionTimeoutSecsDev.val)) := by
  unfold markRefundable at ran
  rcases event_read reached ran with missing | ⟨e,labels,base,found,facts,ran⟩
  · exact .inl missing
  refine .inr ⟨e,found,?_⟩
  rcases require_refused.mp ran with ⟨other,rfl⟩ | ⟨passed,ran⟩
  · exact .inl ⟨rfl,other⟩
  have escrow := escrow_early facts (.inr passed)
  rcases okOr_refused.mp ran with ⟨overflow,rfl⟩ | ⟨timeoutAt,sum,ran⟩
  · have late : 0 ≤ resolutionTimeoutSecsDev.val := by decide
    have lower := e.resolutionTime.lower
    have out := RangedInt.checkedAdd_none.mp overflow
    exact .inr (.inl ⟨rfl,by omega⟩)
  have deadline := RangedInt.checkedAdd_some.mp sum
  rcases require_refused.mp ran with ⟨early,rfl⟩ | ⟨_,ran⟩
  · rw [RangedInt.le_iff,deadline] at early
    exact .inr (.inr ⟨rfl,Int.lt_of_not_ge early⟩)
  rcases bind_error.mp ran with failed | ⟨_,_,ran⟩
  · exact (requireEscrow_holds escrow failed).elim
  cases ran

theorem closeEvent_refused (reached : Reachable s) {ctx : CloseEvent} (ran : closeEvent ctx s = .error err) :
    (err = accountNotInitialized ∧ s.events ctx.event = none) ∨
      ∃ e, s.events ctx.event = some e ∧ ((err = constraintAddress ∧ ctx.creator ≠ e.creator) ∨
        (err = eventNotTerminal ∧ ¬ Terminal e.status) ∨
        (err = payoutsNotComplete ∧ e.betsClosed.val ≠ e.bettorCount.val)) := by
  unfold closeEvent at ran
  rcases event_read reached ran with missing | ⟨e,labels,base,found,facts,ran⟩
  · exact .inl missing
  refine .inr ⟨e,found,?_⟩
  rcases require_refused.mp ran with ⟨other,rfl⟩ | ⟨_,ran⟩
  · exact .inl ⟨rfl,other⟩
  rcases require_refused.mp ran with ⟨early,rfl⟩ | ⟨_,ran⟩
  · exact .inr (.inl ⟨rfl,early⟩)
  rcases require_refused.mp ran with ⟨incomplete,rfl⟩ | ⟨_,ran⟩
  · exact .inr (.inr ⟨rfl,incomplete⟩)
  rcases bind_error.mp ran with failed | ⟨_,_,ran⟩
  · exact (closeAccount_refused (reachable_capped reached) failed).elim
  cases ran

-- The fee is a tenth of what the reward left, so none of its steps overflows.
theorem fee_fits (rest : U64) : ∃ product : U128, ∃ feeU128 : U128, ∃ protocolFee payoutPool : U64,
    (rest.widen : U128).checkedMul protocolFeeBps.widen = some product ∧
      product.checkedDiv (.lit 10000) = some feeU128 ∧ feeU128.tryFrom = some protocolFee ∧
      rest.checkedSub protocolFee = some payoutPool ∧ payoutPool.val = rest.val - protocolFee.val ∧
      protocolFee.val ≤ rest.val := by
  have lower := rest.lower
  have upper := rest.upper
  have rate : protocolFeeBps.val = 1000 := rfl
  have divided : (rest.val * 1000).tdiv 10000 = rest.val * 1000 / 10000 :=
    Int.tdiv_eq_ediv_of_nonneg (by omega)
  refine ⟨⟨rest.val * 1000,by omega,by omega⟩,⟨rest.val * 1000 / 10000,by omega,by omega⟩,
    ⟨rest.val * 1000 / 10000,by omega,by omega⟩,⟨rest.val - rest.val * 1000 / 10000,by omega,by omega⟩,?_,?_,?_,?_,
    rfl,?_⟩
  · rw [RangedInt.checkedMul_some,RangedInt.widen_val,RangedInt.widen_val,rate]
  · rw [RangedInt.checkedDiv_some,RangedInt.lit_val,divided]
    exact ⟨by decide,rfl⟩
  · rw [RangedInt.tryFrom_some]
  · rw [RangedInt.checkedSub_some]
  · change rest.val * 1000 / 10000 ≤ rest.val
    omega

theorem finalizeResolution_refused (reached : Reachable s) {ctx : FinalizeResolution}
    (ran : finalizeResolution sys ctx s = .error err) :
    (err = accountNotInitialized ∧ s.events ctx.event = none) ∨
      ∃ e, s.events ctx.event = some e ∧ ((err = constraintMut ∧ ctx.feeWalletWritable = false) ∨
        (err = feeWalletMismatch ∧ ctx.feeWallet ≠ feeWalletDev) ∨
        (err = eventNotResolving ∧ e.status ≠ .resolving) ∨
        (err = finalizeTooEarly ∧ sys.unixTimestamp.val < e.finalizedAt.val)) := by
  unfold finalizeResolution at ran
  rcases event_read reached ran with missing | ⟨e,labels,base,found,facts,ran⟩
  · exact .inl missing
  refine .inr ⟨e,found,?_⟩
  rcases require_refused.mp ran with ⟨other,rfl⟩ | ⟨_,ran⟩
  · exact .inl ⟨rfl,Bool.eq_false_iff.mpr other⟩
  rcases require_refused.mp ran with ⟨other,rfl⟩ | ⟨_,ran⟩
  · exact .inr (.inl ⟨rfl,other⟩)
  rcases require_refused.mp ran with ⟨other,rfl⟩ | ⟨resolving,ran⟩
  · exact .inr (.inr (.inl ⟨rfl,other⟩))
  have covered := rent_covered facts.purse
  simp only [liability,resolving] at covered
  rcases require_refused.mp ran with ⟨early,rfl⟩ | ⟨_,ran⟩
  · exact .inr (.inr (.inr ⟨rfl,Int.lt_of_not_ge early⟩))
  rcases okOr_refused.mp ran with ⟨overflow,rfl⟩ | ⟨rest,difference,ran⟩
  · have reward := reward_covered facts.book (.inr (.inl resolving))
    have lower := resolverRewardDev.lower
    have upper := e.pot.upper
    have short := RangedInt.checkedSub_none.mp overflow
    omega
  have left := RangedInt.checkedSub_some.mp difference
  split at ran
  · rcases bind_error.mp ran with failed | ⟨_,_,ran⟩
    · refine (requireEscrow_holds ?_ failed).elim
      change e.rentExemptMinimum.val + rest.val ≤ _
      omega
    cases ran
  · obtain ⟨product,feeU128,protocolFee,payoutPool,multiplied,divided,converted,kept,pool,small⟩ := fee_fits rest
    rw [multiplied,okOr_bind,divided,okOr_bind,converted,okOr_bind,kept,okOr_bind] at ran
    rcases bind_error.mp ran with failed | ⟨lamports,transferred,ran⟩
    · have rent := e.rentExemptMinimum.lower
      exact (transferFromPda_refused facts.capped (by omega) failed).elim
    rcases bind_error.mp ran with failed | ⟨_,_,ran⟩
    · refine (requireEscrow_holds ?_ failed).elim
      have gone := (transferFromPda_moved (by simp) transferred).pays
      change e.rentExemptMinimum.val + payoutPool.val ≤ _
      omega
    cases ran

theorem systemTransfer_refused {lamports : Lamports} :
    RefusesOnly (fun err : ProgramError => err = insufficientFunds ∨ err = balanceOverflow)
      (systemTransfer lamports source target amount) := by
  unfold systemTransfer
  apply RefusesOnly.lookup (.inl rfl)
  intro paid _
  exact .found (.inr rfl)

theorem initAccount_refused {lamports : Lamports} :
    RefusesOnly (fun err : ProgramError => err = insufficientFunds ∨ err = balanceOverflow)
      (initAccount sys lamports payer account space) := by
  unfold initAccount
  split
  · exact .returned _
  · exact systemTransfer_refused

-- The refusals that place_bet documents, next to those of its two transfers.
def placeBetErrors : List ProgramError :=
  [accountAlreadyInUse,insufficientFunds,balanceOverflow,eventNotOpen,bettingClosed,invalidOutcome,stakeTooLow,
    stakeTooHigh,potWouldExceedMax]

theorem transfer_listed (failed : err = insufficientFunds ∨ err = balanceOverflow) : err ∈ placeBetErrors := by
  rcases failed with rfl | rfl <;> decide

theorem placeBet_refused (reached : Reachable s) {ctx : PlaceBet}
    (ran : placeBet sys ctx outcome stake s = .error err) :
    (err = accountNotInitialized ∧ s.events ctx.event = none) ∨ err ∈ placeBetErrors := by
  unfold placeBet at ran
  rcases event_read reached ran with missing | ⟨e,labels,base,found,facts,ran⟩
  · exact .inl missing
  refine .inr ?_
  rcases require_refused.mp ran with ⟨_,rfl⟩ | ⟨_,ran⟩
  · decide
  rcases bind_error.mp ran with failed | ⟨funded,rented,ran⟩
  · exact transfer_listed (initAccount_refused.only failed)
  rcases require_refused.mp ran with ⟨_,rfl⟩ | ⟨opened,ran⟩
  · decide
  rcases require_refused.mp ran with ⟨_,rfl⟩ | ⟨_,ran⟩
  · decide
  rcases require_refused.mp ran with ⟨_,rfl⟩ | ⟨_,ran⟩
  · decide
  rcases require_refused.mp ran with ⟨_,rfl⟩ | ⟨_,ran⟩
  · decide
  rcases require_refused.mp ran with ⟨_,rfl⟩ | ⟨limited,ran⟩
  · decide
  have most : stake.val ≤ maxStakeLamportsDev.val := limited
  have cap := facts.book.cap
  have small : maxPotLamportsDev.val + maxStakeLamportsDev.val ≤ 18446744073709551615 := by decide
  have positive := stake.lower
  have potLower := e.pot.lower
  rcases okOr_refused.mp ran with ⟨overflow,rfl⟩ | ⟨pot,sum,ran⟩
  · have large := RangedInt.checkedAdd_none.mp overflow
    omega
  have total := RangedInt.checkedAdd_some.mp sum
  rcases require_refused.mp ran with ⟨_,rfl⟩ | ⟨_,ran⟩
  · decide
  rcases bind_error.mp ran with failed | ⟨lamports,paid,ran⟩
  · exact transfer_listed (systemTransfer_refused.only failed)
  rcases bind_error.mp ran with failed | ⟨booked,added,ran⟩
  · have whole := side_le_pot facts.book outcome
    have room : (({e with pot} : Event).side outcome).val + stake.val ≤ 18446744073709551615 := by
      change (e.side outcome).val + stake.val ≤ _
      omega
    exact (addToSide_refused room failed).elim
  obtain ⟨side,_,rfl⟩ := addToSide_parts.mp added
  rcases okOr_refused.mp ran with ⟨overflow,rfl⟩ | ⟨count,_,ran⟩
  · have large := RangedInt.checkedAdd_none.mp overflow
    rw [withSide_bettorCount,RangedInt.lit_val] at large
    change e.bettorCount.val + 1 < 0 ∨ 4294967295 < e.bettorCount.val + 1 at large
    have bound := count_bound facts.book (not_terminal_open opened)
    have least : minStakeLamportsDev.val = 18300000 := rfl
    have greatest : maxPotLamportsDev.val = 10000000000000000 := rfl
    have lower := e.bettorCount.lower
    rw [least] at bound
    omega
  rcases bind_error.mp ran with failed | ⟨_,_,ran⟩
  · refine (requireEscrow_holds ?_ failed).elim
    obtain ⟨_,_,rent,_⟩ := initAccount_moved (by simp) rented
    have received := (systemTransfer_moved (by simp) paid).gets
    rw [rent.others _ (by simp) (by simp)] at received
    have escrow := escrow_early facts (.inl opened)
    change (e.withBook outcome pot side count).rentExemptMinimum.val +
      (e.withBook outcome pot side count).outstandingLiability.val ≤ _
    simp only [Event.outstandingLiability,Event.withBook_status,opened,Event.withBook_pot,
      Event.withBook_rentExemptMinimum]
    omega
  cases ran

def defensiveErrors : List ProgramError := [escrowMismatch,zeroWinningStake,zeroPot,claimBeforeFinalized]

theorem lift_refuses {allowed : ProgramError → Prop} {x : Except SolclashError α}
    (refuses : RefusesOnly (fun cause => allowed (.solclash cause)) x) : RefusesOnly allowed (lift x) := by
  constructor
  intro err ran
  obtain ⟨cause,refused,rfl⟩ := lift_error.mp ran
  exact refuses.only refused

theorem verify_undefended :
    RefusesOnly (· ∉ defensiveErrors) (lift (verifyPriceUpdate update feedId resolutionTime)) := by
  have apart : ∀ cause ∈ verifyPriceUpdateErrors, ProgramError.solclash cause ∉ defensiveErrors := by decide
  exact lift_refuses ((verifyPriceUpdate_refused update feedId resolutionTime).weaken apart)

theorem band_undefended :
    RefusesOnly (· ∉ defensiveErrors) (lift (resolveConfidenceBand condition priceE8 confE8 thresholdE8)) := by
  apply lift_refuses
  apply resolveConfidenceBand_refused.weaken
  rintro cause (rfl | rfl) <;> decide

theorem init_undefended {lamports : Lamports} :
    RefusesOnly (· ∉ defensiveErrors) (initAccount sys lamports payer account space) := by
  apply initAccount_refused.weaken
  rintro cause (rfl | rfl) <;> decide

theorem transferFromPda_undefended {lamports : Lamports} :
    RefusesOnly (· ∉ defensiveErrors) (transferFromPda lamports source target amount) := by
  unfold transferFromPda
  apply RefusesOnly.lookup (by decide)
  intro paid _
  exact .found (by decide)

theorem event_undefended (reached : Reachable s) {f : Event → Except ProgramError α}
    (rest : ∀ e labels base, Facts key s e labels base → RefusesOnly (· ∉ defensiveErrors) (f e)) :
    RefusesOnly (· ∉ defensiveErrors) (loadEvent s key >>= f) := by
  constructor
  intro err ran
  rcases event_read reached ran with ⟨rfl,_⟩ | ⟨e,labels,base,_,facts,ran⟩
  · decide
  · exact (rest e labels base facts).only ran

theorem createEvent_refused {ctx : CreateEvent} : RefusesOnly (· ∉ defensiveErrors)
    (createEvent sys ctx feedId condition thresholdE8 bettingCloseTime resolutionTime s) := by
  unfold createEvent
  apply RefusesOnly.check (by decide)
  intro vacant
  apply init_undefended.sequence
  intro lamports _
  apply RefusesOnly.check (by decide)
  intro listed
  apply RefusesOnly.check (by decide)
  intro known
  apply RefusesOnly.check (by decide)
  intro future
  apply RefusesOnly.lookup (by decide)
  intro minResolution _
  apply RefusesOnly.check (by decide)
  intro gap
  exact .returned _

theorem resolveEvent_refused (reached : Reachable s) {ctx : ResolveEvent} :
    RefusesOnly (· ∉ defensiveErrors) (resolveEvent sys ctx s) := by
  unfold resolveEvent
  apply event_undefended reached
  intro e labels base facts
  apply RefusesOnly.check (by decide)
  intro isLocked
  have escrow := escrow_early facts (.inr isLocked)
  apply RefusesOnly.check (by decide)
  intro due
  apply verify_undefended.sequence
  intro verified _
  apply band_undefended.sequence
  intro outcome _
  apply RefusesOnly.lookup (by decide)
  intro finalizedAt _
  apply RefusesOnly.sequence
  · exact ⟨fun failed => (requireEscrow_holds escrow failed).elim⟩
  intro _ _
  apply transferFromPda_undefended.sequence
  intro lamports _
  exact .returned _

theorem challengeResolution_refused (reached : Reachable s) {ctx : ChallengeResolution} :
    RefusesOnly (· ∉ defensiveErrors) (challengeResolution sys ctx s) := by
  unfold challengeResolution
  apply event_undefended reached
  intro e labels base facts
  apply RefusesOnly.check (by decide)
  intro resolving
  apply RefusesOnly.check (by decide)
  intro inside
  apply verify_undefended.sequence
  intro verified _
  apply RefusesOnly.check (by decide)
  intro newer
  apply band_undefended.sequence
  intro outcome _
  exact .returned _

theorem claim_possible (reached : Reachable s) (later : s.clock.val ≤ sys.unixTimestamp.val)
    (nonneg : 0 ≤ sys.unixTimestamp.val) (found : s.events key = some e) (held : s.bets key bettor = some entry)
    (resolved : e.status = .resolved) (won : e.candidateOutcome = some entry.outcome) :
    ∃ next, claim sys ⟨bettor,key⟩ s = .ok next := by
  apply returns
  intro err ran
  rcases claim_refused reached later nonneg ran with ⟨_,absent | absent⟩ | ⟨e',entry',found',held',refusal⟩
  · rw [found] at absent; cases absent
  · rw [held] at absent; cases absent
  · rw [found] at found'; cases found'
    rw [held] at held'; cases held'
    rcases refusal with ⟨_,unresolved⟩ | ⟨_,lost⟩
    · exact (unresolved resolved).elim
    · exact (lost won).elim

theorem claimRefund_possible (reached : Reachable s) (later : s.clock.val ≤ sys.unixTimestamp.val)
    (nonneg : 0 ≤ sys.unixTimestamp.val) (found : s.events key = some e) (held : s.bets key bettor = some entry)
    (refundable : e.status = .refundable) : ∃ next, claimRefund sys ⟨bettor,key⟩ s = .ok next := by
  apply returns
  intro err ran
  rcases claimRefund_refused reached later nonneg ran with ⟨_,absent | absent⟩ | ⟨e',found',_,other⟩
  · rw [found] at absent; cases absent
  · rw [held] at absent; cases absent
  · rw [found] at found'; cases found'
    exact (other refundable).elim

-- What a settlement leaves behind: the entry is gone and counted, and its amount
-- has gone from the escrow to the bettor's wallet, next to the entry's rent.
structure SettledFor (key : EventKey) (s next : Chain) (e : Event) (bettor : Pubkey) (amount : Int) : Prop where
  gone : next.bets key bettor = none
  counted : ∃ count, next.events key = some {e with betsClosed := count} ∧ count.val = e.betsClosed.val + 1
  wallet : (next.lamports (.wallet bettor)).val =
    (s.lamports (.wallet bettor)).val + amount + (s.lamports (.betPda key bettor)).val
  escrow : (s.lamports (.eventPda key)).val - (next.lamports (.eventPda key)).val = amount

theorem settled_for {count : U32} {amount : U64} {middle after : Lamports}
    (counted : count.val = e.betsClosed.val + 1)
    (paid : transferFromPda s.lamports (.eventPda key) (.wallet bettor) amount = .ok middle)
    (closed : closeAccount middle (.betPda key bettor) (.wallet bettor) = .ok after) :
    SettledFor key s (({s with lamports := after}.putEvent key (some {e with betsClosed := count})).putBet key bettor none)
      e bettor amount.val := by
  obtain ⟨wallet,escrow⟩ := Payouts.paid_out paid closed
  exact {
    gone := by simp [Chain.putBet]
    counted := ⟨count,Function.update_self ..,counted⟩
    wallet := wallet
    escrow := escrow }

theorem claim_settles (reached : Reachable s) (later : s.clock.val ≤ sys.unixTimestamp.val)
    (nonneg : 0 ≤ sys.unixTimestamp.val) (found : s.events key = some e) (held : s.bets key bettor = some entry)
    (resolved : e.status = .resolved) (won : e.candidateOutcome = some entry.outcome) :
    ∃ next, claim sys ⟨bettor,key⟩ s = .ok next ∧
      SettledFor key s next e bettor (e.payoutPool.val * entry.stake.val / (e.side entry.outcome).val) := by
  obtain ⟨next,ran⟩ := claim_possible reached later nonneg found held resolved won
  refine ⟨next,ran,?_⟩
  obtain ⟨e',entry',payout,count,middle,lamports,loaded,held',_,_,_,share,counted,paid,closed,rfl⟩ := claim_parts ran
  have present := (loadEvent_parts.mp loaded).1
  rw [found] at present; cases present
  rw [held] at held'; cases held'
  obtain ⟨_,value⟩ := computeClaim_parts.mp share
  rw [← value]
  exact settled_for counted paid closed

theorem claimRefund_settles (reached : Reachable s) (later : s.clock.val ≤ sys.unixTimestamp.val)
    (nonneg : 0 ≤ sys.unixTimestamp.val) (found : s.events key = some e) (held : s.bets key bettor = some entry)
    (refundable : e.status = .refundable) :
    ∃ next, claimRefund sys ⟨bettor,key⟩ s = .ok next ∧
      SettledFor key s next e bettor (e.payoutPool.val * entry.stake.val / e.pot.val) := by
  obtain ⟨next,ran⟩ := claimRefund_possible reached later nonneg found held refundable
  refine ⟨next,ran,?_⟩
  obtain ⟨e',entry',refund,count,middle,lamports,loaded,held',_,_,share,counted,paid,closed,rfl⟩ := claimRefund_parts ran
  have present := (loadEvent_parts.mp loaded).1
  rw [found] at present; cases present
  rw [held] at held'; cases held'
  obtain ⟨_,value⟩ := computeRefund_parts.mp share
  rw [← value]
  exact settled_for counted paid closed

theorem never_defensive (reached : Reachable s) (later : s.clock.val ≤ sys.unixTimestamp.val)
    (nonneg : 0 ≤ sys.unixTimestamp.val) (ran : execute sys instruction s = .error err) : err ∉ defensiveErrors := by
  cases instruction with
  | createEvent => exact createEvent_refused.only ran
  | placeBet =>
      rcases placeBet_refused reached ran with ⟨rfl,_⟩ | listed
      · decide
      · have apart : ∀ x ∈ placeBetErrors, x ∉ defensiveErrors := by decide
        exact apart err listed
  | cancelBet =>
      rcases cancelBet_refused reached ran with ⟨rfl,_⟩ | ⟨_,_,rfl,_⟩ <;> decide
  | lockEvent =>
      rcases lockEvent_refused reached ran with ⟨rfl,_⟩ | ⟨_,_,⟨rfl,_⟩ | ⟨rfl,_⟩⟩ <;> decide
  | resolveEvent => exact (resolveEvent_refused reached).only ran
  | challengeResolution => exact (challengeResolution_refused reached).only ran
  | finalizeResolution =>
      rcases finalizeResolution_refused reached ran with
        ⟨rfl,_⟩ | ⟨_,_,⟨rfl,_⟩ | ⟨rfl,_⟩ | ⟨rfl,_⟩ | ⟨rfl,_⟩⟩ <;> decide
  | claim =>
      rcases claim_refused reached later nonneg ran with ⟨rfl,_⟩ | ⟨_,_,_,_,⟨rfl,_⟩ | ⟨rfl,_⟩⟩ <;> decide
  | markRefundable =>
      rcases markRefundable_refused reached ran with ⟨rfl,_⟩ | ⟨_,_,⟨rfl,_⟩ | ⟨rfl,_⟩ | ⟨rfl,_⟩⟩ <;> decide
  | claimRefund =>
      rcases claimRefund_refused reached later nonneg ran with ⟨rfl,_⟩ | ⟨_,_,rfl,_⟩ <;> decide
  | closeEvent =>
      rcases closeEvent_refused reached ran with ⟨rfl,_⟩ | ⟨_,_,⟨rfl,_⟩ | ⟨rfl,_⟩ | ⟨rfl,_⟩⟩ <;> decide

-- The six handlers whose checked arithmetic is only ever a second guard.
def overflowFree : Instruction → Bool
  | .placeBet .. | .cancelBet _ | .lockEvent _ | .finalizeResolution _ | .claim _ | .claimRefund _ => true
  | _ => false

theorem never_overflows (reached : Reachable s) (later : s.clock.val ≤ sys.unixTimestamp.val)
    (nonneg : 0 ≤ sys.unixTimestamp.val) (free : overflowFree instruction = true) :
    execute sys instruction s ≠ .error mathOverflow := by
  intro ran
  cases instruction with
  | placeBet =>
      rcases placeBet_refused reached ran with ⟨absurd,_⟩ | listed
      · cases absurd
      · revert listed; decide
  | cancelBet =>
      rcases cancelBet_refused reached ran with ⟨absurd,_⟩ | ⟨_,_,absurd,_⟩ <;> cases absurd
  | lockEvent =>
      rcases lockEvent_refused reached ran with ⟨absurd,_⟩ | ⟨_,_,⟨absurd,_⟩ | ⟨absurd,_⟩⟩ <;> cases absurd
  | finalizeResolution =>
      rcases finalizeResolution_refused reached ran with
        ⟨absurd,_⟩ | ⟨_,_,⟨absurd,_⟩ | ⟨absurd,_⟩ | ⟨absurd,_⟩ | ⟨absurd,_⟩⟩ <;> cases absurd
  | claim =>
      rcases claim_refused reached later nonneg ran with
        ⟨absurd,_⟩ | ⟨_,_,_,_,⟨absurd,_⟩ | ⟨absurd,_⟩⟩ <;> cases absurd
  | claimRefund =>
      rcases claimRefund_refused reached later nonneg ran with ⟨absurd,_⟩ | ⟨_,_,absurd,_⟩ <;> cases absurd
  | _ => cases free

theorem defenses_unreachable (reached : Reachable s) (later : s.clock.val ≤ sys.unixTimestamp.val)
    (nonneg : 0 ≤ sys.unixTimestamp.val) :
    (∀ {instruction err}, execute sys instruction s = .error err →
      err ≠ escrowMismatch ∧ err ≠ zeroWinningStake ∧ err ≠ zeroPot ∧ err ≠ claimBeforeFinalized) ∧
    (∀ {instruction}, overflowFree instruction = true → execute sys instruction s ≠ .error mathOverflow) ∧
    ∀ {key e}, s.events key = some e →
      (e.status = .resolved → e.candidateOutcome ≠ none) ∧
      ∀ {bettor entry}, s.bets key bettor = some entry →
        (e.status = .refundable → ∃ next, execute sys (.claimRefund ⟨bettor,key⟩) s = .ok next ∧
          SettledFor key s next e bettor (e.payoutPool.val * entry.stake.val / e.pot.val)) ∧
        (e.status = .resolved → e.candidateOutcome = some entry.outcome →
          ∃ next, execute sys (.claim ⟨bettor,key⟩) s = .ok next ∧
            SettledFor key s next e bettor (e.payoutPool.val * entry.stake.val / (e.side entry.outcome).val)) := by
  refine ⟨?_,never_overflows reached later nonneg,?_⟩
  · intro instruction err ran
    have apart := never_defensive reached later nonneg ran
    simp only [defensiveErrors,List.mem_cons,List.not_mem_nil,or_false,not_or] at apart
    exact apart
  · intro key e found
    obtain ⟨_,_,facts⟩ := reachable_facts reached found
    constructor
    · intro resolved undecided
      obtain ⟨winner,decided⟩ := facts.purse.decided resolved
      rw [decided] at undecided
      cases undecided
    · intro bettor entry held
      exact ⟨claimRefund_settles reached later nonneg found held,claim_settles reached later nonneg found held⟩

section sample
open SampleMarket

-- Alice's whole pool, after which her entry is the one of two that is closed.
theorem defenses_unreachable_sample : ∃ e next, (stateOf deciding).events market = some e ∧
    execute (sysvars (.lit 700)) (.claim ⟨alice,market⟩) (stateOf deciding) = .ok next ∧
    SettledFor market (stateOf deciding) next e alice 43353000 := by
  have reached : Reachable (stateOf deciding) := play_reachable rfl
  have later : (stateOf deciding).clock.val ≤ (sysvars (.lit 700)).unixTimestamp.val := by decide
  obtain ⟨_,_,settles⟩ := defenses_unreachable reached later (by decide)
  have found : (stateOf deciding).events market = some _ := rfl
  have held : (stateOf deciding).bets market alice = some _ := rfl
  obtain ⟨next,ran,settled⟩ := ((settles found).2 held).2 rfl rfl
  exact ⟨_,next,found,ran,settled⟩
end sample

end Solclash.Refusals
