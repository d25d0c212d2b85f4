import Solclash.Refusals

-- How a stake leaves an event with nobody's help, and how the settled event
-- itself is swept in the end; with the states in which neither is possible.
namespace Solclash.Exits
open EventProtocol EventBook Lifetimes EntryProtocol Bookkeeping TerminalPhase Refusals
open Fallible SolclashError AnchorError

-- No price update, and no signature but the bettor's own.
def needsNobodyElse (bettor : Pubkey) : Instruction → Bool
  | .createEvent ctx .. => ctx.creator = bettor
  | .placeBet ctx .. => ctx.bettor = bettor
  | .cancelBet ctx => ctx.bettor = bettor
  | .claim ctx => ctx.bettor = bettor
  | .claimRefund ctx => ctx.bettor = bettor
  | .lockEvent _ | .finalizeResolution _ | .markRefundable _ | .closeEvent _ => true
  | .resolveEvent _ | .challengeResolution _ => false

-- The runtime passes a reserved key (its native programs, its sysvars) as
-- read-only, whatever the caller asks for. Which keys are reserved is a
-- parameter; the System Program, the fee wallet of now, is one of them.
def Passable (reserved : Pubkey → Prop) : Instruction → Prop
  | .finalizeResolution ctx => ctx.feeWalletWritable = true → ¬ reserved ctx.feeWallet
  | _ => True

structure OwnStep (reserved : Pubkey → Prop) (bettor : Pubkey) (s : Chain) (sys : Sysvars) (instruction : Instruction)
    (next : Chain) : Prop where
  own : needsNobodyElse bettor instruction = true
  passable : Passable reserved instruction
  later : s.clock ≤ sys.unixTimestamp
  succeeds : ∃ after, execute sys instruction s = .ok after ∧ next = {after with clock := sys.unixTimestamp}

inductive Exit (reserved : Pubkey → Prop) (key : EventKey) (bettor : Pubkey) (entry : BetEntry) : Chain → Prop where
  | paid (step : OwnStep reserved bettor s sys instruction next)
      (payout : payment (label key ⟨s,.invoke sys instruction,next⟩) = some ⟨bettor,entry,amount⟩)
      (gone : next.bets key bettor = none) : Exit reserved key bettor entry s
  | lost (found : s.events key = some e) (resolved : e.status = .resolved)
      (winner : e.candidateOutcome = some outcome) (opposite : outcome ≠ entry.outcome) : Exit reserved key bettor entry s
  | onward (step : OwnStep reserved bettor s sys instruction next) (rest : Exit reserved key bettor entry next) :
      Exit reserved key bettor entry s

-- The timeout of a locked event is a clock value at all.
def Timely (e : Event) : Prop :=
  e.status = .locked → e.resolutionTime.val + resolutionTimeoutSecsDev.val ≤ 9223372036854775807

-- The fee wallet can be passed at all to the call that a resolving event waits for.
def Payable (reserved : Pubkey → Prop) (e : Event) : Prop := e.status = .resolving → ¬ reserved feeWalletDev

variable {reserved : Pubkey → Prop} {key : EventKey} {bettor caller : Pubkey} {entry : BetEntry} {e : Event} {s after next : Chain} {sys : Sysvars}
  {instruction : Instruction} {labels : List Label} {bets : Pubkey → Option BetEntry}

theorem OwnStep.taken (step : OwnStep reserved bettor s sys instruction next) :
    advance s (.invoke sys instruction) = some next := by
  obtain ⟨after,ran,rfl⟩ := step.succeeds
  simp only [advance,step.later,if_true,ran]

theorem OwnStep.reaches (step : OwnStep reserved bettor s sys instruction next) (reached : Reachable s) : Reachable next := by
  have path : Run s [⟨s,.invoke sys instruction,next⟩] next := .cons .nil step.taken
  exact reached.extend path

-- The latest clock there is: whoever waits for it waits long enough.
def endOfTime : Sysvars := ⟨.lit 9223372036854775807,fun _ => .lit 0⟩

theorem before_endOfTime (s : Chain) : s.clock ≤ endOfTime.unixTimestamp := RangedInt.le_iff.mpr s.clock.upper

theorem waiting_step (own : needsNobodyElse bettor instruction = true) (passable : Passable reserved instruction)
    (ran : execute endOfTime instruction s = .ok after) :
    OwnStep reserved bettor s endOfTime instruction {after with clock := endOfTime.unixTimestamp} :=
  ⟨own,passable,before_endOfTime s,after,ran,rfl⟩

theorem cancelBet_possible (reached : Reachable s) (found : s.events key = some e)
    (held : s.bets key bettor = some entry) (opened : e.status = .open) :
    ∃ next, cancelBet ⟨bettor,key⟩ s = .ok next := by
  apply returns
  intro err ran
  rcases cancelBet_refused reached ran with ⟨_,absent | absent⟩ | ⟨e',found',_,other⟩
  · rw [found] at absent; cases absent
  · rw [held] at absent; cases absent
  · rw [found] at found'; cases found'
    exact (other opened).elim

theorem finalizeResolution_possible (reached : Reachable s) (found : s.events key = some e)
    (resolving : e.status = .resolving) (due : e.finalizedAt.val ≤ sys.unixTimestamp.val) :
    ∃ next, finalizeResolution sys ⟨caller,key,feeWalletDev,true⟩ s = .ok next := by
  apply returns
  intro err ran
  rcases finalizeResolution_refused reached ran with ⟨_,absent⟩ | ⟨e',found',refusal⟩
  · rw [found] at absent; cases absent
  · rw [found] at found'; cases found'
    rcases refusal with ⟨_,fixed⟩ | ⟨_,wallet⟩ | ⟨_,other⟩ | ⟨_,early⟩
    · cases fixed
    · exact (wallet rfl).elim
    · exact (other resolving).elim
    · omega

theorem markRefundable_possible (reached : Reachable s) (found : s.events key = some e)
    (isLocked : e.status = .locked)
    (fits : e.resolutionTime.val + resolutionTimeoutSecsDev.val ≤ 9223372036854775807)
    (late : e.resolutionTime.val + resolutionTimeoutSecsDev.val ≤ sys.unixTimestamp.val) :
    ∃ next, markRefundable sys ⟨caller,key⟩ s = .ok next := by
  apply returns
  intro err ran
  rcases markRefundable_refused reached ran with ⟨_,absent⟩ | ⟨e',found',refusal⟩
  · rw [found] at absent; cases absent
  · rw [found] at found'; cases found'
    rcases refusal with ⟨_,other⟩ | ⟨_,overflow⟩ | ⟨_,early⟩
    · exact (other isLocked).elim
    · omega
    · omega

theorem closeEvent_possible (reached : Reachable s) (found : s.events key = some e) (terminal : Terminal e.status)
    (complete : e.betsClosed.val = e.bettorCount.val) : ∃ next, closeEvent ⟨caller,key,e.creator⟩ s = .ok next := by
  apply returns
  intro err ran
  rcases closeEvent_refused reached ran with ⟨_,absent⟩ | ⟨e',found',refusal⟩
  · rw [found] at absent; cases absent
  · rw [found] at found'; cases found'
    rcases refusal with ⟨_,other⟩ | ⟨_,early⟩ | ⟨_,incomplete⟩
    · exact (other rfl).elim
    · exact (early terminal).elim
    · exact (incomplete complete).elim

-- A payment for the entry closes it.
theorem paid_gone (step : OwnStep reserved bettor s sys instruction next)
    (payout : payment (label key ⟨s,.invoke sys instruction,next⟩) = some ⟨bettor,entry,amount⟩) :
    next.bets key bettor = none := by
  have own := entry_step (advance_projects key step.taken) bettor
  change EntryStep bettor (s.bets key bettor) _ (next.bets key bettor) at own
  generalize label key _ = l at own payout
  generalize s.bets key bettor = old at own
  generalize next.bets key bettor = held at own
  cases own with
  | placed => cases payout
  | paid => rfl
  | other silent => exact (silent (paid_bettor payout)).elim

-- The three instructions that pay an entry and close it.
def Settles (bettor : Pubkey) (key : EventKey) (instruction : Instruction) : Prop :=
  instruction = .cancelBet ⟨bettor,key⟩ ∨ instruction = .claim ⟨bettor,key⟩ ∨ instruction = .claimRefund ⟨bettor,key⟩

theorem settles_payout (settles : Settles bettor key instruction) (ran : execute sys instruction s = .ok after)
    (held : s.bets key bettor = some entry) :
    ∃ amount, payment (label key ⟨s,.invoke sys instruction,next⟩) = some ⟨bettor,entry,amount⟩ := by
  rcases settles with rfl | rfl | rfl
  all_goals
    simp only [label,Instruction.event,if_true,ran,committedLabel,held,payment]
    exact ⟨_,rfl⟩

theorem exit_settled (settles : Settles bettor key instruction) (ran : execute endOfTime instruction s = .ok after)
    (held : s.bets key bettor = some entry) : Exit reserved key bettor entry s := by
  have own : needsNobodyElse bettor instruction = true := by
    rcases settles with rfl | rfl | rfl <;> exact decide_eq_true rfl
  have passable : Passable reserved instruction := by
    rcases settles with rfl | rfl | rfl <;> exact trivial
  have step := waiting_step own passable ran
  obtain ⟨amount,payout⟩ := settles_payout settles ran held
  exact .paid step payout (paid_gone step payout)

theorem exit_open (reached : Reachable s) (found : s.events key = some e) (held : s.bets key bettor = some entry)
    (opened : e.status = .open) : Exit reserved key bettor entry s := by
  obtain ⟨after,ran⟩ := cancelBet_possible reached found held opened
  exact exit_settled (.inl rfl) ran held

theorem exit_refundable (reached : Reachable s) (found : s.events key = some e)
    (held : s.bets key bettor = some entry) (refundable : e.status = .refundable) : Exit reserved key bettor entry s := by
  have later : s.clock.val ≤ endOfTime.unixTimestamp.val := s.clock.upper
  obtain ⟨after,ran⟩ := claimRefund_possible reached later (by decide) found held refundable
  exact exit_settled (.inr (.inr rfl)) ran held

theorem exit_resolved (reached : Reachable s) (found : s.events key = some e)
    (held : s.bets key bettor = some entry) (resolved : e.status = .resolved) : Exit reserved key bettor entry s := by
  obtain ⟨labels,base,facts⟩ := reachable_facts reached found
  obtain ⟨winner,decided⟩ := facts.purse.decided resolved
  by_cases won : winner = entry.outcome
  · subst won
    have later : s.clock.val ≤ endOfTime.unixTimestamp.val := s.clock.upper
    obtain ⟨after,ran⟩ := claim_possible reached later (by decide) found held resolved decided
    exact exit_settled (.inr (.inl rfl)) ran held
  · exact .lost found resolved decided won

theorem exit_terminal (reached : Reachable s) (found : s.events key = some e)
    (held : s.bets key bettor = some entry) (terminal : Terminal e.status) : Exit reserved key bettor entry s := by
  rcases terminal with resolved | refundable
  · exact exit_resolved reached found held resolved
  · exact exit_refundable reached found held refundable

theorem finalized_terminal {ctx : FinalizeResolution} (ran : finalizeResolution sys ctx s = .ok next) :
    (∃ e, next.events ctx.event = some e ∧ Terminal e.status) ∧ next.bets = s.bets := by
  obtain ⟨e,rest,_,_,_,_,_,⟨_,rfl⟩ | ⟨_,_,_,_,_,_,_,_,rfl⟩⟩ := finalizeResolution_parts ran
  · exact ⟨⟨_,Function.update_self ..,.inr rfl⟩,rfl⟩
  · exact ⟨⟨_,Function.update_self ..,.inl rfl⟩,rfl⟩

theorem marked_terminal {ctx : MarkRefundable} (ran : markRefundable sys ctx s = .ok next) :
    (∃ e, next.events ctx.event = some e ∧ Terminal e.status) ∧ next.bets = s.bets := by
  obtain ⟨e,_,_,_,rfl⟩ := markRefundable_parts ran
  exact ⟨⟨_,Function.update_self ..,.inr rfl⟩,rfl⟩

-- One step of anybody's brings the event to its end and keeps the entry.
theorem exit_onward (reached : Reachable s) (held : s.bets key bettor = some entry)
    (step : OwnStep reserved bettor s sys instruction {after with clock := sys.unixTimestamp})
    (ending : (∃ e, after.events key = some e ∧ Terminal e.status) ∧ after.bets = s.bets) : Exit reserved key bettor entry s := by
  obtain ⟨⟨e,found,terminal⟩,kept⟩ := ending
  have still : after.bets key bettor = some entry := by rw [kept]; exact held
  have onward : Reachable {after with clock := sys.unixTimestamp} := step.reaches reached
  exact .onward step (exit_terminal onward found still terminal)

theorem exit_resolving (reached : Reachable s) (found : s.events key = some e)
    (held : s.bets key bettor = some entry) (resolving : e.status = .resolving) (payable : ¬ reserved feeWalletDev) :
    Exit reserved key bettor entry s := by
  have due : e.finalizedAt.val ≤ endOfTime.unixTimestamp.val := e.finalizedAt.upper
  have possible : ∃ after, finalizeResolution endOfTime ⟨bettor,key,feeWalletDev,true⟩ s = .ok after :=
    finalizeResolution_possible reached found resolving due
  obtain ⟨after,ran⟩ := possible
  have step : OwnStep reserved bettor s endOfTime (.finalizeResolution ⟨bettor,key,feeWalletDev,true⟩) _ :=
    waiting_step rfl (fun _ => payable) ran
  exact exit_onward reached held step (finalized_terminal ran)

theorem exit_locked (reached : Reachable s) (found : s.events key = some e)
    (held : s.bets key bettor = some entry) (isLocked : e.status = .locked)
    (fits : e.resolutionTime.val + resolutionTimeoutSecsDev.val ≤ 9223372036854775807) : Exit reserved key bettor entry s := by
  have possible : ∃ after, markRefundable endOfTime ⟨bettor,key⟩ s = .ok after :=
    markRefundable_possible reached found isLocked fits fits
  obtain ⟨after,ran⟩ := possible
  have step : OwnStep reserved bettor s endOfTime (.markRefundable ⟨bettor,key⟩) _ := waiting_step rfl trivial ran
  exact exit_onward reached held step (marked_terminal ran)

theorem exit_timely (reached : Reachable s) (found : s.events key = some e) (held : s.bets key bettor = some entry)
    (timely : Timely e) (payable : Payable reserved e) : Exit reserved key bettor entry s := by
  cases status : e.status with
  | «open» => exact exit_open reached found held status
  | locked => exact exit_locked reached found held status (timely status)
  | resolving => exact exit_resolving reached found held status (payable status)
  | resolved => exact exit_resolved reached found held status
  | refundable => exact exit_refundable reached found held status

-- Without a price update a locked event only waits for its timeout.
inductive Stuck (e : Event) (v : View) (next : View) : Label → Prop where
  | resolved : Stuck e v next (.resolved now update)
  | marked (late : e.resolutionTime.val + resolutionTimeoutSecsDev.val ≤ now.val) : Stuck e v next (.marked now)
  | waiting (unpaid : payment l = none) (event : next.event = v.event) (bets : next.bets = v.bets) : Stuck e v next l

theorem locked_step {v next : View} (step : EventStep key v l next) (found : v.event = some e)
    (isLocked : e.status = .locked) : Stuck e v next l := by
  have other : ∀ {e'}, v.event = some e' → e'.status ≠ .locked → False := by
    intro e' found' different
    rw [found] at found'
    cases found'
    exact different isLocked
  cases step with
  | created vacant => rw [found] at vacant; cases vacant
  | placed found' _ opened => exact (other found' (by rw [opened]; decide)).elim
  | cancelled found' _ opened => exact (other found' (by rw [opened]; decide)).elim
  | locked found' _ opened => exact (other found' (by rw [opened]; decide)).elim
  | oneSided found' _ opened => exact (other found' (by rw [opened]; decide)).elim
  | resolved => exact .resolved
  | challenged found' _ resolving => exact (other found' (by rw [resolving]; decide)).elim
  | ambiguous found' _ resolving => exact (other found' (by rw [resolving]; decide)).elim
  | decided found' _ resolving => exact (other found' (by rw [resolving]; decide)).elim
  | claimed found' _ resolved => exact (other found' (by rw [resolved]; decide)).elim
  | marked found' _ _ late => rw [found] at found'; cases found'; exact .marked late
  | refunded found' _ refundable => exact (other found' (by rw [refundable]; decide)).elim
  | closed found' _ terminal =>
      rcases terminal with resolved | refundable
      · exact (other found' (by rw [resolved]; decide)).elim
      · exact (other found' (by rw [refundable]; decide)).elim
  | donated => exact .waiting rfl rfl rfl
  | quiet => exact .waiting rfl rfl rfl

theorem resolved_instruction (resolved : label key ⟨s,.invoke sys instruction,next⟩ = .resolved now update) :
    ∃ ctx, instruction = .resolveEvent ctx := by
  rcases label_invoked key s sys instruction next with quiet | ⟨_,_,kind⟩
  · rw [quiet] at resolved
    cases resolved
  · rw [resolved] at kind
    cases kind with
    | resolved => exact ⟨_,rfl⟩

-- Whatever its owner tries, an entry of an untimely event stays where it is.
theorem own_step_stuck (taken : advance s (.invoke sys instruction) = some next)
    (own : needsNobodyElse bettor instruction = true) (found : s.events key = some e) (isLocked : e.status = .locked)
    (never : 9223372036854775807 < e.resolutionTime.val + resolutionTimeoutSecsDev.val) :
    payment (label key ⟨s,.invoke sys instruction,next⟩) = none ∧ next.events key = some e := by
  have stuck := locked_step (advance_projects key taken) found isLocked
  generalize same : label key ⟨s,.invoke sys instruction,next⟩ = l at stuck
  cases stuck with
  | resolved =>
      obtain ⟨ctx,rfl⟩ := resolved_instruction same
      cases own
  | marked late =>
      rename_i now
      have upper := now.upper
      omega
  | waiting unpaid event => exact ⟨unpaid,event.trans found⟩

theorem exit_only_timely (exit : Exit reserved key bettor entry s) (found : s.events key = some e) : Timely e := by
  intro isLocked
  apply Classical.byContradiction
  intro late
  have never : 9223372036854775807 < e.resolutionTime.val + resolutionTimeoutSecsDev.val := Int.lt_of_not_ge late
  induction exit with
  | paid step payout =>
      obtain ⟨unpaid,_⟩ := own_step_stuck step.taken step.own found isLocked never
      rw [unpaid] at payout
      cases payout
  | lost found' resolved =>
      rw [found] at found'
      cases found'
      rw [isLocked] at resolved
      cases resolved
  | onward step _ ih =>
      obtain ⟨_,still⟩ := own_step_stuck step.taken step.own found isLocked never
      exact ih still

-- Without a price update a resolving event only waits for its finalization.
inductive Pending (v : View) (next : View) : Label → Prop where
  | challenged : Pending v next (.challenged now update)
  | finalized : Pending v next (.finalized now)
  | waiting (unpaid : payment l = none) (event : next.event = v.event) : Pending v next l

theorem resolving_step {v next : View} (step : EventStep key v l next) (found : v.event = some e)
    (resolving : e.status = .resolving) : Pending v next l := by
  have other : ∀ {e'}, v.event = some e' → e'.status ≠ .resolving → False := by
    intro e' found' different
    rw [found] at found'
    cases found'
    exact different resolving
  cases step with
  | created vacant => rw [found] at vacant; cases vacant
  | placed found' _ opened => exact (other found' (by rw [opened]; decide)).elim
  | cancelled found' _ opened => exact (other found' (by rw [opened]; decide)).elim
  | locked found' _ opened => exact (other found' (by rw [opened]; decide)).elim
  | oneSided found' _ opened => exact (other found' (by rw [opened]; decide)).elim
  | resolved found' _ isLocked => exact (other found' (by rw [isLocked]; decide)).elim
  | challenged => exact .challenged
  | ambiguous => exact .finalized
  | decided => exact .finalized
  | claimed found' _ resolved => exact (other found' (by rw [resolved]; decide)).elim
  | marked found' _ isLocked => exact (other found' (by rw [isLocked]; decide)).elim
  | refunded found' _ refundable => exact (other found' (by rw [refundable]; decide)).elim
  | closed found' _ terminal =>
      rcases terminal with resolved | refundable
      · exact (other found' (by rw [resolved]; decide)).elim
      · exact (other found' (by rw [refundable]; decide)).elim
  | donated => exact .waiting rfl rfl
  | quiet => exact .waiting rfl rfl

theorem challenged_instruction (challenged : label key ⟨s,.invoke sys instruction,next⟩ = .challenged now update) :
    ∃ ctx, instruction = .challengeResolution ctx := by
  rcases label_invoked key s sys instruction next with quiet | ⟨_,_,kind⟩
  · rw [quiet] at challenged
    cases challenged
  · rw [challenged] at kind
    cases kind with
    | challenged => exact ⟨_,rfl⟩

theorem finalized_instruction (finalized : label key ⟨s,.invoke sys instruction,next⟩ = .finalized now) :
    ∃ ctx after, instruction = .finalizeResolution ctx ∧ finalizeResolution sys ctx s = .ok after := by
  rcases label_invoked key s sys instruction next with quiet | ⟨_,⟨after,ran⟩,kind⟩
  · rw [quiet] at finalized
    cases finalized
  · rw [finalized] at kind
    cases kind with
    | finalized => exact ⟨_,after,rfl,ran⟩

-- Nobody can finalize what pays its fee to a reserved key.
theorem finalized_unreserved (finalized : label key ⟨s,.invoke sys instruction,next⟩ = .finalized now)
    (passable : Passable reserved instruction) : ¬ reserved feeWalletDev := by
  obtain ⟨ctx,after,rfl,ran⟩ := finalized_instruction finalized
  obtain ⟨_,_,_,⟨writable,wallet⟩,_⟩ := finalizeResolution_parts ran
  have free := passable writable
  rw [wallet] at free
  exact free

theorem own_step_pending (taken : advance s (.invoke sys instruction) = some next)
    (own : needsNobodyElse bettor instruction = true) (passable : Passable reserved instruction)
    (found : s.events key = some e) (resolving : e.status = .resolving) (blocked : reserved feeWalletDev) :
    payment (label key ⟨s,.invoke sys instruction,next⟩) = none ∧ next.events key = some e := by
  have pending := resolving_step (advance_projects key taken) found resolving
  generalize same : label key ⟨s,.invoke sys instruction,next⟩ = l at pending
  cases pending with
  | challenged =>
      obtain ⟨ctx,rfl⟩ := challenged_instruction same
      cases own
  | finalized => exact (finalized_unreserved same passable blocked).elim
  | waiting unpaid event => exact ⟨unpaid,event.trans found⟩

theorem exit_only_payable (exit : Exit reserved key bettor entry s) (found : s.events key = some e) :
    Payable reserved e := by
  intro resolving blocked
  induction exit with
  | paid step payout =>
      obtain ⟨unpaid,_⟩ := own_step_pending step.taken step.own step.passable found resolving blocked
      rw [unpaid] at payout
      cases payout
  | lost found' resolved =>
      rw [found] at found'
      cases found'
      rw [resolving] at resolved
      cases resolved
  | onward step _ ih =>
      obtain ⟨_,still⟩ := own_step_pending step.taken step.own step.passable found resolving blocked
      exact ih still

theorem mark_timely (reached : Reachable s) (found : s.events key = some e) (isLocked : e.status = .locked) :
    (∃ sys caller next, s.clock ≤ sys.unixTimestamp ∧ execute sys (.markRefundable ⟨caller,key⟩) s = .ok next) ↔
      e.resolutionTime.val + resolutionTimeoutSecsDev.val ≤ 9223372036854775807 := by
  constructor
  · rintro ⟨sys,caller,next,_,ran⟩
    obtain ⟨e',loaded,_,late,_⟩ := markRefundable_parts ran
    have same := (loadEvent_parts.mp loaded).1
    rw [found] at same
    cases same
    exact late.trans sys.unixTimestamp.upper
  · intro fits
    have possible : ∃ next, markRefundable endOfTime ⟨key.creator,key⟩ s = .ok next :=
      markRefundable_possible reached found isLocked fits fits
    obtain ⟨next,ran⟩ := possible
    exact ⟨endOfTime,key.creator,next,before_endOfTime s,ran⟩

theorem no_stake_trapped (reserved : Pubkey → Prop) (reached : Reachable s) (found : s.events key = some e) :
    (∀ bettor entry, s.bets key bettor = some entry →
      (Exit reserved key bettor entry s ↔ Timely e ∧ Payable reserved e)) ∧
      (e.status = .locked →
        ((∃ sys caller next, s.clock ≤ sys.unixTimestamp ∧ execute sys (.markRefundable ⟨caller,key⟩) s = .ok next) ↔
          e.resolutionTime.val + resolutionTimeoutSecsDev.val ≤ 9223372036854775807)) := by
  refine ⟨?_,mark_timely reached found⟩
  intro bettor entry held
  constructor
  · intro exit
    exact ⟨exit_only_timely exit found,exit_only_payable exit found⟩
  · rintro ⟨timely,payable⟩
    exact exit_timely reached found held timely payable

section sample
open SampleMarket

def aliceEntry : BetEntry := ⟨market,alice,outcomeYes,.lit 20000000,.lit 254⟩

def reporting : List Action := awaiting ++ [resolve (.lit 400) (update (.lit 1000) (.lit 390))]

-- Alice gets out of the locked market even where the fee wallet is reserved,
-- and out of the resolving one only where it is not.
theorem no_stake_trapped_sample : Exit (· = feeWalletDev) market alice aliceEntry (stateOf awaiting) ∧
    Exit (fun _ => False) market alice aliceEntry (stateOf reporting) ∧
    ¬ Exit (· = feeWalletDev) market alice aliceEntry (stateOf reporting) := by
  have reached : Reachable (stateOf awaiting) := play_reachable rfl
  have found : (stateOf awaiting).events market = some _ := rfl
  have timely : Timely (((stateOf awaiting).events market).get rfl) := fun _ => by decide
  have reached' : Reachable (stateOf reporting) := play_reachable rfl
  have found' : (stateOf reporting).events market = some _ := rfl
  refine ⟨?_,?_,?_⟩
  · exact ((no_stake_trapped _ reached found).1 alice aliceEntry rfl).mpr ⟨timely,fun absurd => (by cases absurd)⟩
  · exact ((no_stake_trapped _ reached' found').1 alice aliceEntry rfl).mpr
      ⟨fun absurd => (by cases absurd),fun _ => id⟩
  · intro exit
    exact (((no_stake_trapped _ reached' found').1 alice aliceEntry rfl).mp exit).2 rfl rfl

-- A market whose resolution time leaves no clock value for its timeout.
def distant : List Action :=
  [.invoke (sysvars (.lit 10)) (.createEvent ⟨creator,.lit 7,.lit 255⟩ ((0#8).replicate 32) conditionGreaterThan
      (.lit 100) (.lit 100) (.lit 9223372036854775800)),
    bet (.lit 20) alice outcomeYes (.lit 20000000),bet (.lit 30) bob outcomeNo (.lit 30000000),lock]

theorem distant_stake_trapped : ¬ ∀ {s : Chain} {key : EventKey} {e : Event} {bettor : Pubkey} {entry : BetEntry},
    Reachable s → s.events key = some e → s.bets key bettor = some entry →
      Exit (fun _ => False) key bettor entry s := by
  intro claimed
  have found : (stateOf distant).events market = some _ := rfl
  have exit : Exit (fun _ => False) market alice aliceEntry (stateOf distant) := claimed (play_reachable rfl) found rfl
  have timely := exit_only_timely exit found rfl
  revert timely
  decide
end sample

-- Nobody who is entitled to a payment is still waiting for it.
def AllPaid (e : Event) (bets : Pubkey → Option BetEntry) : Prop :=
  ∀ bettor entry, bets bettor = some entry → ¬ entitled e entry

-- The only entry that is left keeps everybody's from being owed when it lost.
theorem last_unpaid (book : Book key labels e bets) (one : e.bettorCount.val = e.betsClosed.val + 1)
    (held : bets bettor = some entry) (lost : ¬ entitled e entry) : AllPaid e bets := by
  intro b x found
  by_cases same : b = bettor
  · subst same
    rw [held] at found
    cases found
    exact lost
  · have still : Function.update bets bettor none b = some x := by rw [Function.update_of_ne same]; exact found
    have another := openCount_held still
    rw [openCount_removed held] at another
    have count := book.count
    have closed := book.closed
    omega

-- Whoever lost is still there: the losing side was never empty.
theorem losers_counted (book : Book key labels e bets) (resolved : e.status = .resolved)
    (decided : e.candidateOutcome = some winner) : e.betsClosed.val < e.bettorCount.val := by
  obtain ⟨yes,no⟩ := book.twoSided (.inr (.inr resolved))
  have staked : 0 < minStakeLamportsDev.val := by decide
  have loser : ∃ outcome, Known outcome ∧ winner ≠ outcome ∧ minStakeLamportsDev.val ≤ (e.side outcome).val := by
    by_cases same : winner = outcomeYes
    · exact ⟨outcomeNo,.inl rfl,same ▸ outcomes_differ.symm,by rw [side_no]; exact no⟩
    · exact ⟨outcomeYes,.inr rfl,same,by rw [side_yes]; exact yes⟩
  obtain ⟨outcome,known,lost,least⟩ := loser
  have side := book.sides outcome known
  have unsettled := book.losers resolved outcome (by rw [decided]; exact fun same => lost (Option.some.inj same))
  have occupied : openStake outcome bets ≠ 0 := by omega
  obtain ⟨bettor,entry,held,_⟩ := KeyedTotal.total_occupied occupied
  have open' := openCount_held held
  have count := book.count
  have closed := book.closed
  omega

-- In a refundable event everybody is entitled, so that nobody is left.
theorem nobody_left (refundable : e.status = .refundable) (paid : AllPaid e bets) (bettor : Pubkey) :
    bets bettor = none := by
  cases held : bets bettor with
  | none => rfl
  | some entry =>
      have right : entitled e entry := fun resolved => by rw [refundable] at resolved; cases resolved
      exact (paid bettor entry held right).elim

theorem refunds_counted (book : Book key labels e bets) (refundable : e.status = .refundable)
    (paid : AllPaid e bets) : e.betsClosed.val = e.bettorCount.val := by
  have empty : openCount bets = 0 := KeyedTotal.total_empty (nobody_left refundable paid)
  have count := book.count
  have closed := book.closed
  omega

theorem settled_closable (reached : Reachable s) (found : s.events key = some e) (terminal : Terminal e.status)
    (paid : AllPaid e (s.bets key)) (sys : Sysvars) (caller : Pubkey) :
    ((∃ next, execute sys (.closeEvent ⟨caller,key,e.creator⟩) s = .ok next) ↔ e.status = .refundable) ∧
      (e.betsClosed.val = e.bettorCount.val ↔ e.status = .refundable) := by
  obtain ⟨labels,base,facts⟩ := reachable_facts reached found
  have counted : e.betsClosed.val = e.bettorCount.val ↔ e.status = .refundable := by
    constructor
    · intro complete
      rcases terminal with resolved | refundable
      · obtain ⟨winner,decided⟩ := facts.purse.decided resolved
        have short := losers_counted facts.book resolved decided
        omega
      · exact refundable
    · intro refundable
      exact refunds_counted facts.book refundable paid
  refine ⟨?_,counted⟩
  rw [← counted]
  constructor
  · rintro ⟨next,ran⟩
    obtain ⟨e',_,loaded,_,_,complete,_⟩ := closeEvent_parts ran
    have same := (loadEvent_parts.mp loaded).1
    rw [found] at same
    cases same
    exact complete
  · exact closeEvent_possible reached found terminal

section sample
open SampleMarket

-- A one-sided market whose only bettor was refunded.
def refunded : List Action :=
  [create,bet (.lit 20) alice outcomeYes (.lit 20000000),lock,.invoke (sysvars (.lit 100)) (.claimRefund ⟨alice,market⟩)]

def refundedEvent : Event := ((stateOf refunded).events market).get rfl
def resolvedEvent : Event := ((stateOf settling).events market).get rfl

theorem settled_closable_sample : ∃ next,
    execute (sysvars (.lit 110)) (.closeEvent ⟨bob,market,creator⟩) (stateOf refunded) = .ok next := by
  have reached : Reachable (stateOf refunded) := play_reachable rfl
  have found : (stateOf refunded).events market = some refundedEvent := rfl
  obtain ⟨labels,base,facts⟩ := reachable_facts reached found
  have paid : AllPaid refundedEvent ((stateOf refunded).bets market) := by
    intro bettor entry held
    rw [book_empty facts.book rfl bettor] at held
    cases held
  exact ((settled_closable reached found (.inr rfl) paid (sysvars (.lit 110)) bob).1).mpr rfl

theorem losers_block_closing : ¬ ∀ {s : Chain} {key : EventKey} {e : Event} {sys : Sysvars} {caller : Pubkey},
    Reachable s → s.events key = some e → Terminal e.status → AllPaid e (s.bets key) →
    ∃ next, execute sys (.closeEvent ⟨caller,key,e.creator⟩) s = .ok next := by
  intro claimed
  have found : (stateOf settling).events market = some resolvedEvent := rfl
  have reached : Reachable (stateOf settling) := play_reachable rfl
  obtain ⟨labels,base,facts⟩ := reachable_facts reached found
  have held : (stateOf settling).bets market bob = some _ := rfl
  have paid : AllPaid resolvedEvent ((stateOf settling).bets market) :=
    last_unpaid facts.book rfl held fun right => (by have won := right rfl; revert won; decide)
  have closes : ∃ next, execute (sysvars (.lit 800)) (.closeEvent ⟨bob,market,creator⟩) (stateOf settling) = .ok next :=
    claimed reached found (.inl rfl) paid
  obtain ⟨next,ran⟩ := closes
  have refused : execute (sysvars (.lit 800)) (.closeEvent ⟨bob,market,creator⟩) (stateOf settling) =
    .error payoutsNotComplete := rfl
  rw [refused] at ran
  cases ran
end sample

end Solclash.Exits
