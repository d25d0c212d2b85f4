import Solclash.Accounts

namespace Solclash
open Fallible SolclashError AnchorError

structure CreateEvent where
  creator : Pubkey
  eventId : U64
  bumpsEvent : U8

def CreateEvent.event (ctx : CreateEvent) : EventKey := ⟨ctx.creator,ctx.eventId⟩

def createEvent (sys : Sysvars) (ctx : CreateEvent) (feedId : FeedId) (condition : U8) (thresholdE8 : I128)
    (bettingCloseTime resolutionTime : I64) (s : Chain) : Except ProgramError Chain := do
  require (s.events ctx.event = none) accountAlreadyInUse
  let lamports ← initAccount sys s.lamports (.wallet ctx.creator) (.eventPda ctx.event) Event.space
  require (feedId ∈ feedWhitelistDev) feedNotWhitelisted
  require (condition = conditionGreaterThan ∨ condition = conditionLessThan) invalidCondition
  require (sys.unixTimestamp < bettingCloseTime) bettingCloseNotInFuture
  let minResolutionTime ← okOr (bettingCloseTime.checkedAdd minResolutionGapSecsDev) mathOverflow
  require (minResolutionTime ≤ resolutionTime) resolutionGapTooShort
  let event : Event := {
    creator := ctx.creator
    eventId := ctx.eventId
    feedId, condition, thresholdE8, bettingCloseTime, resolutionTime
    pot := .lit 0
    yesStake := .lit 0
    noStake := .lit 0
    bettorCount := .lit 0
    rentExemptMinimum := sys.minimumBalance Event.space
    status := .open
    candidateOutcome := none
    candidatePriceE8 := .lit 0
    candidatePublishTime := .lit 0
    finalizedAt := .lit 0
    payoutPool := .lit 0
    betsClosed := .lit 0
    bump := ctx.bumpsEvent }
  pure ({s with lamports}.putEvent ctx.event (some event))

-- The if/else of place_bet and of cancel_bet that picks the side counter.
def addToSide (event : Event) (outcome : U8) (stake : U64) : Except ProgramError Event :=
  if outcome = outcomeYes then do
    let yesStake ← okOr (event.yesStake.checkedAdd stake) (mathOverflow : ProgramError)
    pure {event with yesStake}
  else do
    let noStake ← okOr (event.noStake.checkedAdd stake) (mathOverflow : ProgramError)
    pure {event with noStake}
def removeFromSide (event : Event) (outcome : U8) (stake : U64) : Except ProgramError Event :=
  if outcome = outcomeYes then do
    let yesStake ← okOr (event.yesStake.checkedSub stake) (mathOverflow : ProgramError)
    pure {event with yesStake}
  else do
    let noStake ← okOr (event.noStake.checkedSub stake) (mathOverflow : ProgramError)
    pure {event with noStake}

structure PlaceBet where
  bettor : Pubkey
  event : EventKey
  bumpsBetEntry : U8

def placeBet (sys : Sysvars) (ctx : PlaceBet) (outcome : U8) (stake : U64) (s : Chain) :
    Except ProgramError Chain := do
  let event ← loadEvent s ctx.event
  require (s.bets ctx.event ctx.bettor = none) accountAlreadyInUse
  let lamports ← initAccount sys s.lamports (.wallet ctx.bettor) (.betPda ctx.event ctx.bettor) BetEntry.space
  require (event.status = .open) eventNotOpen
  require (sys.unixTimestamp < event.bettingCloseTime) bettingClosed
  require (outcome = outcomeNo ∨ outcome = outcomeYes) invalidOutcome
  require (minStakeLamportsDev ≤ stake) stakeTooLow
  require (stake ≤ maxStakeLamportsDev) stakeTooHigh
  let newPot ← okOr (event.pot.checkedAdd stake) mathOverflow
  require (newPot ≤ maxPotLamportsDev) potWouldExceedMax
  let lamports ← systemTransfer lamports (.wallet ctx.bettor) (.eventPda ctx.event) stake
  let event := {event with pot := newPot}
  let event ← addToSide event outcome stake
  let bettorCount ← okOr (event.bettorCount.checkedAdd (.lit 1)) mathOverflow
  let event := {event with bettorCount}
  let betEntry : BetEntry := ⟨ctx.event,ctx.bettor,outcome,stake,ctx.bumpsBetEntry⟩
  requireEscrow lamports ctx.event event
  pure (({s with lamports}.putEvent ctx.event (some event)).putBet ctx.event ctx.bettor (some betEntry))

structure CancelBet where
  bettor : Pubkey
  event : EventKey

def cancelBet (ctx : CancelBet) (s : Chain) : Except ProgramError Chain := do
  let event ← loadEvent s ctx.event
  let betEntry ← loadBet s ctx.event ctx.bettor
  require (event.status = .open) cancelNotOpen
  let stake := betEntry.stake
  let pot ← okOr (event.pot.checkedSub stake) mathOverflow
  let event := {event with pot}
  let event ← removeFromSide event betEntry.outcome stake
  let bettorCount ← okOr (event.bettorCount.checkedSub (.lit 1)) mathOverflow
  let event := {event with bettorCount}
  let lamports ← transferFromPda s.lamports (.eventPda ctx.event) (.wallet ctx.bettor) stake
  requireEscrow lamports ctx.event event
  -- close = bettor, on exit
  let lamports ← closeAccount lamports (.betPda ctx.event ctx.bettor) (.wallet ctx.bettor)
  pure (({s with lamports}.putEvent ctx.event (some event)).putBet ctx.event ctx.bettor none)

structure LockEvent where
  caller : Pubkey
  event : EventKey

def lockEvent (sys : Sysvars) (ctx : LockEvent) (s : Chain) : Except ProgramError Chain := do
  let event ← loadEvent s ctx.event
  require (event.status = .open) lockNotOpen
  require (event.bettingCloseTime ≤ sys.unixTimestamp) lockTooEarly
  let event :=
    if event.yesStake.val = 0 ∨ event.noStake.val = 0 then
      {event with status := .refundable,payoutPool := event.pot}
    else {event with status := .locked}
  requireEscrow s.lamports ctx.event event
  pure (s.putEvent ctx.event (some event))

section parts
variable {s next : Chain} {sys : Sysvars} {event booked : Event} {outcome : U8} {stake : U64}

theorem addToSide_parts : addToSide event outcome stake = .ok booked ↔
    ∃ side, side.val = (event.side outcome).val + stake.val ∧ event.withSide outcome side = booked := by
  unfold addToSide Event.side Event.withSide
  split <;> simp only [bind_ok,okOr_ok,pure_ok,RangedInt.checkedAdd_some]

theorem removeFromSide_parts : removeFromSide event outcome stake = .ok booked ↔
    ∃ side, side.val = (event.side outcome).val - stake.val ∧ event.withSide outcome side = booked := by
  unfold removeFromSide Event.side Event.withSide
  split <;> simp only [bind_ok,okOr_ok,pure_ok,RangedInt.checkedSub_some]

theorem createEvent_parts {ctx : CreateEvent} {feedId : FeedId} {condition : U8} {thresholdE8 : I128}
    {bettingCloseTime resolutionTime : I64}
    (ran : createEvent sys ctx feedId condition thresholdE8 bettingCloseTime resolutionTime s = .ok next) :
    ∃ lamports event, s.events ctx.event = none ∧
      initAccount sys s.lamports (.wallet ctx.creator) (.eventPda ctx.event) Event.space = .ok lamports ∧
      sys.unixTimestamp.val < bettingCloseTime.val ∧ bettingCloseTime.val + 300 ≤ resolutionTime.val ∧
      (condition = conditionGreaterThan ∨ condition = conditionLessThan) ∧ feedId ∈ feedWhitelistDev ∧
      event = (⟨ctx.creator,ctx.eventId,feedId,condition,thresholdE8,bettingCloseTime,resolutionTime,
        .lit 0,.lit 0,.lit 0,.lit 0,sys.minimumBalance Event.space,.open,none,.lit 0,.lit 0,.lit 0,.lit 0,
        .lit 0,ctx.bumpsEvent⟩ : Event) ∧
      next = {s with lamports}.putEvent ctx.event (some event) := by
  simp only [createEvent,bind_ok,okOr_ok,require_ok,pure_ok,RangedInt.checkedAdd_some,
    RangedInt.lt_iff,RangedInt.le_iff] at ran
  obtain ⟨_,vacant,lamports,funded,_,listed,_,known,_,future,least,gap,_,enough,rfl⟩ := ran
  refine ⟨lamports,_,vacant,funded,future,?_,known,listed,rfl,rfl⟩
  simpa only [gap,minResolutionGapSecsDev,RangedInt.lit_val] using enough

theorem placeBet_parts {ctx : PlaceBet} (ran : placeBet sys ctx outcome stake s = .ok next) :
    ∃ event pot side count funded lamports, loadEvent s ctx.event = .ok event ∧
      s.bets ctx.event ctx.bettor = none ∧ event.status = .open ∧
      sys.unixTimestamp.val < event.bettingCloseTime.val ∧ (outcome = outcomeNo ∨ outcome = outcomeYes) ∧
      minStakeLamportsDev.val ≤ stake.val ∧ stake.val ≤ maxStakeLamportsDev.val ∧
      pot.val = event.pot.val + stake.val ∧ pot.val ≤ maxPotLamportsDev.val ∧
      side.val = (event.side outcome).val + stake.val ∧ count.val = event.bettorCount.val + 1 ∧
      initAccount sys s.lamports (.wallet ctx.bettor) (.betPda ctx.event ctx.bettor) BetEntry.space = .ok funded ∧
      systemTransfer funded (.wallet ctx.bettor) (.eventPda ctx.event) stake = .ok lamports ∧
      next = ({s with lamports}.putEvent ctx.event
        (some (event.withBook outcome pot side count))).putBet ctx.event ctx.bettor
          (some ⟨ctx.event,ctx.bettor,outcome,stake,ctx.bumpsBetEntry⟩) := by
  simp only [placeBet,bind_ok,okOr_ok,require_ok,pure_ok,RangedInt.checkedAdd_some,
    RangedInt.lt_iff,RangedInt.le_iff,addToSide_parts] at ran
  obtain ⟨event,loaded,_,vacant,funded,rent,_,opened,_,betting,_,known,_,least,_,most,pot,sum,_,cap,
    lamports,paid,_,⟨side,added,rfl⟩,count,counted,_,_,rfl⟩ := ran
  refine ⟨event,pot,side,count,funded,lamports,loaded,vacant,opened,betting,known,least,most,sum,cap,
    added,?_,rent,paid,rfl⟩
  unfold Event.withSide at counted
  split at counted <;> exact counted

theorem cancelBet_parts {ctx : CancelBet} (ran : cancelBet ctx s = .ok next) :
    ∃ event entry pot side count middle lamports, loadEvent s ctx.event = .ok event ∧
      s.bets ctx.event ctx.bettor = some entry ∧ event.status = .open ∧
      pot.val = event.pot.val - entry.stake.val ∧
      side.val = (event.side entry.outcome).val - entry.stake.val ∧
      count.val = event.bettorCount.val - 1 ∧
      transferFromPda s.lamports (.eventPda ctx.event) (.wallet ctx.bettor) entry.stake = .ok middle ∧
      closeAccount middle (.betPda ctx.event ctx.bettor) (.wallet ctx.bettor) = .ok lamports ∧
      next = ({s with lamports}.putEvent ctx.event
        (some (event.withBook entry.outcome pot side count))).putBet
          ctx.event ctx.bettor none := by
  simp only [cancelBet,bind_ok,okOr_ok,require_ok,pure_ok,RangedInt.checkedSub_some,
    removeFromSide_parts,loadBet_parts] at ran
  obtain ⟨event,loaded,entry,held,_,opened,pot,difference,_,⟨side,removed,rfl⟩,count,counted,middle,paid,
    _,_,lamports,closed,rfl⟩ := ran
  refine ⟨event,entry,pot,side,count,middle,lamports,loaded,held,opened,difference,removed,?_,paid,closed,rfl⟩
  unfold Event.withSide at counted
  split at counted <;> exact counted

theorem lockEvent_parts {ctx : LockEvent} (ran : lockEvent sys ctx s = .ok next) :
    ∃ event, loadEvent s ctx.event = .ok event ∧ event.status = .open ∧
      event.bettingCloseTime.val ≤ sys.unixTimestamp.val ∧
      (((event.yesStake.val = 0 ∨ event.noStake.val = 0) ∧ next = s.putEvent ctx.event
          (some {event with status := .refundable,payoutPool := event.pot})) ∨
       (event.yesStake.val ≠ 0 ∧ event.noStake.val ≠ 0 ∧ next = s.putEvent ctx.event
          (some {event with status := .locked}))) := by
  simp only [lockEvent,bind_ok,require_ok,pure_ok,RangedInt.le_iff] at ran
  obtain ⟨event,loaded,_,opened,_,late,_,_,rfl⟩ := ran
  refine ⟨event,loaded,opened,late,?_⟩
  split
  · rename_i oneSided; exact .inl ⟨oneSided,rfl⟩
  · rename_i twoSided
    obtain ⟨yes,no⟩ := not_or.mp twoSided
    exact .inr ⟨yes,no,rfl⟩

end parts
end Solclash
