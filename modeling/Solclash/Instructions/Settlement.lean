import Solclash.Accounts
import Solclash.Math

namespace Solclash
open Fallible SolclashError AnchorError

structure Claim where
  bettor : Pubkey
  event : EventKey

def claim (sys : Sysvars) (ctx : Claim) (s : Chain) : Except ProgramError Chain := do
  let event ← loadEvent s ctx.event
  let betEntry ← loadBet s ctx.event ctx.bettor
  require (event.status = .resolved) eventNotResolved
  require (event.finalizedAt ≤ sys.unixTimestamp) claimBeforeFinalized
  let winningOutcome ← okOr event.candidateOutcome eventNotResolved
  require (betEntry.outcome = winningOutcome) notWinningOutcome
  let winningStake := if winningOutcome = outcomeYes then event.yesStake else event.noStake
  let payout ← lift (computeClaim event.payoutPool betEntry.stake winningStake)
  let lamports ← transferFromPda s.lamports (.eventPda ctx.event) (.wallet ctx.bettor) payout
  let betsClosed ← okOr (event.betsClosed.checkedAdd (.lit 1)) mathOverflow
  let event := {event with betsClosed}
  -- close = bettor, on exit
  let lamports ← closeAccount lamports (.betPda ctx.event ctx.bettor) (.wallet ctx.bettor)
  pure (({s with lamports}.putEvent ctx.event (some event)).putBet ctx.event ctx.bettor none)

structure MarkRefundable where
  caller : Pubkey
  event : EventKey

def markRefundable (sys : Sysvars) (ctx : MarkRefundable) (s : Chain) : Except ProgramError Chain := do
  let event ← loadEvent s ctx.event
  require (event.status = .locked) markRefundableNotLocked
  let timeoutAt ← okOr (event.resolutionTime.checkedAdd resolutionTimeoutSecsDev) mathOverflow
  require (timeoutAt ≤ sys.unixTimestamp) timeoutNotReached
  let event := {event with status := .refundable,payoutPool := event.pot}
  requireEscrow s.lamports ctx.event event
  pure (s.putEvent ctx.event (some event))

structure ClaimRefund where
  bettor : Pubkey
  event : EventKey

def claimRefund (sys : Sysvars) (ctx : ClaimRefund) (s : Chain) : Except ProgramError Chain := do
  let event ← loadEvent s ctx.event
  let betEntry ← loadBet s ctx.event ctx.bettor
  require (event.status = .refundable) eventNotRefundable
  require (event.finalizedAt ≤ sys.unixTimestamp) claimBeforeFinalized
  let refund ← lift (computeRefund event.payoutPool betEntry.stake event.pot)
  let lamports ← transferFromPda s.lamports (.eventPda ctx.event) (.wallet ctx.bettor) refund
  let betsClosed ← okOr (event.betsClosed.checkedAdd (.lit 1)) mathOverflow
  let event := {event with betsClosed}
  -- close = bettor, on exit
  let lamports ← closeAccount lamports (.betPda ctx.event ctx.bettor) (.wallet ctx.bettor)
  pure (({s with lamports}.putEvent ctx.event (some event)).putBet ctx.event ctx.bettor none)

structure CloseEvent where
  caller : Pubkey
  event : EventKey
  creator : Pubkey

def closeEvent (ctx : CloseEvent) (s : Chain) : Except ProgramError Chain := do
  let event ← loadEvent s ctx.event
  require (ctx.creator = event.creator) constraintAddress
  require (event.status = .resolved ∨ event.status = .refundable) eventNotTerminal
  require (event.betsClosed.val = event.bettorCount.val) payoutsNotComplete
  -- close = creator, on exit
  let lamports ← closeAccount s.lamports (.eventPda ctx.event) (.wallet ctx.creator)
  pure ({s with lamports}.putEvent ctx.event none)

section parts
variable {s next : Chain} {sys : Sysvars}

theorem claim_parts {ctx : Claim} (ran : claim sys ctx s = .ok next) :
    ∃ event entry payout count middle lamports, loadEvent s ctx.event = .ok event ∧
      s.bets ctx.event ctx.bettor = some entry ∧ event.status = .resolved ∧
      event.finalizedAt.val ≤ sys.unixTimestamp.val ∧ event.candidateOutcome = some entry.outcome ∧
      computeClaim event.payoutPool entry.stake (event.side entry.outcome) = .ok payout ∧
      count.val = event.betsClosed.val + 1 ∧
      transferFromPda s.lamports (.eventPda ctx.event) (.wallet ctx.bettor) payout = .ok middle ∧
      closeAccount middle (.betPda ctx.event ctx.bettor) (.wallet ctx.bettor) = .ok lamports ∧
      next = ({s with lamports}.putEvent ctx.event (some {event with betsClosed := count})).putBet
        ctx.event ctx.bettor none := by
  simp only [claim,bind_ok,okOr_ok,require_ok,pure_ok,lift_ok,loadBet_parts,RangedInt.checkedAdd_some,
    RangedInt.le_iff] at ran
  obtain ⟨event,loaded,entry,held,_,resolved,_,due,winner,decided,_,won,payout,share,middle,paid,count,
    counted,lamports,closed,rfl⟩ := ran
  subst winner
  exact ⟨event,entry,payout,count,middle,lamports,loaded,held,resolved,due,decided,share,counted,paid,closed,rfl⟩

theorem markRefundable_parts {ctx : MarkRefundable} (ran : markRefundable sys ctx s = .ok next) :
    ∃ event, loadEvent s ctx.event = .ok event ∧ event.status = .locked ∧
      event.resolutionTime.val + resolutionTimeoutSecsDev.val ≤ sys.unixTimestamp.val ∧
      next = s.putEvent ctx.event (some {event with status := .refundable,payoutPool := event.pot}) := by
  simp only [markRefundable,bind_ok,okOr_ok,require_ok,pure_ok,RangedInt.checkedAdd_some,RangedInt.le_iff] at ran
  obtain ⟨event,loaded,_,isLocked,timeoutAt,sum,_,late,_,_,rfl⟩ := ran
  exact ⟨event,loaded,isLocked,sum ▸ late,rfl⟩

theorem claimRefund_parts {ctx : ClaimRefund} (ran : claimRefund sys ctx s = .ok next) :
    ∃ event entry refund count middle lamports, loadEvent s ctx.event = .ok event ∧
      s.bets ctx.event ctx.bettor = some entry ∧ event.status = .refundable ∧
      event.finalizedAt.val ≤ sys.unixTimestamp.val ∧
      computeRefund event.payoutPool entry.stake event.pot = .ok refund ∧
      count.val = event.betsClosed.val + 1 ∧
      transferFromPda s.lamports (.eventPda ctx.event) (.wallet ctx.bettor) refund = .ok middle ∧
      closeAccount middle (.betPda ctx.event ctx.bettor) (.wallet ctx.bettor) = .ok lamports ∧
      next = ({s with lamports}.putEvent ctx.event (some {event with betsClosed := count})).putBet
        ctx.event ctx.bettor none := by
  simp only [claimRefund,bind_ok,okOr_ok,require_ok,pure_ok,lift_ok,loadBet_parts,RangedInt.checkedAdd_some,
    RangedInt.le_iff] at ran
  obtain ⟨event,loaded,entry,held,_,refundable,_,due,refund,share,middle,paid,count,counted,lamports,
    closed,rfl⟩ := ran
  exact ⟨event,entry,refund,count,middle,lamports,loaded,held,refundable,due,share,counted,paid,closed,rfl⟩

theorem closeEvent_parts {ctx : CloseEvent} (ran : closeEvent ctx s = .ok next) :
    ∃ event lamports, loadEvent s ctx.event = .ok event ∧ ctx.creator = event.creator ∧
      (event.status = .resolved ∨ event.status = .refundable) ∧
      event.betsClosed.val = event.bettorCount.val ∧
      closeAccount s.lamports (.eventPda ctx.event) (.wallet ctx.creator) = .ok lamports ∧
      next = {s with lamports}.putEvent ctx.event none := by
  simp only [closeEvent,bind_ok,require_ok,pure_ok] at ran
  obtain ⟨event,loaded,_,recipient,_,terminal,_,complete,lamports,swept,rfl⟩ := ran
  exact ⟨event,lamports,loaded,recipient,terminal,complete,swept,rfl⟩

end parts
end Solclash
