import Solclash.Accounts
import Solclash.Oracle

namespace Solclash
open Fallible SolclashError AnchorError

structure ResolveEvent where
  resolver : Pubkey
  event : EventKey
  priceUpdate : MockPriceUpdate

def resolveEvent (sys : Sysvars) (ctx : ResolveEvent) (s : Chain) : Except ProgramError Chain := do
  let event ← loadEvent s ctx.event
  require (event.status = .locked) eventNotLocked
  require (event.resolutionTime ≤ sys.unixTimestamp) resolveTooEarly
  let verified ← lift (verifyPriceUpdate (extract ctx.priceUpdate) event.feedId event.resolutionTime)
  let outcome ← lift (resolveConfidenceBand event.condition verified.priceE8 verified.confE8 event.thresholdE8)
  let finalizedAt ← okOr (sys.unixTimestamp.checkedAdd resolutionChallengeSecsDev) mathOverflow
  let event := {event with
    candidateOutcome := outcome
    candidatePriceE8 := verified.priceE8
    candidatePublishTime := verified.publishTime
    finalizedAt
    status := .resolving }
  -- checked before the reward leaves
  requireEscrow s.lamports ctx.event event
  let lamports ← transferFromPda s.lamports (.eventPda ctx.event) (.wallet ctx.resolver) resolverRewardDev
  pure ({s with lamports}.putEvent ctx.event (some event))

structure ChallengeResolution where
  challenger : Pubkey
  event : EventKey
  priceUpdate : MockPriceUpdate

def challengeResolution (sys : Sysvars) (ctx : ChallengeResolution) (s : Chain) : Except ProgramError Chain := do
  let event ← loadEvent s ctx.event
  require (event.status = .resolving) eventNotResolving
  require (sys.unixTimestamp < event.finalizedAt) challengeWindowClosed
  let verified ← lift (verifyPriceUpdate (extract ctx.priceUpdate) event.feedId event.resolutionTime)
  require (event.candidatePublishTime < verified.publishTime) challengeNotNewer
  let outcome ← lift (resolveConfidenceBand event.condition verified.priceE8 verified.confE8 event.thresholdE8)
  let event := {event with
    candidateOutcome := outcome
    candidatePriceE8 := verified.priceE8
    candidatePublishTime := verified.publishTime }
  pure (s.putEvent ctx.event (some event))

-- The fee wallet is the one `mut` account that is no PDA and never has to sign:
-- whether it is passed as writable is part of the call.
structure FinalizeResolution where
  caller : Pubkey
  event : EventKey
  feeWallet : Pubkey
  feeWalletWritable : Bool

def finalizeResolution (sys : Sysvars) (ctx : FinalizeResolution) (s : Chain) : Except ProgramError Chain := do
  let event ← loadEvent s ctx.event
  require (ctx.feeWalletWritable = true) constraintMut
  require (ctx.feeWallet = feeWalletDev) feeWalletMismatch
  require (event.status = .resolving) eventNotResolving
  require (event.finalizedAt ≤ sys.unixTimestamp) finalizeTooEarly
  let potAfterReward ← okOr (event.pot.checkedSub resolverRewardDev) mathOverflow
  match event.candidateOutcome with
  | none => do
    let event := {event with status := .refundable,payoutPool := potAfterReward}
    requireEscrow s.lamports ctx.event event
    pure (s.putEvent ctx.event (some event))
  | some _ => do
    let product ← okOr ((potAfterReward.widen : U128).checkedMul protocolFeeBps.widen) mathOverflow
    let feeU128 ← okOr (product.checkedDiv (.lit 10000)) mathOverflow
    let protocolFee ← okOr feeU128.tryFrom mathOverflow
    let payoutPool ← okOr (potAfterReward.checkedSub protocolFee) mathOverflow
    let event := {event with status := .resolved,payoutPool}
    let lamports ← transferFromPda s.lamports (.eventPda ctx.event) (.wallet ctx.feeWallet) protocolFee
    requireEscrow lamports ctx.event event
    pure ({s with lamports}.putEvent ctx.event (some event))

-- What a verified update writes into the three candidate fields.
def Event.withCandidate (e : Event) (outcome : Option U8) (verified : VerifiedPrice) : Event :=
  {e with
    candidateOutcome := outcome
    candidatePriceE8 := verified.priceE8
    candidatePublishTime := verified.publishTime }

section parts
variable {s next : Chain} {sys : Sysvars}

theorem resolveEvent_parts {ctx : ResolveEvent} (ran : resolveEvent sys ctx s = .ok next) :
    ∃ event verified outcome finalizedAt lamports, loadEvent s ctx.event = .ok event ∧
      event.status = .locked ∧ event.resolutionTime.val ≤ sys.unixTimestamp.val ∧
      verifyPriceUpdate (extract ctx.priceUpdate) event.feedId event.resolutionTime = .ok verified ∧
      resolveConfidenceBand event.condition verified.priceE8 verified.confE8 event.thresholdE8 = .ok outcome ∧
      finalizedAt.val = sys.unixTimestamp.val + 300 ∧
      transferFromPda s.lamports (.eventPda ctx.event) (.wallet ctx.resolver) resolverRewardDev = .ok lamports ∧
      next = {s with lamports}.putEvent ctx.event
        (some {event.withCandidate outcome verified with finalizedAt,status := .resolving}) := by
  simp only [resolveEvent,bind_ok,okOr_ok,require_ok,pure_ok,lift_ok,RangedInt.checkedAdd_some,
    RangedInt.le_iff] at ran
  obtain ⟨event,loaded,_,isLocked,_,due,verified,accepted,outcome,decided,finalizedAt,deadline,_,_,
    lamports,rewarded,rfl⟩ := ran
  exact ⟨event,verified,outcome,finalizedAt,lamports,loaded,isLocked,due,accepted,decided,deadline,rewarded,rfl⟩

theorem challengeResolution_parts {ctx : ChallengeResolution} (ran : challengeResolution sys ctx s = .ok next) :
    ∃ event verified outcome, loadEvent s ctx.event = .ok event ∧
      event.status = .resolving ∧ sys.unixTimestamp.val < event.finalizedAt.val ∧
      verifyPriceUpdate (extract ctx.priceUpdate) event.feedId event.resolutionTime = .ok verified ∧
      event.candidatePublishTime.val < verified.publishTime.val ∧
      resolveConfidenceBand event.condition verified.priceE8 verified.confE8 event.thresholdE8 = .ok outcome ∧
      next = s.putEvent ctx.event (some (event.withCandidate outcome verified)) := by
  simp only [challengeResolution,bind_ok,require_ok,pure_ok,lift_ok,RangedInt.lt_iff] at ran
  obtain ⟨event,loaded,_,resolving,_,inside,verified,accepted,_,newer,outcome,decided,rfl⟩ := ran
  exact ⟨event,verified,outcome,loaded,resolving,inside,accepted,newer,decided,rfl⟩

theorem finalizeResolution_parts {ctx : FinalizeResolution} (ran : finalizeResolution sys ctx s = .ok next) :
    ∃ event potAfterReward, loadEvent s ctx.event = .ok event ∧
      (ctx.feeWalletWritable = true ∧ ctx.feeWallet = feeWalletDev) ∧
      event.status = .resolving ∧ event.finalizedAt.val ≤ sys.unixTimestamp.val ∧
      potAfterReward.val = event.pot.val - resolverRewardDev.val ∧
      ((event.candidateOutcome = none ∧ next = s.putEvent ctx.event
          (some {event with status := .refundable,payoutPool := potAfterReward})) ∨
       (∃ outcome protocolFee payoutPool lamports, event.candidateOutcome = some outcome ∧
          protocolFee.val = potAfterReward.val * 1000 / 10000 ∧
          payoutPool.val = potAfterReward.val - protocolFee.val ∧
          transferFromPda s.lamports (.eventPda ctx.event) (.wallet feeWalletDev) protocolFee = .ok lamports ∧
          next = {s with lamports}.putEvent ctx.event
            (some {event with status := .resolved,payoutPool}))) := by
  simp only [finalizeResolution,bind_ok,okOr_ok,require_ok,RangedInt.checkedSub_some,RangedInt.le_iff] at ran
  obtain ⟨event,loaded,_,writable,_,wallet,_,resolving,_,due,potAfterReward,difference,ending⟩ := ran
  refine ⟨event,potAfterReward,loaded,⟨writable,wallet⟩,resolving,due,difference,?_⟩
  split at ending
  · rename_i ambiguous
    simp only [bind_ok,pure_ok] at ending
    obtain ⟨_,_,rfl⟩ := ending
    exact .inl ⟨ambiguous,rfl⟩
  · rename_i outcome decided
    simp only [bind_ok,okOr_ok,pure_ok,RangedInt.checkedMul_some,RangedInt.checkedDiv_some,
      RangedInt.tryFrom_some,RangedInt.checkedSub_some] at ending
    obtain ⟨product,multiplied,feeU128,⟨_,divided⟩,protocolFee,converted,payoutPool,left,lamports,paid,_,_,rfl⟩ :=
      ending
    rw [wallet] at paid
    refine .inr ⟨outcome,protocolFee,payoutPool,lamports,decided,?_,left,paid,rfl⟩
    have nonneg := product.lower
    simp only [RangedInt.widen_val,RangedInt.lit_val,protocolFeeBps] at multiplied divided
    rw [converted,divided,multiplied,Int.tdiv_eq_ediv_of_nonneg (by omega)]

end parts
end Solclash
