import Solclash.Foundations.Histories
import Solclash.Instructions.Market
import Solclash.Instructions.Resolution
import Solclash.Instructions.Settlement

namespace Solclash
open Fallible

-- lib.rs, mod solclash_events. Every other account that a struct declares `mut`
-- is a PDA, a signer or the creator who has signed: a caller always can pass it
-- as writable, and is taken to do so.
inductive Instruction where
  | createEvent (ctx : CreateEvent) (feedId : FeedId) (condition : U8) (thresholdE8 : I128)
      (bettingCloseTime resolutionTime : I64)
  | placeBet (ctx : PlaceBet) (outcome : U8) (stake : U64)
  | cancelBet (ctx : CancelBet)
  | lockEvent (ctx : LockEvent)
  | resolveEvent (ctx : ResolveEvent)
  | challengeResolution (ctx : ChallengeResolution)
  | finalizeResolution (ctx : FinalizeResolution)
  | claim (ctx : Claim)
  | markRefundable (ctx : MarkRefundable)
  | claimRefund (ctx : ClaimRefund)
  | closeEvent (ctx : CloseEvent)

def Instruction.event : Instruction → EventKey
  | .createEvent ctx .. => ctx.event
  | .placeBet ctx .. => ctx.event
  | .cancelBet ctx => ctx.event
  | .lockEvent ctx => ctx.event
  | .resolveEvent ctx => ctx.event
  | .challengeResolution ctx => ctx.event
  | .finalizeResolution ctx => ctx.event
  | .claim ctx => ctx.event
  | .markRefundable ctx => ctx.event
  | .claimRefund ctx => ctx.event
  | .closeEvent ctx => ctx.event

def execute (sys : Sysvars) (instruction : Instruction) (s : Chain) : Except ProgramError Chain :=
  match instruction with
  | .createEvent ctx feedId condition thresholdE8 bettingCloseTime resolutionTime =>
      createEvent sys ctx feedId condition thresholdE8 bettingCloseTime resolutionTime s
  | .placeBet ctx outcome stake => placeBet sys ctx outcome stake s
  | .cancelBet ctx => cancelBet ctx s
  | .lockEvent ctx => lockEvent sys ctx s
  | .resolveEvent ctx => resolveEvent sys ctx s
  | .challengeResolution ctx => challengeResolution sys ctx s
  | .finalizeResolution ctx => finalizeResolution sys ctx s
  | .claim ctx => claim sys ctx s
  | .markRefundable ctx => markRefundable sys ctx s
  | .claimRefund ctx => claimRefund sys ctx s
  | .closeEvent ctx => closeEvent ctx s

-- Everybody may call anything at any later clock, and may send lamports of
-- their own wallet anywhere; a rejected instruction leaves the accounts alone.
inductive Action where
  | invoke (sys : Sysvars) (instruction : Instruction)
  | transfer (source : Pubkey) (target : Address) (amount : U64)

def advance (s : Chain) : Action → Option Chain
  | .invoke sys instruction =>
    if s.clock ≤ sys.unixTimestamp then
      match execute sys instruction s with
      | .ok next => some {next with clock := sys.unixTimestamp}
      | .error _ => some {s with clock := sys.unixTimestamp}
    else none
  | .transfer source target amount =>
    match systemTransfer s.lamports (.wallet source) target amount with
    | .ok lamports => some {s with lamports}
    | .error _ => none

-- Before the first instruction the program owns no account; the ledger's
-- total fits in u64, as the runtime guarantees.
structure Genesis (s : Chain) : Prop where
  noEvents : ∀ key, s.events key = none
  noBets : ∀ key bettor, s.bets key bettor = none
  capped : Balances.Capped s.lamports

def machine : Machine Chain Action := ⟨Genesis,advance⟩

abbrev Step := Transition Chain Action
abbrev Run (origin : Chain) (history : List Step) (s : Chain) : Prop := Machine.History machine origin history s
abbrev Reachable (s : Chain) : Prop := Machine.Reachable machine s

theorem advance_invoke (step : advance s (.invoke sys instruction) = some next) :
    s.clock ≤ sys.unixTimestamp ∧
      ((∃ after, execute sys instruction s = .ok after ∧ next = {after with clock := sys.unixTimestamp}) ∨
       (∃ e, execute sys instruction s = .error e ∧ next = {s with clock := sys.unixTimestamp})) := by
  simp only [advance] at step
  split at step
  · rename_i later
    refine ⟨later,?_⟩
    split at step
    · rename_i after ran
      exact .inl ⟨after,ran,(Option.some.inj step).symm⟩
    · rename_i e ran
      exact .inr ⟨e,ran,(Option.some.inj step).symm⟩
  · cases step

theorem advance_transfer (step : advance s (.transfer source target amount) = some next) :
    ∃ lamports, systemTransfer s.lamports (.wallet source) target amount = .ok lamports ∧
      next = {s with lamports} := by
  simp only [advance] at step
  split at step
  · rename_i lamports moved
    exact ⟨lamports,moved,(Option.some.inj step).symm⟩
  · cases step

end Solclash
