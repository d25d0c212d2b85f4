import Solclash.Foundations.Unwinding
import Solclash.Journal
import Solclash.Recovery

-- What can influence a market: the instructions addressed to it, and whether
-- their signers can pay. Everything else on the ledger, gifts to its own account
-- included, changes no verdict, no entry and no payment of it.
namespace Solclash.Independence
open EventProtocol EventBook EventPurse Lifetimes EntryProtocol TerminalPhase Solvency Refusals Exits Payouts
open Fallible SolclashError
open Journal (shortfall)

structure SameMarket (key : EventKey) (s s' : Chain) : Prop where
  reached : Reachable s
  reached' : Reachable s'
  events : s.events key = s'.events key
  bets : s.bets key = s'.bets key

theorem SameMarket.symm (same : SameMarket key s s') : SameMarket key s' s :=
  ⟨same.reached',same.reached,same.events.symm,same.bets.symm⟩

def accepted (sys : Sysvars) (instruction : Instruction) (s : Chain) : Bool :=
  match execute sys instruction s with
  | .ok _ => true
  | .error _ => false

-- What an instruction takes from its signer's wallet: the rent that the new
-- account still lacks, and a stake.
def charge (sys : Sysvars) (s : Chain) : Instruction → Option (Pubkey × Int)
  | .createEvent ctx .. => some (ctx.creator,shortfall sys s.lamports (.eventPda ctx.event) Event.space)
  | .placeBet ctx _ stake =>
      some (ctx.bettor,shortfall sys s.lamports (.betPda ctx.event ctx.bettor) BetEntry.space + stake.val)
  | _ => none

def funded (sys : Sysvars) (instruction : Instruction) (s : Chain) : Bool :=
  match charge sys s instruction with
  | some (payer,amount) => decide (amount ≤ (s.lamports (.wallet payer)).val)
  | none => true

section funding
variable {s next : Chain} {sys : Sysvars} {e : Event} {lamports after : Lamports}
  {source target payer account : Address} {amount stake : U64} {outcome condition : U8}
  {bettingCloseTime resolutionTime : I64}

end funding

section accepting
variable {key : EventKey} {s s' next next' : Chain} {sys sys' : Sysvars} {e : Event} {entry : BetEntry}
  {bettor caller : Pubkey} {update : MockPriceUpdate}

theorem lockEvent_possible (reached : Reachable s) (found : s.events key = some e) (opened : e.status = .open)
    (late : e.bettingCloseTime.val ≤ sys.unixTimestamp.val) : ∃ next, lockEvent sys ⟨caller,key⟩ s = .ok next := by
  apply returns
  intro err ran
  rcases lockEvent_refused reached ran with ⟨_,absent⟩ | ⟨e',found',refusal⟩
  · rw [found] at absent; cases absent
  · rw [found] at found'; cases found'
    rcases refusal with ⟨_,other⟩ | ⟨_,early⟩
    · exact other opened
    · omega

theorem SameMarket.event (same : SameMarket key s s') (loaded : loadEvent s key = .ok e)
    (loaded' : loadEvent s' key = .ok e') : e' = e := by
  have found := (loadEvent_parts.mp loaded).1
  have found' := (loadEvent_parts.mp loaded').1
  rw [← same.events,found] at found'
  exact (Option.some.inj found').symm

theorem SameMarket.bet (same : SameMarket key s s') (held : s.bets key bettor = some x)
    (held' : s'.bets key bettor = some x') : x' = x := by
  rw [← same.bets,held] at held'
  exact (Option.some.inj held').symm

-- What the three paying instructions pay, as a function of the two records.
def owed (e : Event) (entry : BetEntry) : Int := if e.status = .open then entry.stake.val else due e entry

def payee : Instruction → Option Pubkey
  | .cancelBet ctx => some ctx.bettor
  | .claim ctx => some ctx.bettor
  | .claimRefund ctx => some ctx.bettor
  | _ => none

end accepting

theorem Reachable.step (reached : Reachable s) (step : advance s action = some next) : Reachable next := by
  have path : Run s [⟨s,action,next⟩] next := .cons .nil step
  exact reached.extend path

section sample
open SampleMarket

end sample

end Solclash.Independence
