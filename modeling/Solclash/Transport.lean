import Mathlib.Logic.Function.Basic
import Solclash.Program

-- Carrying a whole instruction from one ledger to another: other names for the
-- wallets, other contents for the accounts it does not touch. What the program
-- does is seen to depend on nothing else, once for both uses.
namespace Solclash
open Fallible

-- The accounts that an accounts struct declares `mut`, `init` or `close`.
def Instruction.writable : Instruction → List Address
  | .createEvent ctx .. => [.wallet ctx.creator,.eventPda ctx.event]
  | .placeBet ctx .. => [.wallet ctx.bettor,.eventPda ctx.event,.betPda ctx.event ctx.bettor]
  | .cancelBet ctx => [.wallet ctx.bettor,.eventPda ctx.event,.betPda ctx.event ctx.bettor]
  | .lockEvent ctx => [.eventPda ctx.event]
  | .resolveEvent ctx => [.wallet ctx.resolver,.eventPda ctx.event]
  | .challengeResolution ctx => [.eventPda ctx.event]
  | .finalizeResolution ctx => [.eventPda ctx.event,.wallet ctx.feeWallet]
  | .claim ctx => [.wallet ctx.bettor,.eventPda ctx.event,.betPda ctx.event ctx.bettor]
  | .markRefundable ctx => [.eventPda ctx.event]
  | .claimRefund ctx => [.wallet ctx.bettor,.eventPda ctx.event,.betPda ctx.event ctx.bettor]
  | .closeEvent ctx => [.eventPda ctx.event,.wallet ctx.creator]

def Action.writable : Action → List Address
  | .invoke _ instruction => instruction.writable
  | .transfer source target _ => [.wallet source,target]

-- New names for the wallets. The fee wallet, the only one the program knows by
-- its key, keeps its own; a stored bump is what the call brought along, and stays.
structure Names where
  wallet : Pubkey → Pubkey
  distinct : Function.Injective wallet
  feeWallet : wallet feeWalletDev = feeWalletDev

namespace Names
def same : Names := ⟨fun key => key,fun _ _ equal => equal,rfl⟩

variable (names : Names)

def key (key : EventKey) : EventKey := ⟨names.wallet key.creator,key.eventId⟩

def address : Address → Address
  | .wallet key => .wallet (names.wallet key)
  | .eventPda key => .eventPda (names.key key)
  | .betPda key bettor => .betPda (names.key key) (names.wallet bettor)

def event (e : Event) : Event := {e with creator := names.wallet e.creator}
def entry (entry : BetEntry) : BetEntry :=
  {entry with event := names.key entry.event,bettor := names.wallet entry.bettor}

def instruction : Instruction → Instruction
  | .createEvent ctx feedId condition thresholdE8 bettingCloseTime resolutionTime =>
      .createEvent {ctx with creator := names.wallet ctx.creator} feedId condition thresholdE8 bettingCloseTime resolutionTime
  | .placeBet ctx outcome stake =>
      .placeBet {ctx with bettor := names.wallet ctx.bettor,event := names.key ctx.event} outcome stake
  | .cancelBet ctx => .cancelBet ⟨names.wallet ctx.bettor,names.key ctx.event⟩
  | .lockEvent ctx => .lockEvent ⟨names.wallet ctx.caller,names.key ctx.event⟩
  | .resolveEvent ctx => .resolveEvent ⟨names.wallet ctx.resolver,names.key ctx.event,ctx.priceUpdate⟩
  | .challengeResolution ctx => .challengeResolution ⟨names.wallet ctx.challenger,names.key ctx.event,ctx.priceUpdate⟩
  | .finalizeResolution ctx =>
      .finalizeResolution
        ⟨names.wallet ctx.caller,names.key ctx.event,names.wallet ctx.feeWallet,ctx.feeWalletWritable⟩
  | .claim ctx => .claim ⟨names.wallet ctx.bettor,names.key ctx.event⟩
  | .markRefundable ctx => .markRefundable ⟨names.wallet ctx.caller,names.key ctx.event⟩
  | .claimRefund ctx => .claimRefund ⟨names.wallet ctx.bettor,names.key ctx.event⟩
  | .closeEvent ctx => .closeEvent ⟨names.wallet ctx.caller,names.key ctx.event,names.wallet ctx.creator⟩

end Names

-- A translation of ledgers that reads and writes alike at the touched accounts.
structure Transport (names : Names) (touched : Address → Prop) where
  clock : I64 → I64
  lamports : Lamports → Lamports
  events : (EventKey → Option Event) → EventKey → Option Event
  bets : (EventKey → Pubkey → Option BetEntry) → EventKey → Pubkey → Option BetEntry
  balance : ∀ {a}, touched a → ∀ l, lamports l (names.address a) = l a
  setBalance : ∀ {a}, touched a → ∀ l x,
    lamports (Function.update l a x) = Function.update (lamports l) (names.address a) x
  event : ∀ {key}, touched (.eventPda key) → ∀ f, events f (names.key key) = (f key).map names.event
  setEvent : ∀ {key}, touched (.eventPda key) → ∀ f e,
    events (Function.update f key e) = Function.update (events f) (names.key key) (e.map names.event)
  bet : ∀ {key bettor}, touched (.betPda key bettor) → ∀ f,
    bets f (names.key key) (names.wallet bettor) = (f key bettor).map names.entry
  setBet : ∀ {key bettor}, touched (.betPda key bettor) → ∀ f entry,
    bets (Function.update f key (Function.update (f key) bettor entry)) =
      Function.update (bets f) (names.key key)
        (Function.update (bets f (names.key key)) (names.wallet bettor) (entry.map names.entry))

namespace Transport
variable {names : Names} {touched : Address → Prop} (t : Transport names touched)
  {sys : Sysvars} {s : Chain} {key : EventKey} {bettor : Pubkey} {l : Lamports} {a source target : Address}
  {x : U64} {e : Event}

def carry (s : Chain) : Chain := ⟨t.clock s.clock,t.lamports s.lamports,t.events s.events,t.bets s.bets⟩

theorem carry_putEvent (here : touched (.eventPda key)) (e : Option Event) :
    t.carry (s.putEvent key e) = (t.carry s).putEvent (names.key key) (e.map names.event) := by
  simp only [carry,Chain.putEvent,t.setEvent here]

theorem carry_putBet (here : touched (.betPda key bettor)) (entry : Option BetEntry) :
    t.carry (s.putBet key bettor entry) =
      (t.carry s).putBet (names.key key) (names.wallet bettor) (entry.map names.entry) := by
  simp only [carry,Chain.putBet,t.setBet here]

theorem carry_entry (here : touched (.eventPda key)) (own : touched (.betPda key bettor)) (e : Option Event)
    (entry : Option BetEntry) : t.carry ((s.putEvent key e).putBet key bettor entry) =
      ((t.carry s).putEvent (names.key key) (e.map names.event)).putBet (names.key key) (names.wallet bettor)
        (entry.map names.entry) := by
  rw [t.carry_putBet own,t.carry_putEvent here]

theorem debit_carried (here : touched a) :
    Balances.debit (t.lamports l) (names.address a) x = (Balances.debit l a x).map t.lamports := by
  rw [Balances.debit,Balances.debit,t.balance here,Option.map_map]
  exact congrArg (Option.map · _) (funext fun v => (t.setBalance here l v).symm)

theorem credit_carried (here : touched a) :
    Balances.credit (t.lamports l) (names.address a) x = (Balances.credit l a x).map t.lamports := by
  rw [Balances.credit,Balances.credit,t.balance here,Option.map_map]
  exact congrArg (Option.map · _) (funext fun v => (t.setBalance here l v).symm)

theorem systemTransfer_carried (payer : touched source) (payee : touched target) :
    Carries t.lamports (systemTransfer l source target x)
      (systemTransfer (t.lamports l) (names.address source) (names.address target) x) := by
  apply Carries.sequence (Carries.found (t.debit_carried payer))
  intro paid _
  exact Carries.found (t.credit_carried payee)

theorem transferFromPda_carried (payer : touched source) (payee : touched target) :
    Carries t.lamports (transferFromPda l source target x)
      (transferFromPda (t.lamports l) (names.address source) (names.address target) x) := by
  apply Carries.sequence (Carries.found (t.debit_carried payer))
  intro paid _
  exact Carries.found (t.credit_carried payee)

theorem closeAccount_carried (payer : touched source) (payee : touched target) :
    Carries t.lamports (closeAccount l source target)
      (closeAccount (t.lamports l) (names.address source) (names.address target)) := by
  rw [closeAccount,closeAccount,t.balance payer]
  apply Carries.sequence (Carries.found (t.debit_carried payer))
  intro paid _
  exact Carries.found (t.credit_carried payee)

theorem initAccount_carried (payer : touched source) (payee : touched target) (space : Nat) :
    Carries t.lamports (initAccount sys l source target space)
      (initAccount sys (t.lamports l) (names.address source) (names.address target) space) := by
  rw [initAccount,initAccount,t.balance payee]
  cases (sys.minimumBalance space).checkedSub (l target) with
  | none => exact Carries.returned rfl
  | some missing => exact t.systemTransfer_carried payer payee

theorem loadEvent_carried (here : touched (.eventPda key)) :
    Carries names.event (loadEvent s key) (loadEvent (t.carry s) (names.key key)) := by
  apply Carries.sequence (Carries.found (t.event here s.events))
  intro e _
  apply Carries.check (and_congr_left' names.distinct.eq_iff)
  intro _
  exact Carries.returned rfl

theorem loadBet_carried (here : touched (.betPda key bettor)) :
    Carries names.entry (loadBet s key bettor) (loadBet (t.carry s) (names.key key) (names.wallet bettor)) :=
  Carries.found (t.bet here s.bets)

theorem vacantEvent (here : touched (.eventPda key)) :
    (t.carry s).events (names.key key) = none ↔ s.events key = none := by
  have found : (t.carry s).events (names.key key) = (s.events key).map names.event := t.event here s.events
  rw [found,Option.map_eq_none_iff]

theorem vacantBet (here : touched (.betPda key bettor)) :
    (t.carry s).bets (names.key key) (names.wallet bettor) = none ↔ s.bets key bettor = none := by
  have found : (t.carry s).bets (names.key key) (names.wallet bettor) = (s.bets key bettor).map names.entry :=
    t.bet here s.bets
  rw [found,Option.map_eq_none_iff]

theorem requireEscrow_carried (here : touched (.eventPda key)) :
    Carries (fun done => done) (requireEscrow l key e) (requireEscrow (t.lamports l) (names.key key) (names.event e)) := by
  have read : t.lamports l (.eventPda (names.key key)) = l (.eventPda key) := t.balance here l
  apply Carries.unchanged
  intro needed _
  rw [read]
  exact Carries.identity

theorem addToSide_carried (outcome : U8) (stake : U64) :
    Carries names.event (addToSide e outcome stake) (addToSide (names.event e) outcome stake) := by
  unfold addToSide
  split
  · apply Carries.unchanged
    intro side _
    exact Carries.returned rfl
  · apply Carries.unchanged
    intro side _
    exact Carries.returned rfl

theorem removeFromSide_carried (outcome : U8) (stake : U64) :
    Carries names.event (removeFromSide e outcome stake) (removeFromSide (names.event e) outcome stake) := by
  unfold removeFromSide
  split
  · apply Carries.unchanged
    intro side _
    exact Carries.returned rfl
  · apply Carries.unchanged
    intro side _
    exact Carries.returned rfl

theorem createEvent_carried {ctx : CreateEvent} (payer : touched (.wallet ctx.creator))
    (here : touched (.eventPda ctx.event)) :
    Carries t.carry (createEvent sys ctx feedId condition thresholdE8 bettingCloseTime resolutionTime s)
      (createEvent sys {ctx with creator := names.wallet ctx.creator} feedId condition thresholdE8 bettingCloseTime
        resolutionTime (t.carry s)) := by
  unfold createEvent
  apply Carries.check (t.vacantEvent here)
  intro _
  apply Carries.sequence (t.initAccount_carried payer here Event.space)
  intro lamports _
  apply Carries.check Iff.rfl
  intro _
  apply Carries.check Iff.rfl
  intro _
  apply Carries.check Iff.rfl
  intro _
  apply Carries.unchanged
  intro minResolutionTime _
  apply Carries.check Iff.rfl
  intro _
  exact Carries.returned (t.carry_putEvent here _)

theorem placeBet_carried {ctx : PlaceBet} (payer : touched (.wallet ctx.bettor)) (here : touched (.eventPda ctx.event))
    (own : touched (.betPda ctx.event ctx.bettor)) :
    Carries t.carry (placeBet sys ctx outcome stake s)
      (placeBet sys {ctx with bettor := names.wallet ctx.bettor,event := names.key ctx.event} outcome stake (t.carry s)) := by
  unfold placeBet
  apply Carries.sequence (t.loadEvent_carried here)
  intro e _
  apply Carries.check (t.vacantBet own)
  intro _
  apply Carries.sequence (t.initAccount_carried payer own BetEntry.space)
  intro lamports _
  apply Carries.check Iff.rfl
  intro _
  apply Carries.check Iff.rfl
  intro _
  apply Carries.check Iff.rfl
  intro _
  apply Carries.check Iff.rfl
  intro _
  apply Carries.check Iff.rfl
  intro _
  apply Carries.unchanged
  intro newPot _
  apply Carries.check Iff.rfl
  intro _
  apply Carries.sequence (t.systemTransfer_carried payer here)
  intro lamports _
  apply Carries.sequence (addToSide_carried outcome stake)
  intro sided _
  apply Carries.unchanged
  intro bettorCount _
  apply Carries.sequence (t.requireEscrow_carried here)
  intro _ _
  exact Carries.returned (t.carry_entry here own _ _)

theorem cancelBet_carried {ctx : CancelBet} (bettor : touched (.wallet ctx.bettor)) (here : touched (.eventPda ctx.event))
    (own : touched (.betPda ctx.event ctx.bettor)) :
    Carries t.carry (cancelBet ctx s) (cancelBet ⟨names.wallet ctx.bettor,names.key ctx.event⟩ (t.carry s)) := by
  unfold cancelBet
  apply Carries.sequence (t.loadEvent_carried here)
  intro e _
  apply Carries.sequence (t.loadBet_carried own)
  intro entry _
  apply Carries.check Iff.rfl
  intro _
  apply Carries.unchanged
  intro pot _
  apply Carries.sequence (removeFromSide_carried entry.outcome entry.stake)
  intro sided _
  apply Carries.unchanged
  intro bettorCount _
  apply Carries.sequence (t.transferFromPda_carried here bettor)
  intro lamports _
  apply Carries.sequence (t.requireEscrow_carried here)
  intro _ _
  apply Carries.sequence (t.closeAccount_carried own bettor)
  intro lamports _
  exact Carries.returned (t.carry_entry here own _ _)

theorem lockEvent_carried {ctx : LockEvent} (here : touched (.eventPda ctx.event)) :
    Carries t.carry (lockEvent sys ctx s) (lockEvent sys ⟨names.wallet ctx.caller,names.key ctx.event⟩ (t.carry s)) := by
  unfold lockEvent
  apply Carries.sequence (t.loadEvent_carried here)
  intro e _
  apply Carries.check Iff.rfl
  intro _
  apply Carries.check Iff.rfl
  intro _
  -- the two ways to leave Open
  by_cases oneSided : e.yesStake.val = 0 ∨ e.noStake.val = 0
  · have oneSided' : (names.event e).yesStake.val = 0 ∨ (names.event e).noStake.val = 0 := oneSided
    rw [if_pos oneSided,if_pos oneSided']
    apply Carries.sequence (t.requireEscrow_carried here)
    intro _ _
    exact Carries.returned (t.carry_putEvent here _)
  · have twoSided : ¬ ((names.event e).yesStake.val = 0 ∨ (names.event e).noStake.val = 0) := oneSided
    rw [if_neg oneSided,if_neg twoSided]
    apply Carries.sequence (t.requireEscrow_carried here)
    intro _ _
    exact Carries.returned (t.carry_putEvent here _)

theorem resolveEvent_carried {ctx : ResolveEvent} (resolver : touched (.wallet ctx.resolver))
    (here : touched (.eventPda ctx.event)) :
    Carries t.carry (resolveEvent sys ctx s)
      (resolveEvent sys ⟨names.wallet ctx.resolver,names.key ctx.event,ctx.priceUpdate⟩ (t.carry s)) := by
  unfold resolveEvent
  apply Carries.sequence (t.loadEvent_carried here)
  intro e _
  apply Carries.check Iff.rfl
  intro _
  apply Carries.check Iff.rfl
  intro _
  apply Carries.unchanged
  intro verified _
  apply Carries.unchanged
  intro outcome _
  apply Carries.unchanged
  intro finalizedAt _
  apply Carries.sequence (t.requireEscrow_carried here)
  intro _ _
  apply Carries.sequence (t.transferFromPda_carried here resolver)
  intro lamports _
  exact Carries.returned (t.carry_putEvent here _)

theorem challengeResolution_carried {ctx : ChallengeResolution} (here : touched (.eventPda ctx.event)) :
    Carries t.carry (challengeResolution sys ctx s)
      (challengeResolution sys ⟨names.wallet ctx.challenger,names.key ctx.event,ctx.priceUpdate⟩ (t.carry s)) := by
  unfold challengeResolution
  apply Carries.sequence (t.loadEvent_carried here)
  intro e _
  apply Carries.check Iff.rfl
  intro _
  apply Carries.check Iff.rfl
  intro _
  apply Carries.unchanged
  intro verified _
  apply Carries.check Iff.rfl
  intro _
  apply Carries.unchanged
  intro outcome _
  exact Carries.returned (t.carry_putEvent here _)

theorem finalizeResolution_carried {ctx : FinalizeResolution} (here : touched (.eventPda ctx.event))
    (fee : touched (.wallet ctx.feeWallet)) :
    Carries t.carry (finalizeResolution sys ctx s)
      (finalizeResolution sys
        ⟨names.wallet ctx.caller,names.key ctx.event,names.wallet ctx.feeWallet,ctx.feeWalletWritable⟩ (t.carry s)) := by
  unfold finalizeResolution
  have known : names.wallet ctx.feeWallet = feeWalletDev ↔ ctx.feeWallet = feeWalletDev := by
    constructor
    · intro same
      exact names.distinct (same.trans names.feeWallet.symm)
    · intro same
      rw [same,names.feeWallet]
  apply Carries.sequence (t.loadEvent_carried here)
  intro e _
  apply Carries.check Iff.rfl
  intro _
  apply Carries.check known
  intro _
  apply Carries.check Iff.rfl
  intro _
  apply Carries.check Iff.rfl
  intro _
  apply Carries.unchanged
  intro potAfterReward _
  have same : (names.event e).candidateOutcome = e.candidateOutcome := rfl
  rw [same]
  cases e.candidateOutcome with
  | none =>
      apply Carries.sequence (t.requireEscrow_carried here)
      intro _ _
      exact Carries.returned (t.carry_putEvent here _)
  | some outcome =>
      apply Carries.unchanged
      intro product _
      apply Carries.unchanged
      intro feeU128 _
      apply Carries.unchanged
      intro protocolFee _
      apply Carries.unchanged
      intro payoutPool _
      apply Carries.sequence (t.transferFromPda_carried here fee)
      intro lamports _
      apply Carries.sequence (t.requireEscrow_carried here)
      intro _ _
      exact Carries.returned (t.carry_putEvent here _)

theorem claim_carried {ctx : Claim} (bettor : touched (.wallet ctx.bettor)) (here : touched (.eventPda ctx.event))
    (own : touched (.betPda ctx.event ctx.bettor)) :
    Carries t.carry (claim sys ctx s) (claim sys ⟨names.wallet ctx.bettor,names.key ctx.event⟩ (t.carry s)) := by
  unfold claim
  apply Carries.sequence (t.loadEvent_carried here)
  intro e _
  apply Carries.sequence (t.loadBet_carried own)
  intro entry _
  apply Carries.check Iff.rfl
  intro _
  apply Carries.check Iff.rfl
  intro _
  apply Carries.unchanged
  intro winningOutcome _
  apply Carries.check Iff.rfl
  intro _
  apply Carries.unchanged
  intro payout _
  apply Carries.sequence (t.transferFromPda_carried here bettor)
  intro lamports _
  apply Carries.unchanged
  intro betsClosed _
  apply Carries.sequence (t.closeAccount_carried own bettor)
  intro lamports _
  exact Carries.returned (t.carry_entry here own _ _)

theorem markRefundable_carried {ctx : MarkRefundable} (here : touched (.eventPda ctx.event)) :
    Carries t.carry (markRefundable sys ctx s)
      (markRefundable sys ⟨names.wallet ctx.caller,names.key ctx.event⟩ (t.carry s)) := by
  unfold markRefundable
  apply Carries.sequence (t.loadEvent_carried here)
  intro e _
  apply Carries.check Iff.rfl
  intro _
  apply Carries.unchanged
  intro timeoutAt _
  apply Carries.check Iff.rfl
  intro _
  apply Carries.sequence (t.requireEscrow_carried here)
  intro _ _
  exact Carries.returned (t.carry_putEvent here _)

theorem claimRefund_carried {ctx : ClaimRefund} (bettor : touched (.wallet ctx.bettor))
    (here : touched (.eventPda ctx.event)) (own : touched (.betPda ctx.event ctx.bettor)) :
    Carries t.carry (claimRefund sys ctx s) (claimRefund sys ⟨names.wallet ctx.bettor,names.key ctx.event⟩ (t.carry s)) := by
  unfold claimRefund
  apply Carries.sequence (t.loadEvent_carried here)
  intro e _
  apply Carries.sequence (t.loadBet_carried own)
  intro entry _
  apply Carries.check Iff.rfl
  intro _
  apply Carries.check Iff.rfl
  intro _
  apply Carries.unchanged
  intro refund _
  apply Carries.sequence (t.transferFromPda_carried here bettor)
  intro lamports _
  apply Carries.unchanged
  intro betsClosed _
  apply Carries.sequence (t.closeAccount_carried own bettor)
  intro lamports _
  exact Carries.returned (t.carry_entry here own _ _)

theorem closeEvent_carried {ctx : CloseEvent} (here : touched (.eventPda ctx.event))
    (creator : touched (.wallet ctx.creator)) :
    Carries t.carry (closeEvent ctx s)
      (closeEvent ⟨names.wallet ctx.caller,names.key ctx.event,names.wallet ctx.creator⟩ (t.carry s)) := by
  unfold closeEvent
  apply Carries.sequence (t.loadEvent_carried here)
  intro e _
  apply Carries.check names.distinct.eq_iff
  intro _
  apply Carries.check Iff.rfl
  intro _
  apply Carries.check Iff.rfl
  intro _
  apply Carries.sequence (t.closeAccount_carried here creator)
  intro lamports _
  exact Carries.returned (t.carry_putEvent here _)

-- All eleven instructions.
theorem execute_carried (instruction : Instruction) (within : ∀ a ∈ instruction.writable, touched a) :
    Carries t.carry (execute sys instruction s) (execute sys (names.instruction instruction) (t.carry s)) := by
  have first : ∀ {a rest}, instruction.writable = a :: rest → touched a :=
    fun listed => within _ (by rw [listed]; exact List.mem_cons_self)
  have second : ∀ {a b rest}, instruction.writable = a :: b :: rest → touched b :=
    fun listed => within _ (by rw [listed]; exact List.mem_cons_of_mem _ List.mem_cons_self)
  have third : ∀ {a b c}, instruction.writable = [a,b,c] → touched c :=
    fun listed => within _ (by rw [listed]; exact List.mem_cons_of_mem _ (List.mem_cons_of_mem _ List.mem_cons_self))
  cases instruction with
  | createEvent ctx => exact t.createEvent_carried (first rfl) (second rfl)
  | placeBet ctx => exact t.placeBet_carried (first rfl) (second rfl) (third rfl)
  | cancelBet ctx => exact t.cancelBet_carried (first rfl) (second rfl) (third rfl)
  | lockEvent ctx => exact t.lockEvent_carried (first rfl)
  | resolveEvent ctx => exact t.resolveEvent_carried (first rfl) (second rfl)
  | challengeResolution ctx => exact t.challengeResolution_carried (first rfl)
  | finalizeResolution ctx => exact t.finalizeResolution_carried (first rfl) (second rfl)
  | claim ctx => exact t.claim_carried (first rfl) (second rfl) (third rfl)
  | markRefundable ctx => exact t.markRefundable_carried (first rfl)
  | claimRefund ctx => exact t.claimRefund_carried (first rfl) (second rfl) (third rfl)
  | closeEvent ctx => exact t.closeEvent_carried (first rfl) (second rfl)

end Transport
end Solclash
