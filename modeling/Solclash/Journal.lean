import Mathlib.Data.Finite.Prod
import Mathlib.Data.Finite.Sum
import Mathlib.Data.Fintype.EquivFin
import Solclash.Endings
import Solclash.Foundations.Ledger
import Solclash.TerminalPhase

-- Every lamport that the program or a wallet ever moves, written down with its
-- purpose: the balances of a run are those of its journal and of nothing else.
namespace Solclash.Journal
open EventProtocol EventBook EventPurse TerminalPhase Endings Fallible FloorShare Ledger

inductive Purpose where
  | eventRent | entryRent | stake | stakeReturned | reward | fee | payout | refund | entryClosed | sweep | gift
  deriving DecidableEq

abbrev Posting := Movement Address Purpose

-- What `init` still adds to an account that may hold some lamports already.
def shortfall (sys : Sysvars) (lamports : Lamports) (account : Address) (space : Nat) : Int :=
  max 0 ((sys.minimumBalance space).val - (lamports account).val)

-- The two movements at the end of an entry: its amount, then its account.
def entryEnded (lamports : Lamports) (key : EventKey) (bettor : Pubkey) (purpose : Purpose) (amount : Int) :
    List Posting :=
  [⟨.entryClosed,.betPda key bettor,.wallet bettor,(lamports (.betPda key bettor)).val⟩,
    ⟨purpose,.eventPda key,.wallet bettor,amount⟩]

def postings (sys : Sysvars) (s : Chain) : Instruction → List Posting
  | .createEvent ctx .. =>
      [⟨.eventRent,.wallet ctx.creator,.eventPda ctx.event,
        shortfall sys s.lamports (.eventPda ctx.event) Event.space⟩]
  | .placeBet ctx _ stake =>
      [⟨.stake,.wallet ctx.bettor,.eventPda ctx.event,stake.val⟩,
        ⟨.entryRent,.wallet ctx.bettor,.betPda ctx.event ctx.bettor,
          shortfall sys s.lamports (.betPda ctx.event ctx.bettor) BetEntry.space⟩]
  | .cancelBet ctx =>
    match s.bets ctx.event ctx.bettor with
    | some entry => entryEnded s.lamports ctx.event ctx.bettor .stakeReturned entry.stake.val
    | none => []
  | .resolveEvent ctx => [⟨.reward,.eventPda ctx.event,.wallet ctx.resolver,resolverRewardDev.val⟩]
  | .finalizeResolution ctx =>
    match (s.events ctx.event).filter (·.candidateOutcome.isSome) with
    | some e => [⟨.fee,.eventPda ctx.event,.wallet feeWalletDev,protocolFee e⟩]
    | none => []
  | .claim ctx =>
    match s.events ctx.event,s.bets ctx.event ctx.bettor with
    | some e,some entry => entryEnded s.lamports ctx.event ctx.bettor .payout (due e entry)
    | _,_ => []
  | .claimRefund ctx =>
    match s.events ctx.event,s.bets ctx.event ctx.bettor with
    | some e,some entry => entryEnded s.lamports ctx.event ctx.bettor .refund (due e entry)
    | _,_ => []
  | .closeEvent ctx =>
      [⟨.sweep,.eventPda ctx.event,.wallet ctx.creator,(s.lamports (.eventPda ctx.event)).val⟩]
  | .lockEvent _ | .challengeResolution _ | .markRefundable _ => []

def booked (t : Step) : List Posting :=
  match t.action with
  | .transfer source target amount => [⟨.gift,.wallet source,target,amount.val⟩]
  | .invoke sys instruction =>
    match execute sys instruction t.before with
    | .ok _ => postings sys t.before instruction
    | .error _ => []

def journal (history : List Step) : List Posting := history.flatMap booked

-- The eleven ways that lamports take through the program.
inductive Route : Posting → Prop where
  | eventRent : Route ⟨.eventRent,.wallet key.creator,.eventPda key,amount⟩
  | entryRent : Route ⟨.entryRent,.wallet bettor,.betPda key bettor,amount⟩
  | stake : Route ⟨.stake,.wallet bettor,.eventPda key,amount⟩
  | stakeReturned : Route ⟨.stakeReturned,.eventPda key,.wallet bettor,amount⟩
  | reward : Route ⟨.reward,.eventPda key,.wallet resolver,resolverRewardDev.val⟩
  | fee : Route ⟨.fee,.eventPda key,.wallet feeWalletDev,amount⟩
  | payout : Route ⟨.payout,.eventPda key,.wallet bettor,amount⟩
  | refund : Route ⟨.refund,.eventPda key,.wallet bettor,amount⟩
  | entryClosed : Route ⟨.entryClosed,.betPda key bettor,.wallet bettor,amount⟩
  | sweep : Route ⟨.sweep,.eventPda key,.wallet key.creator,amount⟩
  | gift : Route ⟨.gift,.wallet source,target,amount⟩

structure Proper (p : Posting) : Prop where
  nonneg : 0 ≤ p.amount
  route : Route p

section movements
variable {s next : Chain} {sys : Sysvars} {key : EventKey} {bettor : Pubkey} {lamports middle after : Lamports}
  {source target account destination payer : Address} {amount : U64} {space : Nat}

theorem systemTransfer_posted (purpose : Purpose) (ran : systemTransfer lamports source target amount = .ok after) :
    Posted lamports [(⟨purpose,source,target,amount.val⟩ : Posting)] after := by
  simp only [systemTransfer,bind_ok,okOr_ok] at ran
  obtain ⟨paid,debited,credited⟩ := ran
  exact .moved purpose debited credited

theorem transferFromPda_posted (purpose : Purpose)
    (ran : transferFromPda lamports source target amount = .ok after) :
    Posted lamports [(⟨purpose,source,target,amount.val⟩ : Posting)] after := by
  simp only [transferFromPda,bind_ok,okOr_ok] at ran
  obtain ⟨paid,debited,credited⟩ := ran
  exact .moved purpose debited credited

theorem closeAccount_posted (purpose : Purpose) (ran : closeAccount lamports account destination = .ok after) :
    Posted lamports [(⟨purpose,account,destination,(lamports account).val⟩ : Posting)] after := by
  simp only [closeAccount,bind_ok,okOr_ok] at ran
  obtain ⟨paid,debited,credited⟩ := ran
  exact .moved purpose debited credited

-- `init` moves the shortfall, or nothing at all.
theorem initAccount_cases (ran : initAccount sys lamports payer account space = .ok after) :
    (shortfall sys lamports account space = 0 ∧ after = lamports) ∨
      ∃ missing, shortfall sys lamports account space = missing.val ∧
        systemTransfer lamports payer account missing = .ok after := by
  unfold initAccount at ran
  split at ran
  · rename_i covered
    cases ran
    have enough := RangedInt.checkedSub_none.mp covered
    have upper := (sys.minimumBalance space).upper
    have lower := (lamports account).lower
    exact .inl ⟨by unfold shortfall; omega,rfl⟩
  · rename_i missing difference
    have value := RangedInt.checkedSub_some.mp difference
    have lower := missing.lower
    exact .inr ⟨missing,by unfold shortfall; omega,ran⟩

theorem initAccount_posted (purpose : Purpose)
    (ran : initAccount sys lamports payer account space = .ok after) :
    Posted lamports [(⟨purpose,payer,account,shortfall sys lamports account space⟩ : Posting)] after := by
  rcases initAccount_cases ran with ⟨nothing,rfl⟩ | ⟨missing,same,ran⟩
  · rw [nothing]
    exact .idle purpose payer account after
  · rw [same]
    exact systemTransfer_posted purpose ran

theorem entryEnded_posted (purpose : Purpose)
    (paid : transferFromPda lamports (.eventPda key) (.wallet bettor) amount = .ok middle)
    (closed : closeAccount middle (.betPda key bettor) (.wallet bettor) = .ok after) :
    Posted lamports (entryEnded lamports key bettor purpose amount.val) after := by
  have kept : middle (.betPda key bettor) = lamports (.betPda key bettor) :=
    (transferFromPda_moved (by simp) paid).others _ (by simp) (by simp)
  have second := closeAccount_posted .entryClosed closed
  rw [kept] at second
  exact (transferFromPda_posted purpose paid).append second

-- What each handler does to the balances is what the journal has of it.
theorem execute_posted (ran : execute sys instruction s = .ok next) :
    Posted s.lamports (postings sys s instruction) next.lamports := by
  cases instruction with
  | createEvent ctx =>
      obtain ⟨_,_,_,funded,_,_,_,_,_,rfl⟩ := createEvent_parts ran
      exact initAccount_posted .eventRent funded
  | placeBet ctx outcome stake =>
      obtain ⟨_,_,_,_,_,_,_,_,_,_,_,_,_,_,_,_,_,funded,paid,rfl⟩ := placeBet_parts ran
      exact (initAccount_posted .entryRent funded).append (systemTransfer_posted .stake paid)
  | cancelBet ctx =>
      obtain ⟨_,entry,_,_,_,_,_,_,held,_,_,_,_,paid,closed,rfl⟩ := cancelBet_parts ran
      simp only [postings,held]
      exact entryEnded_posted .stakeReturned paid closed
  | lockEvent ctx =>
      obtain ⟨_,_,_,_,⟨_,rfl⟩ | ⟨_,_,rfl⟩⟩ := lockEvent_parts ran
      all_goals exact .nothing _
  | resolveEvent ctx =>
      obtain ⟨_,_,_,_,_,_,_,_,_,_,_,paid,rfl⟩ := resolveEvent_parts ran
      exact transferFromPda_posted .reward paid
  | challengeResolution ctx =>
      obtain ⟨_,_,_,_,_,_,_,_,_,rfl⟩ := challengeResolution_parts ran
      exact .nothing _
  | finalizeResolution ctx =>
      obtain ⟨e,rest,loaded,_,_,_,difference,⟨undecided,rfl⟩ | ⟨winner,fee,_,_,decided,charged,_,paid,rfl⟩⟩ :=
        finalizeResolution_parts ran
      all_goals obtain ⟨found,_⟩ := loadEvent_parts.mp loaded
      · simp only [postings,found,Option.filter_some,undecided,Option.isSome_none,Bool.false_eq_true,if_false]
        exact .nothing _
      · have amount : protocolFee e = fee.val := by
          rw [charged,difference]
          rfl
        simp only [postings,found,Option.filter_some,decided,Option.isSome_some,if_true,amount]
        exact transferFromPda_posted .fee paid
  | claim ctx =>
      obtain ⟨e,entry,payout,_,_,_,loaded,held,resolved,_,won,share,_,paid,closed,rfl⟩ := claim_parts ran
      obtain ⟨found,_⟩ := loadEvent_parts.mp loaded
      obtain ⟨_,value⟩ := computeClaim_parts.mp share
      have amount : due e entry = payout.val := by
        rw [due,divisor_won resolved won,value]
        rfl
      simp only [postings,found,held,amount]
      exact entryEnded_posted .payout paid closed
  | markRefundable ctx =>
      obtain ⟨_,_,_,_,rfl⟩ := markRefundable_parts ran
      exact .nothing _
  | claimRefund ctx =>
      obtain ⟨e,entry,refund,_,_,_,loaded,held,refundable,_,share,_,paid,closed,rfl⟩ := claimRefund_parts ran
      obtain ⟨found,_⟩ := loadEvent_parts.mp loaded
      obtain ⟨_,value⟩ := computeRefund_parts.mp share
      have amount : due e entry = refund.val := by
        rw [due,divisor_refund refundable,value]
        rfl
      simp only [postings,found,held,amount]
      exact entryEnded_posted .refund paid closed
  | closeEvent ctx =>
      obtain ⟨_,_,_,_,_,_,swept,rfl⟩ := closeEvent_parts ran
      exact closeAccount_posted .sweep swept

theorem step_posted (step : advance s action = some next) :
    Posted s.lamports (booked ⟨s,action,next⟩) next.lamports := by
  cases action with
  | invoke sys instruction =>
      obtain ⟨_,⟨after,ran,rfl⟩ | ⟨_,ran,rfl⟩⟩ := advance_invoke step
      all_goals simp only [booked,ran]
      · exact execute_posted ran
      · exact .nothing _
  | transfer source target amount =>
      obtain ⟨_,moved,rfl⟩ := advance_transfer step
      exact systemTransfer_posted .gift moved

theorem shortfall_nonneg : 0 ≤ shortfall sys lamports account space := Int.le_max_left ..

theorem due_nonneg (e : Event) (entry : BetEntry) : 0 ≤ due e entry := by
  have whole : 0 ≤ divisor e := by
    unfold divisor
    split
    · exact RangedInt.lower _
    · exact e.pot.lower
  exact share_nonneg e.payoutPool.lower entry.stake.lower whole

theorem entryEnded_proper {amount : Int} (nonneg : 0 ≤ amount)
    (route : Route ⟨purpose,.eventPda key,.wallet bettor,amount⟩) :
    ∀ p ∈ entryEnded lamports key bettor purpose amount, Proper p := by
  intro p member
  simp only [entryEnded,List.mem_cons,List.not_mem_nil,or_false] at member
  rcases member with rfl | rfl
  · exact ⟨(lamports (.betPda key bettor)).lower,.entryClosed⟩
  · exact ⟨nonneg,route⟩

theorem single_proper {p : Posting} (proper : Proper p) : ∀ p' ∈ [p], Proper p' := by
  intro p' member
  rw [List.mem_singleton.mp member]
  exact proper

theorem postings_proper (ran : execute sys instruction s = .ok next) :
    ∀ p ∈ postings sys s instruction, Proper p := by
  cases instruction with
  | createEvent ctx => exact single_proper ⟨shortfall_nonneg,@Route.eventRent ctx.event _⟩
  | placeBet ctx outcome stake =>
      intro p member
      rcases List.mem_cons.mp member with rfl | member
      · exact ⟨stake.lower,.stake⟩
      · exact single_proper ⟨shortfall_nonneg,.entryRent⟩ p member
  | cancelBet ctx =>
      obtain ⟨_,entry,_,_,_,_,_,_,held,_⟩ := cancelBet_parts ran
      simp only [postings,held]
      exact entryEnded_proper entry.stake.lower .stakeReturned
  | resolveEvent ctx => exact single_proper ⟨resolverRewardDev.lower,.reward⟩
  | finalizeResolution ctx =>
      obtain ⟨e,rest,loaded,_,_,_,difference,⟨undecided,_⟩ | ⟨_,fee,_,_,decided,charged,_⟩⟩ :=
        finalizeResolution_parts ran
      all_goals obtain ⟨found,_⟩ := loadEvent_parts.mp loaded
      · simp only [postings,found,Option.filter_some,undecided,Option.isSome_none,Bool.false_eq_true,if_false]
        intro p member
        cases member
      · have amount : protocolFee e = fee.val := by
          rw [charged,difference]
          rfl
        simp only [postings,found,Option.filter_some,decided,Option.isSome_some,if_true,amount]
        exact single_proper ⟨fee.lower,.fee⟩
  | claim ctx =>
      obtain ⟨e,entry,_,_,_,_,loaded,held,_⟩ := claim_parts ran
      simp only [postings,(loadEvent_parts.mp loaded).1,held]
      exact entryEnded_proper (due_nonneg e entry) .payout
  | claimRefund ctx =>
      obtain ⟨e,entry,_,_,_,_,loaded,held,_⟩ := claimRefund_parts ran
      simp only [postings,(loadEvent_parts.mp loaded).1,held]
      exact entryEnded_proper (due_nonneg e entry) .refund
  | closeEvent ctx =>
      obtain ⟨e,_,loaded,recipient,_⟩ := closeEvent_parts ran
      obtain ⟨_,creator,_⟩ := loadEvent_parts.mp loaded
      simp only [postings,recipient,creator]
      exact single_proper ⟨RangedInt.lower _,.sweep⟩
  | lockEvent | challengeResolution | markRefundable =>
      intro p member
      cases member

theorem booked_proper (step : advance s action = some next) : ∀ p ∈ booked ⟨s,action,next⟩, Proper p := by
  cases action with
  | invoke sys instruction =>
      obtain ⟨_,⟨after,ran,_⟩ | ⟨_,ran,_⟩⟩ := advance_invoke step
      all_goals simp only [booked,ran]
      · exact postings_proper ran
      · intro p member
        cases member
  | transfer source target amount => exact single_proper ⟨amount.lower,.gift⟩

theorem journal_proper (run : Run origin history s) : ∀ p ∈ journal history, Proper p := by
  induction run with
  | nil =>
      intro p member
      cases member
  | cons _ step ih =>
      intro p member
      rcases List.mem_append.mp member with new | old
      · exact booked_proper step p new
      · exact ih p old

theorem journal_posted (run : Run origin history s) : Posted origin.lamports (journal history) s.lamports := by
  induction run with
  | nil => exact .nothing _
  | cons _ step ih => exact ih.append (step_posted step)

end movements

instance : Finite EventKey := Finite.of_injective (fun key : EventKey => (key.creator,key.eventId)) (by
  rintro ⟨_,_⟩ ⟨_,_⟩ same
  cases same
  rfl)

-- An address is a wallet, the account of an event, or that of a bet on it.
def kind : Address → Pubkey ⊕ EventKey ⊕ (EventKey × Pubkey)
  | .wallet key => .inl key
  | .eventPda event => .inr (.inl event)
  | .betPda event bettor => .inr (.inr (event,bettor))

instance : Finite Address := by
  apply Finite.of_injective kind
  rintro ⟨_⟩ ⟨_⟩ same <;> cases same <;> rfl

noncomputable instance : Fintype Address := Fintype.ofFinite Address

theorem books_balance (run : Run origin history s) :
    (∀ a, (s.lamports a).val =
      (origin.lamports a).val + received a (journal history) - spent a (journal history)) ∧
      (∀ p ∈ journal history, Proper p) ∧ ∑ a, (s.lamports a).val = ∑ a, (origin.lamports a).val := by
  have posted := journal_posted run
  exact ⟨posted.balance,journal_proper run,posted.total⟩

section sample
open SampleMarket

-- Alice's rent and stake went out; her share and the rent came back.
theorem books_balance_sample :
    ∑ a, ((stateOf settling).lamports a).val = ∑ a, (opening.lamports a).val ∧
      ((stateOf settling).lamports (.wallet alice)).val =
        1000000000000 + received (.wallet alice) (journal (historyOf settling)) -
          spent (.wallet alice) (journal (historyOf settling)) := by
  have run : Run opening (historyOf settling) (stateOf settling) := play_run (rfl : (play settling).isSome = true)
  obtain ⟨balances,_,total⟩ := books_balance run
  exact ⟨total,balances (.wallet alice)⟩
end sample

end Solclash.Journal
