import Solclash.Journal

-- Whose signature it takes to spend: a wallet and its bets are out of reach of
-- everybody else, in any run.
namespace Solclash
open EventProtocol Fallible Ledger Journal

-- The `Signer` of each accounts struct.
def Instruction.signer : Instruction → Pubkey
  | .createEvent ctx .. => ctx.creator
  | .placeBet ctx .. => ctx.bettor
  | .cancelBet ctx => ctx.bettor
  | .lockEvent ctx => ctx.caller
  | .resolveEvent ctx => ctx.resolver
  | .challengeResolution ctx => ctx.challenger
  | .finalizeResolution ctx => ctx.caller
  | .claim ctx => ctx.bettor
  | .markRefundable ctx => ctx.caller
  | .claimRefund ctx => ctx.bettor
  | .closeEvent ctx => ctx.caller

def Action.signer : Action → Pubkey
  | .invoke _ instruction => instruction.signer
  | .transfer source _ _ => source

namespace Custody
-- The accounts that only one wallet's signature opens.
inductive Own (owner : Pubkey) : Address → Prop where
  | wallet : Own owner (.wallet owner)
  | entry : Own owner (.betPda key owner)

variable {s next : Chain} {sys : Sysvars} {instruction : Instruction} {key : EventKey} {bettor owner : Pubkey}

-- What an instruction signed by a wallet may take lamports from.
inductive Spendable (event : EventKey) (signer : Pubkey) : Address → Prop where
  | wallet : Spendable event signer (.wallet signer)
  | escrow : Spendable event signer (.eventPda event)
  | entry : Spendable event signer (.betPda event signer)

theorem entryEnded_spendable : ∀ p ∈ entryEnded lamports key bettor purpose amount, Spendable key bettor p.source := by
  intro p member
  simp only [entryEnded,List.mem_cons,List.not_mem_nil,or_false] at member
  rcases member with rfl | rfl
  · exact .entry
  · exact .escrow

theorem single_spendable {p : Posting} (allowed : Spendable key bettor p.source) :
    ∀ p' ∈ [p], Spendable key bettor p'.source := by
  intro p' member
  rw [List.mem_singleton.mp member]
  exact allowed

theorem nothing_spendable : ∀ p ∈ ([] : List Posting), Spendable key bettor p.source := by
  intro p member
  cases member

theorem postings_spendable (sys : Sysvars) (s : Chain) (instruction : Instruction) :
    ∀ p ∈ postings sys s instruction, Spendable instruction.event instruction.signer p.source := by
  cases instruction with
  | createEvent ctx => exact single_spendable .wallet
  | placeBet ctx =>
      intro p member
      rcases List.mem_cons.mp member with rfl | member
      · exact .wallet
      · exact single_spendable .wallet p member
  | cancelBet ctx =>
      simp only [postings]
      split
      · exact entryEnded_spendable
      · exact nothing_spendable
  | resolveEvent ctx => exact single_spendable .escrow
  | finalizeResolution ctx =>
      simp only [postings]
      split
      · exact single_spendable .escrow
      · exact nothing_spendable
  | claim ctx =>
      simp only [postings]
      split
      · exact entryEnded_spendable
      · exact nothing_spendable
  | claimRefund ctx =>
      simp only [postings]
      split
      · exact entryEnded_spendable
      · exact nothing_spendable
  | closeEvent ctx => exact single_spendable .escrow
  | lockEvent | challengeResolution | markRefundable => exact nothing_spendable

theorem bet_kept {entry : Option BetEntry} (other : owner ≠ bettor) (s : Chain) (key key' : EventKey) :
    (s.putBet key bettor entry).bets key' owner = s.bets key' owner := by
  by_cases same : key' = key
  · subst same
    simp [Chain.putBet,other]
  · simp [Chain.putBet,same]

-- No instruction touches the bet of a wallet that did not sign it.
theorem execute_bets (ran : execute sys instruction s = .ok next) (other : owner ≠ instruction.signer)
    (key : EventKey) : next.bets key owner = s.bets key owner := by
  cases instruction with
  | createEvent ctx =>
      obtain ⟨_,_,_,_,_,_,_,_,_,rfl⟩ := createEvent_parts ran
      rfl
  | placeBet ctx =>
      obtain ⟨_,_,_,_,_,_,_,_,_,_,_,_,_,_,_,_,_,_,_,rfl⟩ := placeBet_parts ran
      exact bet_kept other ..
  | cancelBet ctx =>
      obtain ⟨_,_,_,_,_,_,_,_,_,_,_,_,_,_,_,rfl⟩ := cancelBet_parts ran
      exact bet_kept other ..
  | lockEvent ctx =>
      obtain ⟨_,_,_,_,⟨_,rfl⟩ | ⟨_,_,rfl⟩⟩ := lockEvent_parts ran
      all_goals rfl
  | resolveEvent ctx =>
      obtain ⟨_,_,_,_,_,_,_,_,_,_,_,_,rfl⟩ := resolveEvent_parts ran
      rfl
  | challengeResolution ctx =>
      obtain ⟨_,_,_,_,_,_,_,_,_,rfl⟩ := challengeResolution_parts ran
      rfl
  | finalizeResolution ctx =>
      obtain ⟨_,_,_,_,_,_,_,⟨_,rfl⟩ | ⟨_,_,_,_,_,_,_,_,rfl⟩⟩ := finalizeResolution_parts ran
      all_goals rfl
  | claim ctx =>
      obtain ⟨_,_,_,_,_,_,_,_,_,_,_,_,_,_,_,rfl⟩ := claim_parts ran
      exact bet_kept other ..
  | markRefundable ctx =>
      obtain ⟨_,_,_,_,rfl⟩ := markRefundable_parts ran
      rfl
  | claimRefund ctx =>
      obtain ⟨_,_,_,_,_,_,_,_,_,_,_,_,_,_,rfl⟩ := claimRefund_parts ran
      exact bet_kept other ..
  | closeEvent ctx =>
      obtain ⟨_,_,_,_,_,_,_,rfl⟩ := closeEvent_parts ran
      rfl

theorem step_bets (step : advance s action = some next) (other : owner ≠ action.signer) (key : EventKey) :
    next.bets key owner = s.bets key owner := by
  cases action with
  | invoke sys instruction =>
      obtain ⟨_,⟨after,ran,rfl⟩ | ⟨_,_,rfl⟩⟩ := advance_invoke step
      · exact execute_bets ran other key
      · rfl
  | transfer source target amount =>
      obtain ⟨_,_,rfl⟩ := advance_transfer step
      rfl

theorem booked_foreign {t : Step} (other : owner ≠ t.action.signer) (own : Own owner a) :
    ∀ p ∈ booked t, p.source ≠ a := by
  intro p member same
  unfold booked at member
  split at member
  · rename_i signed
    rw [List.mem_singleton.mp member] at same
    rw [signed] at other
    cases own <;> cases same
    exact other rfl
  · rename_i sys instruction signed
    rw [signed] at other
    split at member
    · have allowed := postings_spendable sys t.before instruction p member
      rw [same] at allowed
      cases own <;> cases allowed <;> exact other rfl
    · cases member

theorem journal_foreign (others : ∀ t ∈ history, owner ≠ t.action.signer) (own : Own owner a) :
    ∀ p ∈ journal history, p.source ≠ a := by
  intro p member
  obtain ⟨t,present,booked⟩ := List.mem_flatMap.mp member
  exact booked_foreign (others t present) own p booked

theorem bets_run (run : Run origin history s) (others : ∀ t ∈ history, owner ≠ t.action.signer) (key : EventKey) :
    s.bets key owner = origin.bets key owner := by
  induction run with
  | nil => rfl
  | cons _ step ih =>
      have before := ih fun t member => others t (List.mem_cons_of_mem _ member)
      rw [step_bets step (others _ (List.mem_cons_self ..)) key,before]

theorem nobody_else_spends (run : Run origin history s) (others : ∀ t ∈ history, owner ≠ t.action.signer) :
    (origin.lamports (.wallet owner)).val ≤ (s.lamports (.wallet owner)).val ∧
      ∀ key, s.bets key owner = origin.bets key owner ∧
        (origin.lamports (.betPda key owner)).val ≤ (s.lamports (.betPda key owner)).val := by
  have posted := journal_posted run
  have amounts : ∀ p ∈ journal history, 0 ≤ p.amount := fun p member => (journal_proper run p member).nonneg
  refine ⟨posted.grows amounts (journal_foreign others .wallet),?_⟩
  intro key
  exact ⟨bets_run run others key,posted.grows amounts (journal_foreign others .entry)⟩

section sample
open SampleMarket

-- What the others do after Bob's bet, up to Alice's collection.
def withoutBob : List Action :=
  [.invoke (sysvars (.lit 100)) (.lockEvent ⟨alice,market⟩),
    .invoke (sysvars (.lit 400)) (.resolveEvent ⟨alice,market,update (.lit 1000) (.lit 390)⟩),
    .invoke (sysvars (.lit 700)) (.finalizeResolution ⟨creator,market,feeWalletDev,true⟩),collect alice]

def lateHistory : List Step := (historyOf (bets ++ withoutBob)).take 4

theorem nobody_else_spends_sample :
    (stateOf (bets ++ withoutBob)).bets market bob = (stateOf bets).bets market bob := by
  have run : Run (stateOf bets) lateHistory (stateOf (bets ++ withoutBob)) :=
    @Machine.replay_history _ _ machine _ _ _ withoutBob _ _ .nil rfl
  have others : ∀ t ∈ lateHistory, bob ≠ t.action.signer := by
    simp only [lateHistory]
    decide
  exact ((nobody_else_spends run others).2 market).1
end sample

end Custody
end Solclash
