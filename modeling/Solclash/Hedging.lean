import Solclash.Journal
import Solclash.Payoffs
import Solclash.Solvency

-- Wallets acting together after the betting has closed: whatever they hold on
-- both sides, it cannot pay for itself in both of two possible futures, not
-- even if one of them earns the reward for the price.
namespace Solclash.Hedging
open EventProtocol EventBook EventPurse Lifetimes EntryProtocol TerminalPhase Endings Payoffs Solvency Journal Ledger Fallible

def stakeOf (key : EventKey) (s : Chain) (members : Finset Pubkey) : Int :=
  ∑ b ∈ members, (s.bets key b).elim 0 (·.stake.val)
def purses (members : Finset Pubkey) : Finset Address := members.image .wallet
-- Whatever the journal takes from the event's account to one of the wallets.
def receivedBy (key : EventKey) (later : List Step) (members : Finset Pubkey) : Int :=
  flow (.eventPda key) (purses members) (journal later)
-- A reward that is already paid counts as theirs.
def rewarded (e : Event) : Int := if e.status = .resolving then resolverRewardDev.val else 0

-- A continuation in which the same event is resolved for one outcome.
structure Future (key : EventKey) (s : Chain) (later : List Step) (s' : Chain) (winner : U8) : Prop where
  run : Run s later s'
  unclosed : ∀ l ∈ labelsAt key later, ¬ Closing l
  resolved : ∃ e, s'.events key = some e ∧ e.status = .resolved ∧ e.candidateOutcome = some winner

-- The labels that change the book.
def books : Label → Bool
  | .placed .. | .cancelled .. => true
  | _ => false

-- What a label pays to the wallets for their bets, and for a price.
def share (members : Finset Pubkey) (l : Label) : Int :=
  (payment l).elim 0 fun p => if p.bettor ∈ members then p.amount else 0
def reward : Label → Int
  | .resolved .. => resolverRewardDev.val
  | _ => 0

section purses
variable {key : EventKey} {members : Finset Pubkey} {bettor : Pubkey} {s next after : Chain} {sys : Sysvars}
  {instruction : Instruction}

theorem mem_purses : Address.wallet bettor ∈ purses members ↔ bettor ∈ members := by
  simp [purses]

theorem flow_wallet (purpose : Purpose) (amount : Int) :
    (⟨purpose,.eventPda key,.wallet bettor,amount⟩ : Posting).flow (.eventPda key) (purses members) =
      if bettor ∈ members then amount else 0 := by
  simp only [Movement.flow,mem_purses,true_and]

theorem flow_ended (lamports : Lamports) (purpose : Purpose) (amount : Int) :
    flow (.eventPda key) (purses members) (entryEnded lamports key bettor purpose amount) =
      if bettor ∈ members then amount else 0 := by
  have entry : (⟨.entryClosed,.betPda key bettor,.wallet bettor,(lamports (.betPda key bettor)).val⟩ : Posting).flow
      (.eventPda key) (purses members) = 0 := if_neg fun both => (by cases both.1)
  rw [entryEnded,flow_cons,flow_cons,flow_nil,entry,flow_wallet,Int.zero_add,Int.add_zero]

-- The account of an event pays only in instructions on that event.
theorem postings_own {p : Posting} (member : p ∈ postings sys s instruction) (source : p.source = .eventPda key) :
    instruction.event = key := by
  have ended : ∀ {key' owner purpose amount}, p ∈ entryEnded s.lamports key' owner purpose amount → key' = key := by
    intro key' owner purpose amount member
    simp only [entryEnded,List.mem_cons,List.not_mem_nil,or_false] at member
    rcases member with rfl | rfl <;> cases source
    rfl
  cases instruction with
  | createEvent =>
      rw [List.mem_singleton.mp member] at source
      cases source
  | resolveEvent | closeEvent =>
      rw [List.mem_singleton.mp member] at source
      cases source
      rfl
  | placeBet =>
      simp only [postings,List.mem_cons,List.not_mem_nil,or_false] at member
      rcases member with rfl | rfl <;> cases source
  | cancelBet =>
      simp only [postings] at member
      split at member
      · exact ended member
      · cases member
  | finalizeResolution =>
      simp only [postings] at member
      split at member
      · rw [List.mem_singleton.mp member] at source
        cases source
        rfl
      · cases member
  | claim | claimRefund =>
      simp only [postings] at member
      split at member
      · exact ended member
      · cases member
  | lockEvent | challengeResolution | markRefundable => cases member

theorem drop_ended {purpose : Purpose} {amount : Int} {lamports after : Lamports}
    (posted : Posted lamports (entryEnded lamports key bettor purpose amount) after) :
    (lamports (.eventPda key)).val - (after (.eventPda key)).val = amount := by
  have balance := posted.balance (.eventPda key)
  simp [entryEnded,received,spent,Movement.received,Movement.spent] at balance
  omega

-- An entry that ends is paid what its label says.
theorem ended_paid {purpose : Purpose} {amount : Int} {lamports after : Lamports} {entry : BetEntry} {l : Label}
    (posted : Posted lamports (entryEnded lamports key bettor purpose amount) after)
    (paid : payment l = some ⟨bettor,entry,(lamports (.eventPda key)).val - (after (.eventPda key)).val⟩) :
    flow (.eventPda key) (purses members) (entryEnded lamports key bettor purpose amount) = share members l := by
  rw [flow_ended,share,paid,drop_ended posted]
  rfl

theorem unpaid_flow {l : Label} {journal : List Posting} (other : ∀ p ∈ journal, p.source ≠ .eventPda key)
    (unpaid : payment l = none) : flow (.eventPda key) (purses members) journal = share members l := by
  rw [flow_elsewhere other,share,unpaid]
  rfl

theorem instruction_paid (outside : feeWalletDev ∉ members) (ran : execute sys instruction s = .ok after)
    (balances : next.lamports = after.lamports) (own : instruction.event = key)
    (unclosed : ¬ Closing (committedLabel key ⟨s,.invoke sys instruction,next⟩ now instruction)) :
    flow (.eventPda key) (purses members) (postings sys s instruction) ≤
      share members (committedLabel key ⟨s,.invoke sys instruction,next⟩ now instruction) +
        reward (committedLabel key ⟨s,.invoke sys instruction,next⟩ now instruction) := by
  have posted := execute_posted ran
  rw [← balances] at posted
  subst own
  cases instruction with
  | createEvent ctx =>
      refine (unpaid_flow ?_ rfl).le.trans (Int.add_zero _).ge
      intro p member source
      rw [List.mem_singleton.mp member] at source
      cases source
  | placeBet ctx =>
      refine (unpaid_flow ?_ rfl).le.trans (Int.add_zero _).ge
      intro p member source
      simp only [postings,List.mem_cons,List.not_mem_nil,or_false] at member
      rcases member with rfl | rfl <;> cases source
  | cancelBet ctx =>
      obtain ⟨_,entry,_,_,_,_,_,_,held,_⟩ := cancelBet_parts ran
      simp only [postings,held] at posted
      simp only [postings,committedLabel,Instruction.event,held]
      exact (ended_paid posted rfl).le.trans (Int.add_zero _).ge
  | lockEvent | challengeResolution | markRefundable => exact le_refl 0
  | resolveEvent ctx =>
      have least : 0 ≤ resolverRewardDev.val := resolverRewardDev.lower
      simp only [postings,committedLabel,Instruction.event,flow_cons,flow_nil,flow_wallet,share,reward,payment]
      split
      · exact le_refl _
      · exact least
  | finalizeResolution ctx =>
      refine le_of_eq ?_
      simp only [postings,committedLabel,Instruction.event,share,reward,payment]
      split
      · rw [flow_cons,flow_nil,flow_wallet,if_neg outside]
        rfl
      · rfl
  | claim ctx =>
      obtain ⟨e,entry,_,_,_,_,loaded,held,_⟩ := claim_parts ran
      simp only [postings,(loadEvent_parts.mp loaded).1,held] at posted
      simp only [postings,committedLabel,Instruction.event,(loadEvent_parts.mp loaded).1,held]
      exact (ended_paid posted rfl).le.trans (Int.add_zero _).ge
  | claimRefund ctx =>
      obtain ⟨e,entry,_,_,_,_,loaded,held,_⟩ := claimRefund_parts ran
      simp only [postings,(loadEvent_parts.mp loaded).1,held] at posted
      simp only [postings,committedLabel,Instruction.event,(loadEvent_parts.mp loaded).1,held]
      exact (ended_paid posted rfl).le.trans (Int.add_zero _).ge
  | closeEvent ctx => exact (unclosed rfl).elim

theorem step_paid (outside : feeWalletDev ∉ members) (step : advance s action = some next)
    (unclosed : ¬ Closing (label key ⟨s,action,next⟩)) :
    flow (.eventPda key) (purses members) (booked ⟨s,action,next⟩) ≤
      share members (label key ⟨s,action,next⟩) + reward (label key ⟨s,action,next⟩) := by
  cases action with
  | transfer source target amount =>
      have silent : share members (label key ⟨s,.transfer source target amount,next⟩) +
          reward (label key ⟨s,.transfer source target amount,next⟩) = 0 := by
        simp only [label]
        split <;> rfl
      rw [silent,flow_elsewhere]
      intro p member gift
      rw [List.mem_singleton.mp member] at gift
      cases gift
  | invoke sys instruction =>
      obtain ⟨_,⟨after,ran,rfl⟩ | ⟨_,ran,rfl⟩⟩ := advance_invoke step
      · simp only [booked,ran]
        by_cases own : instruction.event = key
        · simp only [label,own,if_true,ran] at unclosed ⊢
          exact instruction_paid outside ran rfl own unclosed
        · simp only [label,own,if_false]
          rw [flow_elsewhere fun p member source => own (postings_own member source)]
          exact le_refl 0
      · simp only [booked,label,ran]
        split <;> exact le_refl 0

theorem shares_cons (members : Finset Pubkey) (l : Label) (labels : List Label) :
    ∑ b ∈ members, ((paymentsTo b (l :: labels)).map (·.amount)).sum =
      share members l + ∑ b ∈ members, ((paymentsTo b labels).map (·.amount)).sum := by
  cases paid : payment l with
  | none =>
      have same : ∀ b, paymentsTo b (l :: labels) = paymentsTo b labels := by
        intro b
        rw [paymentsTo,List.filterMap_cons_none paid]
        rfl
      have nothing : share members l = 0 := by rw [share,paid]; rfl
      rw [nothing,Int.zero_add]
      exact Finset.sum_congr rfl fun b _ => by rw [same b]
  | some p =>
      have each : ∀ b, ((paymentsTo b (l :: labels)).map (·.amount)).sum =
          (if p.bettor = b then p.amount else 0) + ((paymentsTo b labels).map (·.amount)).sum := by
        intro b
        rw [paymentsTo,List.filterMap_cons_some paid,List.filter_cons]
        by_cases same : p.bettor = b
        · simp [same,paymentsTo]
        · simp [same,paymentsTo]
      have first : share members l = if p.bettor ∈ members then p.amount else 0 := by rw [share,paid]; rfl
      rw [Finset.sum_congr rfl fun b _ => each b,Finset.sum_add_distrib,Finset.sum_ite_eq,first]

-- Of a whole run: the payments for bets, and the rewards.
theorem run_paid (outside : feeWalletDev ∉ members) (run : Run s later next)
    (unclosed : ∀ l ∈ labelsAt key later, ¬ Closing l) : receivedBy key later members ≤
      ∑ b ∈ members, ((paymentsTo b (labelsAt key later)).map (·.amount)).sum + tally reward (labelsAt key later) := by
  induction run with
  | nil => simp [receivedBy,journal,labelsAt,paymentsTo,flow]
  | cons _ step ih =>
      obtain ⟨last,rest⟩ := List.forall_mem_cons.mp unclosed
      have before := ih rest
      have now := step_paid outside step last
      rw [receivedBy,journal,List.flatMap_cons,flow_append]
      rw [labelsAt,List.map_cons,shares_cons,tally_cons]
      unfold receivedBy journal labelsAt at before
      omega

end purses

section late
variable {key : EventKey} {labels earlier : List Label} {l : Label} {v next origin : View} {e : Event} {p : Payment}
  {bettor : Pubkey} {entry : BetEntry}

theorem step_late (found : v.event = some e) (late : e.status ≠ .open) (step : EventStep key v l next)
    (unclosed : ¬ Closing l) : books l = false ∧ ∃ e', next.event = some e' ∧ e'.status ≠ .open := by
  cases step with
  | created vacant => rw [found] at vacant; cases vacant
  | placed present _ opened => rw [found] at present; cases present; exact (late opened).elim
  | cancelled present _ opened => rw [found] at present; cases present; exact (late opened).elim
  | locked => exact ⟨rfl,_,rfl,fun same => (by cases same)⟩
  | oneSided => exact ⟨rfl,_,rfl,fun same => (by cases same)⟩
  | resolved => exact ⟨rfl,_,rfl,fun same => (by cases same)⟩
  | challenged present => rw [found] at present; cases present; exact ⟨rfl,_,rfl,late⟩
  | ambiguous => exact ⟨rfl,_,rfl,fun same => (by cases same)⟩
  | decided => exact ⟨rfl,_,rfl,fun same => (by cases same)⟩
  | claimed present => rw [found] at present; cases present; exact ⟨rfl,_,rfl,late⟩
  | marked => exact ⟨rfl,_,rfl,fun same => (by cases same)⟩
  | refunded present => rw [found] at present; cases present; exact ⟨rfl,_,rfl,late⟩
  | closed => exact (unclosed rfl).elim
  | donated => exact ⟨rfl,e,found,late⟩
  | quiet => exact ⟨rfl,e,found,late⟩

theorem path_late (found : origin.event = some e) (late : e.status ≠ .open)
    (path : Machine.Path (EventStep key) origin labels v) (unclosed : ∀ l ∈ labels, ¬ Closing l) :
    (∀ l ∈ labels, books l = false) ∧ ∃ e', v.event = some e' ∧ e'.status ≠ .open := by
  induction path with
  | nil => exact ⟨fun l member => (by cases member),e,found,late⟩
  | cons _ step ih =>
      obtain ⟨untouched,e',found',late'⟩ := ih fun l member => unclosed l (List.mem_cons_of_mem _ member)
      obtain ⟨silent,after⟩ := step_late found' late' step (unclosed _ List.mem_cons_self)
      refine ⟨?_,after⟩
      intro l' member
      rcases List.mem_cons.mp member with rfl | old
      · exact silent
      · exact untouched l' old

-- The reward that a closed book can still pay.
def pending (e : Event) : Int := if e.status = .locked then resolverRewardDev.val else 0

theorem pending_nonneg (e : Event) : 0 ≤ pending e := by
  unfold pending
  split
  · exact resolverRewardDev.lower
  · exact le_refl 0

theorem pending_other {e : Event} (other : e.status ≠ .locked) : pending e = 0 := if_neg other

theorem step_reward {e' : Event} (found : v.event = some e) (late : e.status ≠ .open) (step : EventStep key v l next)
    (found' : next.event = some e') : reward l + pending e' ≤ pending e := by
  have nonneg := pending_nonneg e
  cases step with
  | created vacant => rw [found] at vacant; cases vacant
  | placed present _ opened | cancelled present _ opened | locked present _ opened =>
      rw [found] at present; cases present; exact (late opened).elim
  | resolved present _ isLocked =>
      rw [found] at present; cases present; cases found'
      have due : pending e = resolverRewardDev.val := if_pos isLocked
      rw [due,pending_other fun same => (by cases same)]
      exact (Int.add_zero _).le
  | oneSided | ambiguous | decided | marked =>
      cases found'
      rw [pending_other fun same => (by cases same)]
      exact nonneg
  | challenged present | claimed present | refunded present =>
      rw [found] at present; cases present; cases found'
      exact (Int.zero_add _).le
  | closed => cases found'
  | donated | quiet =>
      rw [show v.event = some e' from found'] at found; cases found
      exact (Int.zero_add _).le

-- It is paid at most once.
theorem path_reward {e' : Event} (found : origin.event = some e) (late : e.status ≠ .open)
    (path : Machine.Path (EventStep key) origin labels v) (unclosed : ∀ l ∈ labels, ¬ Closing l)
    (found' : v.event = some e') : tally reward labels + pending e' ≤ pending e := by
  induction path generalizing e' with
  | nil =>
      rw [found] at found'; cases found'
      exact (Int.zero_add _).le
  | cons earlier step ih =>
      obtain ⟨last,rest⟩ := List.forall_mem_cons.mp unclosed
      obtain ⟨_,e₁,found₁,late₁⟩ := path_late found late earlier rest
      have before := ih rest found₁
      have one := step_reward found₁ late₁ step found'
      rw [tally_cons]
      omega

theorem standing_append (untouched : ∀ l ∈ labels, books l = false) : standing (labels ++ earlier) = standing earlier := by
  induction labels with
  | nil => rfl
  | cons l labels ih =>
      have rest := ih fun l' member => untouched l' (List.mem_cons_of_mem _ member)
      have silent := untouched l List.mem_cons_self
      cases l with
      | placed => cases silent
      | cancelled => cases silent
      | _ => exact rest

theorem settles_of_payment (paid : payment l = some p) (untouched : books l = false) : settles l = some p := by
  cases l with
  | cancelled => cases untouched
  | claimed => exact paid
  | refunded => exact paid
  | _ => cases paid

theorem paid_settled (member : p ∈ paymentsTo bettor labels) (untouched : ∀ l ∈ labels, books l = false) :
    p ∈ settlements (labels ++ earlier) := by
  obtain ⟨l,listed,paid⟩ := List.mem_filterMap.mp (List.mem_of_mem_filter member)
  exact List.mem_filterMap.mpr ⟨l,List.mem_append_left _ listed,settles_of_payment paid (untouched l listed)⟩

theorem not_placing (untouched : books l = false) : places bettor l = false := by
  cases l with
  | placed => cases untouched
  | _ => rfl

-- Nobody is paid without an entry.
theorem unpaid_without_entry (path : Machine.Path (EntryStep bettor) none labels held)
    (noRebet : ∀ l ∈ labels, places bettor l = false) : held = none ∧ paymentsTo bettor labels = [] := by
  induction path with
  | nil => exact ⟨rfl,rfl⟩
  | cons _ step ih =>
      obtain ⟨vacant,unpaid⟩ := ih fun l member => noRebet l (List.mem_cons_of_mem _ member)
      cases step with
      | placed =>
          have placing := noRebet _ List.mem_cons_self
          simp [places] at placing
      | paid => cases vacant
      | other silent => exact ⟨vacant,(paymentsTo_silent silent).trans unpaid⟩

end late

section futures
variable {key : EventKey} {origin s s' s'' : Chain} {history later later' : List Step} {e : Event} {winner winner' : U8}
  {members : Finset Pubkey} {bettor : Pubkey}

-- The game that a closed book still leaves open, and how one future ends it.
structure Ended (book : Pubkey → Option (Parimutuel.Position U8)) (key : EventKey) (later : List Step) (winner : U8) : Prop where
  backed : Parimutuel.Backed book (.winner winner)
  received : ∀ b, ((paymentsTo b (labelsAt key later)).map (·.amount)).sum ≤
    (book b).elim 0 (Parimutuel.payoff rules book (.winner winner))

theorem not_open (closed : e.status = .locked ∨ e.status = .resolving) : e.status ≠ .open := by
  rcases closed with isLocked | resolving
  · exact fun opened => (by cases opened.symm.trans isLocked)
  · exact fun opened => (by cases opened.symm.trans resolving)

theorem not_ended (closed : e.status = .locked ∨ e.status = .resolving) : ¬ Terminal e.status := by
  rcases closed with isLocked | resolving
  · exact not_terminal_locked isLocked
  · exact not_terminal_resolving resolving

theorem Future.untouched (future : Future key s later s' winner) (found : s.events key = some e)
    (late : e.status ≠ .open) : ∀ l ∈ labelsAt key later, books l = false :=
  (path_late found late (event_run key future.run) future.unclosed).1

theorem Future.labels (future : Future key s later s' winner) (found : s.events key = some e) :
    sinceCreation (labelsAt key (later ++ history)) = labelsAt key later ++ sinceCreation (labelsAt key history) := by
  have present : (view key s).event ≠ none := by
    rw [show (view key s).event = some e from found]
    exact Option.some_ne_none _
  obtain ⟨_,uncreated⟩ := path_living (event_run key future.run) present future.unclosed
  rw [labelsAt,List.map_append]
  exact sinceCreation_append uncreated

-- The bets that stand in the future's game are those that stand now.
theorem Future.positions (future : Future key s later s' winner) (found : s.events key = some e) (late : e.status ≠ .open)
    (history : List Step) : positions (sinceCreation (labelsAt key (later ++ history))) =
      positions (sinceCreation (labelsAt key history)) := by
  funext b
  rw [Payoffs.positions,Payoffs.positions,future.labels found,standing_append (future.untouched found late)]

theorem positions_held (genesis : Genesis origin) (run : Run origin history s) (found : s.events key = some e)
    (closed : e.status = .locked ∨ e.status = .resolving) (b : Pubkey) :
    positions (sinceCreation (labelsAt key history)) b = (s.bets key b).map position := by
  have waiting := (standing_run genesis run key e found).all_waiting (not_ended closed)
  rw [positions,← waiting]
  rfl

-- What a wallet is paid in the future is at most its payoff in the game.
theorem future_ended (genesis : Genesis origin) (run : Run origin history s) (found : s.events key = some e)
    (closed : e.status = .locked ∨ e.status = .resolving) (future : Future key s later s' winner) :
    Ended (positions (sinceCreation (labelsAt key history))) key later winner := by
  obtain ⟨e',found',resolved,won⟩ := future.resolved
  have whole := run.append future.run
  have untouched := future.untouched found (not_open closed)
  have same := future.positions found (not_open closed) history
  have sound := sound_reachable key genesis whole
  have stands := standing_run genesis whole key e' found'
  have judge := judged (sound.book.kept e' found') (sound.purse e' found') (ending_run genesis whole found') stands
    (.inl resolved)
  have backed := judge.backed
  have pool := judge.pool
  rw [verdict_won resolved won,same] at backed pool
  refine ⟨backed,?_⟩
  intro b
  rw [positions_held genesis run found closed b]
  have noRebet : ∀ l ∈ labelsAt key later, places b l = false := fun l member => not_placing (untouched l member)
  have entries : Machine.Path (EntryStep b) (s.bets key b) (labelsAt key later) (s'.bets key b) := entry_run future.run b
  cases held : s.bets key b with
  | none =>
      rw [held] at entries
      rw [(unpaid_without_entry entries noRebet).2]
      exact le_refl 0
  | some entry =>
      rw [held] at entries
      rcases paid_at_most_once entries noRebet with ⟨unpaid,_⟩ | ⟨amount,once,_⟩
      · rw [unpaid]
        exact Parimutuel.payoff_nonneg backed (pool ▸ e'.payoutPool.lower) entry.stake.lower
      · have member : (⟨b,entry,amount⟩ : Payment) ∈ settlements (sinceCreation (labelsAt key (later ++ history))) := by
          rw [future.labels found]
          exact paid_settled (by rw [once]; exact List.mem_cons_self) untouched
        obtain ⟨stood,right,paid⟩ := stands.paid _ member
        have worth := judge.due b entry stood right
        rw [verdict_won resolved won,same] at worth
        rw [once,List.map_singleton,List.sum_singleton]
        exact (paid.trans worth).le

theorem stakes_part (genesis : Genesis origin) (run : Run origin history s) (found : s.events key = some e)
    (closed : e.status = .locked ∨ e.status = .resolving) (members : Finset Pubkey) :
    Parimutuel.pot (Parimutuel.part members (positions (sinceCreation (labelsAt key history)))) = stakeOf key s members := by
  rw [Parimutuel.pot,Parimutuel.total_part]
  apply Finset.sum_congr rfl
  intro b _
  rw [positions_held genesis run found closed b]
  cases s.bets key b <;> rfl

theorem received_part {book : Pubkey → Option (Parimutuel.Position U8)} (ended : Ended book key later winner)
    (outside : feeWalletDev ∉ members) (future : Future key s later s' winner) : receivedBy key later members ≤
      KeyedTotal.total (Parimutuel.payoff rules book (.winner winner)) (Parimutuel.part members book) +
        tally reward (labelsAt key later) := by
  rw [Parimutuel.total_part]
  have bets : ∑ b ∈ members, ((paymentsTo b (labelsAt key later)).map (·.amount)).sum ≤
      ∑ b ∈ members, (book b).elim 0 (Parimutuel.payoff rules book (.winner winner)) :=
    Finset.sum_le_sum fun b _ => ended.received b
  exact (run_paid outside future.run future.unclosed).trans (add_le_add_left bets _)

-- One reward in all, before or in the future.
theorem rewards_once (found : s.events key = some e) (closed : e.status = .locked ∨ e.status = .resolving)
    (future : Future key s later s' winner) :
    rewarded e + tally reward (labelsAt key later) ≤ resolverRewardDev.val := by
  obtain ⟨e',found',_⟩ := future.resolved
  have once := path_reward found (not_open closed) (event_run key future.run) future.unclosed found'
  have nonneg := pending_nonneg e'
  have whole : rewarded e + pending e = resolverRewardDev.val := by
    rcases closed with status | status <;> simp [rewarded,pending,status]
  omega

theorem stake_least (entries : ∀ b entry, s.bets key b = some entry → EntryValid key b entry)
    (staked : 0 < stakeOf key s members) : minStakeLamportsDev.val ≤ stakeOf key s members := by
  have nonneg : ∀ b ∈ members, 0 ≤ (s.bets key b).elim 0 (·.stake.val) := by
    intro b _
    cases s.bets key b with
    | none => exact le_refl 0
    | some entry => exact entry.stake.lower
  obtain ⟨b,member,positive⟩ := Finset.exists_ne_zero_of_sum_ne_zero staked.ne'
  have part : (s.bets key b).elim 0 (·.stake.val) ≤ stakeOf key s members := Finset.single_le_sum nonneg member
  cases held : s.bets key b with
  | none => rw [held] at positive; exact (positive rfl).elim
  | some entry =>
      rw [held] at part
      exact (entries b entry held).least.trans part

-- The game keeps a tenth of every stake, and no stake is under ten rewards.
theorem reward_small {pot staked : Int} (covered : resolverRewardDev.val ≤ pot) (least : minStakeLamportsDev.val ≤ staked) :
    pot * resolverRewardDev.val < Parimutuel.kept rules pot (.winner winner) * staked := by
  have kept : Parimutuel.kept rules pot (.winner winner) =
      resolverRewardDev.val + (pot - resolverRewardDev.val) * protocolFeeBps.val / 10000 := rfl
  have reward : resolverRewardDev.val = 1830000 := rfl
  have rate : protocolFeeBps.val = 1000 := rfl
  have tenfold : minStakeLamportsDev.val = 18300000 := rfl
  rw [reward,rate] at kept
  rw [reward] at covered
  rw [tenfold] at least
  have tenth : pot + 1 ≤ Parimutuel.kept rules pot (.winner winner) * 10 := by omega
  have positive : 0 ≤ Parimutuel.kept rules pot (.winner winner) := by omega
  calc pot * resolverRewardDev.val
      < (pot + 1) * 1830000 := by rw [reward]; omega
    _ ≤ Parimutuel.kept rules pot (.winner winner) * 10 * 1830000 := mul_le_mul_of_nonneg_right tenth (by decide)
    _ = Parimutuel.kept rules pot (.winner winner) * 18300000 := by rw [mul_assoc]; rfl
    _ ≤ Parimutuel.kept rules pot (.winner winner) * staked := mul_le_mul_of_nonneg_left least positive

theorem one_of_two {a b c : U8} (first : Known a) (second : Known b) (differ : a ≠ b) (third : Known c) : c = a ∨ c = b := by
  rcases third with rfl | rfl
  · rcases first with rfl | rfl
    · exact .inl rfl
    · rcases second with rfl | rfl
      · exact .inr rfl
      · exact (differ rfl).elim
  · rcases first with rfl | rfl
    · rcases second with rfl | rfl
      · exact (differ rfl).elim
      · exact .inr rfl
    · exact .inl rfl

-- From a closed book, no set of wallets gets its stakes back in each of two
-- futures with different winners, the reward included.
theorem no_riskless_profit (genesis : Genesis origin) (run : Run origin history s) (found : s.events key = some e)
    (closed : e.status = .locked ∨ e.status = .resolving) (one : Future key s later s' winner)
    (other : Future key s later' s'' winner') (differ : winner ≠ winner') (staked : 0 < stakeOf key s members)
    (outside : feeWalletDev ∉ members) :
    rewarded e + receivedBy key later members < stakeOf key s members ∨
      rewarded e + receivedBy key later' members < stakeOf key s members := by
  have ended := future_ended genesis run found closed one
  have ended' := future_ended genesis run found closed other
  have known : ∀ {later s' winner}, Future key s later s' winner → Known winner := by
    intro later s' winner future
    obtain ⟨e',found',resolved,won⟩ := future.resolved
    exact ((sound_reachable key genesis (run.append future.run)).purse e' found').winner (.inr resolved) winner won
  have covered : ∀ b p, positions (sinceCreation (labelsAt key history)) b = some p →
      p.outcome = winner ∨ p.outcome = winner' := by
    intro b p stood
    obtain ⟨entry,placed,rfl⟩ := Option.map_eq_some_iff.mp stood
    have valid := (standing_run genesis run key e found).entries b entry placed
    exact one_of_two (known one) (known other) differ valid.known
  have small : Parimutuel.pot (positions (sinceCreation (labelsAt key history))) * resolverRewardDev.val <
      Parimutuel.kept rules (Parimutuel.pot (positions (sinceCreation (labelsAt key history)))) (.winner winner) *
        Parimutuel.pot (Parimutuel.part members (positions (sinceCreation (labelsAt key history)))) := by
    have book := (sound_reachable key genesis run).book.kept e found
    have twoSided : TwoSided e.status := closed.imp id .inl
    rw [stakes_part genesis run found closed,← pot_positions book (standing_run genesis run key e found)]
    exact reward_small (reward_covered book twoSided) (stake_least book.entries staked)
  have loses := Parimutuel.hedge_loses differ covered ended.backed ended'.backed small
  rw [stakes_part genesis run found closed] at loses
  have received := received_part ended outside one
  have received' := received_part ended' outside other
  have once := rewards_once found closed one
  have once' := rewards_once found closed other
  omega

section sample
open SampleMarket

def upwards : List Action := [resolve (.lit 400) (update (.lit 1000) (.lit 390)),finalize,collect alice]
def downwards : List Action := [resolve (.lit 400) (update (.lit 50) (.lit 390)),finalize,collect bob]

def continued (actions : List Action) : List Step × Chain :=
  (Machine.replay machine actions [] (stateOf awaiting)).getD ([],stateOf awaiting)

theorem upwards_future : Future market (stateOf awaiting) (continued upwards).1 (continued upwards).2 outcomeYes where
  run := Machine.replay_history .nil (show Machine.replay machine upwards [] (stateOf awaiting) = some _ from rfl)
  unclosed := by decide
  resolved := ⟨_,rfl,rfl,rfl⟩
theorem downwards_future : Future market (stateOf awaiting) (continued downwards).1 (continued downwards).2 outcomeNo where
  run := Machine.replay_history .nil (show Machine.replay machine downwards [] (stateOf awaiting) = some _ from rfl)
  unclosed := by decide
  resolved := ⟨_,rfl,rfl,rfl⟩

-- Bob reports the price and takes the reward in both futures.
theorem no_riskless_profit_sample : ∃ e, (stateOf awaiting).events market = some e ∧
    (rewarded e + receivedBy market (continued upwards).1 {alice,bob} < stakeOf market (stateOf awaiting) {alice,bob} ∨
      rewarded e + receivedBy market (continued downwards).1 {alice,bob} < stakeOf market (stateOf awaiting) {alice,bob}) := by
  have run : Run opening (historyOf awaiting) (stateOf awaiting) := play_run (rfl : (play awaiting).isSome = true)
  have found : (stateOf awaiting).events market = some _ := rfl
  have staked : 0 < stakeOf market (stateOf awaiting) {alice,bob} := by decide
  exact ⟨_,found,no_riskless_profit opening_genesis run found (.inl rfl) upwards_future downwards_future (by decide) staked
    (by decide)⟩
end sample

end futures
end Solclash.Hedging
