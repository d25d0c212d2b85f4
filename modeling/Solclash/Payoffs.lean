import Solclash.Endings
import Solclash.Foundations.Parimutuel
import Solclash.TerminalPhase

-- The amounts that a run pays are those of the pari-mutuel game played with
-- the bets that were left standing, in whatever order they come to be paid.
namespace Solclash.Payoffs
open EventProtocol EventBook EventPurse Lifetimes EntryProtocol TerminalPhase Endings FloorShare

-- What was placed in one life of an event and not taken back while it was open.
def standing : List Label → Pubkey → Option BetEntry
  | [] => fun _ => none
  | .placed _ bettor entry :: labels => Function.update (standing labels) bettor (some entry)
  | .cancelled _ bettor _ _ :: labels => Function.update (standing labels) bettor none
  | _ :: labels => standing labels

def settles : Label → Option Payment
  | .claimed _ bettor entry paid | .refunded _ bettor entry paid => some ⟨bettor,entry,paid⟩
  | _ => none
def settlements (labels : List Label) : List Payment := labels.filterMap settles
def Settled (labels : List Label) (bettor : Pubkey) : Prop := ∃ p ∈ settlements labels, p.bettor = bettor

structure Standing (key : EventKey) (labels : List Label) (e : Event) (bets : Pubkey → Option BetEntry) : Prop where
  entries : ∀ bettor entry, standing labels bettor = some entry → EntryValid key bettor entry
  sides : ∀ outcome, Known outcome → (e.side outcome).val = KeyedTotal.total (sideWeight outcome) (standing labels)
  count : e.bettorCount.val = KeyedTotal.total (fun _ => 1) (standing labels)
  waiting : ∀ bettor, ¬ Settled labels bettor → bets bettor = standing labels bettor
  gone : ∀ bettor, Settled labels bettor → bets bettor = none
  early : ¬ Terminal e.status → settlements labels = []
  paid : ∀ p ∈ settlements labels, standing labels p.bettor = some p.entry ∧ entitled e p.entry ∧ p.amount = due e p.entry

section standing
variable {key : EventKey} {labels : List Label} {l : Label} {e e' : Event} {v next : View}
  {bets : Pubkey → Option BetEntry} {bettor : Pubkey} {entry : BetEntry} {p : Payment}

theorem settlements_silent (silent : settles l = none) : settlements (l :: labels) = settlements labels :=
  List.filterMap_cons_none silent
theorem settlements_paid (paid : settles l = some p) : settlements (l :: labels) = p :: settlements labels :=
  List.filterMap_cons_some paid

theorem Standing.all_waiting (before : Standing key labels e bets) (early : ¬ Terminal e.status) :
    bets = standing labels := by
  funext bettor
  apply before.waiting
  rintro ⟨p,member,_⟩
  rw [before.early early] at member
  cases member

-- Before the end the entries are the standing bets, so the book speaks of them.
theorem standing_early (book : Book key labels e bets) (early : ¬ Terminal e.status) (same : bets = standing labels)
    (unpaid : settlements labels = []) : Standing key labels e bets where
  entries := by rw [← same]; exact book.entries
  sides := by
    intro outcome known
    have side := book.sides outcome known
    rw [(book.unsettled early).2.1,Int.add_zero] at side
    rw [← same]
    exact side
  count := by
    have count := book.count
    rw [(book.unsettled early).1,Int.add_zero] at count
    rw [← same]
    exact count
  waiting := fun bettor _ => congrFun same bettor
  gone := by
    rintro bettor ⟨p,member,_⟩
    rw [unpaid] at member
    cases member
  early := fun _ => unpaid
  paid := by
    intro p member
    rw [unpaid] at member
    cases member

-- A step that moves no bet and pays nobody.
theorem Standing.carry (before : Standing key labels e bets) (stands : standing (l :: labels) = standing labels)
    (silent : settles l = none) (same : SameCounters e e') (early : ¬ Terminal e'.status → ¬ Terminal e.status)
    (kept : settlements labels = [] ∨ e' = e) : Standing key (l :: labels) e' bets where
  entries := by rw [stands]; exact before.entries
  sides := by
    intro outcome known
    rw [stands,same.side]
    exact before.sides outcome known
  count := by rw [stands,same.bettorCount]; exact before.count
  waiting := by
    intro bettor unpaid
    rw [stands]
    apply before.waiting
    rwa [Settled,settlements_silent silent] at unpaid
  gone := by
    intro bettor paid
    apply before.gone
    rwa [Settled,settlements_silent silent] at paid
  early := by rw [settlements_silent silent]; exact fun still => before.early (early still)
  paid := by
    rw [settlements_silent silent,stands]
    intro p member
    rcases kept with nobody | unchanged
    · rw [nobody] at member
      cases member
    · rw [unchanged]
      exact before.paid p member

-- A payment after the end takes a standing bet that was not paid yet.
theorem Standing.settle {count : U32} (before : Standing key labels e bets) (terminal : Terminal e.status)
    (stands : standing (l :: labels) = standing labels) (settled : settles l = some ⟨bettor,entry,due e entry⟩)
    (held : bets bettor = some entry) (right : entitled e entry) :
    Standing key (l :: labels) {e with betsClosed := count} (Function.update bets bettor none) where
  entries := by rw [stands]; exact before.entries
  sides := by rw [stands]; exact before.sides
  count := by rw [stands]; exact before.count
  waiting := by
    intro b unpaid
    rw [Settled,settlements_paid settled] at unpaid
    have other : b ≠ bettor := fun same => unpaid ⟨_,List.mem_cons_self ..,same.symm⟩
    rw [stands,Function.update_of_ne other]
    apply before.waiting
    rintro ⟨p,member,owner⟩
    exact unpaid ⟨p,List.mem_cons_of_mem _ member,owner⟩
  gone := by
    rintro b ⟨p,member,owner⟩
    by_cases mine : b = bettor
    · rw [mine,Function.update_self]
    · rw [Function.update_of_ne mine]
      rw [settlements_paid settled] at member
      rcases List.mem_cons.mp member with same | old
      · rw [same] at owner
        exact (mine owner.symm).elim
      · exact before.gone b ⟨p,old,owner⟩
  early := fun still => (still terminal).elim
  paid := by
    rw [settlements_paid settled,stands]
    intro p member
    rcases List.mem_cons.mp member with same | old
    · rw [same]
      refine ⟨?_,right,rfl⟩
      rw [← before.waiting bettor]
      · exact held
      · intro done
        rw [before.gone bettor done] at held
        cases held
    · exact before.paid p old

def StandingAt (key : EventKey) (labels : List Label) (v : View) : Prop :=
  ∀ e, v.event = some e → Standing key (sinceCreation labels) e v.bets

theorem StandingAt.follow (found : next.event = some e) (lives : sinceCreation (l :: labels) = l :: sinceCreation labels)
    (standing : Standing key (l :: sinceCreation labels) e next.bets) : StandingAt key (l :: labels) next := by
  intro e' found'
  rw [found] at found'
  cases found'
  rw [lives]
  exact standing

theorem standing_step (book : BookAt key labels v) (before : StandingAt key labels v) (step : EventStep key v l next) :
    StandingAt key (l :: labels) next := by
  have after : BookAt key (l :: labels) next := book_step book step
  cases step with
  | created vacant _ fresh =>
      intro e found
      cases found
      exact standing_early (book_fresh fresh (book.vacant vacant)) (not_terminal_open fresh.status)
        (funext (book.vacant vacant)) rfl
  | placed found _ opened =>
      have early := not_terminal_open opened
      have earlier := before _ found
      refine StandingAt.follow rfl rfl (standing_early (after.kept _ rfl) ?_ ?_ (earlier.early early))
      · rw [Event.withBook_status]
        exact early
      · exact congrArg (Function.update · _ _) (earlier.all_waiting early)
  | cancelled found _ opened =>
      have early := not_terminal_open opened
      have earlier := before _ found
      refine StandingAt.follow rfl rfl (standing_early (after.kept _ rfl) ?_ ?_ (earlier.early early))
      · rw [Event.withBook_status]
        exact early
      · exact congrArg (Function.update · _ _) (earlier.all_waiting early)
  | locked found _ opened =>
      have unpaid := (before _ found).early (not_terminal_open opened)
      exact .follow rfl rfl ((before _ found).carry rfl rfl ⟨rfl,rfl,rfl,rfl,rfl,rfl,rfl⟩
        (fun _ => not_terminal_open opened) (.inl unpaid))
  | oneSided found _ opened =>
      have unpaid := (before _ found).early (not_terminal_open opened)
      exact .follow rfl rfl ((before _ found).carry rfl rfl ⟨rfl,rfl,rfl,rfl,rfl,rfl,rfl⟩
        (fun _ => not_terminal_open opened) (.inl unpaid))
  | resolved found _ isLocked =>
      have unpaid := (before _ found).early (not_terminal_locked isLocked)
      exact .follow rfl rfl ((before _ found).carry rfl rfl ⟨rfl,rfl,rfl,rfl,rfl,rfl,rfl⟩
        (fun _ => not_terminal_locked isLocked) (.inl unpaid))
  | challenged found _ resolving =>
      have unpaid := (before _ found).early (not_terminal_resolving resolving)
      exact .follow rfl rfl ((before _ found).carry rfl rfl ⟨rfl,rfl,rfl,rfl,rfl,rfl,rfl⟩ id (.inl unpaid))
  | ambiguous found _ resolving =>
      have unpaid := (before _ found).early (not_terminal_resolving resolving)
      exact .follow rfl rfl ((before _ found).carry rfl rfl ⟨rfl,rfl,rfl,rfl,rfl,rfl,rfl⟩
        (fun _ => not_terminal_resolving resolving) (.inl unpaid))
  | decided found _ resolving =>
      have unpaid := (before _ found).early (not_terminal_resolving resolving)
      exact .follow rfl rfl ((before _ found).carry rfl rfl ⟨rfl,rfl,rfl,rfl,rfl,rfl,rfl⟩
        (fun _ => not_terminal_resolving resolving) (.inl unpaid))
  | claimed found _ resolved _ held won =>
      refine StandingAt.follow rfl rfl ((before _ found).settle (.inl resolved) rfl ?_ held fun _ => won)
      rw [due,divisor_won resolved won]
      rfl
  | marked found _ isLocked =>
      have unpaid := (before _ found).early (not_terminal_locked isLocked)
      exact .follow rfl rfl ((before _ found).carry rfl rfl ⟨rfl,rfl,rfl,rfl,rfl,rfl,rfl⟩
        (fun _ => not_terminal_locked isLocked) (.inl unpaid))
  | refunded found _ refundable _ held =>
      refine StandingAt.follow rfl rfl ((before _ found).settle (.inr refundable) rfl ?_ held ?_)
      · rw [due,divisor_refund refundable]
        rfl
      · intro resolved
        cases refundable.symm.trans resolved
  | closed => exact fun e absent => (by cases absent)
  | donated =>
      intro e found
      exact (before e found).carry rfl rfl ⟨rfl,rfl,rfl,rfl,rfl,rfl,rfl⟩ id (.inr rfl)
  | quiet =>
      intro e found
      exact (before e found).carry rfl rfl ⟨rfl,rfl,rfl,rfl,rfl,rfl,rfl⟩ id (.inr rfl)

theorem standing_run (genesis : Genesis origin) (run : Run origin history s) (key : EventKey) :
    StandingAt key (labelsAt key history) (view key s) := by
  induction run with
  | nil =>
      intro e found
      rw [show (view key origin).event = none from genesis.noEvents key] at found
      cases found
  | cons prior step ih =>
      exact standing_step (sound_reachable key genesis prior).book ih (advance_projects key step)

end standing

-- The standing bets as positions of the game, and its rules here.
def position (entry : BetEntry) : Parimutuel.Position U8 := ⟨entry.outcome,entry.stake.val⟩
def positions (labels : List Label) (bettor : Pubkey) : Option (Parimutuel.Position U8) :=
  (standing labels bettor).map position
def rules : Parimutuel.Rules := ⟨resolverRewardDev.val,protocolFeeBps.val⟩
def verdict (labels : List Label) (e : Event) : Parimutuel.Verdict U8 :=
  match e.status,e.candidateOutcome with
  | .resolved,some winner => .winner winner
  | _,_ => if labels.any finalizes then .undecided else .void

structure Plays (labels : List Label) (e : Event) (bets : Pubkey → Option BetEntry) : Prop where
  pot : e.pot.val = Parimutuel.pot (positions labels)
  sides : ∀ outcome, Known outcome → (e.side outcome).val = Parimutuel.side (positions labels) outcome
  bettors : e.bettorCount.val = KeyedTotal.total (fun _ => 1) (positions labels)
  waiting : ∀ bettor entry, bets bettor = some entry → standing labels bettor = some entry
  pool : Terminal e.status → e.payoutPool.val = Parimutuel.pool rules (positions labels) (verdict labels e)
  paid : ∀ p ∈ settlements labels, standing labels p.bettor = some p.entry ∧
    p.amount = Parimutuel.payoff rules (positions labels) (verdict labels e) (position p.entry)
  affordable : Terminal e.status → KeyedTotal.total
    (Parimutuel.payoff rules (positions labels) (verdict labels e)) (positions labels) ≤ e.payoutPool.val
  order : ∀ p ∈ settlements labels, ∀ q ∈ settlements labels, p.entry.outcome = q.entry.outcome →
    p.entry.stake.val ≤ q.entry.stake.val → p.amount ≤ q.amount

section game
variable {key : EventKey} {labels : List Label} {e : Event} {bets : Pubkey → Option BetEntry} {entry : BetEntry}
  {winner : U8}

theorem total_positions (weight : Parimutuel.Position U8 → Int) (labels : List Label) :
    KeyedTotal.total weight (positions labels) = KeyedTotal.total (fun entry => weight (position entry)) (standing labels) :=
  KeyedTotal.total_map position weight (standing labels)

theorem sides_cover (known : Known entry.outcome) :
    (position entry).stake = sideWeight outcomeYes entry + sideWeight outcomeNo entry := by
  rcases known with no | yes
  · rw [sideWeight_same no,sideWeight_other (no ▸ outcomes_differ),Int.zero_add]
    rfl
  · rw [sideWeight_same yes,sideWeight_other (yes ▸ outcomes_differ.symm),Int.add_zero]
    rfl

theorem side_positions (stands : Standing key labels e bets) (known : Known outcome) :
    (e.side outcome).val = Parimutuel.side (positions labels) outcome := by
  rw [Parimutuel.side,total_positions]
  exact stands.sides outcome known

theorem pot_positions (book : Book key earlier e bets') (stands : Standing key labels e bets) :
    e.pot.val = Parimutuel.pot (positions labels) := by
  have yes := stands.sides outcomeYes (.inr rfl)
  have no := stands.sides outcomeNo (.inl rfl)
  rw [side_yes] at yes
  rw [side_no] at no
  have split : KeyedTotal.total (fun entry => (position entry).stake) (standing labels) =
      KeyedTotal.total (fun entry => sideWeight outcomeYes entry + sideWeight outcomeNo entry) (standing labels) :=
    KeyedTotal.total_congr fun bettor entry found => sides_cover (stands.entries bettor entry found).known
  rw [Parimutuel.pot,total_positions,split,KeyedTotal.total_add,← yes,← no]
  exact book.pot

theorem Standing.stood (stands : Standing key labels e bets) (held : bets bettor = some entry) :
    standing labels bettor = some entry := by
  rw [← stands.waiting bettor]
  · exact held
  · intro paid
    rw [stands.gone bettor paid] at held
    cases held

theorem settled_terminal (stands : Standing key labels e bets) (member : p ∈ settlements labels) : Terminal e.status := by
  apply Classical.byContradiction
  intro early
  rw [stands.early early] at member
  cases member

theorem pot_staked (book : Book key earlier e bets') (stands : Standing key labels e bets)
    (stood : standing labels bettor = some entry) : 0 < e.pot.val := by
  have held : positions labels bettor = some (position entry) := by rw [positions,stood]; rfl
  have nonneg : ∀ b p, positions labels b = some p → 0 ≤ p.stake := by
    intro b p placed
    obtain ⟨x,_,rfl⟩ := Option.map_eq_some_iff.mp placed
    exact x.stake.lower
  have below := Parimutuel.stake_le_pot nonneg held
  have least := (stands.entries bettor entry stood).least
  have minimum : 0 < minStakeLamportsDev.val := by decide
  rw [pot_positions book stands]
  exact lt_of_lt_of_le (lt_of_lt_of_le minimum least) below

theorem verdict_won (resolved : e.status = .resolved) (won : e.candidateOutcome = some winner) :
    verdict labels e = .winner winner := by
  simp only [verdict,resolved,won]
theorem verdict_undecided (refundable : e.status = .refundable) (finalized : Finalized labels) :
    verdict labels e = .undecided := by
  simp only [verdict,refundable]
  exact if_pos (List.any_eq_true.mpr finalized)
theorem verdict_void (refundable : e.status = .refundable) (unfinalized : ¬ Finalized labels) :
    verdict labels e = .void := by
  simp only [verdict,refundable]
  exact if_neg fun any => unfinalized (List.any_eq_true.mp any)

-- What the three ends of an event have in common with the three verdicts.
structure Judged (key : EventKey) (labels : List Label) (e : Event) : Prop where
  pool : e.payoutPool.val = Parimutuel.pool rules (positions labels) (verdict labels e)
  backed : Parimutuel.Backed (positions labels) (verdict labels e)
  due : ∀ bettor entry, standing labels bettor = some entry → entitled e entry →
    due e entry = Parimutuel.payoff rules (positions labels) (verdict labels e) (position entry)

theorem judged (book : Book key labels e bets) (purse : Purse base labels e escrow) (ending : Ending labels e)
    (stands : Standing key labels e bets) (terminal : Terminal e.status) : Judged key labels e := by
  have pot := pot_positions book stands
  rcases terminal with resolved | refundable
  · obtain ⟨winner,won⟩ := purse.decided resolved
    have known := purse.winner (.inr resolved) winner won
    have side := side_positions stands known
    have positive := divisor_positive book resolved won known
    have pool : e.payoutPool.val = Parimutuel.pool rules (positions labels) (.winner winner) := by
      rw [(ending.decided resolved).2,Parimutuel.pool,← pot]
      exact Int.sub_sub ..
    rw [divisor_won resolved won] at positive
    refine ⟨?_,?_,?_⟩
    · rw [verdict_won resolved won]
      exact pool
    · rw [verdict_won resolved won]
      exact lt_of_lt_of_eq positive side
    · intro _ entry _ right
      have same : (position entry).outcome = winner := Option.some.inj ((right resolved).symm.trans won)
      rw [verdict_won resolved won,Parimutuel.payoff_won same,← pool,← side,TerminalPhase.due,divisor_won resolved won]
      rfl
  · by_cases finalized : Finalized labels
    · obtain ⟨_,rest,least⟩ := ending.voided refundable finalized
      have minimum : 0 < minStakeLamportsDev.val := by decide
      have pool : e.payoutPool.val = Parimutuel.pool rules (positions labels) .undecided := by
        rw [rest,Parimutuel.pool,← pot]
        rfl
      refine ⟨?_,?_,?_⟩
      · rw [verdict_undecided refundable finalized]
        exact pool
      · rw [verdict_undecided refundable finalized,Parimutuel.Backed,← pot]
        omega
      · intro _ entry _ _
        rw [verdict_undecided refundable finalized,Parimutuel.payoff,← pool,← pot,TerminalPhase.due,
          divisor_refund refundable]
        rfl
    · have whole := ending.returned refundable finalized
      have pool : e.payoutPool.val = Parimutuel.pool rules (positions labels) .void := by
        rw [whole,Parimutuel.pool,← pot]
        exact (Int.sub_zero _).symm
      refine ⟨?_,?_,?_⟩
      · rw [verdict_void refundable finalized]
        exact pool
      · rw [verdict_void refundable finalized]
        exact trivial
      · intro bettor entry stood _
        have staked := pot_staked book stands stood
        rw [verdict_void refundable finalized,TerminalPhase.due,divisor_refund refundable,whole]
        exact Int.mul_ediv_cancel_left _ (ne_of_gt staked)

theorem game_played (genesis : Genesis origin) (run : Run origin history s) (found : s.events key = some e) :
    Plays (sinceCreation (labelsAt key history)) e (s.bets key) := by
  have sound := sound_reachable key genesis run
  have book := sound.book.kept e found
  have stands := standing_run genesis run key e found
  have judge : Terminal e.status → Judged key (sinceCreation (labelsAt key history)) e :=
    judged book (sound.purse e found) (ending_run genesis run found) stands
  have settled : ∀ p ∈ settlements (sinceCreation (labelsAt key history)),
      Judged key (sinceCreation (labelsAt key history)) e ∧ p.amount = Parimutuel.payoff rules
        (positions (sinceCreation (labelsAt key history))) (verdict (sinceCreation (labelsAt key history)) e)
        (position p.entry) := by
    intro p member
    have ended := judge (settled_terminal stands member)
    obtain ⟨stood,right,amount⟩ := stands.paid p member
    exact ⟨ended,amount.trans (ended.due p.bettor p.entry stood right)⟩
  exact {
    pot := pot_positions book stands
    sides := fun _ known => side_positions stands known
    bettors := stands.count.trans (total_positions (fun _ => 1) _).symm
    waiting := fun _ _ held => (stands.stood held)
    pool := fun terminal => (judge terminal).pool
    paid := fun p member => ⟨(stands.paid p member).1,(settled p member).2⟩
    affordable := by
      intro terminal
      rw [(judge terminal).pool]
      exact Parimutuel.payoffs_affordable (judge terminal).backed
    order := by
      intro p one q two same more
      obtain ⟨ended,amount⟩ := settled p one
      rw [amount,(settled q two).2]
      exact Parimutuel.payoff_order ended.backed (ended.pool ▸ e.payoutPool.lower) same more }

section sample
open SampleMarket

theorem game_played_sample : ∃ e, (stateOf settling).events market = some e ∧
    Plays (sinceCreation (labelsAt market (historyOf settling))) e ((stateOf settling).bets market) :=
  ⟨_,rfl,game_played opening_genesis (play_run rfl) rfl⟩
end sample

-- What the losers leave after the reward, less the fee, has to fill the gap
-- that the fee tears into the winners' own stakes.
def Profitable (e : Event) (winner : U8) : Prop :=
  (e.side winner).val < 9 * (e.pot.val - (e.side winner).val - resolverRewardDev.val) + 10

theorem pool_covers (ending : Ending labels e) (resolved : e.status = .resolved) :
    (e.side winner).val ≤ e.payoutPool.val ↔ Profitable e winner := by
  rw [(ending.decided resolved).2,protocolFee,potAfterReward,Profitable]
  omega

theorem gains (book : Book key labels e bets) (ending : Ending labels e) (resolved : e.status = .resolved)
    (won : e.candidateOutcome = some winner) (known : Known winner) (staked : 0 < entry.stake.val) :
    entry.stake.val ≤ due e entry ↔ Profitable e winner := by
  have positive := divisor_positive book resolved won known
  rw [divisor_won resolved won] at positive
  rw [due,divisor_won resolved won,← pool_covers ending resolved]
  exact Parimutuel.share_gains positive staked

-- Either no winner is paid less than his stake or every winner is.
theorem winners_gain (genesis : Genesis origin) (run : Run origin history s) (found : s.events key = some e)
    (resolved : e.status = .resolved) (won : e.candidateOutcome = some winner) :
    (∀ p ∈ settlements (sinceCreation (labelsAt key history)), p.entry.stake.val ≤ p.amount ↔ Profitable e winner) ∧
      ∀ bettor entry, s.bets key bettor = some entry → entry.outcome = winner →
        (entry.stake.val ≤ due e entry ↔ Profitable e winner) := by
  have sound := sound_reachable key genesis run
  have book := sound.book.kept e found
  have stands := standing_run genesis run key e found
  have ending := ending_run genesis run found
  have known := (sound.purse e found).winner (.inr resolved) winner won
  have minimum : 0 < minStakeLamportsDev.val := by decide
  constructor
  · intro p member
    obtain ⟨stood,_,amount⟩ := stands.paid p member
    have least := (stands.entries _ _ stood).least
    rw [amount]
    exact gains book ending resolved won known (lt_of_lt_of_le minimum least)
  · intro bettor entry held _
    have least := (book.entries bettor entry held).least
    exact gains book ending resolved won known (lt_of_lt_of_le minimum least)

section sample
open SampleMarket

theorem winners_gain_sample : ∃ e, (stateOf settling).events market = some e ∧
    ∀ p ∈ settlements (sinceCreation (labelsAt market (historyOf settling))),
      p.entry.stake.val ≤ p.amount ↔ Profitable e outcomeYes :=
  ⟨_,rfl,(winners_gain opening_genesis (play_run rfl) rfl rfl rfl).1⟩
end sample

end game
end Solclash.Payoffs
