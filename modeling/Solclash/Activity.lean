import Solclash.EntryProtocol

-- How much can happen at an event address: every accepted instruction uses up
-- something that only a creation or a further bet brings back.
namespace Solclash.Activity
open EventProtocol EventBook Lifetimes EntryProtocol

-- One for every accepted instruction but create_event and place_bet.
def spends : Label → Int
  | .cancelled .. | .locked .. | .resolved .. | .challenged .. | .finalized .. | .claimed .. | .marked ..
  | .refunded .. | .closed .. => 1
  | _ => 0

-- A creation allows for one lock, one report, 60 challenges, one decision and
-- one closing; a bet, for one payment.
def allows : Label → Int
  | .created .. => 64
  | .placed .. => 1
  | _ => 0

-- The publish times that a challenge may still name.
def newerTimes (e : Event) : Int := max 0 (e.resolutionTime.val - e.candidatePublishTime.val)

def stagesLeft (e : Event) : Int :=
  match e.status with
  | .open => 64
  | .locked => 63
  | .resolving => 2 + newerTimes e
  | .resolved | .refundable => 1

def potential (v : View) : Int :=
  match v.event with
  | none => 0
  | some e => stagesLeft e + openCount v.bets

section steps
variable {key : EventKey} {v next : View} {l : Label} {e : Event} {labels : List Label} {bets : Pubkey → Option BetEntry}

theorem stagesLeft_positive (e : Event) : 0 < stagesLeft e := by
  unfold stagesLeft
  cases e.status with
  | resolving => exact lt_of_lt_of_le (by decide) (le_add_of_nonneg_right (le_max_left 0 _))
  | _ => simp

theorem openCount_nonneg (bets : Pubkey → Option BetEntry) : 0 ≤ openCount bets :=
  KeyedTotal.total_nonneg fun _ _ _ => Int.one_nonneg

theorem potential_nonneg (v : View) : 0 ≤ potential v := by
  unfold potential
  split
  · exact le_refl 0
  · exact add_nonneg (stagesLeft_positive _).le (openCount_nonneg _)

theorem potential_of (found : v.event = some e) : potential v = stagesLeft e + openCount v.bets := by
  simp only [potential,found]

theorem left_open (opened : e.status = .open) : stagesLeft e = 64 := by simp only [stagesLeft,opened]
theorem left_locked (isLocked : e.status = .locked) : stagesLeft e = 63 := by simp only [stagesLeft,isLocked]
theorem left_resolving (resolving : e.status = .resolving) :
    stagesLeft e = 2 + newerTimes e := by simp only [stagesLeft,resolving]
theorem left_terminal (terminal : Terminal e.status) : stagesLeft e = 1 := by
  rcases terminal with resolved | refundable
  · simp only [stagesLeft,resolved]
  · simp only [stagesLeft,refundable]

-- An accepted update is at most a minute old, and a newer one leaves fewer.
theorem newerTimes_reported (outcome : Option U8)
    (accepted : verifyPriceUpdate update e.feedId e.resolutionTime = .ok verified) :
    newerTimes (e.withCandidate outcome verified) ≤ 60 := by
  obtain ⟨_,_,_,_,recent,_,_,_,_,published⟩ := verifyPriceUpdate_parts accepted
  have value : newerTimes (e.withCandidate outcome verified) = max 0 (e.resolutionTime.val - verified.publishTime.val) := rfl
  rw [value,published]
  omega

theorem newerTimes_challenged (accepted : verifyPriceUpdate update e.feedId e.resolutionTime = .ok verified)
    (newer : e.candidatePublishTime.val < verified.publishTime.val) :
    newerTimes (e.withCandidate outcome verified) + 1 ≤ newerTimes e := by
  obtain ⟨_,_,_,past,_,_,_,_,_,published⟩ := verifyPriceUpdate_parts accepted
  have value : newerTimes (e.withCandidate outcome verified) = max 0 (e.resolutionTime.val - verified.publishTime.val) := rfl
  rw [published] at newer value
  rw [value,newerTimes]
  omega

theorem left_reported (accepted : verifyPriceUpdate update e.feedId e.resolutionTime = .ok verified) :
    1 + stagesLeft {e.withCandidate outcome verified with finalizedAt,status := .resolving} + 0 ≤ 63 := by
  have few := newerTimes_reported outcome accepted
  rw [left_resolving rfl]
  change 1 + (2 + newerTimes (e.withCandidate outcome verified)) + 0 ≤ 63
  omega

theorem left_challenged (resolving : e.status = .resolving)
    (accepted : verifyPriceUpdate update e.feedId e.resolutionTime = .ok verified)
    (newer : e.candidatePublishTime.val < verified.publishTime.val) :
    1 + stagesLeft (e.withCandidate outcome verified) + 0 ≤ stagesLeft e + 0 := by
  have after : stagesLeft (e.withCandidate outcome verified) = 2 + newerTimes (e.withCandidate outcome verified) :=
    left_resolving resolving
  have fewer : newerTimes (e.withCandidate outcome verified) + 1 ≤ newerTimes e := newerTimes_challenged accepted newer
  rw [after,left_resolving resolving]
  omega

theorem left_counted (count : U32) : stagesLeft {e with betsClosed := count} = stagesLeft e := rfl

theorem two_left (resolving : e.status = .resolving) : 2 ≤ stagesLeft e := by
  rw [left_resolving resolving]
  exact le_add_of_nonneg_right (le_max_left ..)

theorem openCount_less (held : bets bettor = some entry) :
    openCount (Function.update bets bettor none) = openCount bets + -1 := openCount_removed held

theorem spent {d : Int} {e' : Event} (found : v.event = some e) (found' : next.event = some e')
    (bets : openCount next.bets = openCount v.bets + d) (falls : spends l + stagesLeft e' + d ≤ stagesLeft e + allows l) :
    spends l + potential next ≤ potential v + allows l := by
  rw [potential_of found,potential_of found',bets]
  omega

-- What one step spends, it takes from the potential.
theorem step_spends (vacant : v.event = none → openCount v.bets = 0) (step : EventStep key v l next) :
    spends l + potential next ≤ potential v + allows l := by
  have same : ∀ bets, openCount bets = openCount bets + 0 := fun bets => (Int.add_zero _).symm
  cases step with
  | created absent _ fresh =>
      have before : potential v = 0 := by simp only [potential,absent]
      rw [before,potential_of rfl,left_open fresh.status,vacant absent]
      exact le_refl _
  | placed found _ opened _ free =>
      refine spent found rfl (openCount_placed free) ?_
      rw [left_open opened,left_open (opened ▸ Event.withBook_status _ _ _ _ _)]
      exact le_refl _
  | cancelled found _ opened held =>
      refine spent found rfl (openCount_less held) ?_
      rw [left_open opened,left_open (opened ▸ Event.withBook_status _ _ _ _ _)]
      exact le_refl _
  | locked found _ opened =>
      refine spent found rfl (same _) ?_
      rw [left_open opened,left_locked rfl]
      exact le_refl _
  | oneSided found _ opened =>
      refine spent found rfl (same _) ?_
      rw [left_open opened,left_terminal (.inr rfl)]
      exact (by decide : (2 : Int) ≤ 64)
  | resolved found _ isLocked _ accepted =>
      refine spent found rfl (same _) ?_
      rw [left_locked isLocked]
      exact left_reported accepted
  | challenged found _ resolving _ accepted newer =>
      refine spent found rfl (same _) ?_
      exact left_challenged resolving accepted newer
  | ambiguous found _ resolving =>
      refine spent found rfl (same _) ?_
      rw [left_terminal (.inr rfl)]
      exact add_le_add_left (two_left resolving) 0
  | decided found _ resolving =>
      refine spent found rfl (same _) ?_
      rw [left_terminal (.inl rfl)]
      exact add_le_add_left (two_left resolving) 0
  | claimed found _ resolved _ held =>
      refine spent found rfl (openCount_less held) ?_
      rw [left_counted,left_terminal (.inl resolved)]
      exact le_refl _
  | marked found _ isLocked =>
      refine spent found rfl (same _) ?_
      rw [left_locked isLocked,left_terminal (.inr rfl)]
      exact (by decide : (2 : Int) ≤ 63)
  | refunded found _ refundable _ held =>
      refine spent found rfl (openCount_less held) ?_
      rw [left_counted,left_terminal (.inr refundable)]
      exact le_refl _
  | closed found _ terminal =>
      rw [potential_of found,left_terminal terminal]
      exact add_le_add_left (le_add_of_nonneg_right (openCount_nonneg _)) 0
  | donated => exact (Int.zero_add _).trans_le (Int.add_zero _).ge
  | quiet => exact (Int.zero_add _).trans_le (Int.add_zero _).ge

end steps

-- The same count on the transitions of a run: only accepted instructions that
-- address the event weigh anything.
def weigh (key : EventKey) (weight : Instruction → Int) (t : Step) : Int :=
  match t.action with
  | .transfer .. => 0
  | .invoke sys instruction =>
    if instruction.event = key then
      match execute sys instruction t.before with
      | .ok _ => weight instruction
      | .error _ => 0
    else 0

def spending : Instruction → Int
  | .createEvent .. | .placeBet .. => 0
  | _ => 1
def allowance : Instruction → Int
  | .createEvent .. => 64
  | .placeBet .. => 1
  | _ => 0

section runs
variable {key : EventKey} {origin s s' : Chain} {history later : List Step} {earlier : List Label} {t : Step}

theorem committed_weights (ran : execute sys instruction t.before = .ok next) :
    spends (committedLabel instruction.event t now instruction) = spending instruction ∧
      allows (committedLabel instruction.event t now instruction) = allowance instruction := by
  cases instruction with
  | cancelBet ctx =>
      obtain ⟨_,entry,_,_,_,_,_,_,held,_⟩ := cancelBet_parts ran
      simp only [Instruction.event,committedLabel,held]
      exact ⟨rfl,rfl⟩
  | claim ctx =>
      obtain ⟨_,entry,_,_,_,_,_,held,_⟩ := claim_parts ran
      simp only [Instruction.event,committedLabel,held]
      exact ⟨rfl,rfl⟩
  | claimRefund ctx =>
      obtain ⟨_,entry,_,_,_,_,_,held,_⟩ := claimRefund_parts ran
      simp only [Instruction.event,committedLabel,held]
      exact ⟨rfl,rfl⟩
  | _ => exact ⟨rfl,rfl⟩

theorem label_weights (key : EventKey) (t : Step) :
    spends (label key t) = weigh key spending t ∧ allows (label key t) = weigh key allowance t := by
  obtain ⟨before,action,after⟩ := t
  cases action with
  | transfer source target amount =>
      simp only [label,weigh]
      split <;> exact ⟨rfl,rfl⟩
  | invoke sys instruction =>
      simp only [label,weigh]
      by_cases own : instruction.event = key
      · subst own
        rw [if_pos rfl,if_pos rfl,if_pos rfl]
        cases ran : execute sys instruction before with
        | ok next => exact committed_weights ran
        | error e => exact ⟨rfl,rfl⟩
      · rw [if_neg own,if_neg own,if_neg own]
        exact ⟨rfl,rfl⟩

theorem spends_weighed (key : EventKey) (later : List Step) :
    tally spends (labelsAt key later) = (later.map (weigh key spending)).sum := by
  rw [tally,labelsAt,List.map_map]
  exact congrArg List.sum (List.map_congr_left fun t _ => (label_weights key t).1)
theorem allows_weighed (key : EventKey) (later : List Step) :
    tally allows (labelsAt key later) = (later.map (weigh key allowance)).sum := by
  rw [tally,labelsAt,List.map_map]
  exact congrArg List.sum (List.map_congr_left fun t _ => (label_weights key t).2)

theorem sound_vacant (sound : Sound key earlier v) (absent : v.event = none) : openCount v.bets = 0 :=
  KeyedTotal.total_empty (sound.book.vacant absent)

theorem path_spends (sound : Sound key earlier (view key s)) (path : Run s later s') :
    tally spends (labelsAt key later) + potential (view key s') ≤ potential (view key s) + tally allows (labelsAt key later) := by
  refine Machine.Path.amortized (I:=fun labels v => Sound key (labels ++ earlier) v) sound ?_ ?_ (event_run key path)
  · exact fun before step => sound_step before step
  · exact fun before step => step_spends (sound_vacant before) step

-- From any reachable state on, the accepted instructions of an event use up
-- its potential, which never falls below zero and is nothing at the start.
structure Bounded (key : EventKey) (s : Chain) (later : List Step) (s' : Chain) : Prop where
  spent : (later.map (weigh key spending)).sum + potential (view key s') ≤
    potential (view key s) + (later.map (weigh key allowance)).sum
  kept : 0 ≤ potential (view key s')
  unborn : s.events key = none → potential (view key s) = 0

theorem activity_bounded (genesis : Genesis origin) (run : Run origin history s) (path : Run s later s') :
    Bounded key s later s' where
  spent := by
    rw [← spends_weighed,← allows_weighed]
    exact path_spends (sound_reachable key genesis run) path
  kept := potential_nonneg _
  unborn := by
    intro absent
    simp only [potential,show (view key s).event = none from absent]

section sample
open SampleMarket

theorem activity_bounded_sample : Bounded market opening (historyOf settling) (stateOf settling) :=
  activity_bounded opening_genesis .nil (play_run (rfl : (play settling).isSome = true))
end sample

end runs
end Solclash.Activity
