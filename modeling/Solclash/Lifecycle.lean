import Mathlib.Logic.Relation
import Solclash.Lifetimes

-- Which instruction may write which field of an event, and what that leaves of
-- the event over the rest of its life.
namespace Solclash.Lifecycle
open EventProtocol EventBook Lifetimes

-- What create_event fixes for good.
structure Terms where
  creator : Pubkey
  eventId : U64
  feedId : FeedId
  condition : U8
  thresholdE8 : I128
  bettingCloseTime : I64
  resolutionTime : I64
  rentExemptMinimum : U64
  bump : U8

def terms (e : Event) : Terms :=
  ⟨e.creator,e.eventId,e.feedId,e.condition,e.thresholdE8,e.bettingCloseTime,e.resolutionTime,e.rentExemptMinimum,e.bump⟩

-- What the bets wrote, and what the price updates wrote.
structure Tallies where
  pot : U64
  yesStake : U64
  noStake : U64
  bettorCount : U32

def tallies (e : Event) : Tallies := ⟨e.pot,e.yesStake,e.noStake,e.bettorCount⟩

structure Verdict where
  outcome : Option U8
  priceE8 : I128
  publishTime : I64

def verdict (e : Event) : Verdict := ⟨e.candidateOutcome,e.candidatePriceE8,e.candidatePublishTime⟩

structure NoMore (next before : Tallies) : Prop where
  pot : next.pot.val ≤ before.pot.val
  yesStake : next.yesStake.val ≤ before.yesStake.val
  noStake : next.noStake.val ≤ before.noStake.val
  bettorCount : next.bettorCount.val ≤ before.bettorCount.val

inductive Moves : EventStatus → EventStatus → Prop where
  | locks : Moves .open .locked
  | returns : Moves .open .refundable
  | resolves : Moves .locked .resolving
  | expires : Moves .locked .refundable
  | decides : Moves .resolving .resolved
  | voids : Moves .resolving .refundable

structure Disciplined (e : Event) (now : Int) (next : Event) : Prop where
  status : next.status = e.status ∨ Moves e.status next.status
  terms : terms next = terms e
  tallies : tallies next = tallies e ∨ e.status = .open ∧ next.status = .open
  closedBook : e.bettingCloseTime.val ≤ now → NoMore (Lifecycle.tallies next) (Lifecycle.tallies e)
  finalizedAt : next.finalizedAt = e.finalizedAt ∨ e.status = .locked ∧ next.status = .resolving
  verdict : verdict next = verdict e ∨ e.status = .locked ∧ next.status = .resolving ∨
    e.status = .resolving ∧ next.status = .resolving ∧ now < e.finalizedAt.val
  payoutPool : next.payoutPool = e.payoutPool ∨ ¬ Terminal e.status ∧ Terminal next.status
  betsClosed : next.betsClosed = e.betsClosed ∨
    Terminal e.status ∧ next.status = e.status ∧ next.betsClosed.val = e.betsClosed.val + 1

variable {key : EventKey} {v next : View} {l : Label} {e e' : Event} {outcome : U8} {pot side : U64} {count : U32}

theorem NoMore.refl (t : Tallies) : NoMore t t := ⟨Int.le_refl _,Int.le_refl _,Int.le_refl _,Int.le_refl _⟩

theorem terms_withBook : terms (e.withBook outcome pot side count) = terms e := by
  unfold Event.withBook Event.withSide
  split <;> rfl

theorem verdict_withBook : verdict (e.withBook outcome pot side count) = verdict e := by
  unfold Event.withBook Event.withSide
  split <;> rfl

theorem payoutPool_withBook : (e.withBook outcome pot side count).payoutPool = e.payoutPool := by
  unfold Event.withBook Event.withSide
  split <;> rfl

-- A step that leaves the bets and the closing counter alone.
theorem disciplined_status (status : e'.status = e.status ∨ Moves e.status e'.status) (same : terms e' = terms e)
    (book : tallies e' = tallies e) (closed : e'.betsClosed = e.betsClosed)
    (finalizedAt : e'.finalizedAt = e.finalizedAt ∨ e.status = .locked ∧ e'.status = .resolving)
    (candidate : verdict e' = verdict e ∨ e.status = .locked ∧ e'.status = .resolving ∨
      e.status = .resolving ∧ e'.status = .resolving ∧ now < e.finalizedAt.val)
    (pool : e'.payoutPool = e.payoutPool ∨ ¬ Terminal e.status ∧ Terminal e'.status) : Disciplined e now e' where
  status := status
  terms := same
  tallies := .inl book
  closedBook := fun _ => book ▸ .refl _
  finalizedAt := finalizedAt
  verdict := candidate
  payoutPool := pool
  betsClosed := .inl closed

theorem disciplined_idle (e : Event) (now : Int) : Disciplined e now e :=
  disciplined_status (.inl rfl) rfl rfl rfl (.inl rfl) (.inl rfl) (.inl rfl)

theorem disciplined_settled {count : U32} (terminal : Terminal e.status) (counted : count.val = e.betsClosed.val + 1) :
    Disciplined e now {e with betsClosed := count} where
  status := .inl rfl
  terms := rfl
  tallies := .inl rfl
  closedBook := fun _ => .refl _
  finalizedAt := .inl rfl
  verdict := .inl rfl
  payoutPool := .inl rfl
  betsClosed := .inr ⟨terminal,rfl,counted⟩

theorem noMore_withBook (known : pot.val ≤ e.pot.val) (lower : side.val ≤ (e.side outcome).val)
    (fewer : count.val ≤ e.bettorCount.val) :
    NoMore (tallies (e.withBook outcome pot side count)) (tallies e) := by
  refine ⟨?_,?_,?_,fewer⟩
  · change (e.withBook outcome pot side count).pot.val ≤ _
    rw [Event.withBook_pot]
    exact known
  · change (e.withBook outcome pot side count).yesStake.val ≤ _
    rw [Event.withBook_yesStake]
    split
    · rename_i yes
      subst yes
      rw [side_yes] at lower
      exact lower
    · exact Int.le_refl _
  · change (e.withBook outcome pot side count).noStake.val ≤ _
    rw [Event.withBook_noStake]
    split
    · exact Int.le_refl _
    · rename_i no
      rw [Event.side,if_neg no] at lower
      exact lower

theorem disciplined_booked (opened : e.status = .open)
    (closedBook : e.bettingCloseTime.val ≤ now →
      pot.val ≤ e.pot.val ∧ side.val ≤ (e.side outcome).val ∧ count.val ≤ e.bettorCount.val) :
    Disciplined e now (e.withBook outcome pot side count) where
  status := .inl (Event.withBook_status ..)
  terms := terms_withBook
  tallies := .inr ⟨opened,(Event.withBook_status ..).trans opened⟩
  closedBook := by
    intro late
    obtain ⟨pots,sides,counts⟩ := closedBook late
    exact noMore_withBook pots sides counts
  finalizedAt := .inl (Event.withBook_finalizedAt ..)
  verdict := .inl verdict_withBook
  payoutPool := .inl payoutPool_withBook
  betsClosed := .inl (Event.withBook_betsClosed ..)

theorem lowered {stake : U64} (difference : pot.val = e.pot.val - stake.val)
    (removed : side.val = (e.side outcome).val - stake.val) (counted : count.val = e.bettorCount.val - 1) :
    pot.val ≤ e.pot.val ∧ side.val ≤ (e.side outcome).val ∧ count.val ≤ e.bettorCount.val := by
  have nonneg := stake.lower
  exact ⟨by omega,by omega,by omega⟩

-- Every step of the protocol but a closing keeps the discipline.
theorem step_disciplined (step : EventStep key v l next) (found : v.event = some e) (kept : ¬ Closing l) :
    ∃ e', next.event = some e' ∧ Disciplined e next.clock.val e' := by
  cases step with
  | created vacant => rw [found] at vacant; cases vacant
  | placed found' _ opened betting =>
      rw [found] at found'; cases found'
      exact ⟨_,rfl,disciplined_booked opened fun late => (not_le_of_gt betting late).elim⟩
  | cancelled found' _ opened _ difference removed counted =>
      rw [found] at found'; cases found'
      refine ⟨_,rfl,disciplined_booked opened fun _ => ?_⟩
      exact lowered difference removed counted
  | locked found' _ opened =>
      rw [found] at found'; cases found'
      exact ⟨_,rfl,disciplined_status (.inr (opened ▸ .locks)) rfl rfl rfl (.inl rfl) (.inl rfl) (.inl rfl)⟩
  | oneSided found' _ opened =>
      rw [found] at found'; cases found'
      exact ⟨_,rfl,disciplined_status (.inr (opened ▸ .returns)) rfl rfl rfl (.inl rfl) (.inl rfl)
        (.inr ⟨not_terminal_open opened,.inr rfl⟩)⟩
  | resolved found' _ isLocked =>
      rw [found] at found'; cases found'
      exact ⟨_,rfl,disciplined_status (.inr (isLocked ▸ .resolves)) rfl rfl rfl (.inr ⟨isLocked,rfl⟩)
        (.inr (.inl ⟨isLocked,rfl⟩)) (.inl rfl)⟩
  | challenged found' _ resolving inside =>
      rw [found] at found'; cases found'
      exact ⟨_,rfl,disciplined_status (.inl rfl) rfl rfl rfl (.inl rfl)
        (.inr (.inr ⟨resolving,resolving,inside⟩)) (.inl rfl)⟩
  | ambiguous found' _ resolving =>
      rw [found] at found'; cases found'
      exact ⟨_,rfl,disciplined_status (.inr (resolving ▸ .voids)) rfl rfl rfl (.inl rfl) (.inl rfl)
        (.inr ⟨not_terminal_resolving resolving,.inr rfl⟩)⟩
  | decided found' _ resolving =>
      rw [found] at found'; cases found'
      exact ⟨_,rfl,disciplined_status (.inr (resolving ▸ .decides)) rfl rfl rfl (.inl rfl) (.inl rfl)
        (.inr ⟨not_terminal_resolving resolving,.inl rfl⟩)⟩
  | claimed found' _ resolved _ _ _ _ counted =>
      rw [found] at found'; cases found'
      exact ⟨_,rfl,disciplined_settled (.inl resolved) counted⟩
  | marked found' _ isLocked =>
      rw [found] at found'; cases found'
      exact ⟨_,rfl,disciplined_status (.inr (isLocked ▸ .expires)) rfl rfl rfl (.inl rfl) (.inl rfl)
        (.inr ⟨not_terminal_locked isLocked,.inr rfl⟩)⟩
  | refunded found' _ refundable _ _ _ counted =>
      rw [found] at found'; cases found'
      exact ⟨_,rfl,disciplined_settled (.inr refundable) counted⟩
  | closed => exact (kept rfl).elim
  | donated => exact ⟨e,found,disciplined_idle e _⟩
  | quiet => exact ⟨e,found,disciplined_idle e _⟩

theorem step_later (step : EventStep key v l next) : v.clock.val ≤ next.clock.val := by
  cases step with
  | donated => exact Int.le_refl _
  | _ => assumption

-- How far an event is on its way; no move leads back.
def rank : EventStatus → Nat
  | .open => 0
  | .locked => 1
  | .resolving => 2
  | .resolved | .refundable => 3

theorem Moves.climbs (move : Moves a b) : rank a < rank b := by cases move <;> decide

theorem Moves.early (move : Moves a b) : ¬ Terminal a := by cases move <;> simp [Terminal]

theorem climbs (moves : Relation.ReflTransGen Moves a b) : rank a ≤ rank b := by
  induction moves with
  | refl => exact Nat.le_refl _
  | tail _ move ih => exact ih.trans move.climbs.le

theorem rank_terminal : Terminal status ↔ rank status = 3 := by
  cases status <;> simp [Terminal,rank]

-- The pool may be written once, by the step that ends the event.
def writesLeft (status : EventStatus) : Nat := if rank status = 3 then 0 else 1
def poolWritten (key : EventKey) (t : Step) : Bool :=
  (t.before.events key).map Event.payoutPool ≠ (t.after.events key).map Event.payoutPool
def poolWrites (key : EventKey) (history : List Step) : Nat := history.countP (poolWritten key)

-- What a part of the event's life leaves of the event at its beginning.
structure Lived (key : EventKey) (s : Chain) (e : Event) (later : List Step) (s' : Chain) (e' : Event) : Prop where
  clock : s.clock.val ≤ s'.clock.val
  status : Relation.ReflTransGen Moves e.status e'.status
  terms : terms e' = terms e
  tallies : e.status ≠ .open → tallies e' = tallies e
  finalizedAt : rank .resolving ≤ rank e.status → e'.finalizedAt = e.finalizedAt
  verdict : Terminal e.status ∨ e.status = .resolving ∧ e.finalizedAt.val ≤ s.clock.val → verdict e' = verdict e
  poolWrites : poolWrites key later + writesLeft e'.status ≤ writesLeft e.status
  betsClosed : ¬ Terminal e'.status → e'.betsClosed = e.betsClosed

theorem lived_start (key : EventKey) (s : Chain) (e : Event) : Lived key s e [] s e where
  clock := Int.le_refl _
  status := .refl
  terms := rfl
  tallies := fun _ => rfl
  finalizedAt := fun _ => rfl
  verdict := fun _ => rfl
  poolWrites := by simp [Lifecycle.poolWrites]
  betsClosed := fun _ => rfl

theorem writesLeft_early (early : ¬ Terminal status) : writesLeft status = 1 :=
  if_neg fun last => early (rank_terminal.mpr last)
theorem writesLeft_terminal (terminal : Terminal status) : writesLeft status = 0 :=
  if_pos (rank_terminal.mp terminal)

theorem writesLeft_falls (moved : b = a ∨ Moves a b) : writesLeft b ≤ writesLeft a := by
  rcases moved with rfl | move
  · exact Nat.le_refl _
  · rw [writesLeft_early move.early]
    unfold writesLeft
    split <;> decide

theorem one_write (disciplined : Disciplined e now e') (found : t.before.events key = some e)
    (found' : t.after.events key = some e') :
    (poolWritten key t).toNat + writesLeft e'.status ≤ writesLeft e.status := by
  rcases disciplined.payoutPool with same | ⟨early,terminal⟩
  · have unwritten : poolWritten key t = false := by simp [poolWritten,found,found',same]
    rw [unwritten,Bool.toNat_false,Nat.zero_add]
    exact writesLeft_falls disciplined.status
  · rw [writesLeft_early early,writesLeft_terminal terminal]
    exact Bool.toNat_le _

theorem Lived.extend {middle next : Chain} {action : Action} {last : Event} (lived : Lived key s e later middle e')
    (found : middle.events key = some e') (disciplined : Disciplined e' next.clock.val last)
    (found' : next.events key = some last) (onward : middle.clock.val ≤ next.clock.val) :
    Lived key s e (⟨middle,action,next⟩ :: later) next last := by
  have reached : Relation.ReflTransGen Moves e.status last.status := by
    rcases disciplined.status with same | move
    · rw [same]; exact lived.status
    · exact lived.status.tail move
  have climbed := climbs lived.status
  exact {
    clock := lived.clock.trans onward
    status := reached
    terms := disciplined.terms.trans lived.terms
    tallies := by
      intro notOpen
      have past : e'.status ≠ .open := by
        intro opened
        rw [opened] at climbed
        cases status : e.status <;> simp_all [rank]
      rcases disciplined.tallies with same | ⟨opened,_⟩
      · exact same.trans (lived.tallies notOpen)
      · exact (past opened).elim
    finalizedAt := by
      intro past
      rcases disciplined.finalizedAt with same | ⟨isLocked,_⟩
      · exact same.trans (lived.finalizedAt past)
      · rw [isLocked] at climbed
        exact absurd (past.trans climbed) (by decide)
    verdict := by
      intro frozen
      have past : rank .resolving ≤ rank e.status := by
        rcases frozen with terminal | ⟨resolving,_⟩
        · rw [rank_terminal.mp terminal]; decide
        · rw [resolving]
      rcases disciplined.verdict with same | ⟨isLocked,_⟩ | ⟨resolving,_,inside⟩
      · exact same.trans (lived.verdict frozen)
      · rw [isLocked] at climbed
        exact absurd (past.trans climbed) (by decide)
      · rw [lived.finalizedAt past] at inside
        rcases frozen with terminal | ⟨_,closed⟩
        · rw [resolving,rank_terminal.mp terminal] at climbed
          exact absurd climbed (by decide)
        · have passed := lived.clock
          omega
    poolWrites := by
      have before := lived.poolWrites
      have one := one_write (t:=⟨middle,action,next⟩) disciplined found found'
      unfold Lifecycle.poolWrites at before ⊢
      rw [List.countP_cons]
      cases written : poolWritten key ⟨middle,action,next⟩ <;> simp_all <;> omega
    betsClosed := by
      intro early
      have settled : ¬ Terminal e'.status := by
        intro terminal
        rcases disciplined.status with same | move
        · exact early (same ▸ terminal)
        · exact move.early terminal
      rcases disciplined.betsClosed with same | ⟨terminal,_⟩
      · exact same.trans (lived.betsClosed settled)
      · exact (settled terminal).elim }

theorem lived_run (found : s.events key = some e) (run : Run s later s') (unclosed : ∀ l ∈ labelsAt key later, ¬ Closing l) :
    ∃ e', s'.events key = some e' ∧ Lived key s e later s' e' := by
  induction run with
  | nil => exact ⟨e,found,lived_start key s e⟩
  | cons prior step ih =>
      obtain ⟨e',found',lived⟩ := ih fun l member => unclosed l (List.mem_cons_of_mem _ member)
      have own := advance_projects key step
      obtain ⟨last,present,disciplined⟩ := step_disciplined own found' (unclosed _ (List.mem_cons_self ..))
      exact ⟨last,present,lived.extend found' disciplined present (step_later own)⟩

theorem closing_instruction {next : Chain} (closing : Closing (label key ⟨s,.invoke sys instruction,next⟩)) :
    ∃ ctx, instruction = .closeEvent ctx ∧ ctx.event = key := by
  rcases label_invoked key s sys instruction next with quiet | ⟨own,_,kind⟩
  · rw [quiet] at closing
    cases closing
  · generalize label key _ = l at closing kind
    cases kind with
    | closed => exact ⟨_,rfl,own⟩
    | _ => cases closing

theorem write_once (found : s.events key = some e) :
    (∀ {sys : Sysvars} {instruction next}, s.clock ≤ sys.unixTimestamp → execute sys instruction s = .ok next →
      (∀ ctx, instruction = .closeEvent ctx → ctx.event ≠ key) →
      ∃ e', next.events key = some e' ∧ Disciplined e sys.unixTimestamp.val e') ∧
    ∀ {later s'}, Run s later s' → (∀ l ∈ labelsAt key later, ¬ Closing l) →
      ∃ e', s'.events key = some e' ∧ Lived key s e later s' e' := by
  refine ⟨?_,lived_run found⟩
  intro sys instruction next onward ran kept
  have step : advance s (.invoke sys instruction) = some {next with clock := sys.unixTimestamp} := by
    simp only [advance,onward,if_true,ran]
  refine step_disciplined (advance_projects key step) found ?_
  intro closing
  obtain ⟨ctx,same,own⟩ := closing_instruction closing
  exact kept ctx same own

section sample
open SampleMarket

def newborn : Chain := stateOf [create]
def newbornEvent : Event := (newborn.events market).get rfl
def youth : List Step := (historyOf settling).take 6

theorem write_once_sample :
    (∃ next e', execute (sysvars (.lit 20)) (.placeBet ⟨alice,market,.lit 254⟩ outcomeYes (.lit 20000000)) newborn =
      .ok next ∧ next.events market = some e' ∧ Disciplined newbornEvent 20 e') ∧
    ∃ e', (stateOf settling).events market = some e' ∧ Lived market newborn newbornEvent youth (stateOf settling) e' := by
  have run : Run opening (youth ++ stepOf [] create :: []) (stateOf settling) :=
    play_run (rfl : (play settling).isSome = true)
  obtain ⟨steps,runs⟩ := write_once (rfl : newborn.events market = some newbornEvent)
  constructor
  · obtain ⟨e',found,disciplined⟩ := @steps (sysvars (.lit 20))
      (.placeBet ⟨alice,market,.lit 254⟩ outcomeYes (.lit 20000000)) _ (by decide) rfl
      (fun ctx same => (by cases same))
    exact ⟨_,e',rfl,found,disciplined⟩
  · exact runs run.around.2.2 (by decide)
end sample

end Solclash.Lifecycle
