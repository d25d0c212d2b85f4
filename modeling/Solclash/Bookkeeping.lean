import Solclash.EntryProtocol

-- What the counters of an event say about its entries, in every reachable state
-- and across closing an event and creating it again under the same address.
namespace Solclash.Bookkeeping
open EventProtocol EventBook EventPurse EventSchedule Lifetimes EntryProtocol

structure EntryBounds (entry : BetEntry) : Prop where
  known : entry.outcome = outcomeNo ∨ entry.outcome = outcomeYes
  least : minStakeLamportsDev.val ≤ entry.stake.val
  most : entry.stake.val ≤ maxStakeLamportsDev.val

-- The labels are those of the event's current life.
structure Accounts (labels : List Label) (e : Event) (bets : Pubkey → Option BetEntry) : Prop where
  pot : e.pot.val = e.yesStake.val + e.noStake.val
  cap : e.pot.val ≤ maxPotLamportsDev.val
  active : e.status = .open ∨ e.status = .locked ∨ e.status = .resolving →
    e.yesStake.val = openStake outcomeYes bets ∧ e.noStake.val = openStake outcomeNo bets ∧
      e.bettorCount.val = openCount bets ∧ e.betsClosed.val = 0
  terminal : e.status = .resolved ∨ e.status = .refundable →
    e.yesStake.val = openStake outcomeYes bets + settledStake outcomeYes labels ∧
      e.noStake.val = openStake outcomeNo bets + settledStake outcomeNo labels ∧
      e.betsClosed.val + openCount bets = e.bettorCount.val
  twoSided : e.status = .locked ∨ e.status = .resolving ∨ e.status = .resolved →
    minStakeLamportsDev.val ≤ e.yesStake.val ∧ minStakeLamportsDev.val ≤ e.noStake.val

variable {key : EventKey} {labels : List Label} {e : Event} {bets : Pubkey → Option BetEntry} {bettor : Pubkey}
  {entry : BetEntry}

theorem active_early (active : e.status = .open ∨ e.status = .locked ∨ e.status = .resolving) :
    ¬ Terminal e.status := by
  rcases active with opened | isLocked | resolving
  · exact not_terminal_open opened
  · exact not_terminal_locked isLocked
  · exact not_terminal_resolving resolving

theorem accounts_of (book : Book key labels e bets) : Accounts labels e bets := by
  have yes := book.sides outcomeYes (.inr rfl)
  have no := book.sides outcomeNo (.inl rfl)
  have count := book.count
  have closed := book.closed
  rw [side_yes] at yes
  rw [side_no] at no
  refine ⟨book.pot,book.cap,?_,?_,book.twoSided⟩
  · intro active
    obtain ⟨nobody,nothing,_⟩ := book.unsettled (active_early active)
    rw [nothing] at yes no
    exact ⟨by omega,by omega,by omega,by omega⟩
  · intro _
    exact ⟨yes,no,by omega⟩

theorem book_accounts (genesis : Genesis origin) (run : Run origin history s) (key : EventKey) :
    (∀ bettor entry, s.bets key bettor = some entry → EntryBounds entry) ∧
      ∀ e, s.events key = some e → Accounts (sinceCreation (labelsAt key history)) e (s.bets key) := by
  have book := (sound_reachable key genesis run).book
  refine ⟨?_,fun e found => accounts_of (book.kept e found)⟩
  intro bettor entry held
  cases found : s.events key with
  | none =>
      have nobody : s.bets key bettor = none := book.vacant found bettor
      rw [nobody] at held
      cases held
  | some e =>
      have valid := (book.kept e found).entries bettor entry held
      exact ⟨valid.known,valid.least,valid.most⟩

section sample
open SampleMarket

theorem book_accounts_sample : ∃ e, (stateOf settling).events market = some e ∧
    Accounts (sinceCreation (labelsAt market (historyOf settling))) e ((stateOf settling).bets market) :=
  ⟨_,rfl,(book_accounts opening_genesis (play_run rfl) market).2 _ rfl⟩
end sample

-- The entry is one of the summands behind the event's counters.
structure Counted (labels : List Label) (e : Event) (bets : Pubkey → Option BetEntry) (bettor : Pubkey)
    (entry : BetEntry) : Prop where
  pot : e.pot.val = e.yesStake.val + e.noStake.val
  side : (e.side entry.outcome).val = entry.stake.val +
    openStake entry.outcome (Function.update bets bettor none) + settledStake entry.outcome labels
  count : e.bettorCount.val = 1 + openCount (Function.update bets bettor none) + settledCount labels

theorem counted_of (book : Book key labels e bets) (held : bets bettor = some entry) :
    Counted labels e bets bettor entry := by
  have side := book.sides entry.outcome (book.entries bettor entry held).known
  have count := book.count
  refine ⟨book.pot,?_,?_⟩
  · rw [openStake_removed held,sideWeight_same rfl]
    omega
  · rw [openCount_removed held]
    omega

theorem paid_held (step : EventStep key v l next) (paid : payment l = some ⟨bettor,entry,amount⟩) :
    v.event ≠ none ∧ v.bets bettor = some entry := by
  cases step with
  | cancelled found _ _ held => cases paid; exact ⟨by rw [found]; exact Option.some_ne_none _,held⟩
  | claimed found _ _ _ held => cases paid; exact ⟨by rw [found]; exact Option.some_ne_none _,held⟩
  | refunded found _ _ _ held => cases paid; exact ⟨by rw [found]; exact Option.some_ne_none _,held⟩
  | _ => cases paid

theorem closing_vacant (step : EventStep key v l next) (closing : Closing l) :
    ∃ e, v.event = some e ∧ e.betsClosed.val = e.bettorCount.val ∧ next.bets = v.bets := by
  cases step with
  | closed found _ _ complete => exact ⟨_,found,complete,rfl⟩
  | _ => cases closing

theorem address_reusable {t : Step} {later past : List Step} (genesis : Genesis origin)
    (run : Run origin (later ++ t :: past) s) (key : EventKey) :
    (Closing (label key t) →
      ∀ bettor, t.before.bets key bettor = none ∧ t.after.bets key bettor = none) ∧
    ∀ bettor entry amount, payment (label key t) = some ⟨bettor,entry,amount⟩ →
      ∃ e, t.before.events key = some e ∧ t.before.bets key bettor = some entry ∧
        Placed (sinceCreation (labelsAt key past)) bettor entry ∧
        Counted (sinceCreation (labelsAt key past)) e (t.before.bets key) bettor entry := by
  obtain ⟨prior,taken,_⟩ := run.around
  have step := advance_projects key taken
  have book := (sound_reachable key genesis prior).book
  constructor
  · intro closing bettor
    obtain ⟨e,found,complete,kept⟩ := closing_vacant step closing
    have nobody : t.before.bets key bettor = none := book_empty (book.kept e found) complete bettor
    have same : t.after.bets key = t.before.bets key := kept
    exact ⟨nobody,same ▸ nobody⟩
  · intro bettor entry amount paid
    obtain ⟨present,held⟩ := paid_held step paid
    obtain ⟨e,found⟩ := Option.ne_none_iff_exists'.mp present
    exact ⟨e,found,held,origins_run genesis prior key bettor entry held,counted_of (book.kept e found) held⟩

section sample
open SampleMarket

-- A one-sided market is refunded and closed, then created again at its address.
def reusing : List Action :=
  [create,bet (.lit 20) alice outcomeYes (.lit 20000000),lock,
    .invoke (sysvars (.lit 100)) (.claimRefund ⟨alice,market⟩),
    .invoke (sysvars (.lit 110)) (.closeEvent ⟨bob,market,creator⟩),
    .invoke (sysvars (.lit 200)) (.createEvent ⟨creator,.lit 7,.lit 255⟩ ((0#8).replicate 32) conditionLessThan
      (.lit 100) (.lit 300) (.lit 700)),
    bet (.lit 210) alice outcomeNo (.lit 25000000)]
def cancelling : Action := .invoke (sysvars (.lit 220)) (.cancelBet ⟨alice,market⟩)
def secondEntry : BetEntry := ⟨market,alice,outcomeNo,.lit 25000000,.lit 254⟩

theorem address_reusable_sample : ∃ e, (stateOf reusing).events market = some e ∧
    (stateOf reusing).bets market alice = some secondEntry ∧
    Placed (sinceCreation (labelsAt market (historyOf reusing))) alice secondEntry ∧
    Counted (sinceCreation (labelsAt market (historyOf reusing))) e ((stateOf reusing).bets market) alice
      secondEntry := by
  have run : Run opening ([] ++ stepOf reusing cancelling :: historyOf reusing) (stateOf (reusing ++ [cancelling])) :=
    play_run (rfl : (play (reusing ++ [cancelling])).isSome = true)
  exact (address_reusable opening_genesis run market).2 alice secondEntry 25000000 rfl
end sample

end Solclash.Bookkeeping
