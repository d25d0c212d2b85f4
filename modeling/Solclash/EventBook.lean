import Solclash.Foundations.FloorShare
import Solclash.Foundations.KeyedTotal
import Solclash.EventProtocol

-- The counters of an event against the entries that are open and those that
-- were settled: an invariant of one life of the event, from its creation on.
namespace Solclash.EventBook
open EventProtocol

-- What one label adds to a running total of the event's life.
def Label.settles (outcome : U8) : Label → Int
  | .claimed _ _ entry _ | .refunded _ _ entry _ => if entry.outcome = outcome then entry.stake.val else 0
  | _ => 0
def Label.settlement : Label → Int
  | .claimed .. | .refunded .. => 1
  | _ => 0
def Label.paidOut : Label → Int
  | .claimed _ _ _ paid | .refunded _ _ _ paid => paid
  | _ => 0
def Label.donation : Label → Int
  | .donated amount => amount.val
  | _ => 0

def tally (f : Label → Int) (labels : List Label) : Int := (labels.map f).sum
@[simp] theorem tally_nil (f : Label → Int) : tally f [] = 0 := rfl
@[simp] theorem tally_cons (f : Label → Int) (l : Label) (labels : List Label) :
    tally f (l :: labels) = f l + tally f labels := by simp [tally]

theorem tally_nonneg {f : Label → Int} (each : ∀ l, 0 ≤ f l) (labels : List Label) : 0 ≤ tally f labels := by
  induction labels with
  | nil => exact Int.le_refl 0
  | cons l labels ih =>
      rw [tally_cons]
      exact Int.add_nonneg (each l) ih

def settledStake (outcome : U8) (labels : List Label) : Int := tally (Label.settles outcome) labels
def settledCount (labels : List Label) : Int := tally Label.settlement labels
def paidTotal (labels : List Label) : Int := tally Label.paidOut labels
def donatedTotal (labels : List Label) : Int := tally Label.donation labels

def sideWeight (outcome : U8) (entry : BetEntry) : Int := if entry.outcome = outcome then entry.stake.val else 0
theorem sideWeight_same (same : entry.outcome = outcome) : sideWeight outcome entry = entry.stake.val := if_pos same
theorem sideWeight_other (other : entry.outcome ≠ outcome) : sideWeight outcome entry = 0 := if_neg other
theorem sideWeight_nonneg (outcome : U8) (entry : BetEntry) : 0 ≤ sideWeight outcome entry := by
  by_cases same : entry.outcome = outcome
  · rw [sideWeight_same same]; exact entry.stake.lower
  · rw [sideWeight_other same]

def openStake (outcome : U8) (bets : Pubkey → Option BetEntry) : Int := KeyedTotal.total (sideWeight outcome) bets
def openCount (bets : Pubkey → Option BetEntry) : Int := KeyedTotal.total (fun _ => 1) bets

structure EntryValid (key : EventKey) (bettor : Pubkey) (entry : BetEntry) : Prop where
  event : entry.event = key
  bettor : entry.bettor = bettor
  known : entry.outcome = outcomeNo ∨ entry.outcome = outcomeYes
  least : minStakeLamportsDev.val ≤ entry.stake.val
  most : entry.stake.val ≤ maxStakeLamportsDev.val

def Terminal (status : EventStatus) : Prop := status = .resolved ∨ status = .refundable
def TwoSided (status : EventStatus) : Prop := status = .locked ∨ status = .resolving ∨ status = .resolved
def Known (outcome : U8) : Prop := outcome = outcomeNo ∨ outcome = outcomeYes

structure Book (key : EventKey) (labels : List Label) (e : Event) (bets : Pubkey → Option BetEntry) : Prop where
  creator : e.creator = key.creator
  eventId : e.eventId = key.eventId
  entries : ∀ bettor entry, bets bettor = some entry → EntryValid key bettor entry
  pot : e.pot.val = e.yesStake.val + e.noStake.val
  cap : e.pot.val ≤ maxPotLamportsDev.val
  sides : ∀ outcome, Known outcome → (e.side outcome).val = openStake outcome bets + settledStake outcome labels
  count : e.bettorCount.val = openCount bets + settledCount labels
  closed : e.betsClosed.val = settledCount labels
  unsettled : ¬ Terminal e.status →
    settledCount labels = 0 ∧ (∀ outcome, settledStake outcome labels = 0) ∧ paidTotal labels = 0
  twoSided : TwoSided e.status →
    minStakeLamportsDev.val ≤ e.yesStake.val ∧ minStakeLamportsDev.val ≤ e.noStake.val
  losers : e.status = .resolved → ∀ outcome, e.candidateOutcome ≠ some outcome → settledStake outcome labels = 0

theorem settledStake_nonneg (outcome : U8) (labels : List Label) : 0 ≤ settledStake outcome labels := by
  refine tally_nonneg ?_ labels
  intro l
  cases l with
  | claimed now bettor entry paid => exact sideWeight_nonneg outcome entry
  | refunded now bettor entry paid => exact sideWeight_nonneg outcome entry
  | _ => exact Int.le_refl 0

theorem donated_nonneg (labels : List Label) : 0 ≤ donatedTotal labels := by
  refine tally_nonneg ?_ labels
  intro l
  cases l with
  | donated amount => exact amount.lower
  | _ => exact Int.le_refl 0

theorem outcomes_differ : outcomeNo ≠ outcomeYes := by decide

@[simp] theorem side_yes (e : Event) : e.side outcomeYes = e.yesStake := by simp [Event.side]
@[simp] theorem side_no (e : Event) : e.side outcomeNo = e.noStake := by simp [Event.side,outcomes_differ]

theorem withBook_side_other (known : Known outcome) (other : Known outcome') (different : outcome' ≠ outcome)
    (e : Event) (pot side : U64) (count : U32) :
    (e.withBook outcome pot side count).side outcome' = e.side outcome' := by
  rcases known with rfl | rfl <;> rcases other with rfl | rfl <;>
    simp_all [Event.withBook_yesStake,Event.withBook_noStake,outcomes_differ,outcomes_differ.symm]

theorem withBook_sum (known : Known outcome) (e : Event) (pot side : U64) (count : U32) :
    (e.withBook outcome pot side count).yesStake.val + (e.withBook outcome pot side count).noStake.val =
      e.yesStake.val + e.noStake.val - (e.side outcome).val + side.val := by
  rcases known with rfl | rfl
  · simp [Event.withBook_yesStake,Event.withBook_noStake,outcomes_differ]
  · simp only [Event.withBook_yesStake,Event.withBook_noStake,if_true,side_yes]
    omega

variable {bets : Pubkey → Option BetEntry} {bettor : Pubkey} {entry : BetEntry} {key : EventKey}
  {labels : List Label} {e : Event}

theorem openStake_placed (vacant : bets bettor = none) (outcome : U8) :
    openStake outcome (Function.update bets bettor (some entry)) = openStake outcome bets + sideWeight outcome entry :=
  KeyedTotal.total_insert vacant
theorem openStake_removed (held : bets bettor = some entry) (outcome : U8) :
    openStake outcome (Function.update bets bettor none) = openStake outcome bets - sideWeight outcome entry :=
  KeyedTotal.total_erase held
theorem openCount_placed (vacant : bets bettor = none) :
    openCount (Function.update bets bettor (some entry)) = openCount bets + 1 := KeyedTotal.total_insert vacant
theorem openCount_removed (held : bets bettor = some entry) :
    openCount (Function.update bets bettor none) = openCount bets - 1 := KeyedTotal.total_erase held

theorem openCount_held (held : bets bettor = some entry) : 1 ≤ openCount bets := by
  have rest : 0 ≤ openCount (Function.update bets bettor none) := KeyedTotal.total_nonneg fun _ _ _ => Int.one_nonneg
  rw [openCount_removed held] at rest
  omega

theorem entries_updated {held : Option BetEntry} (entries : ∀ b x, bets b = some x → EntryValid key b x)
    (valid : ∀ x, held = some x → EntryValid key bettor x) :
    ∀ b x, Function.update bets bettor held b = some x → EntryValid key b x := by
  intro b x found
  by_cases same : b = bettor
  · subst b
    rw [Function.update_self] at found
    exact valid x found
  · rw [Function.update_of_ne same] at found
    exact entries b x found

theorem entries_placed (entries : ∀ b x, bets b = some x → EntryValid key b x) (valid : EntryValid key bettor entry) :
    ∀ b x, Function.update bets bettor (some entry) b = some x → EntryValid key b x := by
  apply entries_updated entries
  intro x same
  cases same
  exact valid

theorem entries_removed (entries : ∀ b x, bets b = some x → EntryValid key b x) :
    ∀ b x, Function.update bets bettor none b = some x → EntryValid key b x := by
  apply entries_updated entries
  intro x absurd
  cases absurd

-- A side with any stake on it carries at least one whole minimum stake.
theorem side_minimum (book : Book key labels e bets) (early : ¬ Terminal e.status) (known : Known outcome)
    (staked : (e.side outcome).val ≠ 0) : minStakeLamportsDev.val ≤ (e.side outcome).val := by
  have total := book.sides outcome known
  have none := (book.unsettled early).2.1 outcome
  have occupied : openStake outcome bets ≠ 0 := by omega
  obtain ⟨b,x,found,weight⟩ := KeyedTotal.total_occupied occupied
  have below : sideWeight outcome x ≤ openStake outcome bets :=
    KeyedTotal.le_total (fun _ x _ => sideWeight_nonneg outcome x) found
  have least := (book.entries b x found).least
  by_cases same : x.outcome = outcome
  · rw [sideWeight_same same] at below
    omega
  · exact False.elim (weight (sideWeight_other same))

structure Silent (l : Label) : Prop where
  settles : ∀ outcome, Label.settles outcome l = 0
  settlement : Label.settlement l = 0
  paidOut : Label.paidOut l = 0

theorem silent_of (settlesNobody : Label.settlement l = 0) : Silent l := by
  cases l with
  | claimed => exact absurd settlesNobody Int.one_ne_zero
  | refunded => exact absurd settlesNobody Int.one_ne_zero
  | _ => exact ⟨fun _ => rfl,rfl,rfl⟩

theorem Silent.settledStake (silent : Silent l) (outcome : U8) :
    settledStake outcome (l :: labels) = settledStake outcome labels := by
  simp [EventBook.settledStake,silent.settles]
theorem Silent.settledCount (silent : Silent l) : settledCount (l :: labels) = settledCount labels := by
  simp [EventBook.settledCount,silent.settlement]
theorem Silent.paidTotal (silent : Silent l) : paidTotal (l :: labels) = paidTotal labels := by
  simp [EventBook.paidTotal,silent.paidOut]

structure SameCounters (e next : Event) : Prop where
  creator : next.creator = e.creator
  eventId : next.eventId = e.eventId
  pot : next.pot = e.pot
  yesStake : next.yesStake = e.yesStake
  noStake : next.noStake = e.noStake
  bettorCount : next.bettorCount = e.bettorCount
  betsClosed : next.betsClosed = e.betsClosed

theorem SameCounters.side (same : SameCounters e next) (outcome : U8) : next.side outcome = e.side outcome := by
  simp [Event.side,same.yesStake,same.noStake]

-- A step that settles nothing and moves no counter keeps the book, as long as
-- the status it reaches asks for nothing new.
theorem Book.carry (book : Book key labels e bets) (silent : Silent l) (same : SameCounters e next)
    (early : ¬ Terminal next.status → ¬ Terminal e.status)
    (twoSided : TwoSided next.status →
      minStakeLamportsDev.val ≤ e.yesStake.val ∧ minStakeLamportsDev.val ≤ e.noStake.val)
    (losers : next.status = .resolved → ∀ outcome, next.candidateOutcome ≠ some outcome →
      settledStake outcome labels = 0) : Book key (l :: labels) next bets where
  creator := same.creator.trans book.creator
  eventId := same.eventId.trans book.eventId
  entries := book.entries
  pot := by rw [same.pot,same.yesStake,same.noStake]; exact book.pot
  cap := by rw [same.pot]; exact book.cap
  sides := by
    intro outcome known
    rw [same.side,silent.settledStake]; exact book.sides outcome known
  count := by rw [same.bettorCount,silent.settledCount]; exact book.count
  closed := by rw [same.betsClosed,silent.settledCount]; exact book.closed
  unsettled := by
    intro open'
    rw [silent.settledCount,silent.paidTotal]
    simp only [silent.settledStake]
    exact book.unsettled (early open')
  twoSided := by
    intro both
    rw [same.yesStake,same.noStake]; exact twoSided both
  losers := by
    intro resolved outcome lost
    rw [silent.settledStake]; exact losers resolved outcome lost

theorem not_terminal_open (opened : e.status = .open) : ¬ Terminal e.status := by
  rw [opened]; simp [Terminal]
theorem not_terminal_locked (isLocked : e.status = .locked) : ¬ Terminal e.status := by
  rw [isLocked]; simp [Terminal]
theorem not_terminal_resolving (resolving : e.status = .resolving) : ¬ Terminal e.status := by
  rw [resolving]; simp [Terminal]
theorem not_twoSided_open (opened : e.status = .open) : ¬ TwoSided e.status := by
  rw [opened]; simp [TwoSided]

-- A bet that comes or goes moves the pot, its side and the count together with
-- the entries behind them.
theorem book_moved {entries : Pubkey → Option BetEntry} {stake number : Int} (book : Book key labels e bets)
    (opened : e.status = .open) (silent : Silent l) (known : Known outcome)
    (valid : ∀ b x, entries b = some x → EntryValid key b x) (sum : pot.val = e.pot.val + stake)
    (cap : pot.val ≤ maxPotLamportsDev.val) (moved : side.val = (e.side outcome).val + stake)
    (counted : count.val = e.bettorCount.val + number)
    (own : openStake outcome entries = openStake outcome bets + stake)
    (others : ∀ outcome', outcome' ≠ outcome → openStake outcome' entries = openStake outcome' bets)
    (people : openCount entries = openCount bets + number) :
    Book key (l :: labels) (e.withBook outcome pot side count) entries where
  creator := (Event.withBook_creator ..).trans book.creator
  eventId := (Event.withBook_eventId ..).trans book.eventId
  entries := valid
  pot := by
    have old := book.pot
    rw [withBook_sum known,Event.withBook_pot]
    omega
  cap := by rw [Event.withBook_pot]; exact cap
  sides := by
    intro outcome' known'
    have old := book.sides outcome' known'
    rw [silent.settledStake]
    by_cases same : outcome' = outcome
    · subst same
      -- omega would unfold both totals to compare them
      rw [Event.withBook_side,own,moved,old]
      exact Int.add_right_comm ..
    · rw [withBook_side_other known known' same,others outcome' same]
      exact old
  count := by
    rw [people,silent.settledCount,Event.withBook_bettorCount,counted,book.count]
    exact Int.add_right_comm ..
  closed := by rw [silent.settledCount,Event.withBook_betsClosed]; exact book.closed
  unsettled := by
    intro _
    rw [silent.settledCount,silent.paidTotal]
    simp only [silent.settledStake]
    exact book.unsettled (not_terminal_open opened)
  twoSided := by
    intro both
    rw [Event.withBook_status] at both
    exact False.elim (not_twoSided_open opened both)
  losers := by
    intro resolved
    rw [Event.withBook_status] at resolved
    exact False.elim (not_terminal_open opened (.inl resolved))

theorem book_placed (book : Book key labels e bets) (opened : e.status = .open) (vacant : bets bettor = none)
    (valid : EntryValid key bettor entry) (sum : pot.val = e.pot.val + entry.stake.val)
    (cap : pot.val ≤ maxPotLamportsDev.val) (added : side.val = (e.side entry.outcome).val + entry.stake.val)
    (counted : count.val = e.bettorCount.val + 1) :
    Book key (.placed now bettor entry :: labels) (e.withBook entry.outcome pot side count)
      (Function.update bets bettor (some entry)) := by
  apply book_moved book opened (silent_of rfl) valid.known (entries_placed book.entries valid) sum cap added counted
  · rw [openStake_placed vacant,sideWeight_same rfl]
  · intro outcome other
    rw [openStake_placed vacant,sideWeight_other other.symm,Int.add_zero]
  · exact openCount_placed vacant

theorem book_cancelled (book : Book key labels e bets) (opened : e.status = .open)
    (held : bets bettor = some entry) (difference : pot.val = e.pot.val - entry.stake.val)
    (removed : side.val = (e.side entry.outcome).val - entry.stake.val)
    (counted : count.val = e.bettorCount.val - 1) :
    Book key (.cancelled now bettor entry paid :: labels) (e.withBook entry.outcome pot side count)
      (Function.update bets bettor none) := by
  have valid := book.entries bettor entry held
  have sum : pot.val = e.pot.val + -entry.stake.val := by omega
  have moved : side.val = (e.side entry.outcome).val + -entry.stake.val := by omega
  have people : count.val = e.bettorCount.val + -1 := by omega
  have cap : pot.val ≤ maxPotLamportsDev.val := by
    have old := book.cap
    have positive := entry.stake.lower
    omega
  apply book_moved book opened (silent_of rfl) valid.known (entries_removed book.entries) sum cap moved people
  · rw [openStake_removed held,sideWeight_same rfl]
    omega
  · intro outcome other
    rw [openStake_removed held,sideWeight_other other.symm,Int.sub_zero]
  · rw [openCount_removed held]
    omega

-- Settling moves an entry from the open ones to the settled ones.
theorem book_settled (book : Book key labels e bets) (terminal : Terminal e.status)
    (held : bets bettor = some entry) (counted : count.val = e.betsClosed.val + 1)
    (stake : ∀ outcome, Label.settles outcome l = sideWeight outcome entry) (one : Label.settlement l = 1)
    (winners : e.status = .resolved → e.candidateOutcome = some entry.outcome) :
    Book key (l :: labels) {e with betsClosed := count} (Function.update bets bettor none) where
  creator := book.creator
  eventId := book.eventId
  entries := entries_removed book.entries
  pot := book.pot
  cap := book.cap
  sides := by
    intro outcome known
    have old := book.sides outcome known
    have same : ({e with betsClosed := count} : Event).side outcome = e.side outcome := rfl
    rw [same,openStake_removed held,settledStake,tally_cons,stake]
    unfold settledStake at old
    omega
  count := by
    have old := book.count
    change e.bettorCount.val = _
    rw [openCount_removed held,settledCount,tally_cons,one]
    unfold settledCount at old
    omega
  closed := by
    have old := book.closed
    change count.val = _
    rw [settledCount,tally_cons,one]
    unfold settledCount at old
    omega
  unsettled := fun early => False.elim (early terminal)
  twoSided := book.twoSided
  losers := by
    intro resolved outcome lost
    have old := book.losers resolved outcome lost
    have different : entry.outcome ≠ outcome := by
      intro same
      exact lost (same ▸ winners resolved)
    rw [settledStake,tally_cons,stake,sideWeight_other different]
    unfold settledStake at old
    omega

-- The labels of the current life of the event: those after its creation.
def sinceCreation : List Label → List Label
  | [] => []
  | .created _ :: _ => []
  | l :: labels => l :: sinceCreation labels

structure BookAt (key : EventKey) (labels : List Label) (v : View) : Prop where
  vacant : v.event = none → ∀ bettor, v.bets bettor = none
  kept : ∀ e, v.event = some e → Book key (sinceCreation labels) e v.bets

theorem book_fresh (fresh : Fresh key now e) (vacant : ∀ bettor, bets bettor = none) : Book key [] e bets where
  creator := fresh.creator
  eventId := fresh.eventId
  entries := by intro bettor entry held; rw [vacant] at held; cases held
  pot := by rw [fresh.pot,fresh.yesStake,fresh.noStake]; rfl
  cap := by rw [fresh.pot]; exact maxPotLamportsDev.lower
  sides := by
    intro outcome known
    have empty : (e.side outcome).val = 0 := by
      rcases known with rfl | rfl
      · rw [side_no]; exact fresh.noStake
      · rw [side_yes]; exact fresh.yesStake
    rw [empty,openStake,KeyedTotal.total_empty vacant]; rfl
  count := by rw [fresh.bettorCount,openCount,KeyedTotal.total_empty vacant]; rfl
  closed := fresh.betsClosed
  unsettled := fun _ => ⟨rfl,fun _ => rfl,rfl⟩
  twoSided := fun both => False.elim (not_twoSided_open fresh.status both)
  losers := fun resolved => False.elim (not_terminal_open fresh.status (.inl resolved))

theorem book_empty (book : Book key labels e bets) (complete : e.betsClosed.val = e.bettorCount.val) :
    ∀ bettor, bets bettor = none := by
  have counted := book.count
  have closed := book.closed
  have nobody : openCount bets = 0 := by omega
  intro bettor
  cases held : bets bettor with
  | none => rfl
  | some entry =>
      have one := openCount_held held
      omega

theorem BookAt.present (found : v.event = some e) (book : Book key (sinceCreation labels) e v.bets) :
    BookAt key labels v := by
  refine ⟨fun absent => (by rw [found] at absent; cases absent),?_⟩
  intro e' found'
  rw [found] at found'
  cases found'
  exact book

theorem BookAt.unmoved (before : BookAt key labels v) (silent : Silent l)
    (living : sinceCreation (l :: labels) = l :: sinceCreation labels)
    (event : next.event = v.event) (bets : next.bets = v.bets) : BookAt key (l :: labels) next := by
  refine ⟨fun absent => bets ▸ before.vacant (event ▸ absent),?_⟩
  intro e found
  have book := before.kept e (event ▸ found)
  rw [living,bets]
  exact book.carry silent ⟨rfl,rfl,rfl,rfl,rfl,rfl,rfl⟩ id book.twoSided book.losers

-- Every step of the protocol keeps the book.
theorem book_step (before : BookAt key labels v) (step : EventStep key v l next) :
    BookAt key (l :: labels) next := by
  cases step with
  | created vacant _ fresh _ =>
      apply BookAt.present rfl
      exact book_fresh fresh (before.vacant vacant)
  | placed found _ opened _ vacant owner known least most sum cap added counted _ =>
      apply BookAt.present rfl
      exact book_placed (before.kept _ found) opened vacant ⟨owner.1,owner.2,known,least,most⟩ sum cap added counted
  | cancelled found _ opened held difference removed counted _ =>
      apply BookAt.present rfl
      exact book_cancelled (before.kept _ found) opened held difference removed counted
  | locked found _ opened _ yes no =>
      apply BookAt.present rfl
      have book := before.kept _ found
      have early := not_terminal_open opened
      refine book.carry (silent_of rfl) ⟨rfl,rfl,rfl,rfl,rfl,rfl,rfl⟩ (fun _ => early) ?_
        (fun resolved => by cases resolved)
      intro _
      have yesLeast := side_minimum book early (.inr rfl : Known outcomeYes) (by rw [side_yes]; exact yes)
      have noLeast := side_minimum book early (.inl rfl : Known outcomeNo) (by rw [side_no]; exact no)
      rw [side_yes] at yesLeast
      rw [side_no] at noLeast
      exact ⟨yesLeast,noLeast⟩
  | oneSided found _ opened _ _ =>
      apply BookAt.present rfl
      refine (before.kept _ found).carry (silent_of rfl) ⟨rfl,rfl,rfl,rfl,rfl,rfl,rfl⟩
        (fun _ => not_terminal_open opened) ?_ (fun resolved => by cases resolved)
      rintro (both | both | both) <;> cases both
  | resolved found _ isLocked _ _ _ _ _ =>
      apply BookAt.present rfl
      have book := before.kept _ found
      exact book.carry (silent_of rfl) ⟨rfl,rfl,rfl,rfl,rfl,rfl,rfl⟩ (fun _ => not_terminal_locked isLocked)
        (fun _ => book.twoSided (.inl isLocked)) (fun resolved => by cases resolved)
  | challenged found _ resolving _ _ _ _ =>
      apply BookAt.present rfl
      have book := before.kept _ found
      exact book.carry (silent_of rfl) ⟨rfl,rfl,rfl,rfl,rfl,rfl,rfl⟩ id book.twoSided
        (fun resolved => False.elim (not_terminal_resolving resolving (.inl resolved)))
  | ambiguous found _ resolving _ _ _ =>
      apply BookAt.present rfl
      refine (before.kept _ found).carry (silent_of rfl) ⟨rfl,rfl,rfl,rfl,rfl,rfl,rfl⟩
        (fun _ => not_terminal_resolving resolving) ?_ (fun resolved => by cases resolved)
      rintro (both | both | both) <;> cases both
  | decided found _ resolving _ _ _ _ _ =>
      apply BookAt.present rfl
      have book := before.kept _ found
      have early := not_terminal_resolving resolving
      exact book.carry (silent_of rfl) ⟨rfl,rfl,rfl,rfl,rfl,rfl,rfl⟩ (fun _ => early)
        (fun _ => book.twoSided (.inr (.inl resolving))) (fun _ outcome _ => (book.unsettled early).2.1 outcome)
  | claimed found _ resolved _ held won _ counted _ =>
      apply BookAt.present rfl
      exact book_settled (before.kept _ found) (.inl resolved) held counted (fun _ => rfl) rfl (fun _ => won)
  | marked found _ isLocked _ =>
      apply BookAt.present rfl
      refine (before.kept _ found).carry (silent_of rfl) ⟨rfl,rfl,rfl,rfl,rfl,rfl,rfl⟩
        (fun _ => not_terminal_locked isLocked) ?_ (fun resolved => by cases resolved)
      rintro (both | both | both) <;> cases both
  | refunded found _ refundable _ held _ counted _ =>
      apply BookAt.present rfl
      refine book_settled (before.kept _ found) (.inr refundable) held counted (fun _ => rfl) rfl ?_
      intro resolved
      rw [refundable] at resolved
      cases resolved
  | closed found _ _ complete _ =>
      exact ⟨fun _ => book_empty (before.kept _ found) complete,fun e found' => (by cases found')⟩
  | donated _ => exact before.unmoved (silent_of rfl) rfl rfl rfl
  | quiet _ => exact before.unmoved (silent_of rfl) rfl rfl rfl

end Solclash.EventBook
