import Solclash.EventBook

-- The lamports of an event's PDA against what the event still owes, and the
-- payout pool against what its settled entries drew from it.
namespace Solclash.EventPurse
open EventProtocol EventBook FloorShare

-- The stake that one lamport of the payout pool is divided by, and how much
-- of it has been settled.
def divisor (e : Event) : Int :=
  match e.status,e.candidateOutcome with
  | .resolved,some winner => (e.side winner).val
  | _,_ => e.pot.val
def settledPart (e : Event) (labels : List Label) : Int :=
  match e.status,e.candidateOutcome with
  | .resolved,some winner => settledStake winner labels
  | _,_ => settledStake outcomeYes labels + settledStake outcomeNo labels

def liability (e : Event) (labels : List Label) : Int :=
  match e.status with
  | .open | .locked => e.pot.val
  | .resolving => e.pot.val - resolverRewardDev.val
  | .resolved | .refundable => e.payoutPool.val - paidTotal labels

-- What the PDA held when the current life of the event began.
def birthEscrow : List Label → Int
  | [] => 0
  | .created escrow :: _ => escrow.val
  | _ :: labels => birthEscrow labels

structure Purse (base : Int) (labels : List Label) (e : Event) (escrow : Int) : Prop where
  rent : e.rentExemptMinimum.val ≤ base
  balance : escrow = base + donatedTotal labels + liability e labels
  winner : e.status = .resolving ∨ e.status = .resolved →
    ∀ outcome, e.candidateOutcome = some outcome → Known outcome
  decided : e.status = .resolved → ∃ outcome, e.candidateOutcome = some outcome
  drawn : Terminal e.status →
    Drawn e.payoutPool.val (divisor e) (settledPart e labels) (paidTotal labels) (settledCount labels)
  within : Terminal e.status → paidTotal labels ≤ e.payoutPool.val

def PurseAt (labels : List Label) (v : View) : Prop :=
  ∀ e, v.event = some e → Purse (birthEscrow labels) (sinceCreation labels) e v.escrow.val

variable {key : EventKey} {labels : List Label} {v next : View} {e : Event} {bets : Pubkey → Option BetEntry}
  {bettor : Pubkey} {entry : BetEntry} {l : Label}

theorem divisor_won (resolved : e.status = .resolved) (won : e.candidateOutcome = some winner) :
    divisor e = (e.side winner).val := by simp only [divisor,resolved,won]
theorem divisor_refund (refundable : e.status = .refundable) : divisor e = e.pot.val := by
  simp only [divisor,refundable]
theorem settledPart_won (resolved : e.status = .resolved) (won : e.candidateOutcome = some winner) :
    settledPart e labels = settledStake winner labels := by simp only [settledPart,resolved,won]
theorem settledPart_refund (refundable : e.status = .refundable) :
    settledPart e labels = settledStake outcomeYes labels + settledStake outcomeNo labels := by
  simp only [settledPart,refundable]

theorem settledPart_zero (unsettled : ∀ outcome, settledStake outcome labels = 0) : settledPart e labels = 0 := by
  unfold settledPart
  split
  · exact unsettled _
  · rw [unsettled,unsettled]; rfl

theorem donated_same (gift : Label.donation l = 0) : donatedTotal (l :: labels) = donatedTotal labels := by
  simp only [donatedTotal,tally_cons,gift,Int.zero_add]

theorem openStake_nonneg (outcome : U8) : 0 ≤ openStake outcome bets :=
  KeyedTotal.total_nonneg fun _ entry _ => sideWeight_nonneg outcome entry

theorem openStake_held (held : bets bettor = some entry) : entry.stake.val ≤ openStake entry.outcome bets := by
  have rest : 0 ≤ openStake entry.outcome (Function.update bets bettor none) := openStake_nonneg entry.outcome
  rw [openStake_removed held,sideWeight_same rfl] at rest
  omega

-- An open entry that may settle is still missing from the settled part.
theorem room_won (book : Book key labels e bets) (resolved : e.status = .resolved)
    (held : bets bettor = some entry) (won : e.candidateOutcome = some entry.outcome) :
    settledPart e labels + entry.stake.val ≤ divisor e := by
  have total := book.sides entry.outcome (book.entries bettor entry held).known
  have part := openStake_held held
  rw [divisor_won resolved won,settledPart_won resolved won]
  omega

theorem room_refund (book : Book key labels e bets) (refundable : e.status = .refundable)
    (held : bets bettor = some entry) : settledPart e labels + entry.stake.val ≤ divisor e := by
  have yes := book.sides outcomeYes (.inr rfl)
  have no := book.sides outcomeNo (.inl rfl)
  have pot := book.pot
  have part := openStake_held held
  have yesRest : 0 ≤ openStake outcomeYes bets := openStake_nonneg outcomeYes
  have noRest : 0 ≤ openStake outcomeNo bets := openStake_nonneg outcomeNo
  rw [side_yes] at yes
  rw [side_no] at no
  rw [divisor_refund refundable,settledPart_refund refundable]
  rcases (book.entries bettor entry held).known with same | same <;> rw [same] at part <;> omega

theorem settledStake_grown (stake : ∀ outcome, Label.settles outcome l = sideWeight outcome entry) (outcome : U8) :
    settledStake outcome (l :: labels) = settledStake outcome labels + sideWeight outcome entry := by
  rw [settledStake,tally_cons,stake,Int.add_comm]; rfl

theorem grown_won (stake : ∀ outcome, Label.settles outcome l = sideWeight outcome entry)
    (resolved : e.status = .resolved) (won : e.candidateOutcome = some entry.outcome) :
    settledPart e (l :: labels) = settledPart e labels + entry.stake.val := by
  rw [settledPart_won resolved won,settledPart_won resolved won,settledStake_grown stake,sideWeight_same rfl]

theorem grown_refund (stake : ∀ outcome, Label.settles outcome l = sideWeight outcome entry)
    (refundable : e.status = .refundable) (known : Known entry.outcome) :
    settledPart e (l :: labels) = settledPart e labels + entry.stake.val := by
  rw [settledPart_refund refundable,settledPart_refund refundable,settledStake_grown stake,settledStake_grown stake]
  rcases known with same | same
  · rw [sideWeight_same same,sideWeight_other (same ▸ outcomes_differ)]
    omega
  · rw [sideWeight_same same,sideWeight_other (same ▸ outcomes_differ.symm)]
    omega

theorem divisor_positive (book : Book key labels e bets) (resolved : e.status = .resolved)
    (won : e.candidateOutcome = some winner) (known : Known winner) : 0 < divisor e := by
  obtain ⟨yes,no⟩ := book.twoSided (.inr (.inr resolved))
  have least : 0 < minStakeLamportsDev.val := by decide
  rw [divisor_won resolved won]
  rcases known with rfl | rfl
  · rw [side_no]; omega
  · rw [side_yes]; omega

-- One settlement: a floored share leaves the pool and the PDA together.
theorem purse_settled (purse : Purse base labels e escrow) (terminal : Terminal e.status)
    (positive : 0 < divisor e) (room : settledPart e labels + entry.stake.val ≤ divisor e)
    (grown : settledPart e (l :: labels) = settledPart e labels + entry.stake.val)
    (one : Label.settlement l = 1) (gift : Label.donation l = 0)
    (paid : Label.paidOut l = share e.payoutPool.val entry.stake.val (divisor e)) {count : U32} :
    Purse base (l :: labels) {e with betsClosed := count}
      (escrow - share e.payoutPool.val entry.stake.val (divisor e)) := by
  have pool := e.payoutPool.lower
  have drawn := purse.drawn terminal
  have total : paidTotal (l :: labels) = paidTotal labels + share e.payoutPool.val entry.stake.val (divisor e) := by
    rw [paidTotal,tally_cons,paid,Int.add_comm]; rfl
  have number : settledCount (l :: labels) = settledCount labels + 1 := by
    rw [settledCount,tally_cons,one,Int.add_comm]; rfl
  have owed : liability {e with betsClosed := count} (l :: labels) =
      liability e labels - share e.payoutPool.val entry.stake.val (divisor e) := by
    rcases terminal with status | status <;> simp only [liability,status,total] <;> omega
  exact {
    rent := purse.rent
    balance := by
      have before := purse.balance
      rw [donated_same gift,owed]
      omega
    winner := purse.winner
    decided := purse.decided
    drawn := by
      intro _
      have same : settledPart {e with betsClosed := count} (l :: labels) = settledPart e labels + entry.stake.val :=
        grown
      rw [total,number,same]
      exact drawn.draw positive entry.stake.val
    within := by
      intro _
      rw [total]
      exact drawn.affords positive pool room }

theorem settledPart_silent (silent : Silent l) : settledPart e (l :: labels) = settledPart e labels := by
  unfold settledPart
  split <;> simp only [silent.settledStake]

theorem liability_silent (silent : Silent l) : liability e (l :: labels) = liability e labels := by
  unfold liability
  rw [silent.paidTotal]

theorem purse_unmoved (purse : Purse base labels e escrow) (silent : Silent l) :
    Purse base (l :: labels) e (escrow + Label.donation l) where
  rent := purse.rent
  balance := by
    have before := purse.balance
    have gifts : donatedTotal (l :: labels) = Label.donation l + donatedTotal labels := tally_cons ..
    rw [liability_silent silent,gifts]
    omega
  winner := purse.winner
  decided := purse.decided
  drawn := by
    rw [settledPart_silent silent,silent.paidTotal,silent.settledCount]
    exact purse.drawn
  within := by
    rw [silent.paidTotal]
    exact purse.within

-- The first moment of a terminal status: nothing has been drawn yet.
theorem drawn_start (book : Book key labels e bets) (early : ¬ Terminal e.status) (silent : Silent l) (e' : Event) :
    Drawn e'.payoutPool.val (divisor e') (settledPart e' (l :: labels)) (paidTotal (l :: labels))
      (settledCount (l :: labels)) ∧ paidTotal (l :: labels) = 0 := by
  obtain ⟨nobody,nothing,unpaid⟩ := book.unsettled early
  have zero : settledPart e' (l :: labels) = 0 :=
    settledPart_zero fun outcome => by rw [silent.settledStake]; exact nothing outcome
  rw [zero,silent.paidTotal,silent.settledCount,unpaid,nobody]
  exact ⟨.start _ _,rfl⟩

theorem PurseAt.follow (found : next.event = some e) (lives : sinceCreation (l :: labels) = l :: sinceCreation labels)
    (birth : birthEscrow (l :: labels) = birthEscrow labels) (escrow : next.escrow.val = amount)
    (purse : Purse (birthEscrow labels) (l :: sinceCreation labels) e amount) : PurseAt (l :: labels) next := by
  intro e' found'
  rw [found] at found'
  cases found'
  rw [lives,birth,escrow]
  exact purse

-- A step before the terminal statuses: only the balance has to be shown.
theorem purse_early (rent : e.rentExemptMinimum.val ≤ base) (early : ¬ Terminal e.status)
    (balance : escrow = base + donatedTotal labels + liability e labels)
    (winner : e.status = .resolving → ∀ outcome, e.candidateOutcome = some outcome → Known outcome) :
    Purse base labels e escrow where
  rent := rent
  balance := balance
  winner := by
    rintro (resolving | resolved)
    · exact winner resolving
    · exact False.elim (early (.inl resolved))
  decided := fun resolved => False.elim (early (.inl resolved))
  drawn := fun terminal => False.elim (early terminal)
  within := fun terminal => False.elim (early terminal)

theorem purse_booked (purse : Purse base labels e escrow) (opened : e.status = .open) (gift : Label.donation l = 0)
    (moved : after = escrow + (pot.val - e.pot.val)) :
    Purse base (l :: labels) (e.withBook outcome pot side count) after := by
  have balance := purse.balance
  simp only [liability,opened] at balance
  refine purse_early ?_ ?_ ?_ ?_
  · rw [Event.withBook_rentExemptMinimum]; exact purse.rent
  · rw [Event.withBook_status]; exact not_terminal_open opened
  · simp only [liability,Event.withBook_status,opened,Event.withBook_pot]
    rw [donated_same gift]
    omega
  · intro resolving
    rw [Event.withBook_status,opened] at resolving
    cases resolving

theorem purse_ended (book : Book key labels e bets) (early : ¬ Terminal e.status) (silent : Silent l)
    (gift : Label.donation l = 0) {e' : Event} (rent : e'.rentExemptMinimum.val ≤ base)
    (terminal : Terminal e'.status) (balance : escrow = base + donatedTotal labels + e'.payoutPool.val)
    (decided : e'.status = .resolved → ∃ outcome, e'.candidateOutcome = some outcome ∧ Known outcome) :
    Purse base (l :: labels) e' escrow := by
  obtain ⟨drawn,unpaid⟩ := drawn_start book early silent e'
  exact {
    rent := rent
    balance := by
      rw [donated_same gift]
      rcases terminal with status | status <;> simp only [liability,status,unpaid] <;> omega
    winner := by
      intro status outcome chosen
      rcases status with resolving | resolved
      · rw [resolving] at terminal
        rcases terminal with absurd | absurd <;> cases absurd
      · obtain ⟨winner,same,known⟩ := decided resolved
        rw [same] at chosen
        cases chosen
        exact known
    decided := by
      intro resolved
      obtain ⟨winner,same,_⟩ := decided resolved
      exact ⟨winner,same⟩
    drawn := fun _ => drawn
    within := by
      intro _
      rw [unpaid]
      exact e'.payoutPool.lower }

theorem known_answer (decided : resolveConfidenceBand condition priceE8 confE8 thresholdE8 = .ok answer)
    (chosen : answer = some outcome) : Known outcome :=
  bandAnswer_known ((resolveConfidenceBand_parts decided).2.symm.trans chosen)

theorem purse_step (book : BookAt key labels v) (before : PurseAt labels v) (step : EventStep key v l next) :
    PurseAt (l :: labels) next := by
  cases step with
  | created _ _ fresh funded =>
      intro e found
      cases found
      refine purse_early funded (not_terminal_open fresh.status) ?_ (fun resolving => ?_)
      · simp only [liability,fresh.status,fresh.pot,birthEscrow,sinceCreation,donatedTotal,tally_nil]
        omega
      · rw [fresh.status] at resolving
        cases resolving
  | placed found _ opened _ _ _ _ _ _ sum _ _ _ received =>
      refine PurseAt.follow rfl rfl rfl received ?_
      exact purse_booked (before _ found) opened rfl (by omega)
  | cancelled found _ opened _ difference _ _ returned =>
      refine PurseAt.follow rfl rfl rfl returned ?_
      exact purse_booked (before _ found) opened rfl (by omega)
  | locked found _ opened _ _ _ =>
      refine PurseAt.follow rfl rfl rfl rfl ?_
      have purse := before _ found
      have balance := purse.balance
      simp only [liability,opened] at balance
      refine purse_early purse.rent (not_terminal_locked rfl) ?_ (fun resolving => (by cases resolving))
      rw [donated_same rfl]
      exact balance
  | oneSided found _ opened _ _ =>
      refine PurseAt.follow rfl rfl rfl rfl ?_
      have purse := before _ found
      have balance := purse.balance
      simp only [liability,opened] at balance
      exact purse_ended (book.kept _ found) (not_terminal_open opened) (silent_of rfl) rfl purse.rent
        (.inr rfl) balance (fun resolved => (by cases resolved))
  | resolved found _ isLocked _ _ decided _ rewarded =>
      refine PurseAt.follow rfl rfl rfl rewarded ?_
      have purse := before _ found
      have balance := purse.balance
      simp only [liability,isLocked] at balance
      refine purse_early purse.rent (not_terminal_resolving rfl) ?_ (fun _ outcome chosen => known_answer decided chosen)
      rw [donated_same rfl,balance]
      exact Int.add_sub_assoc ..
  | challenged found _ resolving _ _ _ decided =>
      refine PurseAt.follow rfl rfl rfl rfl ?_
      have purse := before _ found
      have balance := purse.balance
      simp only [liability,resolving] at balance
      refine purse_early purse.rent (not_terminal_resolving resolving) ?_
        (fun _ outcome chosen => known_answer decided chosen)
      rw [donated_same rfl,balance]
      simp only [liability,Event.withCandidate,resolving]
  | ambiguous found _ resolving _ _ difference =>
      refine PurseAt.follow rfl rfl rfl rfl ?_
      have purse := before _ found
      have balance := purse.balance
      simp only [liability,resolving] at balance
      refine purse_ended (book.kept _ found) (not_terminal_resolving resolving) (silent_of rfl) rfl purse.rent
        (.inr rfl) ?_ (fun resolved => (by cases resolved))
      rw [balance,← difference]
  | decided found _ resolving _ outcome charged difference paid =>
      refine PurseAt.follow rfl rfl rfl paid ?_
      have purse := before _ found
      have balance := purse.balance
      simp only [liability,resolving] at balance
      refine purse_ended (book.kept _ found) (not_terminal_resolving resolving) (silent_of rfl) rfl purse.rent
        (.inl rfl) ?_ (fun _ => ⟨_,outcome,purse.winner (.inl resolving) _ outcome⟩)
      rw [balance,difference]
      omega
  | claimed found _ resolved _ held won _ _ paid =>
      have purse := before _ found
      have kept := book.kept _ found
      have divided := divisor_won resolved won
      rw [← divided] at paid ⊢
      refine PurseAt.follow rfl rfl rfl paid ?_
      exact purse_settled purse (.inl resolved) (divisor_positive kept resolved won (purse.winner (.inr resolved) _ won))
        (room_won kept resolved held won) (grown_won (fun _ => rfl) resolved won) rfl rfl rfl
  | marked found _ isLocked _ =>
      refine PurseAt.follow rfl rfl rfl rfl ?_
      have purse := before _ found
      have balance := purse.balance
      simp only [liability,isLocked] at balance
      exact purse_ended (book.kept _ found) (not_terminal_locked isLocked) (silent_of rfl) rfl purse.rent
        (.inr rfl) balance (fun resolved => (by cases resolved))
  | refunded found _ refundable _ held staked _ paid =>
      have purse := before _ found
      have kept := book.kept _ found
      have divided := divisor_refund refundable
      have positive := lt_of_le_of_ne (RangedInt.lower _) (Ne.symm staked)
      rw [← divided] at paid positive ⊢
      refine PurseAt.follow rfl rfl rfl paid ?_
      exact purse_settled purse (.inr refundable) positive (room_refund kept refundable held)
        (grown_refund (fun _ => rfl) refundable (kept.entries _ _ held).known) rfl rfl rfl
  | closed _ _ _ _ _ => intro e found; cases found
  | donated received =>
      intro e found
      rw [received]
      exact purse_unmoved (l:=.donated _) (before e found) (silent_of rfl)
  | quiet _ =>
      intro e found
      have kept := purse_unmoved (l:=.quiet) (before e found) (silent_of rfl)
      exact (Int.add_zero v.escrow.val) ▸ kept

end Solclash.EventPurse
