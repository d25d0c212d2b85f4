import Solclash.TerminalPhase

-- Who is paid for a bet, how often and how much, over whole runs and for every
-- order in which the entries of a settled event come to be paid.
namespace Solclash.Payouts
open EventProtocol EventBook EventPurse EventSchedule Lifetimes EntryProtocol Bookkeeping
  TerminalPhase FloorShare

variable {key : EventKey} {bettor : Pubkey} {entry : BetEntry} {labels : List Label} {l : Label} {e : Event}
  {lamports middle after : Lamports} {s next : Chain}

theorem paid_out {amount : U64} (paid : transferFromPda lamports (.eventPda key) (.wallet bettor) amount = .ok middle)
    (closed : closeAccount middle (.betPda key bettor) (.wallet bettor) = .ok after) :
    (after (.wallet bettor)).val =
      (lamports (.wallet bettor)).val + amount.val + (lamports (.betPda key bettor)).val ∧
    (lamports (.eventPda key)).val - (after (.eventPda key)).val = amount.val := by
  have payout := transferFromPda_moved (by simp) paid
  have rent := closeAccount_moved (by simp) closed
  have entryRent := payout.others (.betPda key bettor) (by simp) (by simp)
  have escrow := rent.others (.eventPda key) (by simp) (by simp)
  have pays := payout.pays
  have gets := payout.gets
  have home := rent.gets
  rw [entryRent] at home
  rw [escrow]
  exact ⟨by omega,by omega⟩

theorem received_of {a b c d f : U64} {amount : Int} (wallet : a.val = b.val + amount + c.val)
    (escrow : d.val - f.val = amount) : a.val = b.val + (d.val - f.val) + c.val := by
  rw [escrow]; exact wallet

-- A payment ends in the bettor's own wallet, together with the entry's rent.
theorem payment_received (step : advance s action = some next)
    (paid : payment (label key ⟨s,action,next⟩) = some p) :
    (next.lamports (.wallet p.bettor)).val =
      (s.lamports (.wallet p.bettor)).val + p.amount + (s.lamports (.betPda key p.bettor)).val := by
  cases action with
  | transfer source target amount =>
      simp only [label] at paid
      split at paid <;> cases paid
  | invoke sys instruction =>
      obtain ⟨_,⟨moved,ran,rfl⟩ | ⟨e,ran,rfl⟩⟩ := advance_invoke step
      · simp only [label] at paid
        split at paid
        · rename_i own
          subst own
          simp only [ran] at paid
          cases instruction with
          | cancelBet ctx =>
              obtain ⟨_,entry,_,_,_,_,_,_,held,_,_,_,_,transferred,closed,rfl⟩ := cancelBet_parts ran
              obtain ⟨wallet,escrow⟩ := paid_out transferred closed
              simp only [committedLabel,Instruction.event,held,payment] at paid
              cases paid
              exact received_of wallet escrow
          | claim ctx =>
              obtain ⟨_,entry,_,_,_,_,_,held,_,_,_,_,_,transferred,closed,rfl⟩ := claim_parts ran
              obtain ⟨wallet,escrow⟩ := paid_out transferred closed
              simp only [committedLabel,Instruction.event,held,payment] at paid
              cases paid
              exact received_of wallet escrow
          | claimRefund ctx =>
              obtain ⟨_,entry,_,_,_,_,_,held,_,_,_,_,transferred,closed,rfl⟩ := claimRefund_parts ran
              obtain ⟨wallet,escrow⟩ := paid_out transferred closed
              simp only [committedLabel,Instruction.event,held,payment] at paid
              cases paid
              exact received_of wallet escrow
          | _ => cases paid
        · cases paid
      · simp only [label,ran] at paid
        split at paid <;> cases paid

-- What each of the three instructions pays, from the event as it finds it.
inductive Due (e : Event) (p : Payment) : Label → Prop where
  | cancelled (opened : e.status = .open) (amount : p.amount = p.entry.stake.val) :
      Due e p (.cancelled now b x paid)
  | claimed (resolved : e.status = .resolved) (won : e.candidateOutcome = some p.entry.outcome)
      (amount : p.amount = e.payoutPool.val * p.entry.stake.val / (e.side p.entry.outcome).val) :
      Due e p (.claimed now b x paid)
  | refunded (refundable : e.status = .refundable)
      (amount : p.amount = e.payoutPool.val * p.entry.stake.val / e.pot.val) :
      Due e p (.refunded now b x paid)

theorem payment_due {v v' : View} (step : EventStep key v l v') (paid : payment l = some p) :
    ∃ e, v.event = some e ∧ v.bets p.bettor = some p.entry ∧ Due e p l := by
  cases step with
  | cancelled found _ opened held => cases paid; exact ⟨_,found,held,.cancelled opened rfl⟩
  | claimed found _ resolved _ held won => cases paid; exact ⟨_,found,held,.claimed resolved won rfl⟩
  | refunded found _ refundable _ held => cases paid; exact ⟨_,found,held,.refunded refundable rfl⟩
  | _ => cases paid

-- However long the wallet leaves a bet alone, it is paid for it at most once.
def OncePerBet (key : EventKey) (history : List Step) : Prop :=
  ∀ {newer own past : List Step} {t : Step} {now bettor entry}, history = newer ++ (own ++ t :: past) →
    label key t = .placed now bettor entry → (∀ l ∈ labelsAt key own, places bettor l = false) →
    paymentsTo bettor (labelsAt key own) = [] ∨
      ∃ amount, paymentsTo bettor (labelsAt key own) = [⟨bettor,entry,amount⟩]

-- Each payment belongs to the bettor's latest bet and goes to that bettor.
structure Rightful (key : EventKey) (past : List Step) (t : Step) (p : Payment) : Prop where
  bet : Placed (sinceCreation (labelsAt key past)) p.bettor p.entry
  owner : p.entry.bettor = p.bettor
  received : (t.after.lamports (.wallet p.bettor)).val =
    (t.before.lamports (.wallet p.bettor)).val + p.amount + (t.before.lamports (.betPda key p.bettor)).val
  amount : ∃ e, t.before.events key = some e ∧ Due e p (label key t)

-- What a settled event fixes for the rest of its life.
structure Fixed (key : EventKey) (s : Chain) (e : Event) : Prop where
  values : ∀ {later s'}, Run s later s' → (∀ l ∈ labelsAt key later, ¬ Closing l) →
    ∃ count, s'.events key = some {e with betsClosed := count}
  losers : ∀ {later s' bettor entry}, Run s later s' → e.status = .resolved → s.bets key bettor = some entry →
    e.candidateOutcome ≠ some entry.outcome → paymentsTo bettor (labelsAt key later) = []
  orders : ∀ {later later' s' s''}, Run s later s' → Run s later' s'' →
    (∀ l ∈ labelsAt key later, ¬ Closing l) → (∀ l ∈ labelsAt key later', ¬ Closing l) →
    (∀ bettor, paymentsTo bettor (labelsAt key later) = [] ↔ paymentsTo bettor (labelsAt key later') = []) →
    (∀ bettor, paymentsTo bettor (labelsAt key later) = paymentsTo bettor (labelsAt key later')) ∧
      s'.events key = s''.events key

theorem once_per_bet (run : Run origin history s) : OncePerBet key history := by
  intro newer own past t now bettor entry split placed noRebet
  rw [split] at run
  obtain ⟨middle,first,_⟩ := run.split
  obtain ⟨_,taken,rest⟩ := first.around
  have arrived : t.after.bets key bettor = some entry := by
    have step := entry_step (advance_projects key taken) bettor
    rw [placed] at step
    generalize view key t.before = v at step
    generalize found : (view key t.after).bets bettor = held at step
    generalize before : v.bets bettor = old at step
    cases step with
    | placed => exact found
    | paid paid => cases paid
    | other silent => exact False.elim (silent rfl)
  have path : Machine.Path (EntryStep bettor) (t.after.bets key bettor) _ _ := entry_run rest bettor
  rw [arrived] at path
  rcases paid_at_most_once path noRebet with ⟨unpaid,_⟩ | ⟨amount,once,_⟩
  · exact .inl unpaid
  · exact .inr ⟨amount,once⟩

theorem rightful (genesis : Genesis origin) (run : Run origin (newer ++ t :: past) s)
    (paid : payment (label key t) = some p) : Rightful key past t p := by
  obtain ⟨prior,taken,_⟩ := run.around
  obtain ⟨e,found,held,owed⟩ := payment_due (advance_projects key taken) paid
  have book := (sound_reachable key genesis prior).book.kept e found
  exact {
    bet := origins_run genesis prior key p.bettor p.entry held
    owner := (book.entries p.bettor p.entry held).bettor
    received := payment_received taken paid
    amount := ⟨e,found,owed⟩ }

-- A losing entry stays open, and with it the event: closing counts it too.
theorem losing_kept (sound : Sound key earlier (view key s)) (found : s.events key = some e)
    (resolved : e.status = .resolved) (held : s.bets key bettor = some entry)
    (lost : e.candidateOutcome ≠ some entry.outcome) (run : Run s later s') :
    (∀ l ∈ labelsAt key later, ¬ Closing l) ∧ s'.bets key bettor = some entry ∧
      paymentsTo bettor (labelsAt key later) = [] := by
  have standing : ∀ {later s'}, Run s later s' → (∀ l ∈ labelsAt key later, ¬ Closing l) →
      s'.bets key bettor = some entry ∧ paymentsTo bettor (labelsAt key later) = [] := by
    intro later s' run unclosed
    have settling := settling_path (.inl resolved) found (event_run key run) unclosed
    rcases settling.entry bettor with ⟨kept,unpaid⟩ | ⟨entry',held',right,_,_⟩
    · exact ⟨kept.trans held,unpaid⟩
    · have same : s.bets key bettor = some entry' := held'
      rw [held] at same
      cases same
      exact False.elim (lost (right resolved))
  have unclosed : ∀ l ∈ labelsAt key later, ¬ Closing l := by
    induction run with
    | nil => intro l member; cases member
    | cons prior step ih =>
        intro l member closing
        rcases List.mem_cons.mp member with rfl | old
        · obtain ⟨e',found',complete,_⟩ := closing_vacant (advance_projects key step) closing
          have book := (sound_run sound prior).book.kept e' found'
          have gone : _ = none := book_empty book complete bettor
          rw [show (view key _).bets bettor = some entry from (standing prior ih).1] at gone
          cases gone
        · exact ih l old closing
  exact ⟨unclosed,standing run unclosed⟩

theorem fixed (sound : Sound key earlier (view key s)) (found : s.events key = some e) (terminal : Terminal e.status) :
    Fixed key s e where
  values := by
    intro later s' run unclosed
    obtain ⟨count,event,_⟩ := (settling_path terminal found (event_run key run) unclosed).event
    exact ⟨count,event⟩
  losers := by
    intro later s' bettor entry run resolved held lost
    exact (losing_kept sound found resolved held lost run).2.2
  orders := by
    intro later later' s' s'' run run' unclosed unclosed' same
    have one := settling_path terminal found (event_run key run) unclosed
    have two := settling_path terminal found (event_run key run') unclosed'
    obtain ⟨payments,event,_⟩ := settling_agree one two same
    exact ⟨payments,event⟩

theorem bets_paid_once (genesis : Genesis origin) (run : Run origin history s) (key : EventKey) :
    OncePerBet key history ∧
      (∀ {newer past : List Step} {t : Step} {p}, history = newer ++ t :: past →
        payment (label key t) = some p → Rightful key past t p) ∧
      ∀ e, s.events key = some e → Terminal e.status → Fixed key s e := by
  refine ⟨once_per_bet run,?_,?_⟩
  · intro newer past t p split paid
    rw [split] at run
    exact rightful genesis run paid
  · intro e found terminal
    exact fixed (sound_reachable key genesis run) found terminal

section sample
open SampleMarket

-- The whole pool of a market whose only winner collects.
def collected : Payment := ⟨alice,⟨market,alice,outcomeYes,.lit 20000000,.lit 254⟩,43353000⟩

theorem bets_paid_once_sample : OncePerBet market (historyOf settling) ∧
    Rightful market (historyOf deciding) (stepOf deciding (collect alice)) collected ∧
    ∃ e, (stateOf settling).events market = some e ∧ Fixed market (stateOf settling) e := by
  have run : Run opening (historyOf settling) (stateOf settling) :=
    play_run (rfl : (play settling).isSome = true)
  obtain ⟨once,rights,fixes⟩ := bets_paid_once opening_genesis run market
  exact ⟨once,@rights [] _ _ _ rfl rfl,_,rfl,fixes _ rfl (.inl rfl)⟩
end sample

end Solclash.Payouts
