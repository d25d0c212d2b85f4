import Solclash.Bookkeeping

-- A settled event: the only steps left pay one entitled entry each, whatever
-- the order, and everything but the closing counter stays as it is.
namespace Solclash.TerminalPhase
open EventProtocol EventBook EventPurse EventSchedule Lifetimes EntryProtocol Bookkeeping FloorShare

def entitled (e : Event) (entry : BetEntry) : Prop := e.status = .resolved → e.candidateOutcome = some entry.outcome
def due (e : Event) (entry : BetEntry) : Int := share e.payoutPool.val entry.stake.val (divisor e)

-- All that can happen to a settled event.
inductive TerminalStep (e : Event) (v : View) (l : Label) (next : View) : Prop where
  | settled (paid : payment l = some ⟨bettor,entry,due e entry⟩) (held : v.bets bettor = some entry)
      (right : entitled e entry) (counted : count.val = e.betsClosed.val + 1)
      (event : next.event = some {e with betsClosed := count}) (bets : next.bets = Function.update v.bets bettor none)
  | closed (closing : Closing l)
  | idle (silent : bettorOf l = none) (kept : ¬ Closing l) (event : next.event = v.event) (bets : next.bets = v.bets)

variable {key : EventKey} {bettor : Pubkey} {entry : BetEntry} {labels : List Label} {l : Label} {e : Event}
  {v next : View}

theorem not_early (found : v.event = some e) (terminal : Terminal e.status) (found' : v.event = some e')
    (early : ¬ Terminal e'.status) : False := by
  rw [found] at found'
  cases found'
  exact early terminal

theorem terminal_step (step : EventStep key v l next) (found : v.event = some e) (terminal : Terminal e.status) :
    TerminalStep e v l next := by
  cases step with
  | created vacant => rw [found] at vacant; cases vacant
  | placed found' _ opened => exact (not_early found terminal found' (not_terminal_open opened)).elim
  | cancelled found' _ opened => exact (not_early found terminal found' (not_terminal_open opened)).elim
  | locked found' _ opened => exact (not_early found terminal found' (not_terminal_open opened)).elim
  | oneSided found' _ opened => exact (not_early found terminal found' (not_terminal_open opened)).elim
  | resolved found' _ isLocked => exact (not_early found terminal found' (not_terminal_locked isLocked)).elim
  | challenged found' _ resolving => exact (not_early found terminal found' (not_terminal_resolving resolving)).elim
  | ambiguous found' _ resolving => exact (not_early found terminal found' (not_terminal_resolving resolving)).elim
  | decided found' _ resolving => exact (not_early found terminal found' (not_terminal_resolving resolving)).elim
  | claimed found' _ resolved _ held won _ counted =>
      rw [found] at found'; cases found'
      refine .settled ?_ held (fun _ => won) counted rfl rfl
      rw [due,divisor_won resolved won]; rfl
  | marked found' _ isLocked => exact (not_early found terminal found' (not_terminal_locked isLocked)).elim
  | refunded found' _ refundable _ held _ counted =>
      rw [found] at found'; cases found'
      refine .settled ?_ held (fun resolved => by rw [refundable] at resolved; cases resolved) counted rfl rfl
      rw [due,divisor_refund refundable]; rfl
  | closed => exact .closed rfl
  | donated => exact .idle rfl Bool.false_ne_true rfl rfl
  | quiet => exact .idle rfl Bool.false_ne_true rfl rfl

-- Where a settled event stands after some payments, compared with the moment
-- from which they are counted.
structure Settling (e : Event) (bets : Pubkey → Option BetEntry) (labels : List Label) (v : View) : Prop where
  event : ∃ count, v.event = some {e with betsClosed := count} ∧
    count.val + openCount v.bets = e.betsClosed.val + openCount bets
  entry : ∀ bettor, (v.bets bettor = bets bettor ∧ paymentsTo bettor labels = []) ∨
    ∃ entry, bets bettor = some entry ∧ entitled e entry ∧ v.bets bettor = none ∧
      paymentsTo bettor labels = [⟨bettor,entry,due e entry⟩]

theorem settling_start (found : v.event = some e) : Settling e v.bets [] v :=
  ⟨⟨e.betsClosed,found,rfl⟩,fun _ => .inl ⟨rfl,rfl⟩⟩

theorem settling_step (terminal : Terminal e.status) (before : Settling e bets labels v)
    (step : EventStep key v l next) (unclosed : ¬ Closing l) : Settling e bets (l :: labels) next := by
  obtain ⟨⟨count,found,balanced⟩,entries⟩ := before
  cases terminal_step step found terminal with
  | closed closing => exact False.elim (unclosed closing)
  | idle silent _ event same =>
      refine ⟨⟨count,event.trans found,by rw [same]; exact balanced⟩,?_⟩
      intro b
      rw [same,paymentsTo_silent (by rw [silent]; exact (Option.some_ne_none b).symm)]
      exact entries b
  | @settled owner entry more paid held right counted event same =>
      refine ⟨⟨more,event,?_⟩,?_⟩
      · have removed := openCount_removed held
        change more.val = count.val + 1 at counted
        rw [same]
        omega
      · intro b
        rw [same]
        by_cases mine : b = owner
        · subst mine
          rcases entries b with ⟨kept,unpaid⟩ | ⟨_,_,_,gone,_⟩
          · refine .inr ⟨entry,kept.symm.trans held,right,Function.update_self ..,?_⟩
            rw [paymentsTo_paid paid,unpaid]
            rfl
          · rw [held] at gone
            cases gone
        · rw [Function.update_of_ne mine,paymentsTo_silent ?_]
          · exact entries b
          · rw [paid_bettor paid]
            exact fun equal => mine (Option.some.inj equal).symm

theorem settling_path (terminal : Terminal e.status) (found : origin.event = some e)
    (path : Machine.Path (EventStep key) origin labels v) (unclosed : ∀ l ∈ labels, ¬ Closing l) :
    Settling e origin.bets labels v := by
  induction path with
  | nil => exact settling_start found
  | cons _ step ih =>
      have before := ih fun l member => unclosed l (List.mem_cons_of_mem _ member)
      exact settling_step terminal before step (unclosed _ (List.mem_cons_self ..))

-- Two orders that settle the same wallets end in the same payments and event.
theorem settling_agree (one : Settling e bets labels v) (two : Settling e bets labels' v')
    (same : ∀ bettor, paymentsTo bettor labels = [] ↔ paymentsTo bettor labels' = []) :
    (∀ bettor, paymentsTo bettor labels = paymentsTo bettor labels') ∧ v.event = v'.event ∧ v.bets = v'.bets := by
  have pointwise : ∀ bettor, paymentsTo bettor labels = paymentsTo bettor labels' ∧ v.bets bettor = v'.bets bettor := by
    intro bettor
    rcases one.entry bettor with ⟨kept,unpaid⟩ | ⟨entry,held,_,gone,paid⟩
    · rcases two.entry bettor with ⟨kept',unpaid'⟩ | ⟨_,_,_,_,paid'⟩
      · exact ⟨unpaid.trans unpaid'.symm,kept.trans kept'.symm⟩
      · have silent := (same bettor).mp unpaid
        rw [paid'] at silent
        cases silent
    · rcases two.entry bettor with ⟨_,unpaid'⟩ | ⟨entry',held',_,gone',paid'⟩
      · have silent := (same bettor).mpr unpaid'
        rw [paid] at silent
        cases silent
      · rw [held] at held'
        cases held'
        exact ⟨paid.trans paid'.symm,gone.trans gone'.symm⟩
  have bets : v.bets = v'.bets := funext fun bettor => (pointwise bettor).2
  refine ⟨fun bettor => (pointwise bettor).1,?_,bets⟩
  obtain ⟨count,found,balanced⟩ := one.event
  obtain ⟨count',found',balanced'⟩ := two.event
  rw [bets] at balanced
  have equal : count = count' := RangedInt.ext_val (by omega)
  rw [found,found',equal]

end Solclash.TerminalPhase
