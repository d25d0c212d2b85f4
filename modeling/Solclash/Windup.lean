import Solclash.Independence
import Solclash.Journal

-- Winding a whole market up without a price: everybody collects what he is
-- owed and, when nobody has lost, the event is closed. With the states from
-- which that cannot be done, and what is left of an event with losers.
namespace Solclash.Windup
open EventProtocol EventBook EventPurse Lifetimes EntryProtocol Bookkeeping TerminalPhase Refusals Exits Recovery
  Independence

-- What brings a market to its end; each bettor moves his own entry only.
inductive Winds (key : EventKey) : Instruction → Prop where
  | cancel : Winds key (.cancelBet ⟨bettor,key⟩)
  | lock : Winds key (.lockEvent ⟨caller,key⟩)
  | finalize : Winds key (.finalizeResolution ⟨caller,key,feeWalletDev,true⟩)
  | mark : Winds key (.markRefundable ⟨caller,key⟩)
  | claim : Winds key (.claim ⟨bettor,key⟩)
  | refund : Winds key (.claimRefund ⟨bettor,key⟩)
  | close : Winds key (.closeEvent ⟨caller,key,recipient⟩)

def Winding (reserved : Pubkey → Prop) (key : EventKey) : Action → Prop
  | .invoke _ instruction => Winds key instruction ∧ Passable reserved instruction
  | .transfer .. => False

def WoundUp (key : EventKey) (s : Chain) : Prop :=
  (s.events key = none ∧ ∀ bettor, s.bets key bettor = none) ∨
    ∃ e, s.events key = some e ∧ e.status = .resolved ∧ AllPaid e (s.bets key)

-- How far the event is from its end, one more for each entry that is open.
def phase : Option Event → Nat
  | none => 0
  | some e =>
    match e.status with
    | .open => 3
    | .locked | .resolving => 2
    | .resolved | .refundable => 1
def remaining (key : EventKey) (s : Chain) : Nat := phase (s.events key) + (openCount (s.bets key)).toNat

-- What the event waits for can still come about without a price.
def CanEnd (reserved : Pubkey → Prop) (e : Event) : Prop := Timely e ∧ Payable reserved e

structure Ready (reserved : Pubkey → Prop) (key : EventKey) (s : Chain) : Prop where
  reached : Reachable s
  ends : ∀ e, s.events key = some e → CanEnd reserved e

def Forward (reserved : Pubkey → Prop) (key : EventKey) (s : Chain) : Prop :=
  ∃ action next, Winding reserved key action ∧ advance s action = some next ∧ Ready reserved key next ∧
    remaining key next < remaining key s

variable {reserved : Pubkey → Prop} {key : EventKey} {bettor : Pubkey} {entry : BetEntry} {e e' : Event} {s s' after : Chain}
  {instruction : Instruction} {labels : List Label} {bets : Pubkey → Option BetEntry}

theorem phase_terminal (terminal : Terminal e.status) : phase (some e) = 1 := by
  rcases terminal with status | status <;> simp only [phase,status]
theorem phase_early (early : ¬ Terminal e.status) : 1 < phase (some e) := by
  cases status : e.status with
  | resolved => exact (early (.inl status)).elim
  | refundable => exact (early (.inr status)).elim
  | _ => simp [phase,status]

theorem canEnd_terminal (terminal : Terminal e.status) : CanEnd reserved e :=
  ⟨fun isLocked => (not_terminal_locked isLocked terminal).elim,
    fun resolving => (not_terminal_resolving resolving terminal).elim⟩
theorem canEnd_open (opened : e.status = .open) : CanEnd reserved e :=
  ⟨fun isLocked => (by cases opened.symm.trans isLocked),fun resolving => (by cases opened.symm.trans resolving)⟩

theorem waited (s : Chain) (ran : execute endOfTime instruction s = .ok after) :
    advance s (.invoke endOfTime instruction) = some {after with clock := endOfTime.unixTimestamp} := by
  simp only [advance,before_endOfTime s,if_true,ran]

theorem taken (step : advance s action = some s') : Run s [⟨s,action,s'⟩] s' := .cons .nil step

theorem forward_of (ready : Ready reserved key s) (winds : Winds key instruction) (passable : Passable reserved instruction)
    (ran : execute endOfTime instruction s = .ok after) (ends : ∀ e, after.events key = some e → CanEnd reserved e)
    (fewer : remaining key after < remaining key s) : Forward reserved key s :=
  ⟨.invoke endOfTime instruction,_,⟨winds,passable⟩,waited s ran,
    ⟨ready.reached.extend (taken (waited s ran)),ends⟩,fewer⟩

-- The step that ends the event leaves all its entries to be settled.
theorem forward_ended (ready : Ready reserved key s) (found : s.events key = some e) (early : ¬ Terminal e.status)
    (winds : Winds key instruction) (passable : Passable reserved instruction)
    (ran : execute endOfTime instruction s = .ok after)
    (ended : (∃ e', after.events key = some e' ∧ Terminal e'.status) ∧ after.bets = s.bets) : Forward reserved key s := by
  obtain ⟨⟨e',found',terminal⟩,same⟩ := ended
  refine forward_of ready winds passable ran ?_ ?_
  · intro e₁ found₁
    cases found'.symm.trans found₁
    exact canEnd_terminal terminal
  · have before := phase_early early
    rw [remaining,remaining,found,found',phase_terminal terminal,same]
    omega

theorem openCount_fewer (held : bets bettor = some entry) :
    (openCount (Function.update bets bettor none)).toNat < (openCount bets).toNat := by
  have one := openCount_held held
  rw [openCount_removed held]
  omega

theorem forward_cancelled (ready : Ready reserved key s) (found : s.events key = some e) (opened : e.status = .open)
    (held : s.bets key bettor = some entry) : Forward reserved key s := by
  obtain ⟨after,ran⟩ := cancelBet_possible ready.reached found held opened
  obtain ⟨e₁,entry₁,pot,side,count,_,_,loaded,_,_,_,_,_,_,_,rfl⟩ := cancelBet_parts ran
  have same : e = e₁ := Option.some.inj (found.symm.trans (loadEvent_parts.mp loaded).1)
  subst same
  have changed : ∀ (s : Chain) (e : Event), ((s.putEvent key (some e)).putBet key bettor none).events key = some e :=
    fun s e => Function.update_self ..
  have removed : ∀ s e, ((Chain.putEvent s key e).putBet key bettor none).bets key = Function.update (s.bets key) bettor none :=
    fun s e => Function.update_self ..
  apply forward_of ready .cancel trivial ran
  · intro e' found'
    rw [changed] at found'
    cases found'
    exact canEnd_open (by rw [Event.withBook_status]; exact opened)
  · have less := openCount_fewer held
    rw [remaining,remaining,changed,removed,found]
    simp only [phase,Event.withBook_status,opened]
    exact Nat.add_lt_add_left less _

theorem paid_open (paid : payment l = some p) : ¬ Closing l := by
  intro closing
  cases l with
  | closed => cases paid
  | _ => cases closing

-- A payment after the end.
theorem forward_settled (ready : Ready reserved key s) (found : s.events key = some e) (terminal : Terminal e.status)
    (held : s.bets key bettor = some entry) (right : entitled e entry) : Forward reserved key s := by
  have later : s.clock.val ≤ endOfTime.unixTimestamp.val := s.clock.upper
  obtain ⟨instruction,after,settles,ran⟩ := settle_possible ready.reached later (by decide) found terminal held right
  have winds : Winds key instruction := by
    rcases settles with rfl | rfl | rfl
    · exact .cancel
    · exact .claim
    · exact .refund
  have passable : Passable reserved instruction := by
    rcases settles with rfl | rfl | rfl <;> exact trivial
  have step := waited s ran
  obtain ⟨amount,payout⟩ := settles_payout settles ran held
  have own := terminal_step (advance_projects key step) found terminal
  cases own with
  | closed closing => exact (paid_open payout closing).elim
  | idle silent =>
      rw [paid_bettor payout] at silent
      cases silent
  | @settled owner entry' count _ held' _ _ event bets =>
      have still : Terminal ({e with betsClosed := count} : Event).status := terminal
      have found' : after.events key = some {e with betsClosed := count} := event
      have bets' : after.bets key = Function.update (s.bets key) owner none := bets
      apply forward_of ready winds passable ran
      · intro e₁ found₁
        cases found'.symm.trans found₁
        exact canEnd_terminal still
      · have less := openCount_fewer held'
        rw [remaining,remaining,found,found',phase_terminal terminal,phase_terminal still,bets']
        exact Nat.add_lt_add_left less _

theorem forward_closed (ready : Ready reserved key s) (found : s.events key = some e) (refundable : e.status = .refundable)
    (paid : AllPaid e (s.bets key)) : Forward reserved key s := by
  obtain ⟨labels,base,facts⟩ := reachable_facts ready.reached found
  have complete := refunds_counted facts.book refundable paid
  have possible : ∃ after, closeEvent ⟨key.creator,key,e.creator⟩ s = .ok after :=
    closeEvent_possible ready.reached found (.inr refundable) complete
  obtain ⟨after,ran⟩ := possible
  obtain ⟨_,_,_,_,_,_,_,rfl⟩ := closeEvent_parts ran
  have absent : ∀ (s : Chain), (s.putEvent key none).events key = none := fun s => Function.update_self ..
  apply forward_of ready .close trivial ran
  · intro e' found'
    rw [absent] at found'
    cases found'
  · rw [remaining,remaining,absent,found,phase_terminal (.inr refundable)]
    exact Nat.add_lt_add_right Nat.zero_lt_one _

theorem forward_locking (ready : Ready reserved key s) (found : s.events key = some e) (opened : e.status = .open)
    (nobody : ∀ bettor, s.bets key bettor = none) : Forward reserved key s := by
  obtain ⟨labels,base,facts⟩ := reachable_facts ready.reached found
  have late : e.bettingCloseTime.val ≤ endOfTime.unixTimestamp.val := e.bettingCloseTime.upper
  have possible : ∃ after, lockEvent endOfTime ⟨key.creator,key⟩ s = .ok after :=
    lockEvent_possible ready.reached found opened late
  obtain ⟨after,ran⟩ := possible
  obtain ⟨e₁,loaded,_,_,ends⟩ := lockEvent_parts ran
  have same : e = e₁ := Option.some.inj (found.symm.trans (loadEvent_parts.mp loaded).1)
  subst same
  have empty : e.yesStake.val = 0 := by
    have side := facts.book.sides outcomeYes (.inr rfl)
    have unsettled := (facts.book.unsettled (not_terminal_open opened)).2.1 outcomeYes
    rw [side_yes,unsettled,openStake,KeyedTotal.total_empty nobody] at side
    exact side
  rcases ends with ⟨_,rfl⟩ | ⟨yes,_,_⟩
  · exact forward_ended ready found (not_terminal_open opened) .lock trivial ran ⟨⟨_,Function.update_self ..,.inr rfl⟩,rfl⟩
  · exact (yes empty).elim

theorem forward_marked (ready : Ready reserved key s) (found : s.events key = some e) (isLocked : e.status = .locked) :
    Forward reserved key s := by
  have fits := (ready.ends e found).1 isLocked
  have possible : ∃ after, markRefundable endOfTime ⟨key.creator,key⟩ s = .ok after :=
    markRefundable_possible ready.reached found isLocked fits fits
  obtain ⟨after,ran⟩ := possible
  exact forward_ended ready found (not_terminal_locked isLocked) .mark trivial ran (marked_terminal ran)

theorem forward_finalized (ready : Ready reserved key s) (found : s.events key = some e) (resolving : e.status = .resolving) :
    Forward reserved key s := by
  have due : e.finalizedAt.val ≤ endOfTime.unixTimestamp.val := e.finalizedAt.upper
  have possible : ∃ after, finalizeResolution endOfTime ⟨key.creator,key,feeWalletDev,true⟩ s = .ok after :=
    finalizeResolution_possible ready.reached found resolving due
  obtain ⟨after,ran⟩ := possible
  have payable := (ready.ends e found).2 resolving
  exact forward_ended ready found (not_terminal_resolving resolving) .finalize (fun _ => payable) ran
    (finalized_terminal ran)

theorem owed_of (unpaid : ¬ AllPaid e bets) : ∃ bettor entry, bets bettor = some entry ∧ entitled e entry := by
  apply Classical.byContradiction
  intro nobody
  apply unpaid
  intro bettor entry held right
  exact nobody ⟨bettor,entry,held,right⟩

-- One step nearer to the end, from wherever the market stands.
theorem forward (ready : Ready reserved key s) (unfinished : ¬ WoundUp key s) : Forward reserved key s := by
  obtain ⟨labels,sound⟩ := reachable_sound ready.reached key
  cases found : s.events key with
  | none => exact (unfinished (.inl ⟨found,sound.book.vacant found⟩)).elim
  | some e =>
      cases status : e.status with
      | «open» =>
          by_cases nobody : ∀ bettor, s.bets key bettor = none
          · exact forward_locking ready found status nobody
          · obtain ⟨bettor,some'⟩ := not_forall.mp nobody
            obtain ⟨entry,held⟩ := Option.ne_none_iff_exists'.mp some'
            exact forward_cancelled ready found status held
      | locked => exact forward_marked ready found status
      | resolving => exact forward_finalized ready found status
      | resolved =>
          obtain ⟨bettor,entry,held,right⟩ := owed_of fun paid => unfinished (.inr ⟨e,found,status,paid⟩)
          exact forward_settled ready found (.inl status) held right
      | refundable =>
          by_cases paid : AllPaid e (s.bets key)
          · exact forward_closed ready found status paid
          · obtain ⟨bettor,entry,held,right⟩ := owed_of paid
            exact forward_settled ready found (.inr status) held right

theorem winds_own (winds : Winds key instruction) : ∃ bettor, needsNobodyElse bettor instruction = true := by
  cases winds with
  | cancel | claim | refund => exact ⟨_,decide_eq_true rfl⟩
  | lock | finalize | mark | close => exact ⟨key.creator,rfl⟩

theorem winding_kept (run : Run s history s') (winding : ∀ t ∈ history, Winding reserved key t.action)
    (found : s.events key = some e)
    (each : ∀ {bettor sys instruction middle next}, advance middle (.invoke sys instruction) = some next →
      needsNobodyElse bettor instruction = true → Passable reserved instruction → middle.events key = some e →
      next.events key = some e) : s'.events key = some e := by
  induction run with
  | nil => exact found
  | @cons _ _ action _ _ step ih =>
      obtain ⟨admitted,rest⟩ := List.forall_mem_cons.mp winding
      cases action with
      | transfer => cases admitted
      | invoke sys instruction =>
          obtain ⟨bettor,own⟩ := winds_own admitted.1
          exact each step own admitted.2 (ih rest)

-- Without a price an event that cannot time out never leaves its lock.
theorem untimely_kept (run : Run s history s') (winding : ∀ t ∈ history, Winding reserved key t.action)
    (found : s.events key = some e) (isLocked : e.status = .locked)
    (never : 9223372036854775807 < e.resolutionTime.val + resolutionTimeoutSecsDev.val) : s'.events key = some e := by
  apply winding_kept run winding found
  intro bettor sys instruction middle next step own _ before
  exact (own_step_stuck step own before isLocked never).2

-- Nor does a candidate become final where its fee cannot be paid.
theorem unpayable_kept (run : Run s history s') (winding : ∀ t ∈ history, Winding reserved key t.action)
    (found : s.events key = some e) (resolving : e.status = .resolving) (blocked : reserved feeWalletDev) :
    s'.events key = some e := by
  apply winding_kept run winding found
  intro bettor sys instruction middle next step own passable before
  exact (own_step_pending step own passable before resolving blocked).2

theorem kept_unfinished (kept : s.events key = some e) (early : ¬ Terminal e.status) : ¬ WoundUp key s := by
  rintro (⟨gone,_⟩ | ⟨e',found,resolved,_⟩)
  · rw [gone] at kept
    cases kept
  · cases found.symm.trans kept
    exact early (.inl resolved)

theorem winds_up (reserved : Pubkey → Prop) (reached : Reachable s) (found : s.events key = some e) :
    (∃ history s', Run s history s' ∧ (∀ t ∈ history, Winding reserved key t.action) ∧ WoundUp key s') ↔
      Timely e ∧ Payable reserved e := by
  constructor
  · rintro ⟨history,s',run,winding,wound⟩
    constructor
    · intro isLocked
      apply Classical.byContradiction
      intro late
      have kept := untimely_kept run winding found isLocked (Int.lt_of_not_ge late)
      exact kept_unfinished kept (not_terminal_locked isLocked) wound
    · intro resolving blocked
      have kept := unpayable_kept run winding found resolving blocked
      exact kept_unfinished kept (not_terminal_resolving resolving) wound
  · intro ends
    have ready : Ready reserved key s := ⟨reached,fun e' found' => Option.some.inj (found.symm.trans found') ▸ ends⟩
    have drained : ∃ history s', Machine.History machine s history s' ∧ (∀ t ∈ history, Winding reserved key t.action) ∧
        WoundUp key s' := by
      apply Machine.drains (remaining key) ?_ ready
      intro s ready unfinished
      obtain ⟨action,next,winding,step,still,less⟩ := forward ready unfinished
      exact ⟨action,next,winding,step,still,less⟩
    exact drained

section sample
open SampleMarket

-- From the lock even without a fee wallet, from the report with one.
theorem winds_up_sample :
    (∃ history s', Run (stateOf awaiting) history s' ∧
      (∀ t ∈ history, Winding (· = feeWalletDev) market t.action) ∧ WoundUp market s') ∧
    ∃ history s', Run (stateOf reporting) history s' ∧
      (∀ t ∈ history, Winding (· ≠ feeWalletDev) market t.action) ∧ WoundUp market s' := by
  have reached : Reachable (stateOf awaiting) := play_reachable rfl
  have found : (stateOf awaiting).events market = some _ := rfl
  have timely : Timely (((stateOf awaiting).events market).get rfl) := fun _ => by decide
  have reached' : Reachable (stateOf reporting) := play_reachable rfl
  have found' : (stateOf reporting).events market = some _ := rfl
  exact ⟨(winds_up _ reached found).mpr ⟨timely,fun absurd => (by cases absurd)⟩,
    (winds_up _ reached' found').mpr ⟨fun absurd => (by cases absurd),fun _ other => other rfl⟩⟩
end sample

-- Somebody is always on the other side, and never collects.
theorem loser_open (book : Book key labels e bets) (resolved : e.status = .resolved)
    (decided : e.candidateOutcome = some winner) : ∃ bettor entry, bets bettor = some entry ∧ winner ≠ entry.outcome := by
  obtain ⟨yes,no⟩ := book.twoSided (.inr (.inr resolved))
  have staked : 0 < minStakeLamportsDev.val := by decide
  have opposite : ∃ outcome, Known outcome ∧ winner ≠ outcome ∧ minStakeLamportsDev.val ≤ (e.side outcome).val := by
    by_cases same : winner = outcomeYes
    · exact ⟨outcomeNo,.inl rfl,same ▸ outcomes_differ.symm,by rw [side_no]; exact no⟩
    · exact ⟨outcomeYes,.inr rfl,same,by rw [side_yes]; exact yes⟩
  obtain ⟨outcome,known,lost,least⟩ := opposite
  have side := book.sides outcome known
  have unsettled := book.losers resolved outcome (by rw [decided]; exact fun same => lost (Option.some.inj same))
  have occupied : openStake outcome bets ≠ 0 := by omega
  obtain ⟨bettor,entry,held,weight⟩ := KeyedTotal.total_occupied occupied
  refine ⟨bettor,entry,held,?_⟩
  intro same
  apply weight
  exact sideWeight_other fun equal => lost (same.trans equal)

-- Lamports leave an entry's account only when the entry itself goes.
theorem ended_entry {p : Journal.Posting} (member : p ∈ Journal.entryEnded lamports key' owner purpose amount)
    (same : p.source = .betPda key bettor) : key' = key ∧ owner = bettor := by
  simp only [Journal.entryEnded,List.mem_cons,List.not_mem_nil,or_false] at member
  rcases member with rfl | rfl
  · cases same
    exact ⟨rfl,rfl⟩
  · cases same

theorem bet_ended (s : Chain) (key : EventKey) (bettor : Pubkey) : (s.putBet key bettor none).bets key bettor = none := by
  simp [Chain.putBet]

theorem ended_gone {p : Journal.Posting} (member : p ∈ Journal.entryEnded lamports key' owner purpose amount)
    (source : p.source = .betPda key bettor) (s : Chain) : (s.putBet key' owner none).bets key bettor = none := by
  obtain ⟨rfl,rfl⟩ := ended_entry member source
  exact bet_ended ..

theorem execute_drains (ran : execute sys instruction s = .ok after) {p : Journal.Posting}
    (member : p ∈ Journal.postings sys s instruction) (source : p.source = .betPda key bettor) :
    after.bets key bettor = none := by
  cases instruction with
  | cancelBet ctx =>
      obtain ⟨_,_,_,_,_,_,_,_,held,_,_,_,_,_,_,rfl⟩ := cancelBet_parts ran
      simp only [Journal.postings,held] at member
      exact ended_gone member source _
  | claim ctx =>
      obtain ⟨_,_,_,_,_,_,loaded,held,_,_,_,_,_,_,_,rfl⟩ := claim_parts ran
      simp only [Journal.postings,(loadEvent_parts.mp loaded).1,held] at member
      exact ended_gone member source _
  | claimRefund ctx =>
      obtain ⟨_,_,_,_,_,_,loaded,held,_,_,_,_,_,_,rfl⟩ := claimRefund_parts ran
      simp only [Journal.postings,(loadEvent_parts.mp loaded).1,held] at member
      exact ended_gone member source _
  | finalizeResolution ctx =>
      simp only [Journal.postings] at member
      split at member
      · rw [List.mem_singleton.mp member] at source
        cases source
      · cases member
  | placeBet ctx =>
      simp only [Journal.postings,List.mem_cons,List.not_mem_nil,or_false] at member
      rcases member with rfl | rfl <;> cases source
  | createEvent | resolveEvent | closeEvent =>
      rw [List.mem_singleton.mp member] at source
      cases source
  | lockEvent | challengeResolution | markRefundable => cases member

theorem entry_drained (step : advance s action = some s') {p : Journal.Posting}
    (member : p ∈ Journal.booked ⟨s,action,s'⟩) (source : p.source = .betPda key bettor) :
    s'.bets key bettor = none := by
  cases action with
  | transfer source' target amount =>
      rw [Journal.booked,List.mem_singleton] at member
      rw [member] at source
      cases source
  | invoke sys instruction =>
      obtain ⟨_,⟨after,ran,rfl⟩ | ⟨_,ran,rfl⟩⟩ := advance_invoke step
      · simp only [Journal.booked,ran] at member
        have gone : after.bets key bettor = none := execute_drains ran member source
        exact gone
      · simp only [Journal.booked,ran] at member
        cases member

-- What is left of an event with a winner, whatever anybody does.
structure Remains (key : EventKey) (s : Chain) (e : Event) (s' : Chain) : Prop where
  event : ∃ count, s'.events key = some {e with betsClosed := count} ∧ count.val < e.bettorCount.val
  rent : e.rentExemptMinimum.val ≤ (s'.lamports (.eventPda key)).val
  losers : ∀ bettor entry, s.bets key bettor = some entry → e.candidateOutcome ≠ some entry.outcome →
    s'.bets key bettor = some entry ∧ (s.lamports (.betPda key bettor)).val ≤ (s'.lamports (.betPda key bettor)).val
  somebody : ∃ bettor entry, s.bets key bettor = some entry ∧ e.candidateOutcome ≠ some entry.outcome
  closing : ∀ {sys ctx after}, ctx.event = key → execute sys (.closeEvent ctx) s' ≠ .ok after
  creating : ∀ {sys ctx feedId condition thresholdE8 bettingCloseTime resolutionTime after}, ctx.event = key →
    execute sys (.createEvent ctx feedId condition thresholdE8 bettingCloseTime resolutionTime) s' ≠ .ok after

theorem entry_rent_kept (run : Run s history s') (kept : ∀ {later middle}, Run s later middle → middle.bets key bettor = some entry) :
    (s.lamports (.betPda key bettor)).val ≤ (s'.lamports (.betPda key bettor)).val := by
  refine (Journal.journal_posted run).grows (fun p member => (Journal.journal_proper run p member).nonneg) ?_
  intro p member source
  obtain ⟨t,present,booked⟩ := List.mem_flatMap.mp member
  obtain ⟨newer,older,rfl⟩ := List.append_of_mem present
  obtain ⟨prior,step,_⟩ := run.around
  have gone := entry_drained step booked source
  have held := kept (.cons prior step)
  rw [gone] at held
  cases held

theorem resolved_remains (reached : Reachable s) (found : s.events key = some e) (resolved : e.status = .resolved)
    (run : Run s history s') : Remains key s e s' := by
  obtain ⟨labels,sound⟩ := reachable_sound reached key
  have book := sound.book.kept e found
  obtain ⟨winner,decided⟩ := (sound.purse e found).decided resolved
  have kept : ∀ {bettor entry}, s.bets key bettor = some entry → e.candidateOutcome ≠ some entry.outcome →
      ∀ {later middle}, Run s later middle → middle.bets key bettor = some entry :=
    fun held lost _ _ run => (Payouts.losing_kept sound found resolved held lost run).2.1
  obtain ⟨loser,entry,held,lost⟩ := loser_open book resolved decided
  have losing : e.candidateOutcome ≠ some entry.outcome := by
    rw [decided]
    exact fun same => lost (Option.some.inj same)
  have unclosed := (Payouts.losing_kept sound found resolved held losing run).1
  obtain ⟨count,found',_⟩ := (settling_path (.inl resolved) found (event_run key run) unclosed).event
  have sound' := sound_run sound run
  have book' := sound'.book.kept _ found'
  have short : count.val < e.bettorCount.val := losers_counted book' resolved decided
  exact {
    event := ⟨count,found',short⟩
    rent := by
      have covered := Solvency.rent_covered (sound'.purse _ found')
      have owed := Solvency.liability_nonneg book' (sound'.purse _ found')
      exact le_trans (Int.le_add_of_nonneg_right owed) covered
    losers := fun bettor entry held lost => ⟨kept held lost run,entry_rent_kept run (kept held lost)⟩
    somebody := ⟨loser,entry,held,losing⟩
    closing := by
      intro sys ctx after same ran
      subst same
      obtain ⟨_,_,loaded,_,_,complete,_⟩ := closeEvent_parts ran
      have present := (loadEvent_parts.mp loaded).1
      cases found'.symm.trans present
      exact absurd complete (ne_of_lt short)
    creating := by
      intro sys ctx _ _ _ _ _ after same ran
      subst same
      obtain ⟨_,_,vacant,_⟩ := createEvent_parts ran
      cases found'.symm.trans vacant }

section sample
open SampleMarket

theorem resolved_remains_sample : ∃ e, (stateOf deciding).events market = some e ∧
    Remains market (stateOf deciding) e (stateOf settling) := by
  have run : Run (stateOf deciding) _ (stateOf settling) :=
    @Machine.replay_history _ _ machine _ _ _ [collect alice] _ _ .nil rfl
  exact ⟨_,rfl,resolved_remains (play_reachable rfl) rfl rfl run⟩
end sample

end Solclash.Windup
