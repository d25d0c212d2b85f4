import Solclash.Program

-- What one event goes through, whatever else happens on the ledger: every
-- step of the machine is a labelled step of this protocol at every key.
namespace Solclash.EventProtocol

structure View where
  clock : I64
  escrow : U64
  event : Option Event
  bets : Pubkey → Option BetEntry

def view (key : EventKey) (s : Chain) : View := ⟨s.clock,s.lamports (.eventPda key),s.events key,s.bets key⟩

-- A label records what the step did at the event: who moved, at which clock,
-- with which entry or update, and how many lamports left the PDA for it.
inductive Label where
  | created (escrow : U64)
  | placed (now : I64) (bettor : Pubkey) (entry : BetEntry)
  | cancelled (now : I64) (bettor : Pubkey) (entry : BetEntry) (paid : Int)
  | locked (now : I64)
  | resolved (now : I64) (update : ExtractedPriceUpdate)
  | challenged (now : I64) (update : ExtractedPriceUpdate)
  | finalized (now : I64)
  | claimed (now : I64) (bettor : Pubkey) (entry : BetEntry) (paid : Int)
  | marked (now : I64)
  | refunded (now : I64) (bettor : Pubkey) (entry : BetEntry) (paid : Int)
  | closed (now : I64)
  | donated (amount : U64)
  | quiet
  deriving DecidableEq

def drop (key : EventKey) (t : Step) : Int :=
  (t.before.lamports (.eventPda key)).val - (t.after.lamports (.eventPda key)).val

def committedLabel (key : EventKey) (t : Step) (now : I64) : Instruction → Label
  | .createEvent .. => .created (t.after.lamports (.eventPda key))
  | .placeBet ctx outcome stake => .placed now ctx.bettor ⟨key,ctx.bettor,outcome,stake,ctx.bumpsBetEntry⟩
  | .cancelBet ctx =>
    match t.before.bets key ctx.bettor with
    | some entry => .cancelled now ctx.bettor entry (drop key t)
    | none => .quiet
  | .lockEvent _ => .locked now
  | .resolveEvent ctx => .resolved now (extract ctx.priceUpdate)
  | .challengeResolution ctx => .challenged now (extract ctx.priceUpdate)
  | .finalizeResolution _ => .finalized now
  | .claim ctx =>
    match t.before.bets key ctx.bettor with
    | some entry => .claimed now ctx.bettor entry (drop key t)
    | none => .quiet
  | .markRefundable _ => .marked now
  | .claimRefund ctx =>
    match t.before.bets key ctx.bettor with
    | some entry => .refunded now ctx.bettor entry (drop key t)
    | none => .quiet
  | .closeEvent _ => .closed now

def label (key : EventKey) (t : Step) : Label :=
  match t.action with
  | .transfer _ target amount => if target = .eventPda key then .donated amount else .quiet
  | .invoke sys instruction =>
    if instruction.event = key then
      match execute sys instruction t.before with
      | .ok _ => committedLabel key t sys.unixTimestamp instruction
      | .error _ => .quiet
    else .quiet

structure Fresh (key : EventKey) (now : I64) (e : Event) : Prop where
  creator : e.creator = key.creator
  eventId : e.eventId = key.eventId
  listed : e.feedId ∈ feedWhitelistDev
  condition : e.condition = conditionGreaterThan ∨ e.condition = conditionLessThan
  betting : now.val < e.bettingCloseTime.val
  gap : e.bettingCloseTime.val + 300 ≤ e.resolutionTime.val
  status : e.status = .open
  pot : e.pot.val = 0
  yesStake : e.yesStake.val = 0
  noStake : e.noStake.val = 0
  bettorCount : e.bettorCount.val = 0
  betsClosed : e.betsClosed.val = 0
  finalizedAt : e.finalizedAt.val = 0

inductive EventStep (key : EventKey) : View → Label → View → Prop where
  | created (vacant : v.event = none) (later : v.clock.val ≤ now.val) (fresh : Fresh key now e)
      (funded : e.rentExemptMinimum.val ≤ escrow.val) :
      EventStep key v (.created escrow) ⟨now,escrow,some e,v.bets⟩
  | placed (found : v.event = some e) (later : v.clock.val ≤ now.val) (opened : e.status = .open)
      (betting : now.val < e.bettingCloseTime.val) (vacant : v.bets bettor = none)
      (owner : entry.event = key ∧ entry.bettor = bettor)
      (known : entry.outcome = outcomeNo ∨ entry.outcome = outcomeYes)
      (least : minStakeLamportsDev.val ≤ entry.stake.val) (most : entry.stake.val ≤ maxStakeLamportsDev.val)
      (sum : pot.val = e.pot.val + entry.stake.val) (cap : pot.val ≤ maxPotLamportsDev.val)
      (added : side.val = (e.side entry.outcome).val + entry.stake.val)
      (counted : count.val = e.bettorCount.val + 1) (received : escrow.val = v.escrow.val + entry.stake.val) :
      EventStep key v (.placed now bettor entry) ⟨now,escrow,
        some (e.withBook entry.outcome pot side count),
        Function.update v.bets bettor (some entry)⟩
  | cancelled (found : v.event = some e) (later : v.clock.val ≤ now.val) (opened : e.status = .open)
      (held : v.bets bettor = some entry)
      (difference : pot.val = e.pot.val - entry.stake.val)
      (removed : side.val = (e.side entry.outcome).val - entry.stake.val)
      (counted : count.val = e.bettorCount.val - 1) (returned : escrow.val = v.escrow.val - entry.stake.val) :
      EventStep key v (.cancelled now bettor entry entry.stake.val) ⟨now,escrow,
        some (e.withBook entry.outcome pot side count),
        Function.update v.bets bettor none⟩
  | locked (found : v.event = some e) (later : v.clock.val ≤ now.val) (opened : e.status = .open)
      (late : e.bettingCloseTime.val ≤ now.val) (yes : e.yesStake.val ≠ 0) (no : e.noStake.val ≠ 0) :
      EventStep key v (.locked now) {v with clock := now,event := some {e with status := .locked}}
  | oneSided (found : v.event = some e) (later : v.clock.val ≤ now.val) (opened : e.status = .open)
      (late : e.bettingCloseTime.val ≤ now.val) (empty : e.yesStake.val = 0 ∨ e.noStake.val = 0) :
      EventStep key v (.locked now)
        {v with clock := now,event := some {e with status := .refundable,payoutPool := e.pot}}
  | resolved (found : v.event = some e) (later : v.clock.val ≤ now.val) (isLocked : e.status = .locked)
      (due : e.resolutionTime.val ≤ now.val)
      (accepted : verifyPriceUpdate update e.feedId e.resolutionTime = .ok verified)
      (decided : resolveConfidenceBand e.condition verified.priceE8 verified.confE8 e.thresholdE8 = .ok outcome)
      (deadline : finalizedAt.val = now.val + 300)
      (rewarded : escrow.val = v.escrow.val - resolverRewardDev.val) :
      EventStep key v (.resolved now update) ⟨now,escrow,
        some {e.withCandidate outcome verified with finalizedAt,status := .resolving},v.bets⟩
  | challenged (found : v.event = some e) (later : v.clock.val ≤ now.val) (resolving : e.status = .resolving)
      (inside : now.val < e.finalizedAt.val)
      (accepted : verifyPriceUpdate update e.feedId e.resolutionTime = .ok verified)
      (newer : e.candidatePublishTime.val < verified.publishTime.val)
      (decided : resolveConfidenceBand e.condition verified.priceE8 verified.confE8 e.thresholdE8 = .ok outcome) :
      EventStep key v (.challenged now update)
        {v with clock := now,event := some (e.withCandidate outcome verified)}
  | ambiguous (found : v.event = some e) (later : v.clock.val ≤ now.val) (resolving : e.status = .resolving)
      (due : e.finalizedAt.val ≤ now.val) (undecided : e.candidateOutcome = none)
      (difference : pool.val = e.pot.val - resolverRewardDev.val) :
      EventStep key v (.finalized now)
        {v with clock := now,event := some {e with status := .refundable,payoutPool := pool}}
  | decided {fee : U64} (found : v.event = some e) (later : v.clock.val ≤ now.val) (resolving : e.status = .resolving)
      (due : e.finalizedAt.val ≤ now.val) (outcome : e.candidateOutcome = some winner)
      (charged : fee.val = (e.pot.val - resolverRewardDev.val) * 1000 / 10000)
      (difference : pool.val = e.pot.val - resolverRewardDev.val - fee.val)
      (paid : escrow.val = v.escrow.val - fee.val) :
      EventStep key v (.finalized now) ⟨now,escrow,some {e with status := .resolved,payoutPool := pool},v.bets⟩
  | claimed (found : v.event = some e) (later : v.clock.val ≤ now.val) (resolved : e.status = .resolved)
      (due : e.finalizedAt.val ≤ now.val) (held : v.bets bettor = some entry)
      (won : e.candidateOutcome = some entry.outcome) (staked : (e.side entry.outcome).val ≠ 0)
      (counted : count.val = e.betsClosed.val + 1)
      (paid : escrow.val = v.escrow.val - e.payoutPool.val * entry.stake.val / (e.side entry.outcome).val) :
      EventStep key v
        (.claimed now bettor entry (e.payoutPool.val * entry.stake.val / (e.side entry.outcome).val))
        ⟨now,escrow,some {e with betsClosed := count},Function.update v.bets bettor none⟩
  | marked (found : v.event = some e) (later : v.clock.val ≤ now.val) (isLocked : e.status = .locked)
      (late : e.resolutionTime.val + resolutionTimeoutSecsDev.val ≤ now.val) :
      EventStep key v (.marked now)
        {v with clock := now,event := some {e with status := .refundable,payoutPool := e.pot}}
  | refunded (found : v.event = some e) (later : v.clock.val ≤ now.val) (refundable : e.status = .refundable)
      (due : e.finalizedAt.val ≤ now.val) (held : v.bets bettor = some entry) (staked : e.pot.val ≠ 0)
      (counted : count.val = e.betsClosed.val + 1)
      (paid : escrow.val = v.escrow.val - e.payoutPool.val * entry.stake.val / e.pot.val) :
      EventStep key v (.refunded now bettor entry (e.payoutPool.val * entry.stake.val / e.pot.val))
        ⟨now,escrow,some {e with betsClosed := count},Function.update v.bets bettor none⟩
  | closed (found : v.event = some e) (later : v.clock.val ≤ now.val)
      (terminal : e.status = .resolved ∨ e.status = .refundable)
      (complete : e.betsClosed.val = e.bettorCount.val) (swept : escrow.val = 0) :
      EventStep key v (.closed now) ⟨now,escrow,none,v.bets⟩
  | donated (received : escrow.val = v.escrow.val + amount.val) :
      EventStep key v (.donated amount) {v with escrow}
  | quiet (later : v.clock.val ≤ now.val) : EventStep key v .quiet {v with clock := now}

section views
variable {s next : Chain} {sys : Sysvars} {key : EventKey} {lamports after : Lamports} {a b : Address} {amount : Int}

@[simp] theorem view_putEvent (s : Chain) (lamports : Lamports) (key : EventKey) (e : Option Event) (now : I64) :
    view key {({s with lamports}.putEvent key e) with clock := now} =
      ⟨now,lamports (.eventPda key),e,s.bets key⟩ := by
  simp [view,Chain.putEvent]

@[simp] theorem view_putBet (s : Chain) (lamports : Lamports) (key : EventKey) (e : Option Event)
    (bettor : Pubkey) (entry : Option BetEntry) (now : I64) :
    view key {(({s with lamports}.putEvent key e).putBet key bettor entry) with clock := now} =
      ⟨now,lamports (.eventPda key),e,Function.update (s.bets key) bettor entry⟩ := by
  simp [view,Chain.putEvent,Chain.putBet]

theorem view_other (other : changed ≠ key) (kept : lamports (.eventPda key) = s.lamports (.eventPda key)) :
    view key ({s with lamports}.putEvent changed e) = view key s := by
  simp [view,Chain.putEvent,kept,Ne.symm other]

theorem view_otherBet (other : changed ≠ key) (kept : lamports (.eventPda key) = s.lamports (.eventPda key)) :
    view key (({s with lamports}.putEvent changed e).putBet changed bettor entry) = view key s := by
  simp [view,Chain.putEvent,Chain.putBet,kept,Ne.symm other]

theorem moved_elsewhere (moved : Balances.Moved lamports a b amount after)
    (notSource : .eventPda key ≠ a) (notTarget : .eventPda key ≠ b) :
    after (.eventPda key) = lamports (.eventPda key) := moved.others _ notSource notTarget

theorem execute_other (ran : execute sys instruction s = .ok next) (other : instruction.event ≠ key) :
    view key next = view key s := by
  have notPda : Address.eventPda key ≠ .eventPda instruction.event := by simpa using other.symm
  cases instruction with
  | createEvent ctx =>
      obtain ⟨_,_,_,funded,_,_,_,_,_,rfl⟩ := createEvent_parts ran
      obtain ⟨_,_,moved,_⟩ := initAccount_moved (by simp) funded
      exact view_other other (moved_elsewhere moved (by simp) notPda)
  | placeBet ctx =>
      obtain ⟨_,_,_,_,_,_,_,_,_,_,_,_,_,_,_,_,_,funded,paid,rfl⟩ := placeBet_parts ran
      obtain ⟨_,_,rent,_⟩ := initAccount_moved (by simp) funded
      have stake := systemTransfer_moved (by simp) paid
      exact view_otherBet other ((moved_elsewhere stake (by simp) notPda).trans
        (moved_elsewhere rent (by simp) (by simp)))
  | cancelBet ctx =>
      obtain ⟨_,_,_,_,_,_,_,_,_,_,_,_,_,paid,closed,rfl⟩ := cancelBet_parts ran
      have stake := transferFromPda_moved (by simp) paid
      have rent := closeAccount_moved (by simp) closed
      exact view_otherBet other ((moved_elsewhere rent (by simp) (by simp)).trans
        (moved_elsewhere stake notPda (by simp)))
  | lockEvent ctx =>
      obtain ⟨_,_,_,_,⟨_,rfl⟩ | ⟨_,_,rfl⟩⟩ := lockEvent_parts ran
      all_goals exact view_other other rfl
  | resolveEvent ctx =>
      obtain ⟨_,_,_,_,_,_,_,_,_,_,_,paid,rfl⟩ := resolveEvent_parts ran
      have reward := transferFromPda_moved (by simp) paid
      exact view_other other (moved_elsewhere reward notPda (by simp))
  | challengeResolution ctx =>
      obtain ⟨_,_,_,_,_,_,_,_,_,rfl⟩ := challengeResolution_parts ran
      exact view_other other rfl
  | finalizeResolution ctx =>
      obtain ⟨_,_,_,_,_,_,_,⟨_,rfl⟩ | ⟨_,_,_,_,_,_,_,paid,rfl⟩⟩ := finalizeResolution_parts ran
      · exact view_other other rfl
      · have fee := transferFromPda_moved (by simp) paid
        exact view_other other (moved_elsewhere fee notPda (by simp))
  | claim ctx =>
      obtain ⟨_,_,_,_,_,_,_,_,_,_,_,_,_,paid,closed,rfl⟩ := claim_parts ran
      have payout := transferFromPda_moved (by simp) paid
      have rent := closeAccount_moved (by simp) closed
      exact view_otherBet other ((moved_elsewhere rent (by simp) (by simp)).trans
        (moved_elsewhere payout notPda (by simp)))
  | markRefundable ctx =>
      obtain ⟨_,_,_,_,rfl⟩ := markRefundable_parts ran
      exact view_other other rfl
  | claimRefund ctx =>
      obtain ⟨_,_,_,_,_,_,_,_,_,_,_,_,paid,closed,rfl⟩ := claimRefund_parts ran
      have refund := transferFromPda_moved (by simp) paid
      have rent := closeAccount_moved (by simp) closed
      exact view_otherBet other ((moved_elsewhere rent (by simp) (by simp)).trans
        (moved_elsewhere refund notPda (by simp)))
  | closeEvent ctx =>
      obtain ⟨_,_,_,_,_,_,swept,rfl⟩ := closeEvent_parts ran
      have sweep := closeAccount_moved (by simp) swept
      exact view_other other (moved_elsewhere sweep notPda (by simp))

theorem execute_capped (capped : Balances.Capped s.lamports) (ran : execute sys instruction s = .ok next) :
    Balances.Capped next.lamports := by
  cases instruction with
  | createEvent ctx =>
      obtain ⟨_,_,_,funded,_,_,_,_,_,rfl⟩ := createEvent_parts ran
      exact initAccount_capped capped funded
  | placeBet ctx =>
      obtain ⟨_,_,_,_,_,_,_,_,_,_,_,_,_,_,_,_,_,funded,paid,rfl⟩ := placeBet_parts ran
      exact systemTransfer_capped (initAccount_capped capped funded) paid
  | cancelBet ctx =>
      obtain ⟨_,_,_,_,_,_,_,_,_,_,_,_,_,paid,closed,rfl⟩ := cancelBet_parts ran
      exact closeAccount_capped (transferFromPda_capped capped paid) closed
  | lockEvent ctx =>
      obtain ⟨_,_,_,_,⟨_,rfl⟩ | ⟨_,_,rfl⟩⟩ := lockEvent_parts ran
      all_goals exact capped
  | resolveEvent ctx =>
      obtain ⟨_,_,_,_,_,_,_,_,_,_,_,paid,rfl⟩ := resolveEvent_parts ran
      exact transferFromPda_capped capped paid
  | challengeResolution ctx =>
      obtain ⟨_,_,_,_,_,_,_,_,_,rfl⟩ := challengeResolution_parts ran
      exact capped
  | finalizeResolution ctx =>
      obtain ⟨_,_,_,_,_,_,_,⟨_,rfl⟩ | ⟨_,_,_,_,_,_,_,paid,rfl⟩⟩ := finalizeResolution_parts ran
      · exact capped
      · exact transferFromPda_capped capped paid
  | claim ctx =>
      obtain ⟨_,_,_,_,_,_,_,_,_,_,_,_,_,paid,closed,rfl⟩ := claim_parts ran
      exact closeAccount_capped (transferFromPda_capped capped paid) closed
  | markRefundable ctx =>
      obtain ⟨_,_,_,_,rfl⟩ := markRefundable_parts ran
      exact capped
  | claimRefund ctx =>
      obtain ⟨_,_,_,_,_,_,_,_,_,_,_,_,paid,closed,rfl⟩ := claimRefund_parts ran
      exact closeAccount_capped (transferFromPda_capped capped paid) closed
  | closeEvent ctx =>
      obtain ⟨_,_,_,_,_,_,swept,rfl⟩ := closeEvent_parts ran
      exact closeAccount_capped capped swept

end views

@[simp] theorem putEvent_lamports (s : Chain) (key : EventKey) (e : Option Event) :
    (s.putEvent key e).lamports = s.lamports := rfl
@[simp] theorem putBet_lamports (s : Chain) (key : EventKey) (bettor : Pubkey) (entry : Option BetEntry) :
    (s.putBet key bettor entry).lamports = s.lamports := rfl

-- A payment to a bettor and the closing of his account leave the event's PDA
-- poorer by the payment only.
theorem escrow_fell {amount : U64} {before middle lamports : Lamports}
    (paid : transferFromPda before (.eventPda key) (.wallet bettor) amount = .ok middle)
    (closed : closeAccount middle (.betPda key bettor) (.wallet bettor) = .ok lamports) :
    (lamports (.eventPda key)).val = (before (.eventPda key)).val - amount.val := by
  have returned := (transferFromPda_moved (by simp) paid).pays
  rw [← moved_elsewhere (closeAccount_moved (by simp) closed) (by simp) (by simp)] at returned
  exact returned

-- One arm per handler: its parts are the premises of the protocol's step.
theorem execute_own (later : s.clock.val ≤ sys.unixTimestamp.val) (ran : execute sys instruction s = .ok next) :
    EventStep instruction.event (view instruction.event s)
      (committedLabel instruction.event
        ⟨s,.invoke sys instruction,{next with clock := sys.unixTimestamp}⟩ sys.unixTimestamp instruction)
      (view instruction.event {next with clock := sys.unixTimestamp}) := by
  cases instruction with
  | createEvent ctx feedId condition thresholdE8 bettingCloseTime resolutionTime =>
      obtain ⟨lamports,event,vacant,funded,future,gap,known,listed,rfl,rfl⟩ := createEvent_parts ran
      obtain ⟨_,_,_,rent⟩ := initAccount_moved (by simp) funded
      simp only [Instruction.event,committedLabel,view_putEvent]
      exact .created vacant later
        ⟨rfl,rfl,listed,known,future,gap,rfl,rfl,rfl,rfl,rfl,rfl,rfl⟩ rent
  | placeBet ctx outcome stake =>
      obtain ⟨event,pot,side,count,funded,lamports,loaded,vacant,opened,betting,known,least,most,sum,cap,
        added,counted,rent,paid,rfl⟩ := placeBet_parts ran
      obtain ⟨found,_⟩ := loadEvent_parts.mp loaded
      obtain ⟨_,_,rented,_⟩ := initAccount_moved (by simp) rent
      have received := (systemTransfer_moved (by simp) paid).gets
      rw [rented.others _ (by simp) (by simp)] at received
      simp only [Instruction.event,committedLabel,view_putBet]
      exact .placed found later opened betting vacant ⟨rfl,rfl⟩ known least most sum cap added counted received
  | cancelBet ctx =>
      obtain ⟨event,entry,pot,side,count,middle,lamports,loaded,held,opened,difference,removed,counted,paid,
        closed,rfl⟩ := cancelBet_parts ran
      obtain ⟨found,_⟩ := loadEvent_parts.mp loaded
      have returned := escrow_fell paid closed
      have paidOut : (s.lamports (.eventPda ctx.event)).val - (lamports (.eventPda ctx.event)).val =
          entry.stake.val := by omega
      simp only [Instruction.event,committedLabel,held]
      rw [view_putBet]
      simp only [drop,putBet_lamports,putEvent_lamports,paidOut]
      exact .cancelled found later opened held difference removed counted returned
  | lockEvent ctx =>
      obtain ⟨event,loaded,opened,late,⟨empty,rfl⟩ | ⟨yes,no,rfl⟩⟩ := lockEvent_parts ran
      all_goals
        obtain ⟨found,_⟩ := loadEvent_parts.mp loaded
        simp only [Instruction.event,committedLabel]
        rw [view_putEvent s s.lamports]
      · exact .oneSided found later opened late empty
      · exact .locked found later opened late yes no
  | resolveEvent ctx =>
      obtain ⟨event,verified,outcome,finalizedAt,lamports,loaded,isLocked,due,accepted,decided,deadline,
        paid,rfl⟩ := resolveEvent_parts ran
      obtain ⟨found,_⟩ := loadEvent_parts.mp loaded
      have rewarded := (transferFromPda_moved (by simp) paid).pays
      simp only [Instruction.event,committedLabel,view_putEvent]
      exact .resolved found later isLocked due accepted decided deadline rewarded
  | challengeResolution ctx =>
      obtain ⟨event,verified,outcome,loaded,resolving,inside,accepted,newer,decided,rfl⟩ :=
        challengeResolution_parts ran
      obtain ⟨found,_⟩ := loadEvent_parts.mp loaded
      simp only [Instruction.event,committedLabel]
      rw [view_putEvent s s.lamports]
      exact .challenged found later resolving inside accepted newer decided
  | finalizeResolution ctx =>
      obtain ⟨event,rest,loaded,_,resolving,due,difference,
        ⟨undecided,rfl⟩ | ⟨winner,fee,pool,lamports,outcome,charged,left,paid,rfl⟩⟩ := finalizeResolution_parts ran
      all_goals
        obtain ⟨found,_⟩ := loadEvent_parts.mp loaded
        simp only [Instruction.event,committedLabel]
      · rw [view_putEvent s s.lamports]
        exact .ambiguous found later resolving due undecided difference
      · have charge := (transferFromPda_moved (by simp) paid).pays
        rw [difference] at charged left
        rw [view_putEvent]
        exact .decided found later resolving due outcome charged left charge
  | claim ctx =>
      obtain ⟨event,entry,payout,count,middle,lamports,loaded,held,resolved,due,won,share,counted,paid,closed,
        rfl⟩ := claim_parts ran
      obtain ⟨found,_⟩ := loadEvent_parts.mp loaded
      obtain ⟨staked,amount⟩ := computeClaim_parts.mp share
      have returned := escrow_fell paid closed
      rw [amount] at returned
      have paidOut : (s.lamports (.eventPda ctx.event)).val - (lamports (.eventPda ctx.event)).val =
          event.payoutPool.val * entry.stake.val / (event.side entry.outcome).val := by omega
      simp only [Instruction.event,committedLabel,held]
      rw [view_putBet]
      simp only [drop,putBet_lamports,putEvent_lamports,paidOut]
      exact .claimed found later resolved due held won staked counted returned
  | markRefundable ctx =>
      obtain ⟨event,loaded,isLocked,late,rfl⟩ := markRefundable_parts ran
      obtain ⟨found,_⟩ := loadEvent_parts.mp loaded
      simp only [Instruction.event,committedLabel]
      rw [view_putEvent s s.lamports]
      exact .marked found later isLocked late
  | claimRefund ctx =>
      obtain ⟨event,entry,refund,count,middle,lamports,loaded,held,refundable,due,share,counted,paid,closed,
        rfl⟩ := claimRefund_parts ran
      obtain ⟨found,_⟩ := loadEvent_parts.mp loaded
      obtain ⟨staked,amount⟩ := computeRefund_parts.mp share
      have returned := escrow_fell paid closed
      rw [amount] at returned
      have paidOut : (s.lamports (.eventPda ctx.event)).val - (lamports (.eventPda ctx.event)).val =
          event.payoutPool.val * entry.stake.val / event.pot.val := by omega
      simp only [Instruction.event,committedLabel,held]
      rw [view_putBet]
      simp only [drop,putBet_lamports,putEvent_lamports,paidOut]
      exact .refunded found later refundable due held staked counted returned
  | closeEvent ctx =>
      obtain ⟨event,lamports,loaded,_,terminal,complete,swept,rfl⟩ := closeEvent_parts ran
      obtain ⟨found,_⟩ := loadEvent_parts.mp loaded
      have emptied := (closeAccount_moved (by simp) swept).pays
      simp only [Instruction.event,committedLabel,view_putEvent]
      exact .closed found later terminal complete (by omega)

-- The machine refines the protocol at every key.
theorem advance_projects (key : EventKey) (step : advance s action = some next) :
    EventStep key (view key s) (label key ⟨s,action,next⟩) (view key next) := by
  cases action with
  | invoke sys instruction =>
      obtain ⟨later,⟨after,ran,rfl⟩ | ⟨e,ran,rfl⟩⟩ := advance_invoke step
      · by_cases own : instruction.event = key
        · subst own
          simp only [label,if_true,ran]
          exact execute_own later ran
        · simp only [label,own,if_false]
          have same := execute_other ran own
          have elsewhere : view key {after with clock := sys.unixTimestamp} =
              {view key s with clock := sys.unixTimestamp} := by
            rw [← same]; rfl
          rw [elsewhere]
          exact .quiet later
      · have unchanged : label key ⟨s,.invoke sys instruction,{s with clock := sys.unixTimestamp}⟩ = .quiet := by
          simp only [label,ran]
          split <;> rfl
        rw [unchanged]
        exact .quiet later
  | transfer source target amount =>
      obtain ⟨lamports,moved,rfl⟩ := advance_transfer step
      by_cases own : target = .eventPda key
      · subst own
        simp only [label,if_true]
        exact .donated (systemTransfer_moved (by simp) moved).gets
      · simp only [label,own,if_false]
        have kept := systemTransfer_kept (by simp) (Ne.symm own) moved
        have elsewhere : view key {s with lamports} = {view key s with clock := s.clock} := by
          simp [view,kept]
        rw [elsewhere]
        exact .quiet (Int.le_refl _)

-- The label under which each instruction stands in the history of its event.
inductive Spoken : Instruction → Label → Prop where
  | created : Spoken (.createEvent ctx feedId condition thresholdE8 bettingCloseTime resolutionTime) (.created escrow)
  | placed : Spoken (.placeBet ctx outcome stake) (.placed now bettor entry)
  | cancelled : Spoken (.cancelBet ctx) (.cancelled now bettor entry paid)
  | locked : Spoken (.lockEvent ctx) (.locked now)
  | resolved : Spoken (.resolveEvent ctx) (.resolved now update)
  | challenged : Spoken (.challengeResolution ctx) (.challenged now update)
  | finalized : Spoken (.finalizeResolution ctx) (.finalized now)
  | claimed : Spoken (.claim ctx) (.claimed now bettor entry paid)
  | marked : Spoken (.markRefundable ctx) (.marked now)
  | refunded : Spoken (.claimRefund ctx) (.refunded now bettor entry paid)
  | closed : Spoken (.closeEvent ctx) (.closed now)

theorem committed_spoken (spoken : committedLabel key t now instruction ≠ .quiet) :
    Spoken instruction (committedLabel key t now instruction) := by
  cases instruction with
  | createEvent => exact .created
  | placeBet => exact .placed
  | cancelBet ctx =>
      cases held : t.before.bets key ctx.bettor with
      | some entry => simp only [committedLabel,held]; exact .cancelled
      | none => simp only [committedLabel,held] at spoken; exact (spoken rfl).elim
  | lockEvent => exact .locked
  | resolveEvent => exact .resolved
  | challengeResolution => exact .challenged
  | finalizeResolution => exact .finalized
  | claim ctx =>
      cases held : t.before.bets key ctx.bettor with
      | some entry => simp only [committedLabel,held]; exact .claimed
      | none => simp only [committedLabel,held] at spoken; exact (spoken rfl).elim
  | markRefundable => exact .marked
  | claimRefund ctx =>
      cases held : t.before.bets key ctx.bettor with
      | some entry => simp only [committedLabel,held]; exact .refunded
      | none => simp only [committedLabel,held] at spoken; exact (spoken rfl).elim
  | closeEvent => exact .closed

-- Only an instruction of the event that succeeds has a label of its own.
theorem label_invoked (key : EventKey) (s : Chain) (sys : Sysvars) (instruction : Instruction) (next : Chain) :
    label key ⟨s,.invoke sys instruction,next⟩ = .quiet ∨
      (instruction.event = key ∧ (∃ after, execute sys instruction s = .ok after) ∧
        Spoken instruction (label key ⟨s,.invoke sys instruction,next⟩)) := by
  unfold label
  by_cases own : instruction.event = key
  · cases ran : execute sys instruction s with
    | ok after =>
        simp only [own,ran,if_true]
        by_cases quiet : committedLabel key ⟨s,.invoke sys instruction,next⟩ sys.unixTimestamp instruction = .quiet
        · exact .inl quiet
        · exact .inr ⟨trivial,⟨after,rfl⟩,committed_spoken quiet⟩
    | error cause => simp only [own,ran,if_true]; exact .inl trivial
  · simp only [own,if_false]
    exact .inl trivial

end Solclash.EventProtocol
