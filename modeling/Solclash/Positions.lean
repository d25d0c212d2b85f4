import Solclash.Lifetimes

-- The clocks at which positions change, against the publish times of the
-- prices that settle them.
namespace Solclash.Positions
open EventProtocol EventBook EventSchedule Lifetimes

-- A bet is placed before any accepted price is published. A cancellation is
-- only older than the lock, and so than the price if one of the two came early.
structure BeforePrice (labels : List Label) (resolutionTime : I64) (publishTime : I64) : Prop where
  placements : ∀ {now bettor entry}, .placed now bettor entry ∈ labels → now.val < publishTime.val
  cancellations : ∃ lock, .locked lock ∈ labels ∧
    ∀ {now bettor entry paid}, .cancelled now bettor entry paid ∈ labels → now.val ≤ lock.val ∧
      (lock.val < resolutionTime.val - 60 ∨ now.val < resolutionTime.val - 60 → now.val < publishTime.val)

theorem before_price {labels : List Label} (schedule : Schedule labels e clock) (member : l ∈ labels)
    (accepted : Label.accepted l = some update) : BeforePrice labels e.resolutionTime update.publishTime := by
  obtain ⟨least,_,lock,locked⟩ := schedule.updates member accepted
  obtain ⟨_,order⟩ := schedule.lockings locked
  have gap := schedule.gap
  refine ⟨?_,lock,locked,?_⟩
  · intro now bettor entry placed
    have betting := schedule.placements placed
    omega
  · intro now bettor entry paid cancelled
    have before := order cancelled
    refine ⟨before,?_⟩
    rintro (early | early) <;> omega

theorem positions_before_price (genesis : Genesis origin) (run : Run origin history s)
    (found : s.events key = some e) (member : l ∈ sinceCreation (labelsAt key history))
    (accepted : Label.accepted l = some update) :
    BeforePrice (sinceCreation (labelsAt key history)) e.resolutionTime update.publishTime := by
  have schedule := (sound_reachable key genesis run).schedule e found
  exact before_price schedule member accepted

section sample
open SampleMarket

-- A third bettor comes at 40 and leaves at 45, long before the lock.
def resolving : List Action :=
  bets ++ [bet (.lit 40) creator outcomeYes (.lit 20000000),.invoke (sysvars (.lit 45)) (.cancelBet ⟨creator,market⟩),lock,
    resolve (.lit 400) (update (.lit 1000) (.lit 390))]
def submitted : ExtractedPriceUpdate := extract (update (.lit 1000) (.lit 390))
def withdrawn : Label := .cancelled (.lit 45) creator ⟨market,creator,outcomeYes,.lit 20000000,.lit 254⟩ 20000000

theorem positions_before_price_sample :
    withdrawn ∈ sinceCreation (labelsAt market (historyOf resolving)) ∧
      BeforePrice (sinceCreation (labelsAt market (historyOf resolving))) (.lit 400) submitted.publishTime := by
  have run : Run opening (historyOf resolving) (stateOf resolving) := play_run (rfl : (play resolving).isSome = true)
  have found : (stateOf resolving).events market = some _ := rfl
  have first : Label.resolved (.lit 400) submitted ∈ sinceCreation (labelsAt market (historyOf resolving)) :=
    List.mem_cons_self ..
  have third : withdrawn ∈ sinceCreation (labelsAt market (historyOf resolving)) :=
    List.mem_cons_of_mem _ (List.mem_cons_of_mem _ (List.mem_cons_self ..))
  exact ⟨third,positions_before_price opening_genesis run found first rfl⟩

-- Nobody locks in time: a third bettor waits until the settling price is out,
-- then leaves, and only now the event is locked and resolved.
def leaving : List Action :=
  bets ++ [bet (.lit 40) creator outcomeYes (.lit 20000000),.invoke (sysvars (.lit 450)) (.cancelBet ⟨creator,market⟩),
    .invoke (sysvars (.lit 450)) (.lockEvent ⟨bob,market⟩),resolve (.lit 450) (update (.lit 1000) (.lit 390))]

def AllBeforePrice (labels : List Label) (publishTime : I64) : Prop :=
  (∀ {now bettor entry}, .placed now bettor entry ∈ labels → now.val < publishTime.val) ∧
    ∀ {now bettor entry paid}, .cancelled now bettor entry paid ∈ labels → now.val < publishTime.val

theorem cancelled_after_price : ¬ ∀ {origin s : Chain} {history : List Step} {key : EventKey} {e : Event},
    Genesis origin → Run origin history s → s.events key = some e → e.status = .resolving →
    ∀ {l update}, l ∈ sinceCreation (labelsAt key history) → Label.accepted l = some update →
      AllBeforePrice (sinceCreation (labelsAt key history)) update.publishTime := by
  intro claimed
  have run : Run opening (historyOf leaving) (stateOf leaving) := play_run (rfl : (play leaving).isSome = true)
  have found : (stateOf leaving).events market = some _ := rfl
  have price : Label.resolved (.lit 450) submitted ∈ sinceCreation (labelsAt market (historyOf leaving)) :=
    List.mem_cons_self ..
  have cancelled : Label.cancelled (.lit 450) creator ⟨market,creator,outcomeYes,.lit 20000000,.lit 254⟩ 20000000 ∈
      sinceCreation (labelsAt market (historyOf leaving)) :=
    List.mem_cons_of_mem _ (List.mem_cons_of_mem _ (List.mem_cons_self ..))
  have early := (claimed opening_genesis run found rfl price rfl).2 cancelled
  revert early
  decide
end sample

end Solclash.Positions
