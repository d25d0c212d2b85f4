import Solclash.Endings
import Solclash.Lifecycle
import Solclash.MathLaws

-- Where the candidate of an event comes from: one accepted update of its own
-- life, inside the publish window, whose band gives the outcome it stands for.
namespace Solclash.Candidates
open EventProtocol EventBook EventPurse EventSchedule Lifetimes Lifecycle Endings

-- The event does not store the confidence; the update that it came from has it.
structure Supported (e : Event) (update : ExtractedPriceUpdate) (confE8 : I128) : Prop where
  owner : update.ownerOk = true
  full : update.verificationFull = true
  feed : update.feedId = e.feedId
  published : update.publishTime = e.candidatePublishTime
  price : normalizeToE8 update.price.widen update.exponent = .ok e.candidatePriceE8
  conf : normalizeToE8 update.conf.widen update.exponent = .ok confE8
  nonneg : 0 ≤ confE8.val
  narrow : 10000 * confE8.val / e.candidatePriceE8.val ≤ confMaxRatioBpsDev.val
  outcome : resolveConfidenceBand e.condition e.candidatePriceE8 confE8 e.thresholdE8 = .ok e.candidateOutcome

structure Integrity (labels : List Label) (e : Event) : Prop where
  least : e.resolutionTime.val - publishWindowSecs.val ≤ e.candidatePublishTime.val
  most : e.candidatePublishTime.val ≤ e.resolutionTime.val
  price : 0 < e.candidatePriceE8.val
  evidence : ∃ l ∈ labels, ∃ update confE8, Label.accepted l = some update ∧ Supported e update confE8

-- Resolving, or ended by way of it.
def Judged (labels : List Label) (e : Event) : Prop :=
  e.status = .resolving ∨ e.status = .resolved ∨ e.status = .refundable ∧ Finalized labels

variable {key : EventKey} {labels : List Label} {l : Label} {e e' : Event} {v next : View}
  {update : ExtractedPriceUpdate} {confE8 : I128}

theorem confidence_nonneg (conf : normalizeToE8 value exponent = .ok confE8) (nonneg : 0 ≤ value.val) :
    0 ≤ confE8.val := by
  rw [MathLaws.normalizeToE8_truncates conf]
  exact DecimalScale.truncated_nonneg nonneg _

theorem supported_candidate (accepted : verifyPriceUpdate update e.feedId e.resolutionTime = .ok verified)
    (decided : resolveConfidenceBand e.condition verified.priceE8 verified.confE8 e.thresholdE8 = .ok outcome) :
    Supported (e.withCandidate outcome verified) update verified.confE8 := by
  obtain ⟨owner,full,feed,_,_,_,price,conf,⟨ratioBps,ratio,narrow⟩,published⟩ := verifyPriceUpdate_parts accepted
  obtain ⟨_,_,quotient⟩ := confidenceRatioBps_parts.mp ratio
  have nonneg := confidence_nonneg conf update.conf.lower
  exact {
    owner := owner
    full := full
    feed := feed
    published := published.symm
    price := price
    conf := conf
    nonneg := nonneg
    narrow := by
      rw [quotient,Int.tdiv_eq_ediv_of_nonneg (by omega),Int.mul_comm] at narrow
      exact narrow
    outcome := decided }

-- Neither the terms nor the candidate have moved.
theorem Supported.carry (supported : Supported e update confE8) (same : terms e' = terms e)
    (held : verdict e' = verdict e) : Supported e' update confE8 := by
  obtain ⟨_,_,feed,condition,threshold,_⟩ := Terms.mk.inj same
  obtain ⟨outcome,price,published⟩ := Verdict.mk.inj held
  obtain ⟨owner,full,listed,stamped,value,conf,nonneg,narrow,band⟩ := supported
  rw [← feed] at listed
  rw [← published] at stamped
  rw [← price] at value narrow
  rw [← outcome,← price,← condition,← threshold] at band
  exact ⟨owner,full,listed,stamped,value,conf,nonneg,narrow,band⟩

theorem integrity_candidate (carries : Label.accepted l = some update)
    (accepted : verifyPriceUpdate update e.feedId e.resolutionTime = .ok verified)
    (decided : resolveConfidenceBand e.condition verified.priceE8 verified.confE8 e.thresholdE8 = .ok outcome)
    (same : terms e' = terms (e.withCandidate outcome verified))
    (held : verdict e' = verdict (e.withCandidate outcome verified)) : Integrity (l :: labels) e' := by
  obtain ⟨_,_,_,most,least,_,_,_,⟨_,ratio,_⟩,published⟩ := verifyPriceUpdate_parts accepted
  obtain ⟨positive,_⟩ := confidenceRatioBps_parts.mp ratio
  obtain ⟨_,_,_,_,_,_,resolution,_⟩ := Terms.mk.inj same
  obtain ⟨_,price,stamped⟩ := Verdict.mk.inj held
  rw [← published,← show e'.resolutionTime = e.resolutionTime from resolution,
    ← show e'.candidatePublishTime = verified.publishTime from stamped] at most least
  rw [← show e'.candidatePriceE8 = verified.priceE8 from price] at positive
  exact ⟨least,most,positive,l,List.mem_cons_self ..,update,verified.confE8,carries,
    (supported_candidate accepted decided).carry same held⟩

theorem Integrity.carry (integrity : Integrity labels e) (same : terms e' = terms e) (held : verdict e' = verdict e) :
    Integrity (l :: labels) e' := by
  obtain ⟨_,_,_,_,_,_,resolution,_⟩ := Terms.mk.inj same
  obtain ⟨_,price,published⟩ := Verdict.mk.inj held
  obtain ⟨least,most,positive,accepted,member,update,confE8,carries,supported⟩ := integrity
  rw [← resolution,← published] at least most
  rw [← price] at positive
  exact ⟨least,most,positive,accepted,List.mem_cons_of_mem _ member,update,confE8,carries,supported.carry same held⟩

theorem unjudged (early : e.status = .open ∨ e.status = .locked) : ¬ Judged labels e := by
  rintro (resolving | resolved | ⟨refundable,_⟩) <;> rcases early with status | status <;> simp_all

-- An event that goes back to its bettors without a price is not judged.
theorem unjudged_returned (ending : Ending labels e) (early : ¬ Terminal e.status) (other : finalizes l = false)
    (refundable : e'.status = .refundable) : ¬ Judged (l :: labels) e' := by
  rintro (resolving | resolved | ⟨_,finalized⟩)
  · rw [refundable] at resolving; cases resolving
  · rw [refundable] at resolved; cases resolved
  · exact ending.pending early ((Finalized.skip other).mp finalized)

theorem judged_before (judged : Judged (l :: labels) e') (same : e'.status = e.status) (other : finalizes l = false) :
    Judged labels e := by
  rw [Judged,same,Finalized.skip other] at judged
  exact judged

structure Judgement (labels : List Label) (e : Event) : Prop where
  ending : Ending labels e
  integrity : Judged labels e → Integrity labels e

theorem judgement_step (book : Book key labels e v.bets) (before : Judgement labels e) (step : EventStep key v l next)
    (found : v.event = some e) (found' : next.event = some e') : Judgement (l :: labels) e' := by
  refine ⟨ending_step book before.ending step found found',?_⟩
  obtain ⟨ending,integrity⟩ := before
  intro judged
  cases step with
  | created vacant => rw [found] at vacant; cases vacant
  | placed same _ opened =>
      rw [found] at same; cases same; cases found'
      exact (unjudged (.inl ((Event.withBook_status ..).trans opened)) judged).elim
  | cancelled same _ opened =>
      rw [found] at same; cases same; cases found'
      exact (unjudged (.inl ((Event.withBook_status ..).trans opened)) judged).elim
  | locked same _ opened =>
      cases found'
      exact (unjudged (.inr rfl) judged).elim
  | oneSided same _ opened =>
      rw [found] at same; cases same; cases found'
      exact (unjudged_returned ending (not_terminal_open opened) rfl rfl judged).elim
  | resolved same _ _ _ accepted decided =>
      rw [found] at same; cases same; cases found'
      exact integrity_candidate rfl accepted decided rfl rfl
  | challenged same _ _ _ accepted _ decided =>
      rw [found] at same; cases same; cases found'
      exact integrity_candidate rfl accepted decided rfl rfl
  | ambiguous same _ resolving =>
      rw [found] at same; cases same; cases found'
      exact (integrity (.inl resolving)).carry rfl rfl
  | decided same _ resolving =>
      rw [found] at same; cases same; cases found'
      exact (integrity (.inl resolving)).carry rfl rfl
  | claimed same =>
      rw [found] at same; cases same; cases found'
      exact (integrity (judged_before judged rfl rfl)).carry rfl rfl
  | marked same _ isLocked =>
      rw [found] at same; cases same; cases found'
      exact (unjudged_returned ending (not_terminal_locked isLocked) rfl rfl judged).elim
  | refunded same =>
      rw [found] at same; cases same; cases found'
      exact (integrity (judged_before judged rfl rfl)).carry rfl rfl
  | closed => cases found'
  | donated =>
      rw [show v.event = some e' from found'] at found; cases found
      exact (integrity (judged_before judged rfl rfl)).carry rfl rfl
  | quiet =>
      rw [show v.event = some e' from found'] at found; cases found
      exact (integrity (judged_before judged rfl rfl)).carry rfl rfl

theorem judgement_run (genesis : Genesis origin) (run : Run origin history s) (found : s.events key = some e) :
    Judgement (sinceCreation (labelsAt key history)) e :=
  life_run (P:=Judgement) (fun fresh => ⟨ending_fresh fresh,fun judged => (unjudged (.inl fresh.status) judged).elim⟩)
    judgement_step genesis run found

-- A definite answer of the band is the truth of the condition at its middle.
theorem outcome_holds {thresholdE8 priceE8 : I128} (nonneg : 0 ≤ confE8.val)
    (decided : resolveConfidenceBand condition priceE8 confE8 thresholdE8 = .ok (some outcome)) :
    Known outcome ∧ (outcome = outcomeYes ↔ Holds condition priceE8.val thresholdE8.val) := by
  have known : Known outcome := bandAnswer_known (resolveConfidenceBand_parts decided).2.symm
  have whole := MathLaws.band_whole nonneg decided
  have middle := @MathLaws.band_mid priceE8.val _ nonneg
  refine ⟨known,?_⟩
  rcases known with rfl | rfl
  · have fails := whole.no.mp rfl _ middle
    exact ⟨fun same => (outcomes_differ same).elim,fun holds => (fails holds).elim⟩
  · have holds := whole.yes.mp rfl _ middle
    exact ⟨fun _ => holds,fun _ => rfl⟩

theorem candidate_integrity (genesis : Genesis origin) (run : Run origin history s) (found : s.events key = some e) :
    (Judged (sinceCreation (labelsAt key history)) e →
      e.bettingCloseTime.val < e.resolutionTime.val - publishWindowSecs.val ∧
        Integrity (sinceCreation (labelsAt key history)) e) ∧
    (e.status = .resolved → ∃ outcome, e.candidateOutcome = some outcome ∧ Known outcome ∧
      (outcome = outcomeYes ↔ Holds e.condition e.candidatePriceE8.val e.thresholdE8.val) ∧
      ∀ {sys : Sysvars} {ctx : Claim} {after}, ctx.event = key → claim sys ctx s = .ok after →
        ∃ entry, s.bets key ctx.bettor = some entry ∧ entry.outcome = outcome) := by
  have sound := sound_reachable key genesis run
  have judgement := judgement_run genesis run found
  constructor
  · intro judged
    have gap := (sound.schedule e found).gap
    have window : publishWindowSecs.val = 60 := rfl
    exact ⟨by omega,judgement.integrity judged⟩
  · intro resolved
    obtain ⟨outcome,chosen⟩ := (sound.purse e found).decided resolved
    obtain ⟨_,_,_,_,_,_,_,_,supported⟩ := judgement.integrity (.inr (.inl resolved))
    have band := supported.outcome
    rw [chosen] at band
    obtain ⟨known,truth⟩ := outcome_holds supported.nonneg band
    refine ⟨outcome,chosen,known,truth,?_⟩
    intro sys ctx after own ran
    obtain ⟨event,entry,_,_,_,_,loaded,held,_,_,won,_⟩ := claim_parts ran
    obtain ⟨present,_⟩ := loadEvent_parts.mp loaded
    rw [own] at present held
    rw [found] at present
    cases present
    rw [chosen] at won
    cases won
    exact ⟨entry,held,rfl⟩

section sample
open SampleMarket

def settledEvent : Event := ((stateOf deciding).events market).get rfl

theorem candidate_integrity_sample :
    Integrity (sinceCreation (labelsAt market (historyOf deciding))) settledEvent ∧
      Holds settledEvent.condition settledEvent.candidatePriceE8.val settledEvent.thresholdE8.val := by
  have run : Run opening (historyOf deciding) (stateOf deciding) := play_run (rfl : (play deciding).isSome = true)
  have found : (stateOf deciding).events market = some settledEvent := rfl
  obtain ⟨integrity,truth⟩ := candidate_integrity opening_genesis run found
  obtain ⟨_,chosen,_,meaning,_⟩ := truth rfl
  cases chosen
  exact ⟨(integrity (.inr (.inl rfl))).2,meaning.mp rfl⟩
end sample

end Solclash.Candidates
