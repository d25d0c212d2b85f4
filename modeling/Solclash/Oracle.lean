import Solclash.Math

namespace Solclash
open Fallible

structure ExtractedPriceUpdate where
  ownerOk : Bool
  verificationFull : Bool
  feedId : FeedId
  price : I64
  conf : U64
  exponent : I32
  publishTime : I64
  deriving DecidableEq

structure VerifiedPrice where
  priceE8 : I128
  confE8 : I128
  publishTime : I64
  deriving DecidableEq

def verifyPriceUpdate (update : ExtractedPriceUpdate) (eventFeedId : FeedId) (resolutionTime : I64) :
    Except SolclashError VerifiedPrice := do
  require (update.ownerOk = true) .oracleOwnerMismatch
  require (update.verificationFull = true) .oracleVerificationNotFull
  require (update.feedId = eventFeedId) .oracleFeedMismatch
  require (update.publishTime ≤ resolutionTime) .oraclePublishTimeInFuture
  let earliestValid ← okOr (resolutionTime.checkedSub publishWindowSecs) .mathOverflow
  require (earliestValid ≤ update.publishTime) .oraclePublishTimeTooOld
  require (0 < update.price.val) .oracleInvalidPrice
  let priceE8 ← normalizeToE8 update.price.widen update.exponent
  let confE8 ← normalizeToE8 update.conf.widen update.exponent
  let ratioBps ← confidenceRatioBps priceE8 confE8
  require (ratioBps ≤ confMaxRatioBpsDev) .oracleConfidenceTooWide
  pure ⟨priceE8,confE8,update.publishTime⟩

theorem verifyPriceUpdate_parts {update : ExtractedPriceUpdate} {eventFeedId : FeedId} {resolutionTime : I64}
    {verified : VerifiedPrice} (accepted : verifyPriceUpdate update eventFeedId resolutionTime = .ok verified) :
    update.ownerOk = true ∧ update.verificationFull = true ∧ update.feedId = eventFeedId ∧
      update.publishTime.val ≤ resolutionTime.val ∧ resolutionTime.val - 60 ≤ update.publishTime.val ∧
      0 < update.price.val ∧ normalizeToE8 update.price.widen update.exponent = .ok verified.priceE8 ∧
      normalizeToE8 update.conf.widen update.exponent = .ok verified.confE8 ∧
      (∃ ratioBps, confidenceRatioBps verified.priceE8 verified.confE8 = .ok ratioBps ∧
        ratioBps.val ≤ confMaxRatioBpsDev.val) ∧ verified.publishTime = update.publishTime := by
  simp only [verifyPriceUpdate,bind_ok,okOr_ok,require_ok,pure_ok,RangedInt.checkedSub_some,
    RangedInt.le_iff] at accepted
  obtain ⟨_,owner,_,full,_,feed,_,past,earliestValid,window,_,recent,_,positive,priceE8,price,confE8,conf,
    ratioBps,ratio,_,narrow,rfl⟩ := accepted
  refine ⟨owner,full,feed,past,?_,positive,price,conf,⟨ratioBps,ratio,narrow⟩,rfl⟩
  rw [window] at recent
  exact recent

-- The errors of the checks, in their order, and of the arithmetic between them.
def verifyPriceUpdateErrors : List SolclashError :=
  [.oracleOwnerMismatch,.oracleVerificationNotFull,.oracleFeedMismatch,.oraclePublishTimeInFuture,
    .oraclePublishTimeTooOld,.oracleInvalidPrice,.oracleExponentOutOfRange,.mathOverflow,.oracleConfidenceTooWide]

theorem normalized_listed : RefusesOnly (· ∈ verifyPriceUpdateErrors) (normalizeToE8 value exponent) := by
  apply normalizeToE8_refused.weaken
  rintro cause (rfl | rfl) <;> decide

theorem ratio_listed : RefusesOnly (· ∈ verifyPriceUpdateErrors) (confidenceRatioBps priceE8 confE8) := by
  apply confidenceRatioBps_refused.weaken
  rintro cause (rfl | rfl) <;> decide

theorem verifyPriceUpdate_refused (update : ExtractedPriceUpdate) (eventFeedId : FeedId) (resolutionTime : I64) :
    RefusesOnly (· ∈ verifyPriceUpdateErrors) (verifyPriceUpdate update eventFeedId resolutionTime) := by
  unfold verifyPriceUpdate
  apply RefusesOnly.check (by decide)
  intro owner
  apply RefusesOnly.check (by decide)
  intro full
  apply RefusesOnly.check (by decide)
  intro feed
  apply RefusesOnly.check (by decide)
  intro past
  apply RefusesOnly.lookup (by decide)
  intro earliestValid _
  apply RefusesOnly.check (by decide)
  intro recent
  apply RefusesOnly.check (by decide)
  intro positive
  apply normalized_listed.sequence
  intro priceE8 _
  apply normalized_listed.sequence
  intro confE8 _
  apply ratio_listed.sequence
  intro ratioBps _
  apply RefusesOnly.check (by decide)
  intro narrow
  exact .returned _

-- oracle.rs, mod mock

inductive MockVerificationLevel where
  | partially (numSignatures : U8)
  | full
  deriving DecidableEq

def MockVerificationLevel.isFull : MockVerificationLevel → Bool
  | .full => true
  | .partially _ => false

structure MockPriceUpdate where
  owner : Pubkey
  verificationLevel : MockVerificationLevel
  feedId : FeedId
  price : I64
  conf : U64
  exponent : I32
  publishTime : I64
  deriving DecidableEq

def extract (update : MockPriceUpdate) : ExtractedPriceUpdate where
  ownerOk := decide (update.owner = pythReceiverProgram)
  verificationFull := update.verificationLevel.isFull
  feedId := update.feedId
  price := update.price
  conf := update.conf
  exponent := update.exponent
  publishTime := update.publishTime

end Solclash
