import Mathlib.Data.Fintype.Basic
import Mathlib.Data.FinEnum
import Solclash.Foundations.RangedInt

namespace Solclash

structure Pubkey where
  bytes : BitVec 256
  deriving DecidableEq

instance : Fintype Pubkey :=
  Fintype.ofSurjective (fun n : Fin (2^256) => ⟨⟨n⟩⟩) fun key => ⟨key.bytes.toFin,rfl⟩

-- [u8; 32], compared as a whole and never indexed.
abbrev FeedId := BitVec (8 * 32)

-- constants.rs

def protocolFeeBps : U64 := .lit 1000
def publishWindowSecs : I64 := .lit 60
-- base58 rec5EKMGg6MxZYaMdyBfgwp4d5rB9T1VQH5pJv5LtFJ
def pythReceiverProgram : Pubkey := ⟨0x0cb7fabb52f7a648bb5b317d9a018b9057cb024774fafe01e6c4df98cc385881#256⟩
def resolverRewardDev : U64 := .lit (1820000 + 2 * 5000)
def minStakeLamportsDev : U64 := .lit 18300000
def maxStakeLamportsDev : U64 := .lit 1000000000000
def maxPotLamportsDev : U64 := .lit 10000000000000000
-- The System Program's own address: a placeholder, every byte zero.
def feeWalletDev : Pubkey := ⟨0#256⟩
def minResolutionGapSecsDev : I64 := .lit 300
def resolutionChallengeSecsDev : I64 := .lit 300
def resolutionTimeoutSecsDev : I64 := .lit (7 * 24 * 60 * 60)
def confMaxRatioBpsDev : U64 := .lit 500
def feedWhitelistDev : List FeedId := [(0#8).replicate 32,(1#8).replicate 32,(2#8).replicate 32]
def conditionGreaterThan : U8 := .lit 0
def conditionLessThan : U8 := .lit 1
def outcomeNo : U8 := .lit 0
def outcomeYes : U8 := .lit 1

-- errors.rs

inductive SolclashError where
  | feedNotWhitelisted | invalidCondition | bettingCloseNotInFuture | resolutionGapTooShort
  | eventNotOpen | bettingClosed | invalidOutcome | stakeTooLow | stakeTooHigh | potWouldExceedMax
  | cancelNotOpen
  | lockTooEarly | lockNotOpen
  | oracleOwnerMismatch | oracleVerificationNotFull | oracleFeedMismatch
  | oraclePublishTimeInFuture | oraclePublishTimeTooOld | oracleInvalidPrice
  | oracleConfidenceTooWide | oracleExponentOutOfRange
  | eventNotLocked | resolveTooEarly
  | eventNotResolving | challengeWindowClosed | challengeNotNewer
  | finalizeTooEarly | feeWalletMismatch
  | eventNotResolved | eventNotRefundable | claimBeforeFinalized | notWinningOutcome
  | timeoutNotReached | markRefundableNotLocked
  | payoutsNotComplete | eventNotTerminal
  | escrowMismatch | mathOverflow | zeroWinningStake | zeroPot
  deriving DecidableEq

-- What the framework and the runtime refuse around the handlers.
inductive AnchorError where
  | accountNotInitialized | accountAlreadyInUse | constraintSeeds | constraintMut | constraintAddress
  | insufficientFunds | balanceOverflow
  deriving DecidableEq

inductive ProgramError where
  | solclash (e : SolclashError)
  | anchor (e : AnchorError)
  deriving DecidableEq

instance : Coe SolclashError ProgramError := ⟨.solclash⟩
instance : Coe AnchorError ProgramError := ⟨.anchor⟩

-- state.rs

inductive EventStatus where
  | «open» | locked | resolving | resolved | refundable
  deriving DecidableEq

-- The seeds of an Event PDA stand for its address: derivation is injective.
structure EventKey where
  creator : Pubkey
  eventId : U64
  deriving DecidableEq

structure Event where
  creator : Pubkey
  eventId : U64
  feedId : FeedId
  condition : U8
  thresholdE8 : I128
  bettingCloseTime : I64
  resolutionTime : I64
  pot : U64
  yesStake : U64
  noStake : U64
  bettorCount : U32
  rentExemptMinimum : U64
  status : EventStatus
  candidateOutcome : Option U8
  candidatePriceE8 : I128
  candidatePublishTime : I64
  finalizedAt : I64
  payoutPool : U64
  betsClosed : U32
  bump : U8
  deriving DecidableEq

def Event.space : Nat :=
  8 + 32 + 8 + 32 + 1 + 16 + 8 + 8 + 8 + 8 + 8 + 4 + 8 + 1 + 2 + 16 + 8 + 8 + 8 + 4 + 1

def Event.outstandingLiability (e : Event) : U64 :=
  match e.status with
  | .open | .locked | .resolving => e.pot
  | .resolved | .refundable => e.payoutPool

-- The counter that a bet on the outcome is booked in; every handler picks it
-- with the same test.
def Event.side (e : Event) (outcome : U8) : U64 := if outcome = outcomeYes then e.yesStake else e.noStake
def Event.withSide (e : Event) (outcome : U8) (stake : U64) : Event :=
  if outcome = outcomeYes then {e with yesStake := stake} else {e with noStake := stake}

-- The three counters that a placed or cancelled bet moves together.
def Event.withBook (e : Event) (outcome : U8) (pot side : U64) (bettorCount : U32) : Event :=
  {({e with pot}.withSide outcome side) with bettorCount}

section book
variable (e : Event) (outcome : U8) (pot side : U64) (count : U32)

@[simp] theorem Event.withBook_pot : (e.withBook outcome pot side count).pot = pot := by
  unfold withBook withSide; split <;> rfl
@[simp] theorem Event.withBook_bettorCount : (e.withBook outcome pot side count).bettorCount = count := rfl
@[simp] theorem Event.withBook_side : (e.withBook outcome pot side count).side outcome = side := by
  unfold withBook withSide Event.side; split <;> simp_all
@[simp] theorem Event.withBook_status : (e.withBook outcome pot side count).status = e.status := by
  unfold withBook withSide; split <;> rfl
@[simp] theorem Event.withBook_creator : (e.withBook outcome pot side count).creator = e.creator := by
  unfold withBook withSide; split <;> rfl
@[simp] theorem Event.withBook_eventId : (e.withBook outcome pot side count).eventId = e.eventId := by
  unfold withBook withSide; split <;> rfl
@[simp] theorem Event.withBook_betsClosed : (e.withBook outcome pot side count).betsClosed = e.betsClosed := by
  unfold withBook withSide; split <;> rfl
@[simp] theorem Event.withBook_rentExemptMinimum :
    (e.withBook outcome pot side count).rentExemptMinimum = e.rentExemptMinimum := by
  unfold withBook withSide; split <;> rfl
@[simp] theorem Event.withBook_bettingCloseTime :
    (e.withBook outcome pot side count).bettingCloseTime = e.bettingCloseTime := by
  unfold withBook withSide; split <;> rfl
@[simp] theorem Event.withBook_resolutionTime :
    (e.withBook outcome pot side count).resolutionTime = e.resolutionTime := by
  unfold withBook withSide; split <;> rfl
@[simp] theorem Event.withBook_finalizedAt : (e.withBook outcome pot side count).finalizedAt = e.finalizedAt := by
  unfold withBook withSide; split <;> rfl

theorem Event.withBook_yesStake : (e.withBook outcome pot side count).yesStake =
    if outcome = outcomeYes then side else e.yesStake := by
  unfold withBook withSide; split <;> rfl
theorem Event.withBook_noStake : (e.withBook outcome pot side count).noStake =
    if outcome = outcomeYes then e.noStake else side := by
  unfold withBook withSide; split <;> rfl

end book

structure BetEntry where
  event : EventKey
  bettor : Pubkey
  outcome : U8
  stake : U64
  bump : U8
  deriving DecidableEq

def BetEntry.space : Nat := 8 + 32 + 32 + 1 + 8 + 1

end Solclash
