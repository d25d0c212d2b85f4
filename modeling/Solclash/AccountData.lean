import Solclash.Foundations.Codec
import Solclash.State

-- The two account types as bytes: each fits into the space that its account
-- is created with, whatever is written into it and how often.
namespace Solclash.AccountData
open Codec

-- The serializer's part: a format for each field type and the mark in front
-- of each account type. Composite types are its fields in declared order.
structure Wire where
  u8 : Codec U8
  u32 : Codec U32
  u64 : Codec U64
  i64 : Codec I64
  i128 : Codec I128
  pubkey : Codec Pubkey
  array : Codec FeedId
  eventMark : Bytes
  betEntryMark : Bytes
  u8_size : u8.Sized 1
  u32_size : u32.Sized 4
  u64_size : u64.Sized 8
  i64_size : i64.Sized 8
  i128_size : i128.Sized 16
  pubkey_size : pubkey.Sized 32
  array_size : array.Sized 32
  eventMark_size : eventMark.length = 8
  betEntryMark_size : betEntryMark.length = 8
  marks_differ : eventMark ≠ betEntryMark

def statuses : List EventStatus := [.open,.locked,.resolving,.resolved,.refundable]
def status : Codec EventStatus :=
  listed statuses (fun s => by cases s <;> decide) (by decide) (by decide)

abbrev EventFields := Pubkey × U64 × FeedId × U8 × I128 × I64 × I64 × U64 × U64 × U64 × U32 × U64 × EventStatus ×
  Option U8 × I128 × I64 × I64 × U64 × U32 × U8

def fieldsOf (e : Event) : EventFields :=
  (e.creator,e.eventId,e.feedId,e.condition,e.thresholdE8,e.bettingCloseTime,e.resolutionTime,e.pot,e.yesStake,
    e.noStake,e.bettorCount,e.rentExemptMinimum,e.status,e.candidateOutcome,e.candidatePriceE8,
    e.candidatePublishTime,e.finalizedAt,e.payoutPool,e.betsClosed,e.bump)
def ofFields : EventFields → Event
  | (creator,eventId,feedId,condition,thresholdE8,bettingCloseTime,resolutionTime,pot,yesStake,noStake,bettorCount,
      rentExemptMinimum,status,candidateOutcome,candidatePriceE8,candidatePublishTime,finalizedAt,payoutPool,
      betsClosed,bump) =>
    ⟨creator,eventId,feedId,condition,thresholdE8,bettingCloseTime,resolutionTime,pot,yesStake,noStake,bettorCount,
      rentExemptMinimum,status,candidateOutcome,candidatePriceE8,candidatePublishTime,finalizedAt,payoutPool,
      betsClosed,bump⟩

def fields (w : Wire) : Codec EventFields :=
  w.pubkey.pair (w.u64.pair (w.array.pair (w.u8.pair (w.i128.pair (w.i64.pair (w.i64.pair (w.u64.pair (w.u64.pair
    (w.u64.pair (w.u32.pair (w.u64.pair (status.pair (w.u8.option.pair (w.i128.pair (w.i64.pair (w.i64.pair
      (w.u64.pair (w.u32.pair w.u8))))))))))))))))))
def event (w : Wire) : Codec Event :=
  ((fields w).map ofFields fieldsOf (fun _ => rfl) (fun _ => rfl)).after w.eventMark

-- The account itself names its event by address; the model by its seeds.
structure BetEntryData where
  event : Pubkey
  bettor : Pubkey
  outcome : U8
  stake : U64
  bump : U8

def betEntry (w : Wire) : Codec BetEntryData :=
  ((w.pubkey.pair (w.pubkey.pair (w.u8.pair (w.u64.pair w.u8)))).map
    (fun (event,bettor,outcome,stake,bump) => ⟨event,bettor,outcome,stake,bump⟩)
    (fun d => (d.event,d.bettor,d.outcome,d.stake,d.bump)) (fun _ => rfl) (fun _ => rfl)).after w.betEntryMark

theorem fields_length (w : Wire) (e : Event) :
    ((fields w).write (fieldsOf e)).length = 188 + e.candidateOutcome.elim 0 fun _ => 1 := by
  simp only [fields,fieldsOf,pair_length,option_length,status,listed_length,w.u8_size _,w.u32_size _,w.u64_size _,
    w.i64_size _,w.i128_size _,w.pubkey_size _,w.array_size _]
  omega

-- Exactly the space of the account, but for the payload of an empty option.
theorem event_length (w : Wire) (e : Event) :
    ((event w).write e).length + (if e.candidateOutcome = none then 1 else 0) = Event.space := by
  have marked : ((event w).write e).length = 8 + ((fields w).write (fieldsOf e)).length := by
    rw [event,after_length,w.eventMark_size]
    rfl
  rw [marked,fields_length]
  cases e.candidateOutcome <;> rfl

theorem betEntry_length (w : Wire) (d : BetEntryData) : ((betEntry w).write d).length = BetEntry.space := by
  simp only [betEntry,after_length,map_length,pair_length,w.betEntryMark_size,w.u8_size _,w.u64_size _,w.pubkey_size _]
  rfl

theorem event_fits (w : Wire) (e : Event) : ((event w).write e).length ≤ Event.space := by
  have whole := event_length w e
  omega

-- What the two account types have to keep while they live.
structure Accounts (w : Wire) : Prop where
  event : (event w).Holds Event.space
  betEntry : (betEntry w).Holds BetEntry.space
  notEvent : ∀ {d buffer next}, (AccountData.betEntry w).store d buffer = some next → (AccountData.event w).load next = none
  notBetEntry : ∀ {e buffer next}, (AccountData.event w).store e buffer = some next → (AccountData.betEntry w).load next = none

def someEvent : Event :=
  ⟨⟨0⟩,.lit 0,0,.lit 0,.lit 0,.lit 0,.lit 0,.lit 0,.lit 0,.lit 0,.lit 0,.lit 0,.open,some (.lit 0),.lit 0,.lit 0,.lit 0,
    .lit 0,.lit 0,.lit 0⟩
def someBetEntry : BetEntryData := ⟨⟨0⟩,⟨0⟩,.lit 0,.lit 0,.lit 0⟩

theorem accounts_hold (w : Wire) : Accounts w where
  event := holds_of (a:=someEvent) (event_fits w) (event_length w someEvent)
  betEntry := holds_of (a:=someBetEntry) (fun d => (betEntry_length w d).le) (betEntry_length w someBetEntry)
  notEvent := by
    intro d buffer next stored
    obtain ⟨_,rfl⟩ := store_some.mp stored
    have sizes := w.eventMark_size.trans w.betEntryMark_size.symm
    rw [load,AccountData.event,AccountData.betEntry,after_other sizes w.marks_differ]
    rfl
  notBetEntry := by
    intro e buffer next stored
    obtain ⟨_,rfl⟩ := store_some.mp stored
    have sizes := w.betEntryMark_size.trans w.eventMark_size.symm
    rw [load,AccountData.event,AccountData.betEntry,after_other sizes w.marks_differ.symm]
    rfl

-- Borsh with the marks that the framework derives from the two type names.
def borsh : Wire where
  u8 := ranged 1 (by decide) (by decide) (by decide)
  u32 := ranged 4 (by decide) (by decide) (by decide)
  u64 := ranged 8 (by decide) (by decide) (by decide)
  i64 := ranged 8 (by decide) (by decide) (by decide)
  i128 := ranged 16 (by decide) (by decide) (by decide)
  pubkey := (array 32).map (fun x => ⟨x⟩) (·.bytes) (fun _ => rfl) (fun _ => rfl)
  array := Codec.array 32
  eventMark := [125,192,125,158,9,115,152,233]
  betEntryMark := [32,21,144,65,176,182,3,204]
  u8_size := sized_ranged 1 _ _ _
  u32_size := sized_ranged 4 _ _ _
  u64_size := sized_ranged 8 _ _ _
  i64_size := sized_ranged 8 _ _ _
  i128_size := sized_ranged 16 _ _ _
  pubkey_size := fun key => sized_array 32 key.bytes
  array_size := sized_array 32
  eventMark_size := rfl
  betEntryMark_size := rfl
  marks_differ := by decide

theorem accounts_hold_sample : (event borsh).Holds Event.space ∧ (betEntry borsh).Holds BetEntry.space :=
  ⟨(accounts_hold borsh).event,(accounts_hold borsh).betEntry⟩

end Solclash.AccountData
