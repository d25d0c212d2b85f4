import Solclash.Foundations.Balances
import Solclash.Foundations.Fallible
import Solclash.State

namespace Solclash
open Fallible

-- Addresses by what they are derived from. Distinct seeds give distinct
-- addresses and no derived address can sign, so signers are always wallets.
inductive Address where
  | wallet (key : Pubkey)
  | eventPda (event : EventKey)
  | betPda (event : EventKey) (bettor : Pubkey)
  deriving DecidableEq

abbrev Lamports := Address → U64

-- The program's accounts beside every balance of the ledger. A missing event
-- or entry is an address the program does not own yet, or no longer owns.
structure Chain where
  clock : I64
  lamports : Lamports
  events : EventKey → Option Event
  bets : EventKey → Pubkey → Option BetEntry

structure Sysvars where
  unixTimestamp : I64
  minimumBalance : Nat → U64

def Chain.putEvent (s : Chain) (key : EventKey) (event : Option Event) : Chain :=
  {s with events := Function.update s.events key event}
def Chain.putBet (s : Chain) (key : EventKey) (bettor : Pubkey) (entry : Option BetEntry) : Chain :=
  {s with bets := Function.update s.bets key (Function.update (s.bets key) bettor entry)}

-- system_program::transfer
def systemTransfer (lamports : Lamports) (source target : Address) (amount : U64) : Except ProgramError Lamports := do
  let paid ← okOr (Balances.debit lamports source amount) (AnchorError.insufficientFunds : ProgramError)
  okOr (Balances.credit paid target amount) (AnchorError.balanceOverflow : ProgramError)

-- instructions/mod.rs. Both balances are borrowed together, so the source and
-- the destination are always two different accounts.
def transferFromPda (lamports : Lamports) (source target : Address) (amount : U64) : Except ProgramError Lamports := do
  let paid ← okOr (Balances.debit lamports source amount) (SolclashError.mathOverflow : ProgramError)
  okOr (Balances.credit paid target amount) (SolclashError.mathOverflow : ProgramError)

-- `init`: tops the new account up to the rent-exempt minimum of its size.
def initAccount (sys : Sysvars) (lamports : Lamports) (payer account : Address) (space : Nat) :
    Except ProgramError Lamports :=
  match (sys.minimumBalance space).checkedSub (lamports account) with
  | none => .ok lamports
  | some missing => systemTransfer lamports payer account missing

-- `close`: hands every lamport of the account to the destination.
def closeAccount (lamports : Lamports) (account destination : Address) : Except ProgramError Lamports := do
  let paid ← okOr (Balances.debit lamports account (lamports account)) (AnchorError.balanceOverflow : ProgramError)
  okOr (Balances.credit paid destination (lamports account)) (AnchorError.balanceOverflow : ProgramError)

-- `Account<'info, Event>` with its `seeds` constraint.
def loadEvent (s : Chain) (key : EventKey) : Except ProgramError Event := do
  let event ← okOr (s.events key) (AnchorError.accountNotInitialized : ProgramError)
  require (event.creator = key.creator ∧ event.eventId = key.eventId) (AnchorError.constraintSeeds : ProgramError)
  pure event

-- `Account<'info, BetEntry>` found by its seeds.
def loadBet (s : Chain) (key : EventKey) (bettor : Pubkey) : Except ProgramError BetEntry :=
  okOr (s.bets key bettor) (AnchorError.accountNotInitialized : ProgramError)

-- The escrow checkpoint, written out at the end of five handlers.
def requireEscrow (lamports : Lamports) (key : EventKey) (event : Event) : Except ProgramError Unit := do
  let needed ← okOr (event.rentExemptMinimum.checkedAdd event.outstandingLiability)
    (SolclashError.mathOverflow : ProgramError)
  require (needed ≤ lamports (.eventPda key)) (SolclashError.escrowMismatch : ProgramError)

-- `?` on a result of the pure modules.
def lift (x : Except SolclashError α) : Except ProgramError α :=
  match x with
  | .ok a => .ok a
  | .error e => .error e

section effects
variable {s : Chain} {key : EventKey} {bettor : Pubkey} {event : Event} {entry : BetEntry}
  {lamports after : Lamports} {source target account destination : Address} {amount : U64}

theorem systemTransfer_moved (distinct : source ≠ target)
    (ran : systemTransfer lamports source target amount = .ok after) :
    Balances.Moved lamports source target amount.val after := by
  simp only [systemTransfer,bind_ok,okOr_ok] at ran
  obtain ⟨paid,debited,credited⟩ := ran
  exact Balances.moved distinct debited credited

theorem systemTransfer_capped (capped : Balances.Capped lamports)
    (ran : systemTransfer lamports source target amount = .ok after) : Balances.Capped after := by
  simp only [systemTransfer,bind_ok,okOr_ok] at ran
  obtain ⟨paid,debited,credited⟩ := ran
  exact Balances.capped_moved capped debited credited

theorem systemTransfer_kept (fromOther : account ≠ source) (toOther : account ≠ target)
    (ran : systemTransfer lamports source target amount = .ok after) : after account = lamports account := by
  simp only [systemTransfer,bind_ok,okOr_ok] at ran
  obtain ⟨paid,debited,credited⟩ := ran
  rw [(Balances.credit_parts credited).2 account toOther,(Balances.debit_parts debited).2 account fromOther]

theorem transferFromPda_moved (distinct : source ≠ target)
    (ran : transferFromPda lamports source target amount = .ok after) :
    Balances.Moved lamports source target amount.val after := by
  simp only [transferFromPda,bind_ok,okOr_ok] at ran
  obtain ⟨paid,debited,credited⟩ := ran
  exact Balances.moved distinct debited credited

theorem transferFromPda_capped (capped : Balances.Capped lamports)
    (ran : transferFromPda lamports source target amount = .ok after) : Balances.Capped after := by
  simp only [transferFromPda,bind_ok,okOr_ok] at ran
  obtain ⟨paid,debited,credited⟩ := ran
  exact Balances.capped_moved capped debited credited

theorem transferFromPda_ok (capped : Balances.Capped lamports) (enough : amount.val ≤ (lamports source).val) :
    ∃ after, transferFromPda lamports source target amount = .ok after := by
  obtain ⟨paid,after,debited,credited⟩ := Balances.move_possible (b:=target) capped enough
  exact ⟨after,by simp [transferFromPda,debited,credited,okOr,bind,Except.bind]⟩

theorem closeAccount_moved (distinct : account ≠ destination)
    (ran : closeAccount lamports account destination = .ok after) :
    Balances.Moved lamports account destination (lamports account).val after := by
  simp only [closeAccount,bind_ok,okOr_ok] at ran
  obtain ⟨paid,debited,credited⟩ := ran
  exact Balances.moved distinct debited credited

theorem closeAccount_capped (capped : Balances.Capped lamports)
    (ran : closeAccount lamports account destination = .ok after) : Balances.Capped after := by
  simp only [closeAccount,bind_ok,okOr_ok] at ran
  obtain ⟨paid,debited,credited⟩ := ran
  exact Balances.capped_moved capped debited credited

theorem closeAccount_ok (capped : Balances.Capped lamports) :
    ∃ after, closeAccount lamports account destination = .ok after := by
  obtain ⟨paid,after,debited,credited⟩ :=
    Balances.move_possible (b:=destination) capped (le_refl (lamports account).val)
  exact ⟨after,by simp [closeAccount,debited,credited,okOr,bind,Except.bind]⟩

theorem initAccount_moved {sys : Sysvars} {space : Nat} (distinct : source ≠ account)
    (ran : initAccount sys lamports source account space = .ok after) :
    ∃ rent : Int, 0 ≤ rent ∧ Balances.Moved lamports source account rent after ∧
      (sys.minimumBalance space).val ≤ (after account).val := by
  unfold initAccount at ran
  split at ran
  · rename_i covered
    cases ran
    have short := RangedInt.checkedSub_none.mp covered
    have upper := (sys.minimumBalance space).upper
    have lower := (lamports account).lower
    exact ⟨0,le_refl 0,⟨by simp,by simp,fun _ _ _ => rfl⟩,by omega⟩
  · rename_i missing difference
    have amount := RangedInt.checkedSub_some.mp difference
    have moved := systemTransfer_moved distinct ran
    exact ⟨missing.val,missing.lower,moved,by rw [moved.gets]; omega⟩

theorem initAccount_capped {sys : Sysvars} {space : Nat} (capped : Balances.Capped lamports)
    (ran : initAccount sys lamports source account space = .ok after) : Balances.Capped after := by
  unfold initAccount at ran
  split at ran
  · cases ran; exact capped
  · exact systemTransfer_capped capped ran

theorem loadEvent_parts : loadEvent s key = .ok event ↔
    s.events key = some event ∧ event.creator = key.creator ∧ event.eventId = key.eventId := by
  simp only [loadEvent,bind_ok,okOr_ok,require_ok,pure_ok]
  constructor
  · rintro ⟨loaded,found,_,seeds,rfl⟩
    exact ⟨found,seeds⟩
  · rintro ⟨found,seeds⟩
    exact ⟨event,found,(),seeds,rfl⟩

theorem loadBet_parts : loadBet s key bettor = .ok entry ↔ s.bets key bettor = some entry := okOr_ok

theorem requireEscrow_parts {u : Unit} : requireEscrow lamports key event = .ok u ↔
    event.rentExemptMinimum.val + event.outstandingLiability.val ≤ (lamports (.eventPda key)).val := by
  simp only [requireEscrow,bind_ok,okOr_ok,require_ok,RangedInt.checkedAdd_some,RangedInt.le_iff]
  constructor
  · rintro ⟨needed,sum,covered⟩
    omega
  · intro covered
    have rent := event.rentExemptMinimum.lower
    have liability := event.outstandingLiability.lower
    have upper := (lamports (.eventPda key)).upper
    exact ⟨⟨event.rentExemptMinimum.val + event.outstandingLiability.val,by omega,by omega⟩,rfl,covered⟩

end effects

theorem lift_ok {x : Except SolclashError α} {a : α} : lift x = .ok a ↔ x = .ok a := by
  cases x <;> simp [lift]

theorem lift_error {x : Except SolclashError α} {e : ProgramError} :
    lift x = .error e ↔ ∃ cause, x = .error cause ∧ e = .solclash cause := by
  cases x <;> simp [lift,eq_comm]

end Solclash
