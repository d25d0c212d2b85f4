import Mathlib.Logic.Equiv.Defs
import Solclash.Scheduling

-- No wallet is privileged: exchange the wallets in any way that leaves the fee
-- wallet in place, and every run is exchanged with them.
namespace Solclash
open Fallible Scheduling

structure Renaming where
  wallets : Equiv.Perm Pubkey
  feeWallet : wallets feeWalletDev = feeWalletDev

namespace Renaming
def names (r : Renaming) : Names := ⟨r.wallets,r.wallets.injective,r.feeWallet⟩

def inverse (r : Renaming) : Renaming where
  wallets := r.wallets.symm
  feeWallet := r.wallets.symm_apply_eq.mpr r.feeWallet.symm

variable (r : Renaming)

theorem wallet_back (key : Pubkey) : r.inverse.names.wallet (r.names.wallet key) = key := r.wallets.symm_apply_apply key
theorem wallet_forth (key : Pubkey) : r.names.wallet (r.inverse.names.wallet key) = key := r.wallets.apply_symm_apply key

theorem key_back (key : EventKey) : r.inverse.names.key (r.names.key key) = key := by
  simp only [Names.key,wallet_back]
theorem key_forth (key : EventKey) : r.names.key (r.inverse.names.key key) = key := by
  simp only [Names.key,wallet_forth]

theorem address_back (a : Address) : r.inverse.names.address (r.names.address a) = a := by
  cases a <;> simp only [Names.address,key_back,wallet_back]
theorem address_forth (a : Address) : r.names.address (r.inverse.names.address a) = a := by
  cases a <;> simp only [Names.address,key_forth,wallet_forth]

theorem event_back (e : Event) : r.inverse.names.event (r.names.event e) = e := by
  simp only [Names.event,wallet_back]
theorem entry_back (entry : BetEntry) : r.inverse.names.entry (r.names.entry entry) = entry := by
  simp only [Names.entry,key_back,wallet_back]

def addresses : Address ≃ Address where
  toFun := r.names.address
  invFun := r.inverse.names.address
  left_inv := r.address_back
  right_inv := r.address_forth

-- Every account of the renamed ledger holds what the account renamed to it held.
def transport : Transport r.names (fun _ => True) where
  clock := fun c => c
  lamports l a := l (r.inverse.names.address a)
  events f key := (f (r.inverse.names.key key)).map r.names.event
  bets f key bettor := (f (r.inverse.names.key key) (r.inverse.names.wallet bettor)).map r.names.entry
  balance := by
    intro a _ l
    rw [address_back]
  setBalance := by
    intro a _ l x
    funext b
    by_cases same : b = r.names.address a
    · subst same
      rw [address_back,Function.update_self,Function.update_self]
    · have other : r.inverse.names.address b ≠ a := fun equal => same (equal ▸ (r.address_forth b).symm)
      rw [Function.update_of_ne other,Function.update_of_ne same]
  event := by
    intro key _ f
    rw [key_back]
  setEvent := by
    intro key _ f e
    funext other
    by_cases same : other = r.names.key key
    · subst same
      rw [key_back,Function.update_self,Function.update_self]
    · have apart : r.inverse.names.key other ≠ key := fun equal => same (equal ▸ (r.key_forth other).symm)
      rw [Function.update_of_ne apart,Function.update_of_ne same]
  bet := by
    intro key bettor _ f
    rw [key_back,wallet_back]
  setBet := by
    intro key bettor _ f entry
    funext other other'
    by_cases same : other = r.names.key key
    · subst same
      rw [key_back,Function.update_self,Function.update_self]
      by_cases same' : other' = r.names.wallet bettor
      · subst same'
        rw [wallet_back,Function.update_self,Function.update_self]
      · have apart : r.inverse.names.wallet other' ≠ bettor :=
          fun equal => same' (equal ▸ (r.wallet_forth other').symm)
        rw [Function.update_of_ne apart,Function.update_of_ne same']
    · have apart : r.inverse.names.key other ≠ key := fun equal => same (equal ▸ (r.key_forth other).symm)
      rw [Function.update_of_ne apart,Function.update_of_ne same]

def chain (s : Chain) : Chain := r.transport.carry s

def action : Action → Action
  | .invoke sys instruction => .invoke sys (r.names.instruction instruction)
  | .transfer source target amount => .transfer (r.names.wallet source) (r.names.address target) amount

def step (t : Step) : Step := ⟨r.chain t.before,r.action t.action,r.chain t.after⟩

section renamed
variable {s origin : Chain} {history : List Step} {sys : Sysvars} {instruction : Instruction}

theorem execute_renamed : Carries r.chain (execute sys instruction s) (execute sys (r.names.instruction instruction) (r.chain s)) :=
  r.transport.execute_carried instruction fun _ _ => trivial

theorem transfer_renamed : Carries r.transport.lamports (systemTransfer s.lamports (.wallet source) target amount)
    (systemTransfer (r.chain s).lamports (.wallet (r.names.wallet source)) (r.names.address target) amount) := by
  have carried : Carries r.transport.lamports (systemTransfer s.lamports (.wallet source) target amount) _ :=
    r.transport.systemTransfer_carried trivial trivial
  exact carried

theorem advance_renamed (s : Chain) (action : Action) :
    advance (r.chain s) (r.action action) = (advance s action).map r.chain := by
  cases action with
  | invoke sys instruction =>
      simp only [Renaming.action,advance,r.execute_renamed.same]
      have clock : (r.chain s).clock = s.clock := rfl
      rw [clock]
      by_cases early : s.clock ≤ sys.unixTimestamp
      · rw [if_pos early,if_pos early]
        cases execute sys instruction s with
        | ok next => rfl
        | error e => rfl
      · rw [if_neg early,if_neg early]
        rfl
  | transfer source target amount =>
      simp only [Renaming.action,advance,r.transfer_renamed.same]
      cases systemTransfer s.lamports (.wallet source) target amount with
      | ok lamports => rfl
      | error e => rfl

theorem verdict_renamed (s : Chain) (action : Action) : verdict (r.chain s) (r.action action) = verdict s action := by
  cases action with
  | invoke sys instruction => exact verdict_invoke r.execute_renamed
  | transfer source target amount => exact verdict_transfer r.transfer_renamed

theorem run_renamed (run : Run origin history s) : Run (r.chain origin) (history.map r.step) (r.chain s) :=
  Machine.History.carried (m:=machine) r.advance_renamed run

theorem genesis_renamed (genesis : Genesis s) : Genesis (r.chain s) where
  noEvents := by
    intro key
    exact congrArg (Option.map r.names.event) (genesis.noEvents _)
  noBets := by
    intro key bettor
    exact congrArg (Option.map r.names.entry) (genesis.noBets _ _)
  capped := Balances.capped_renamed r.addresses.symm genesis.capped

theorem chain_back (s : Chain) : r.inverse.chain (r.chain s) = s := by
  have balances : (r.inverse.chain (r.chain s)).lamports = s.lamports := by
    funext a
    exact congrArg s.lamports (r.address_back a)
  have events : (r.inverse.chain (r.chain s)).events = s.events := by
    funext key
    change ((s.events (r.inverse.names.key (r.names.key key))).map r.names.event).map r.inverse.names.event = _
    rw [key_back]
    cases s.events key with
    | none => rfl
    | some e => exact congrArg some (r.event_back e)
  have bets : (r.inverse.chain (r.chain s)).bets = s.bets := by
    funext key bettor
    change ((s.bets (r.inverse.names.key (r.names.key key)) (r.inverse.names.wallet (r.names.wallet bettor))).map
      r.names.entry).map r.inverse.names.entry = _
    rw [key_back,wallet_back]
    cases s.bets key bettor with
    | none => rfl
    | some entry => exact congrArg some (r.entry_back entry)
  calc r.inverse.chain (r.chain s)
      = ⟨s.clock,(r.inverse.chain (r.chain s)).lamports,(r.inverse.chain (r.chain s)).events,
          (r.inverse.chain (r.chain s)).bets⟩ := rfl
    _ = s := by rw [balances,events,bets]

theorem instruction_back (instruction : Instruction) :
    r.inverse.names.instruction (r.names.instruction instruction) = instruction := by
  cases instruction <;> simp only [Names.instruction,key_back,wallet_back]

theorem action_back (action : Action) : r.inverse.action (r.action action) = action := by
  cases action with
  | invoke sys instruction => simp only [Renaming.action,instruction_back]
  | transfer source target amount => simp only [Renaming.action,wallet_back,address_back]

theorem step_back (t : Step) : r.inverse.step (r.step t) = t := by
  simp only [Renaming.step,chain_back,action_back]

theorem run_back (run : Run (r.chain origin) (history.map r.step) (r.chain s)) : Run origin history s := by
  have back := r.inverse.run_renamed run
  rw [chain_back,chain_back,List.map_map,show r.inverse.step ∘ r.step = id from funext r.step_back,List.map_id] at back
  exact back

theorem reachable_renamed (reached : Reachable s) : Reachable (r.chain s) := by
  obtain ⟨origin,history,genesis,run⟩ := reached
  exact ⟨r.chain origin,history.map r.step,r.genesis_renamed genesis,r.run_renamed run⟩

end renamed

-- The renamed run: the same calls are admitted, with the same verdicts, and
-- the same ledgers are reached, under the other names.
structure Alike (origin : Chain) (history : List Step) (s : Chain) : Prop where
  runs : Run origin history s ↔ Run (r.chain origin) (history.map r.step) (r.chain s)
  reached : Reachable s ↔ Reachable (r.chain s)
  verdicts : ∀ t ∈ history, verdict (r.step t).before (r.step t).action = verdict t.before t.action
  balances : ∀ a, (r.chain s).lamports (r.names.address a) = s.lamports a
  events : ∀ key, (r.chain s).events (r.names.key key) = (s.events key).map r.names.event
  bets : ∀ key bettor,
    (r.chain s).bets (r.names.key key) (r.names.wallet bettor) = (s.bets key bettor).map r.names.entry

theorem wallets_alike (origin : Chain) (history : List Step) (s : Chain) : r.Alike origin history s where
  runs := ⟨r.run_renamed,r.run_back⟩
  reached := by
    constructor
    · exact r.reachable_renamed
    · intro reached
      have back := r.inverse.reachable_renamed reached
      rw [chain_back] at back
      exact back
  verdicts := fun t _ => r.verdict_renamed t.before t.action
  balances := fun _ => r.transport.balance trivial s.lamports
  events := fun _ => r.transport.event trivial s.events
  bets := fun _ _ => r.transport.bet trivial s.bets

section sample
open SampleMarket

def exchanged : Renaming := ⟨Equiv.swap alice bob,by decide⟩

-- The market with Alice and Bob exchanged: the winning bet is Bob's.
theorem wallets_alike_sample :
    Run (exchanged.chain opening) ((historyOf settling).map exchanged.step) (exchanged.chain (stateOf settling)) ∧
      (exchanged.chain (stateOf deciding)).bets market bob =
        some ⟨market,bob,outcomeYes,.lit 20000000,.lit 254⟩ ∧
      (exchanged.chain (stateOf settling)).lamports (.wallet bob) = (stateOf settling).lamports (.wallet alice) := by
  have run : Run opening (historyOf settling) (stateOf settling) := play_run (rfl : (play settling).isSome = true)
  have settled := exchanged.wallets_alike opening (historyOf settling) (stateOf settling)
  have before := exchanged.wallets_alike opening (historyOf deciding) (stateOf deciding)
  have name : exchanged.names.wallet alice = bob := Equiv.swap_apply_left ..
  have same : exchanged.names.key market = market := by decide
  have bet := before.bets market alice
  have balance := settled.balances (.wallet alice)
  rw [same,name] at bet
  rw [Names.address,name] at balance
  refine ⟨settled.runs.mp run,bet.trans ?_,balance⟩
  have held : (stateOf deciding).bets market alice = some ⟨market,alice,outcomeYes,.lit 20000000,.lit 254⟩ := rfl
  rw [held,Option.map_some,Names.entry,same,name]
end sample

end Renaming
end Solclash
