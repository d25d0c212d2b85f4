import Solclash.Foundations.Footprints
import Solclash.Lifetimes
import Solclash.Transport

-- Transactions of one clock value in any order: it matters only between those
-- that declare a common writable account.
namespace Solclash.Scheduling
open Fallible Footprints

-- The declared accounts are the places of the memory, and the clock is one more.
inductive Place where
  | clock
  | account (a : Address)

inductive Cell where
  | clock (time : I64)
  | account (lamports : U64) (event : Option Event) (entry : Option BetEntry)

def cell (s : Chain) : Place → Cell
  | .clock => .clock s.clock
  | .account (.wallet key) => .account (s.lamports (.wallet key)) none none
  | .account (.eventPda key) => .account (s.lamports (.eventPda key)) (s.events key) none
  | .account (.betPda key bettor) => .account (s.lamports (.betPda key bettor)) none (s.bets key bettor)

def declared (action : Action) : Footprint Place where
  reads := {p | ∃ a ∈ action.writable, p = .account a}
  writes := {p | ∃ a ∈ action.writable, p = .account a}
  written := fun _ member => member

-- The verdict on a transaction, with its error.
def verdict (s : Chain) : Action → Except ProgramError Unit
  | .invoke sys instruction => (execute sys instruction s).map fun _ => ()
  | .transfer source target amount => (systemTransfer s.lamports (.wallet source) target amount).map fun _ => ()

-- What an action does to the accounts, the clock aside.
def perform (s : Chain) : Action → Option Chain
  | .invoke sys instruction =>
    match execute sys instruction s with
    | .ok next => some next
    | .error _ => some s
  | .transfer source target amount =>
    match systemTransfer s.lamports (.wallet source) target amount with
    | .ok lamports => some {s with lamports}
    | .error _ => none

def accounts : Machine Chain Action := ⟨Genesis,perform⟩

section carried
variable {s s' : Chain} {sys : Sysvars} {instruction instruction' : Instruction} {source source' : Pubkey}
  {target target' : Address} {amount : U64}

theorem verdict_invoke {m : Chain → Chain} (carried : Carries m (execute sys instruction s) (execute sys instruction' s')) :
    verdict s' (.invoke sys instruction') = verdict s (.invoke sys instruction) := by
  rw [verdict,verdict,carried.same]
  cases execute sys instruction s with
  | ok next => rfl
  | error e => rfl

theorem verdict_transfer {m : Lamports → Lamports}
    (carried : Carries m (systemTransfer s.lamports (.wallet source) target amount)
      (systemTransfer s'.lamports (.wallet source') target' amount)) :
    verdict s' (.transfer source' target' amount) = verdict s (.transfer source target amount) := by
  rw [verdict,verdict,carried.same]
  cases systemTransfer s.lamports (.wallet source) target amount with
  | ok lamports => rfl
  | error e => rfl

end carried

section splicing
variable {s t next : Chain} {sys : Sysvars} {within : Address → Prop} [DecidablePred within]

theorem same_address (a : Address) : Names.same.address a = a := by cases a <;> rfl
theorem same_key (key : EventKey) : Names.same.key key = key := rfl
theorem same_wallet (key : Pubkey) : Names.same.wallet key = key := rfl
theorem same_event (o : Option Event) : o.map Names.same.event = o := by cases o <;> rfl
theorem same_entry (o : Option BetEntry) : o.map Names.same.entry = o := by cases o <;> rfl
theorem same_instruction (instruction : Instruction) : Names.same.instruction instruction = instruction := by
  cases instruction <;> rfl

-- The accounts within from the ledger at hand, everything else from `t`.
def splice (within : Address → Prop) [DecidablePred within] (t : Chain) : Transport Names.same within where
  clock := fun _ => t.clock
  lamports l a := if within a then l a else t.lamports a
  events f key := if within (.eventPda key) then f key else t.events key
  bets f key bettor := if within (.betPda key bettor) then f key bettor else t.bets key bettor
  balance := by
    intro a here l
    rw [same_address,if_pos here]
  setBalance := by
    intro a here l x
    rw [same_address]
    funext b
    by_cases same : b = a
    · subst same
      rw [if_pos here,Function.update_self,Function.update_self]
    · rw [Function.update_of_ne same,Function.update_of_ne same]
  event := by
    intro key here f
    rw [same_event]
    exact if_pos here
  setEvent := by
    intro key here f e
    rw [same_event,same_key]
    funext other
    by_cases same : other = key
    · subst same
      rw [if_pos here,Function.update_self,Function.update_self]
    · rw [Function.update_of_ne same,Function.update_of_ne same]
  bet := by
    intro key bettor here f
    rw [same_entry]
    exact if_pos here
  setBet := by
    intro key bettor here f entry
    rw [same_entry,same_key,same_wallet]
    funext other other'
    by_cases same : other = key
    · subst same
      rw [Function.update_self,Function.update_self]
      by_cases same' : other' = bettor
      · subst same'
        rw [if_pos here,Function.update_self,Function.update_self]
      · rw [Function.update_of_ne same',Function.update_of_ne same']
    · rw [Function.update_of_ne same,Function.update_of_ne same]

theorem cell_ext (same : ∀ p, cell s p = cell t p) : s = t := by
  have clock := same .clock
  have balances : s.lamports = t.lamports := by
    funext a
    have here := same (.account a)
    cases a <;> injection here
  have events : s.events = t.events := by
    funext key
    injection same (.account (.eventPda key))
  have bets : s.bets = t.bets := by
    funext key bettor
    injection same (.account (.betPda key bettor))
  injection clock with clock
  cases s
  cases t
  cases clock; cases balances; cases events; cases bets
  rfl

theorem cell_inside (here : within a) : cell ((splice within t).carry s) (.account a) = cell s (.account a) := by
  cases a <;> simp only [cell,splice,Transport.carry,if_pos here]

theorem cell_outside (elsewhere : ¬ within a) : cell ((splice within t).carry s) (.account a) = cell t (.account a) := by
  cases a <;> simp only [cell,splice,Transport.carry,if_neg elsewhere]

-- Two ledgers that agree on the accounts within differ by a splice only.
theorem splice_agree (agree : ∀ a, within a → cell s (.account a) = cell t (.account a)) :
    (splice within t).carry s = t := by
  apply cell_ext
  intro p
  cases p with
  | clock => rfl
  | account a =>
      by_cases here : within a
      · rw [cell_inside here,agree a here]
      · exact cell_outside here

theorem execute_spliced (covers : ∀ a ∈ instruction.writable, within a) :
    Carries (splice within t).carry (execute sys instruction s) (execute sys instruction ((splice within t).carry s)) := by
  have carried : Carries (splice within t).carry (execute sys instruction s) _ :=
    (splice within t).execute_carried instruction covers
  rw [same_instruction] at carried
  exact carried

theorem transfer_spliced (covers : ∀ a ∈ (Action.transfer source target amount).writable, within a) :
    Carries (splice within t).lamports (systemTransfer s.lamports (.wallet source) target amount)
      (systemTransfer ((splice within t).carry s).lamports (.wallet source) target amount) := by
  have payer : within (.wallet source) := covers _ List.mem_cons_self
  have payee : within target := covers _ (List.mem_cons_of_mem _ List.mem_cons_self)
  have carried : Carries (splice within t).lamports (systemTransfer s.lamports (.wallet source) target amount) _ :=
    (splice within t).systemTransfer_carried payer payee
  rw [same_address,same_address] at carried
  exact carried

theorem perform_spliced (action : Action) (covers : ∀ a ∈ action.writable, within a) :
    perform ((splice within t).carry s) action = (perform s action).map (splice within t).carry := by
  cases action with
  | invoke sys instruction =>
      rw [perform,perform,(execute_spliced covers).same]
      cases execute sys instruction s with
      | ok next => rfl
      | error e => rfl
  | transfer source target amount =>
      rw [perform,perform,(transfer_spliced covers).same]
      cases systemTransfer s.lamports (.wallet source) target amount with
      | ok lamports => rfl
      | error e => rfl

theorem verdict_spliced (action : Action) (covers : ∀ a ∈ action.writable, within a) :
    verdict ((splice within t).carry s) action = verdict s action := by
  cases action with
  | invoke sys instruction => exact verdict_invoke (execute_spliced covers)
  | transfer source target amount => exact verdict_transfer (transfer_spliced covers)

end splicing

section slot
variable {s t next final : Chain} {time c : I64} {E : Type} {action : E → Action}
  {log log' : List (E × Except ProgramError Unit)}

theorem perform_declared (s t : Chain) (a : Action) : perform ((splice (· ∈ a.writable) t).carry s) a =
    (perform s a).map (splice (· ∈ a.writable) t).carry := perform_spliced a fun _ member => member

theorem verdict_declared (s t : Chain) (a : Action) : verdict ((splice (· ∈ a.writable) t).carry s) a = verdict s a :=
  verdict_spliced a fun _ member => member

theorem declared_agree {a : Action} (agree : Agree cell (declared a).reads s t) :
    (splice (· ∈ a.writable) t).carry s = t :=
  splice_agree fun account member => agree (.account account) ⟨account,member,rfl⟩

-- The declared accounts are all that an action reads or writes.
theorem declared_local : Local accounts verdict cell declared where
  faithful := cell_ext
  frame := by
    intro s a next step p unwritten
    have own : (splice (· ∈ a.writable) s).carry s = s := splice_agree fun _ _ => rfl
    have carried := perform_declared s s a
    rw [own,show perform s a = some next from step] at carried
    rw [Option.some.inj carried]
    cases p with
    | clock => rfl
    | account account => exact cell_outside fun member => unwritten ⟨account,member,rfl⟩
  decided := by
    intro s t a next agree step
    have carried := perform_declared s t a
    rw [declared_agree agree,show perform s a = some next from step] at carried
    refine ⟨_,carried,?_⟩
    rintro p ⟨account,member,rfl⟩
    exact (cell_inside member).symm
  answered := by
    intro s t a agree
    have carried := verdict_declared s t a
    rw [declared_agree agree] at carried
    exact carried.symm

-- The accounts are handled alike at any clock.
theorem perform_clock (s : Chain) (a : Action) (c : I64) :
    perform {s with clock := c} a = (perform s a).map fun next => {next with clock := c} :=
  perform_spliced (t:={s with clock := c}) a fun _ _ => trivial

theorem verdict_clock (s : Chain) (a : Action) (c : I64) : verdict {s with clock := c} a = verdict s a :=
  verdict_spliced (t:={s with clock := c}) a fun _ _ => trivial

theorem block_clock (c : I64) (path : Block accounts verdict action s log final) :
    Block accounts verdict action {s with clock := c} log {final with clock := c} := by
  induction path with
  | nil => exact .nil
  | @cons s e next rest final step path ih =>
      rw [← verdict_clock s (action e) c]
      refine .cons ?_ ih
      have here : perform s (action e) = some next := step
      change perform _ _ = _
      rw [perform_clock,here]
      rfl

-- Every instruction of the block sees one clock value.
def AtTime (time : I64) : Action → Prop
  | .invoke sys _ => sys.unixTimestamp = time
  | .transfer .. => True

def invokes : Action → Bool
  | .invoke .. => true
  | .transfer .. => false

def stamp (time : I64) (a : Action) (s : Chain) : Chain := if invokes a then {s with clock := time} else s

-- The clock after a block.
def closing (time : I64) (action : E → Action) (log : List (E × Except ProgramError Unit)) (start : I64) : I64 :=
  if log.any (fun x => invokes (action x.1)) then time else start

theorem advance_timed {a : Action} (timed : AtTime time a) (early : s.clock ≤ time) :
    advance s a = (perform s a).map (stamp time a) := by
  cases a with
  | invoke sys instruction =>
      cases timed
      simp only [advance,perform,if_pos early]
      cases execute sys instruction s with
      | ok next => rfl
      | error e => rfl
  | transfer source target amount =>
      simp only [advance,perform]
      cases systemTransfer s.lamports (.wallet source) target amount with
      | ok lamports => rfl
      | error e => rfl

theorem perform_keeps {a : Action} (step : perform s a = some next) : next.clock = s.clock := by
  have same := perform_clock s a s.clock
  rw [show ({s with clock := s.clock} : Chain) = s from rfl,step] at same
  have kept : next = {next with clock := s.clock} := Option.some.inj same
  rw [kept]

theorem stamp_clock {a : Action} : (stamp time a s).clock = if invokes a then time else s.clock := by
  unfold stamp
  split <;> rfl

theorem stamp_early {a : Action} (early : s.clock ≤ time) : (stamp time a s).clock ≤ time := by
  rw [stamp_clock]
  split
  · exact Int.le_refl _
  · exact early

theorem closing_cons (e : E) (answer : Except ProgramError Unit) (start : I64) :
    closing time action ((e,answer) :: log) start =
      closing time action log (if invokes (action e) then time else start) := by
  unfold closing
  rw [List.any_cons]
  cases invokes (action e) with
  | true => rw [Bool.true_or,if_pos rfl,ite_self]
  | false => rw [Bool.false_or,if_neg Bool.false_ne_true]

theorem unstamped {a : Action} (c : I64) : ({stamp time a s with clock := c} : Chain) = {s with clock := c} := by
  unfold stamp
  split <;> rfl

theorem block_performed (timed : ∀ e, AtTime time (action e)) (early : s.clock ≤ time)
    (path : Block machine verdict action s log final) :
    Block accounts verdict action s log {final with clock := s.clock} ∧ final.clock = closing time action log s.clock := by
  induction path with
  | nil => exact ⟨.nil,rfl⟩
  | @cons s e next rest final step path ih =>
      have stepped : advance s (action e) = some next := step
      rw [advance_timed (timed e) early] at stepped
      obtain ⟨middle,performed,rfl⟩ := Option.map_eq_some_iff.mp stepped
      have kept := perform_keeps performed
      obtain ⟨rest,clock⟩ := ih (stamp_early (kept ▸ early))
      rw [stamp_clock,kept] at clock
      refine ⟨.cons performed ?_,clock.trans (closing_cons e _ s.clock).symm⟩
      have moved := block_clock s.clock rest
      rw [unstamped,← kept] at moved
      exact kept ▸ moved

theorem performed_block (timed : ∀ e, AtTime time (action e)) (early : s.clock ≤ time)
    (path : Block accounts verdict action s log final) :
    Block machine verdict action s log {final with clock := closing time action log s.clock} := by
  induction log generalizing s final with
  | nil => cases path; exact .nil
  | cons x rest ih =>
      cases path with
      | @cons _ e next _ _ step path =>
          have performed : perform s (action e) = some next := step
          have kept := perform_keeps performed
          have moved := block_clock (stamp time (action e) next).clock path
          have same : ({next with clock := (stamp time (action e) next).clock} : Chain) = stamp time (action e) next :=
            (unstamped _).symm
          rw [same] at moved
          have later := ih (stamp_early (kept ▸ early)) moved
          rw [stamp_clock,kept,← closing_cons e (verdict s (action e))] at later
          refine .cons ?_ later
          change advance s (action e) = _
          rw [advance_timed (timed e) early,performed]
          rfl

def Shares (a b : Action) : Prop := ∃ account ∈ a.writable, account ∈ b.writable

instance (a b : Action) : Decidable (Shares a b) :=
  inferInstanceAs (Decidable (∃ account ∈ a.writable, account ∈ b.writable))

theorem shares_of_meets {a b : Action} (meets : (declared a).Meets (declared b)) : Shares a b := by
  rcases meets with ⟨_,⟨account,member,rfl⟩,other,member',same⟩ | ⟨_,⟨account,member,rfl⟩,other,member',same⟩
  · cases same; exact ⟨account,member,member'⟩
  · cases same; exact ⟨account,member,member'⟩

-- One block in two orders that keep the transactions sharing an account in line.
theorem schedules_agree (timed : ∀ e, AtTime time (action e)) (early : s.clock ≤ time) (distinct : log.Nodup)
    (perm : log'.Perm log) (kept : ∀ x y, Shares (action x.1) (action y.1) →
      List.Sublist [x,y] log → List.Sublist [x,y] log')
    (ran : Block machine verdict action s log final) : Block machine verdict action s log' final := by
  obtain ⟨performed,clock⟩ := block_performed timed early ran
  have moved := performed.reordered declared_local distinct perm fun x y meets => kept x y (shares_of_meets meets)
  have back := performed_block timed early moved
  have ends : closing time action log' s.clock = final.clock := by
    rw [clock,closing,closing,perm.any_eq]
  rw [ends] at back
  exact back

section sample
open SampleMarket

def slot : Fin 3 → Action
  | 0 => lock
  | 1 => .transfer alice (.wallet bob) (.lit 5)
  | 2 => .invoke (sysvars (.lit 100)) (.createEvent ⟨creator,.lit 8,.lit 255⟩ ((0#8).replicate 32) conditionLessThan
      (.lit 100) (.lit 200) (.lit 500))

theorem slot_apart : ∀ i j, Shares (slot i) (slot j) → i = j := by decide

theorem schedules_agree_sample : ∃ final,
    Block machine verdict slot (stateOf bets) [(0,.ok ()),(1,.ok ()),(2,.ok ())] final ∧
      Block machine verdict slot (stateOf bets) [(2,.ok ()),(1,.ok ()),(0,.ok ())] final := by
  have first : Block machine verdict slot (stateOf bets) [(0,.ok ()),(1,.ok ()),(2,.ok ())] _ :=
    .cons rfl (.cons rfl (.cons rfl .nil))
  have timed : ∀ e, AtTime (.lit 100) (slot e) := fun e => match e with
    | 0 => rfl
    | 1 => trivial
    | 2 => rfl
  refine ⟨_,first,schedules_agree timed (by decide) (by decide) (by decide) ?_ first⟩
  intro x y shared pair
  have ids := pair.map Prod.fst
  have same := slot_apart _ _ shared
  rw [List.map_cons,List.map_cons,← same] at ids
  exact absurd ids (List.nodup_iff_sublist.mp (by decide) x.1)
end sample

end slot
end Solclash.Scheduling
