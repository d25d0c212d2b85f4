import Solclash.Endings
import Solclash.Lifecycle
import Solclash.TerminalPhase

-- Once the challenge window of an event is over its result can no longer be
-- chosen: every way to go on ends in the same status, outcome, pool and fee.
namespace Solclash.Finality
open EventProtocol EventBook Lifetimes Lifecycle TerminalPhase Endings

-- The result, read off the event as it stands when its window ends.
def finalStatus (e : Event) : EventStatus := if e.candidateOutcome = none then .refundable else .resolved
def finalFee (e : Event) : Int := if e.candidateOutcome = none then 0 else protocolFee e
def finalPool (e : Event) : Int := potAfterReward e - finalFee e

-- What left the PDA in the steps that finalized it.
def feeOf (key : EventKey) (t : Step) : Int := if finalizes (label key t) then drop key t else 0
def feesPaid (key : EventKey) (later : List Step) : Int := (later.map (feeOf key)).sum

variable {key : EventKey} {e e' : Event} {v next : View} {l : Label}

theorem final_sum (e : Event) : resolverRewardDev.val + finalFee e + finalPool e = e.pot.val := by
  unfold finalPool potAfterReward
  omega

-- The first step that does anything to the event finalizes it.
inductive FrozenStep (e : Event) (v : View) (l : Label) (next : View) : Prop where
  | waiting (other : finalizes l = false) (event : next.event = some e)
  | ended {pool : U64} (last : finalizes l = true)
      (event : next.event = some {e with status := finalStatus e,payoutPool := pool})
      (left : pool.val = finalPool e) (fee : v.escrow.val - next.escrow.val = finalFee e)

theorem frozen_step (step : EventStep key v l next) (found : v.event = some e) (resolving : e.status = .resolving)
    (due : e.finalizedAt.val ≤ v.clock.val) (kept : ¬ Closing l) : FrozenStep e v l next := by
  have other : ∀ {e₁ : Event} {status : EventStatus}, v.event = some e₁ → e₁.status = status →
      status = .resolving := by
    intro e₁ status found₁ same
    rw [found] at found₁
    cases found₁
    exact same.symm.trans resolving
  cases step with
  | created vacant => rw [found] at vacant; cases vacant
  | placed same _ opened => cases other same opened
  | cancelled same _ opened => cases other same opened
  | locked same _ opened => cases other same opened
  | oneSided same _ opened => cases other same opened
  | resolved same _ isLocked => cases other same isLocked
  | challenged same later _ inside =>
      rw [found] at same; cases same
      omega
  | ambiguous same _ _ _ undecided difference =>
      rw [found] at same; cases same
      have free : finalFee e = 0 := if_pos undecided
      refine .ended rfl ?_ (difference.trans ?_) ?_
      · rw [finalStatus,if_pos undecided]
      · rw [finalPool,free,Int.sub_zero]; rfl
      · rw [free]; exact Int.sub_self _
  | decided same _ _ _ outcome charged difference paid =>
      rw [found] at same; cases same
      have chosen : e.candidateOutcome ≠ none := by rw [outcome]; exact Option.some_ne_none _
      have fee : finalFee e = protocolFee e := if_neg chosen
      refine .ended rfl ?_ (difference.trans ?_) ?_
      · rw [finalStatus,if_neg chosen]
      · rw [finalPool,fee,charged]; rfl
      · rw [fee,protocolFee,potAfterReward,← charged]
        exact (congrArg (v.escrow.val - ·) paid).trans (Int.sub_sub_self ..)
  | claimed same _ resolved => cases other same resolved
  | marked same _ isLocked => cases other same isLocked
  | refunded same _ refundable => cases other same refundable
  | closed => exact (kept rfl).elim
  | donated => exact .waiting rfl found
  | quiet => exact .waiting rfl found

theorem finalizes_resolving (step : EventStep key v l next) (last : finalizes l = true) :
    ∃ e, v.event = some e ∧ e.status = .resolving := by
  cases step with
  | ambiguous found _ resolving => exact ⟨_,found,resolving⟩
  | decided found _ resolving => exact ⟨_,found,resolving⟩
  | _ => cases last

-- Where the event stands in a continuation.
inductive Outcome (key : EventKey) (e : Event) (later : List Step) (e' : Event) : Prop where
  | waiting (same : e' = e) (unpaid : feesPaid key later = 0) (none : (labelsAt key later).countP finalizes = 0)
  | ended {pool : U64} {count : U32} (same : e' = {e with status := finalStatus e,payoutPool := pool,betsClosed := count})
      (left : pool.val = finalPool e) (fee : feesPaid key later = finalFee e)
      (once : (labelsAt key later).countP finalizes = 1)

theorem feesPaid_silent {t : Step} (other : finalizes (label key t) = false) (later : List Step) :
    feesPaid key (t :: later) = feesPaid key later := by
  simp [feesPaid,feeOf,other]

theorem finalizes_silent {t : Step} (other : finalizes (label key t) = false) (later : List Step) :
    (labelsAt key (t :: later)).countP finalizes = (labelsAt key later).countP finalizes :=
  List.countP_cons_of_neg (by rw [other]; exact Bool.false_ne_true)

theorem terminal_final (e : Event) (pool : U64) (count : U32) :
    Terminal {e with status := finalStatus e,payoutPool := pool,betsClosed := count}.status := by
  change Terminal (finalStatus e)
  unfold finalStatus
  split
  · exact .inr rfl
  · exact .inl rfl

theorem Outcome.extend {t : Step} {last : Event} (outcome : Outcome key e later e')
    (step : EventStep key (view key t.before) (label key t) (view key t.after)) (found : t.before.events key = some e')
    (resolving : e.status = .resolving) (due : e.finalizedAt.val ≤ t.before.clock.val) (kept : ¬ Closing (label key t))
    (found' : t.after.events key = some last) : Outcome key e (t :: later) last := by
  cases outcome with
  | waiting same unpaid none =>
      subst same
      cases frozen_step step found resolving due kept with
      | waiting other event =>
          have same : last = e' := Option.some.inj (found'.symm.trans event)
          refine .waiting same ?_ ?_
          · rw [feesPaid_silent other]; exact unpaid
          · rw [finalizes_silent other]; exact none
      | ended final event left fee =>
          have same := Option.some.inj (found'.symm.trans event)
          refine .ended same left ?_ ?_
          · change feeOf key t + feesPaid key later = _
            rw [unpaid,feeOf,if_pos final,Int.add_zero]
            exact fee
          · change (label key t :: labelsAt key later).countP finalizes = 1
            rw [List.countP_cons_of_pos final,none]
  | ended same left fee once =>
      have terminal : Terminal e'.status := by rw [same]; exact terminal_final ..
      have other : finalizes (label key t) = false := by
        cases last : finalizes (label key t) with
        | false => rfl
        | true =>
            obtain ⟨e₁,found₁,resolving⟩ := finalizes_resolving step last
            exact (not_early found terminal found₁ (not_terminal_resolving resolving)).elim
      have paid : feesPaid key (t :: later) = finalFee e := (feesPaid_silent other later).trans fee
      have counted := (finalizes_silent other later).trans once
      cases terminal_step step found terminal with
      | settled _ _ _ _ event =>
          have closed := Option.some.inj (found'.symm.trans event)
          rw [same] at closed
          exact .ended closed left paid counted
      | closed closing => exact (kept closing).elim
      | idle _ _ event =>
          have closed := Option.some.inj (found'.symm.trans (event.trans found))
          exact .ended (closed.trans same) left paid counted

theorem outcome_run (found : s.events key = some e) (resolving : e.status = .resolving)
    (due : e.finalizedAt.val ≤ s.clock.val) (run : Run s later s') (unclosed : ∀ l ∈ labelsAt key later, ¬ Closing l) :
    s.clock.val ≤ s'.clock.val ∧ ∃ e', s'.events key = some e' ∧ Outcome key e later e' := by
  induction run with
  | nil => exact ⟨Int.le_refl _,e,found,.waiting rfl rfl rfl⟩
  | cons prior taken ih =>
      obtain ⟨onward,e',found',outcome⟩ := ih fun l member => unclosed l (List.mem_cons_of_mem _ member)
      have step := advance_projects key taken
      have kept := unclosed _ (List.mem_cons_self ..)
      obtain ⟨alive,_⟩ := step_living step (by rw [show (view key _).event = some e' from found']; exact Option.some_ne_none _) kept
      obtain ⟨last,found''⟩ := Option.ne_none_iff_exists'.mp alive
      have further := onward.trans (step_later step)
      exact ⟨further,last,found'',outcome.extend (t:=⟨_,_,_⟩) step found' resolving (due.trans onward) kept found''⟩

theorem fee_drop {s after : Chain} {ctx : FinalizeResolution} (ran : finalizeResolution sys ctx s = .ok after) :
    Balances.Moved s.lamports (.eventPda ctx.event) (.wallet feeWalletDev)
      ((s.lamports (.eventPda ctx.event)).val - (after.lamports (.eventPda ctx.event)).val) after.lamports := by
  obtain ⟨_,_,_,_,_,_,_,⟨_,rfl⟩ | ⟨_,fee,_,lamports,_,_,_,paid,rfl⟩⟩ := finalizeResolution_parts ran
  · rw [putEvent_lamports,Int.sub_self]
    exact ⟨(Int.sub_zero _).symm,(Int.add_zero _).symm,fun _ _ _ => rfl⟩
  · have moved := transferFromPda_moved (by simp) paid
    have amount : (s.lamports (.eventPda ctx.event)).val - (lamports (.eventPda ctx.event)).val = fee.val := by
      rw [moved.pays]
      exact Int.sub_sub_self ..
    rw [putEvent_lamports,amount]
    exact moved

-- Whatever a finalization takes from the PDA arrives in the fee wallet.
theorem fee_moved {s next : Chain} (step : advance s action = some next)
    (last : finalizes (label key ⟨s,action,next⟩) = true) :
    Balances.Moved s.lamports (.eventPda key) (.wallet feeWalletDev) (drop key ⟨s,action,next⟩) next.lamports := by
  cases action with
  | transfer source target amount =>
      simp only [label] at last
      split at last <;> cases last
  | invoke sys instruction =>
      rcases label_invoked key s sys instruction next with quiet | ⟨own,⟨_,done⟩,kind⟩
      · rw [quiet] at last
        cases last
      obtain ⟨_,⟨after,ran,rfl⟩ | ⟨_,failed,_⟩⟩ := advance_invoke step
      · generalize label key _ = l at last kind
        cases kind with
        | finalized =>
            subst own
            have moved := fee_drop ran
            exact moved
        | _ => cases last
      · exact (Fallible.not_both done failed).elim

structure Result (e : Event) (fees : Int) (e' : Event) : Prop where
  status : e'.status = finalStatus e
  outcome : e'.candidateOutcome = e.candidateOutcome
  payoutPool : e'.payoutPool.val = finalPool e
  fee : fees = finalFee e

theorem Outcome.result (outcome : Outcome key e later e') (resolving : e.status = .resolving) :
    (Terminal e'.status → Result e (feesPaid key later) e') ∧ (labelsAt key later).countP finalizes ≤ 1 := by
  cases outcome with
  | waiting same _ none =>
      subst same
      exact ⟨fun terminal => (not_terminal_resolving resolving terminal).elim,none.le.trans (Nat.zero_le 1)⟩
  | ended same left fee once =>
      subst same
      exact ⟨fun _ => ⟨rfl,rfl,left,fee⟩,once.le⟩

theorem result_fixed (found : s.events key = some e) (resolving : e.status = .resolving) :
    (∀ {challenger finalizer : Sysvars} {challenge : ChallengeResolution} {finalization : FinalizeResolution}
        {after after' : Chain}, challenger.unixTimestamp = finalizer.unixTimestamp →
      challenge.event = key → finalization.event = key →
      challengeResolution challenger challenge s = .ok after → finalizeResolution finalizer finalization s ≠ .ok after') ∧
    resolverRewardDev.val + finalFee e + finalPool e = e.pot.val ∧
    (e.candidateOutcome = none → finalFee e = 0) ∧
    (e.finalizedAt.val ≤ s.clock.val → ∀ {later s'}, Run s later s' → (∀ l ∈ labelsAt key later, ¬ Closing l) →
      ∃ e', s'.events key = some e' ∧ (Terminal e'.status → Result e (feesPaid key later) e') ∧
        (labelsAt key later).countP finalizes ≤ 1 ∧
        ∀ t ∈ later, finalizes (label key t) = true →
          Balances.Moved t.before.lamports (.eventPda key) (.wallet feeWalletDev) (drop key t) t.after.lamports) := by
  refine ⟨?_,final_sum e,fun undecided => if_pos undecided,?_⟩
  · intro challenger finalizer challenge finalization after after' same own own' challenged finalized
    obtain ⟨e₁,_,_,loaded,_,inside,_⟩ := challengeResolution_parts challenged
    obtain ⟨e₂,_,loaded',_,_,due,_⟩ := finalizeResolution_parts finalized
    rw [own] at loaded
    rw [own'] at loaded'
    have equal : e₁ = e₂ := Option.some.inj ((loadEvent_parts.mp loaded).1.symm.trans (loadEvent_parts.mp loaded').1)
    rw [equal,same] at inside
    omega
  · intro due later s' run unclosed
    obtain ⟨_,e',found',outcome⟩ := outcome_run found resolving due run unclosed
    obtain ⟨result,once⟩ := outcome.result resolving
    refine ⟨e',found',result,once,?_⟩
    intro t member last
    obtain ⟨newer,older,rfl⟩ := List.append_of_mem member
    obtain ⟨_,taken,_⟩ := run.around
    exact fee_moved taken last

section sample
open SampleMarket

-- The window of the market has ended, and nobody has finalized it yet.
def resolving : List Action := awaiting ++ [resolve (.lit 400) (update (.lit 1000) (.lit 390))]
def waiting : Action := .invoke (sysvars (.lit 700)) (.lockEvent ⟨bob,market⟩)
def ripe : Chain := stateOf (resolving ++ [waiting])
def ripeEvent : Event := (ripe.events market).get rfl
def ending : List Action := resolving ++ [waiting,finalize,collect alice]

theorem result_fixed_sample : ∃ e', (stateOf ending).events market = some e' ∧
    Result ripeEvent (feesPaid market ((historyOf ending).take 2)) e' := by
  have run : Run opening ((historyOf ending).take 2 ++ stepOf resolving waiting :: historyOf resolving) (stateOf ending) :=
    play_run (rfl : (play ending).isSome = true)
  have found : ripe.events market = some ripeEvent := rfl
  obtain ⟨_,_,_,continues⟩ := result_fixed found rfl
  obtain ⟨e',found',result,_⟩ := continues (by decide) run.around.2.2 (by decide)
  have same : e' = ((stateOf ending).events market).get rfl := Option.some.inj (found'.symm.trans rfl)
  exact ⟨e',found',result (.inl (by rw [same]; rfl))⟩
end sample

end Solclash.Finality
