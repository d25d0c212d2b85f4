import Solclash.Lifecycle
import Solclash.Submissions

-- A resolution under challenge, over a whole life of the event: which updates
-- were submitted while it could change, the newest of them that it holds, and
-- how often it can have changed at all.
namespace Solclash.Challenges
open EventProtocol EventBook EventSchedule Lifetimes Lifecycle Refusals Submissions NewestWins

def prices : Label → Bool
  | .resolved .. => true
  | _ => false
def challenges : Label → Bool
  | .challenged .. => true
  | _ => false
def Priced (labels : List Label) : Prop := ∃ l ∈ labels, prices l = true

-- Every challenge moves the publish time by a second at least, and there are
-- no more seconds in the window than these.
structure Window (labels : List Label) (e : Event) : Prop where
  unpriced : e.status = .open ∨ e.status = .locked → ¬ Priced labels
  priced : e.status = .resolving ∨ e.status = .resolved → Priced labels
  idle : ¬ Priced labels → labels.countP challenges = 0
  least : Priced labels →
    e.resolutionTime.val - publishWindowSecs.val + labels.countP challenges ≤ e.candidatePublishTime.val
  most : Priced labels → e.candidatePublishTime.val ≤ e.resolutionTime.val
  deadline : ∀ {now update}, .resolved now update ∈ labels →
    e.finalizedAt.val = now.val + resolutionChallengeSecsDev.val

variable {key : EventKey} {labels : List Label} {l : Label} {e e' : Event} {v next : View}

theorem Priced.skip (other : prices l = false) : Priced (l :: labels) ↔ Priced labels := by
  simp [Priced,other]

theorem priced_of (member : .resolved now update ∈ labels) : Priced labels := ⟨_,member,rfl⟩

-- A step that neither resolves nor challenges.
theorem window_kept (window : Window labels e) (prices : prices l = false) (challenges : challenges l = false)
    (same : terms e' = terms e) (held : verdict e' = verdict e) (deadline : e'.finalizedAt = e.finalizedAt)
    (early : e'.status = .open ∨ e'.status = .locked → e.status = .open ∨ e.status = .locked)
    (judged : e'.status = .resolving ∨ e'.status = .resolved → e.status = .resolving ∨ e.status = .resolved) :
    Window (l :: labels) e' := by
  obtain ⟨_,_,_,_,_,_,resolution,_⟩ := Terms.mk.inj same
  obtain ⟨_,_,published⟩ := Verdict.mk.inj held
  have count : (l :: labels).countP Challenges.challenges = labels.countP Challenges.challenges :=
    List.countP_cons_of_neg (by rw [challenges]; exact Bool.false_ne_true)
  exact {
    unpriced := fun status => by rw [Priced.skip prices]; exact window.unpriced (early status)
    priced := fun status => by rw [Priced.skip prices]; exact window.priced (judged status)
    idle := by rw [Priced.skip prices,count]; exact window.idle
    least := by rw [Priced.skip prices,count,resolution,published]; exact window.least
    most := by rw [Priced.skip prices,resolution,published]; exact window.most
    deadline := by
      intro now update member
      rw [deadline]
      rcases List.mem_cons.mp member with rfl | old
      · cases prices
      · exact window.deadline old }

-- The first update of the event, with the deadline that it opens.
theorem window_resolved (window : Window labels e) (isLocked : e.status = .locked)
    (accepted : verifyPriceUpdate update e.feedId e.resolutionTime = .ok verified)
    (deadline : finalizedAt.val = now.val + 300) :
    Window (.resolved now update :: labels) {e.withCandidate outcome verified with finalizedAt,status := .resolving} := by
  have fresh := window.unpriced (.inr isLocked)
  have nobody := window.idle fresh
  obtain ⟨_,_,_,most,least,_,_,_,_,published⟩ := verifyPriceUpdate_parts accepted
  rw [← published] at most least
  exact {
    unpriced := by rintro (status | status) <;> cases status
    priced := fun _ => ⟨_,List.mem_cons_self ..,rfl⟩
    idle := fun unpriced => (unpriced ⟨_,List.mem_cons_self ..,rfl⟩).elim
    least := by
      intro _
      rw [List.countP_cons_of_neg Bool.false_ne_true,nobody]
      change _ - 60 + 0 ≤ _
      rw [Int.add_zero]
      exact least
    most := fun _ => most
    deadline := by
      intro now update member
      rcases List.mem_cons.mp member with same | old
      · cases same; exact deadline
      · exact (fresh (priced_of old)).elim }

-- Each challenge uses up at least one second of the publish window.
theorem window_challenged (window : Window labels e) (resolving : e.status = .resolving)
    (accepted : verifyPriceUpdate update e.feedId e.resolutionTime = .ok verified)
    (newer : e.candidatePublishTime.val < verified.publishTime.val) :
    Window (.challenged now update :: labels) (e.withCandidate outcome verified) := by
  have known := window.priced (.inl resolving)
  obtain ⟨_,_,_,most,_,_,_,_,_,published⟩ := verifyPriceUpdate_parts accepted
  rw [← published] at most
  exact {
    unpriced := by rintro (status | status) <;> rw [show e.status = _ from status] at resolving <;> cases resolving
    priced := fun _ => (Priced.skip rfl).mpr known
    idle := fun unpriced => (unpriced ((Priced.skip rfl).mpr known)).elim
    least := by
      intro _
      have before := window.least known
      rw [List.countP_cons_of_pos rfl]
      change e.resolutionTime.val - _ + _ ≤ RangedInt.val (VerifiedPrice.publishTime _)
      push_cast
      omega
    most := fun _ => most
    deadline := by
      intro now update member
      rcases List.mem_cons.mp member with same | old
      · cases same
      · exact window.deadline old }

theorem window_step (window : Window labels e) (step : EventStep key v l next)
    (found : v.event = some e) (found' : next.event = some e') : Window (l :: labels) e' := by
  cases step with
  | created vacant => rw [found] at vacant; cases vacant
  | placed same _ opened =>
      rw [found] at same; cases same; cases found'
      refine window_kept window rfl rfl terms_withBook verdict_withBook (Event.withBook_finalizedAt ..) ?_ ?_
      · exact fun _ => .inl opened
      · rw [Event.withBook_status]; exact id
  | cancelled same _ opened =>
      rw [found] at same; cases same; cases found'
      refine window_kept window rfl rfl terms_withBook verdict_withBook (Event.withBook_finalizedAt ..) ?_ ?_
      · exact fun _ => .inl opened
      · rw [Event.withBook_status]; exact id
  | locked same _ opened =>
      rw [found] at same; cases same; cases found'
      exact window_kept window rfl rfl rfl rfl rfl (fun _ => .inl opened)
        (by rintro (status | status) <;> cases status)
  | oneSided same _ opened =>
      rw [found] at same; cases same; cases found'
      exact window_kept window rfl rfl rfl rfl rfl (fun _ => .inl opened)
        (by rintro (status | status) <;> cases status)
  | resolved same _ isLocked _ accepted _ deadline =>
      rw [found] at same; cases same; cases found'
      exact window_resolved window isLocked accepted deadline
  | challenged same _ resolving _ accepted newer =>
      rw [found] at same; cases same; cases found'
      exact window_challenged window resolving accepted newer
  | ambiguous same =>
      rw [found] at same; cases same; cases found'
      exact window_kept window rfl rfl rfl rfl rfl (by rintro (status | status) <;> cases status)
        (by rintro (status | status) <;> cases status)
  | decided same _ resolving =>
      rw [found] at same; cases same; cases found'
      exact window_kept window rfl rfl rfl rfl rfl (by rintro (status | status) <;> cases status)
        (fun _ => .inl resolving)
  | claimed same =>
      rw [found] at same; cases same; cases found'
      exact window_kept window rfl rfl rfl rfl rfl id id
  | marked same =>
      rw [found] at same; cases same; cases found'
      exact window_kept window rfl rfl rfl rfl rfl (by rintro (status | status) <;> cases status)
        (by rintro (status | status) <;> cases status)
  | refunded same =>
      rw [found] at same; cases same; cases found'
      exact window_kept window rfl rfl rfl rfl rfl id id
  | closed => cases found'
  | donated =>
      rw [show v.event = some e' from found'] at found; cases found
      exact window_kept window rfl rfl rfl rfl rfl id id
  | quiet =>
      rw [show v.event = some e' from found'] at found; cases found
      exact window_kept window rfl rfl rfl rfl rfl id id

theorem window_fresh (fresh : Fresh key now e) : Window [] e where
  unpriced := fun _ ⟨_,member,_⟩ => (by cases member)
  priced := by rintro (status | status) <;> rw [fresh.status] at status <;> cases status
  idle := fun _ => rfl
  least := fun ⟨_,member,_⟩ => (by cases member)
  most := fun ⟨_,member,_⟩ => (by cases member)
  deadline := fun member => (by cases member)

theorem window_run (genesis : Genesis origin) (run : Run origin history s) (found : s.events key = some e) :
    Window (sinceCreation (labelsAt key history)) e :=
  life_run (P:=Window) window_fresh (fun _ => window_step) genesis run found

-- The update that a step submits while the resolution can change: the one that
-- resolves the event, and every challenge before the deadline, also a refused one.
def changeable (key : EventKey) (sys : Sysvars) (s : Chain) : Bool :=
  (s.events key).any fun e => e.status = .resolving ∧ sys.unixTimestamp < e.finalizedAt
def submitted (key : EventKey) (t : Step) : Option MockPriceUpdate :=
  match t.action with
  | .invoke sys (.resolveEvent ctx) =>
    if ctx.event = key ∧ (resolveEvent sys ctx t.before).isOk then some ctx.priceUpdate else none
  | .invoke sys (.challengeResolution ctx) =>
    if ctx.event = key ∧ changeable key sys t.before then some ctx.priceUpdate else none
  | _ => none

-- What they amount to for the event, oldest first.
def offers (key : EventKey) (e : Event) (later : List Step) : List Candidate :=
  (later.reverse.filterMap (submitted key)).filterMap (candidate e)
def heldBy (e : Event) : Candidate := ⟨e.candidateOutcome,e.candidatePriceE8,e.candidatePublishTime⟩

inductive Offered (key : EventKey) (t : Step) (e e' : Event) : Prop where
  | resolved (isLocked : e.status = .locked) (first : prices (label key t) = true) (given : submitted key t = some update)
      (accepted : candidate e update = some (heldBy e')) : Offered key t e e'
  | challenged (other : prices (label key t) = false) (resolving : e.status = .resolving)
      (given : submitted key t = some update)
      (answer : offer (some (heldBy e)) (candidate e update) = some (heldBy e')) : Offered key t e e'
  | idle (other : prices (label key t) = false) (given : submitted key t = none) (same : verdict e' = verdict e) :
      Offered key t e e'

theorem candidate_terms (same : terms e' = terms e) (update : MockPriceUpdate) : candidate e' update = candidate e update := by
  obtain ⟨_,_,feed,condition,threshold,_,resolution,_⟩ := Terms.mk.inj same
  simp only [candidate,feed,condition,threshold,resolution]

theorem heldBy_verdict (same : verdict e' = verdict e) : heldBy e' = heldBy e := by
  obtain ⟨outcome,price,published⟩ := Verdict.mk.inj same
  simp only [heldBy,outcome,price,published]

theorem offers_cons (key : EventKey) (e : Event) (t : Step) (later : List Step) :
    offers key e (t :: later) = offers key e later ++ ((submitted key t).bind (candidate e)).toList := by
  unfold offers
  rw [List.reverse_cons,List.filterMap_append,List.filterMap_append]
  congr 1
  cases given : submitted key t with
  | none => simp [given]
  | some update => cases accepted : candidate e update <;> simp [given,accepted]

theorem settle_offered (offered : Option Candidate) (xs : List Candidate) :
    settle stamp none (xs ++ offered.toList) = offer (settle stamp none xs) offered := by
  cases offered with
  | none => rw [Option.toList_none,List.append_nil]; rfl
  | some c => exact settle_snoc none xs c

theorem verdict_kept (step : EventStep key v l next) (found : v.event = some e) (found' : next.event = some e')
    (prices : prices l = false) (challenges : challenges l = false) : verdict e' = verdict e := by
  cases step with
  | created vacant => rw [found] at vacant; cases vacant
  | placed same => rw [found] at same; cases same; cases found'; exact verdict_withBook
  | cancelled same => rw [found] at same; cases same; cases found'; exact verdict_withBook
  | resolved => cases prices
  | challenged => cases challenges
  | closed => cases found'
  | donated => rw [show v.event = some e' from found'] at found; cases found; rfl
  | quiet => rw [show v.event = some e' from found'] at found; cases found; rfl
  | _ same => rw [found] at same; cases same; cases found'; rfl

theorem putEvent_events (s : Chain) (key : EventKey) (e : Option Event) : (s.putEvent key e).events key = e :=
  Function.update_self ..

section offered
variable {s next : Chain} {sys : Sysvars} {instruction : Instruction} {action : Action}

theorem idle_offered (step : advance s action = some next) (found : s.events key = some e)
    (found' : next.events key = some e') (price : prices (label key ⟨s,action,next⟩) = false)
    (challenge : challenges (label key ⟨s,action,next⟩) = false) (given : submitted key ⟨s,action,next⟩ = none) :
    Offered key ⟨s,action,next⟩ e e' :=
  .idle price given (verdict_kept (advance_projects key step) found found' price challenge)

theorem quiet_offered (step : advance s action = some next) (found : s.events key = some e)
    (found' : next.events key = some e') (quiet : label key ⟨s,action,next⟩ = .quiet)
    (given : submitted key ⟨s,action,next⟩ = none) : Offered key ⟨s,action,next⟩ e e' := by
  apply idle_offered step found found' _ _ given
  · rw [quiet]
    rfl
  · rw [quiet]
    rfl

-- A refused or foreign instruction has no label of its own.
theorem label_refused (ran : execute sys instruction s = .error err) :
    label key ⟨s,.invoke sys instruction,next⟩ = .quiet := by
  simp only [label,ran]
  split <;> rfl

theorem label_foreign (other : instruction.event ≠ key) : label key ⟨s,.invoke sys instruction,next⟩ = .quiet := by
  simp only [label,other,if_false]

theorem refused_kept (step : advance s (.invoke sys instruction) = some next)
    (ran : execute sys instruction s = .error err) : next.events key = s.events key := by
  obtain ⟨_,⟨_,done,_⟩ | ⟨_,_,rfl⟩⟩ := advance_invoke step
  · exact (Fallible.not_both done ran).elim
  · rfl

theorem resolve_offered (step : advance s (.invoke sys (.resolveEvent ctx)) = some next) (found : s.events key = some e)
    (found' : next.events key = some e') : Offered key ⟨s,.invoke sys (.resolveEvent ctx),next⟩ e e' := by
  by_cases own : ctx.event = key
  · cases ran : resolveEvent sys ctx s with
    | error err =>
        refine quiet_offered step found found' (label_refused ran) ?_
        simp only [submitted,ran]
        exact if_neg fun both => Bool.false_ne_true both.2
    | ok after =>
        have first : label key ⟨s,.invoke sys (.resolveEvent ctx),next⟩ = .resolved sys.unixTimestamp (extract ctx.priceUpdate) := by
          simp only [label,Instruction.event,own,if_true,execute,ran,committedLabel]
        have given : submitted key ⟨s,.invoke sys (.resolveEvent ctx),next⟩ = some ctx.priceUpdate := by
          simp only [submitted,ran]
          exact if_pos ⟨own,rfl⟩
        obtain ⟨_,⟨moved,done,rfl⟩ | ⟨_,failed,_⟩⟩ := advance_invoke step
        · obtain ⟨event,verified,outcome,_,_,loaded,isLocked,_,verify,band,_,_,rfl⟩ := resolveEvent_parts done
          obtain ⟨present,_⟩ := loadEvent_parts.mp loaded
          subst own
          rw [found] at present
          cases present
          have written := (putEvent_events _ ctx.event _).symm.trans found'
          cases written
          exact .resolved isLocked (by rw [first]; rfl) given (candidate_parts.mpr ⟨verified,verify,band,rfl,rfl⟩)
        · exact (Fallible.not_both ran failed).elim
  · exact quiet_offered step found found' (label_foreign own) (if_neg fun both => own both.1)

theorem challenge_offered (reached : Reachable s)
    (step : advance s (.invoke sys (.challengeResolution ctx)) = some next) (found : s.events key = some e)
    (found' : next.events key = some e') : Offered key ⟨s,.invoke sys (.challengeResolution ctx),next⟩ e e' := by
  by_cases open' : ctx.event = key ∧ changeable key sys s = true
  · have given : submitted key ⟨s,.invoke sys (.challengeResolution ctx),next⟩ = some ctx.priceUpdate := if_pos open'
    obtain ⟨own,change⟩ := open'
    subst own
    simp only [changeable,found,Option.any_some,decide_eq_true_eq] at change
    obtain ⟨resolving,inside⟩ := change
    obtain ⟨labels,base,facts⟩ := reachable_facts reached found
    cases ran : challengeResolution sys ctx s with
    | error err =>
        have quiet : label ctx.event ⟨s,.invoke sys (.challengeResolution ctx),next⟩ = .quiet := label_refused ran
        rw [refused_kept step ran,found] at found'
        cases found'
        refine .challenged (by rw [quiet]; rfl) resolving given ?_
        cases accepted : candidate e ctx.priceUpdate with
        | none => rfl
        | some c =>
            rcases lt_or_ge (stamp (heldBy e)) (stamp c) with newer | older
            · have succeeds : ∃ after, challengeResolution sys ctx s = .ok after :=
                challenge_possible facts resolving inside accepted newer
              obtain ⟨after,possible⟩ := succeeds
              exact (Fallible.not_both possible ran).elim
            · exact keep_held older
    | ok after =>
        obtain ⟨_,⟨moved,done,rfl⟩ | ⟨_,failed,_⟩⟩ := advance_invoke step
        · obtain ⟨event,verified,outcome,loaded,_,_,verify,newer,band,rfl⟩ := challengeResolution_parts done
          obtain ⟨present,_⟩ := loadEvent_parts.mp loaded
          rw [found] at present
          cases present
          have written := (putEvent_events _ ctx.event _).symm.trans found'
          cases written
          have accepted : candidate e ctx.priceUpdate = some ⟨outcome,verified.priceE8,verified.publishTime⟩ :=
            candidate_parts.mpr ⟨verified,verify,band,rfl,rfl⟩
          refine .challenged ?_ resolving given ?_
          · simp only [label,Instruction.event,if_true,execute,ran,committedLabel]
            rfl
          · rw [accepted]
            exact keep_newer newer
        · exact (Fallible.not_both ran failed).elim
  · have given : submitted key ⟨s,.invoke sys (.challengeResolution ctx),next⟩ = none := if_neg open'
    by_cases own : ctx.event = key
    · cases ran : challengeResolution sys ctx s with
      | error err => exact quiet_offered step found found' (label_refused ran) given
      | ok after =>
          obtain ⟨event,_,_,loaded,resolving,inside,_⟩ := challengeResolution_parts ran
          obtain ⟨present,_⟩ := loadEvent_parts.mp loaded
          subst own
          rw [found] at present
          cases present
          refine (open' ⟨rfl,?_⟩).elim
          simp only [changeable,found,Option.any_some,decide_eq_true_eq]
          exact ⟨resolving,inside⟩
    · exact quiet_offered step found found' (label_foreign own) given

def submits : Instruction → Bool
  | .resolveEvent _ | .challengeResolution _ => true
  | _ => false

theorem label_plain (plain : submits instruction = false) :
    prices (label key ⟨s,.invoke sys instruction,next⟩) = false ∧
      challenges (label key ⟨s,.invoke sys instruction,next⟩) = false := by
  rcases label_invoked key s sys instruction next with quiet | ⟨_,_,kind⟩
  · rw [quiet]
    exact ⟨rfl,rfl⟩
  · generalize label key _ = l at kind
    cases kind with
    | resolved | challenged => cases plain
    | _ => exact ⟨rfl,rfl⟩

theorem step_offered (reached : Reachable s) (step : advance s action = some next) (found : s.events key = some e)
    (found' : next.events key = some e') : Offered key ⟨s,action,next⟩ e e' := by
  cases action with
  | transfer source target amount =>
      refine idle_offered step found found' ?_ ?_ rfl
      all_goals
        simp only [label]
        split <;> rfl
  | invoke sys instruction =>
      cases plain : submits instruction with
      | false =>
          obtain ⟨price,challenge⟩ := label_plain plain
          refine idle_offered step found found' price challenge ?_
          cases instruction with
          | resolveEvent => cases plain
          | challengeResolution => cases plain
          | _ => rfl
      | true =>
          cases instruction with
          | resolveEvent => exact resolve_offered step found found'
          | challengeResolution => exact challenge_offered reached step found found'
          | _ => cases plain
end offered

structure Converged (key : EventKey) (later : List Step) (e : Event) : Prop where
  before : ¬ Priced (labelsAt key later) → settle stamp none (offers key e later) = none
  after : Priced (labelsAt key later) → settle stamp none (offers key e later) = some (heldBy e)

theorem Converged.extend (converged : Converged key later e) (offered : Offered key t e e') (same : terms e' = terms e)
    (window : Window (labelsAt key later) e) : Converged key (t :: later) e' := by
  have extended : settle stamp none (offers key e' (t :: later)) =
      offer (settle stamp none (offers key e later)) ((submitted key t).bind (candidate e)) := by
    have alike : offers key e' (t :: later) = offers key e (t :: later) := by
      unfold offers
      rw [show candidate e' = candidate e from funext (candidate_terms same)]
    rw [alike,offers_cons,settle_offered]
  have labels : labelsAt key (t :: later) = label key t :: labelsAt key later := rfl
  cases offered with
  | resolved isLocked first given accepted =>
      have known : Priced (labelsAt key (t :: later)) := ⟨_,List.mem_cons_self ..,first⟩
      refine ⟨fun unpriced => (unpriced known).elim,fun _ => ?_⟩
      rw [extended,converged.before (window.unpriced (.inr isLocked)),given,Option.bind_some,accepted]
      rfl
  | challenged other resolving given answer =>
      have known := window.priced (.inl resolving)
      refine ⟨fun unpriced => ?_,fun _ => ?_⟩
      · rw [labels,Priced.skip other] at unpriced
        exact (unpriced known).elim
      · rw [extended,converged.after known,given,Option.bind_some,answer]
  | idle other given held =>
      refine ⟨fun unpriced => ?_,fun known => ?_⟩
      · rw [labels,Priced.skip other] at unpriced
        rw [extended,given]
        exact converged.before unpriced
      · rw [labels,Priced.skip other] at known
        rw [extended,given,heldBy_verdict held]
        exact converged.after known

theorem window_life {t : Step} {later past : List Step} (genesis : Genesis origin)
    (run : Run origin (later ++ t :: past) s) (created : label key t = .created escrow)
    (unclosed : ∀ l ∈ labelsAt key later, ¬ Closing l) :
    ∃ e, s.events key = some e ∧ Window (labelsAt key later) e := by
  obtain ⟨alive,life,_⟩ := life_of run created unclosed
  obtain ⟨e,found⟩ := Option.ne_none_iff_exists'.mp alive
  have window := window_run genesis run found
  rw [life] at window
  exact ⟨e,found,window⟩

theorem converged_life {t : Step} {later past : List Step} (genesis : Genesis origin)
    (run : Run origin (later ++ t :: past) s) (created : label key t = .created escrow)
    (unclosed : ∀ l ∈ labelsAt key later, ¬ Closing l) (found : s.events key = some e) : Converged key later e := by
  induction later generalizing s e with
  | nil => exact ⟨fun _ => rfl,fun ⟨_,member,_⟩ => (by cases member)⟩
  | cons c later ih =>
      cases run with
      | cons prior step =>
          rename_i middle action
          have before : ∀ l ∈ labelsAt key later, ¬ Closing l :=
            fun l member => unclosed l (List.mem_cons_of_mem _ member)
          obtain ⟨e₁,found₁,window⟩ := window_life genesis prior created before
          obtain ⟨e₂,found₂,disciplined⟩ := step_disciplined (advance_projects key step) found₁
            (unclosed _ (List.mem_cons_self ..))
          have same : e₂ = e := Option.some.inj (found₂.symm.trans found)
          subst same
          have offered := step_offered ⟨origin,_,genesis,prior⟩ step found₁ found
          exact (ih prior before found₁).extend offered disciplined.terms window

theorem challenge_advances (step : EventStep key v l next) (challenge : challenges l = true) :
    ∃ e e', v.event = some e ∧ next.event = some e' ∧ e.candidatePublishTime.val < e'.candidatePublishTime.val := by
  cases step with
  | challenged found _ _ _ _ newer => exact ⟨_,_,found,rfl,newer⟩
  | _ => cases challenge

theorem window_room (window : Window labels e) : (labels.countP challenges : Int) ≤ publishWindowSecs.val := by
  by_cases priced : Priced labels
  · have least := window.least priced
    have most := window.most priced
    omega
  · rw [window.idle priced]
    decide

theorem challenges_converge {t : Step} {later past : List Step} (genesis : Genesis origin)
    (run : Run origin (later ++ t :: past) s) (created : label key t = .created escrow)
    (unclosed : ∀ l ∈ labelsAt key later, ¬ Closing l) :
    ∃ e, s.events key = some e ∧
      (∀ {newer older : List Step} {c : Step}, later = newer ++ c :: older → challenges (label key c) = true →
        ∃ e₁ e₂, c.before.events key = some e₁ ∧ c.after.events key = some e₂ ∧
          e₁.candidatePublishTime.val < e₂.candidatePublishTime.val) ∧
      (e.status = .resolving ∨ e.status = .resolved → Priced (labelsAt key later)) ∧
      (Priced (labelsAt key later) → settle stamp none (offers key e later) = some (heldBy e) ∧
        Newest stamp (offers key e later) (heldBy e)) ∧
      (∀ {now update}, .resolved now update ∈ labelsAt key later →
        e.finalizedAt.val = now.val + resolutionChallengeSecsDev.val) ∧
      ((labelsAt key later).countP challenges : Int) ≤ publishWindowSecs.val := by
  obtain ⟨e,found,window⟩ := window_life genesis run created unclosed
  have converged := converged_life genesis run created unclosed found
  refine ⟨e,found,?_,window.priced,?_,window.deadline,window_room window⟩
  · intro newer older c split challenge
    rw [split,List.append_assoc,List.cons_append] at run
    obtain ⟨_,taken,_⟩ := run.around
    exact challenge_advances (advance_projects key taken) challenge
  · intro priced
    have holds := converged.after priced
    exact ⟨holds,settle_newest holds⟩

section sample
open SampleMarket

-- Resolved at 380, challenged at 390, and once more in vain.
def disputed : List Action := awaiting ++ [resolvedBy early,challengedBy newest,challengedBy rival]
def sinceDisputedCreation : List Step := (historyOf disputed).take 6
def disputedEvent : Event := ((stateOf disputed).events market).get rfl

theorem challenges_converge_sample :
    Newest stamp (offers market disputedEvent sinceDisputedCreation) (heldBy disputedEvent) ∧
      ((labelsAt market sinceDisputedCreation).countP challenges : Int) ≤ publishWindowSecs.val := by
  have run : Run opening (sinceDisputedCreation ++ stepOf [] create :: []) (stateOf disputed) :=
    play_run (rfl : (play disputed).isSome = true)
  have created : label market (stepOf [] create) = .created ((stepOf [] create).after.lamports (.eventPda market)) := rfl
  have unclosed : ∀ l ∈ labelsAt market sinceDisputedCreation, ¬ Closing l := by decide
  obtain ⟨e,found,_,priced,held,_,room⟩ := challenges_converge opening_genesis run created unclosed
  have same : e = disputedEvent := Option.some.inj (found.symm.trans rfl)
  subst same
  exact ⟨(held (priced (.inl rfl))).2,room⟩
end sample

end Solclash.Challenges
