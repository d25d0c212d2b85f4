import Solclash.Foundations.NewestWins
import Solclash.Refusals

-- Price updates submitted to a locked event, in any order and by anybody: the
-- event keeps the newest of them, the first one on a tie.
namespace Solclash.Submissions
open EventProtocol Lifetimes Solvency Refusals NewestWins
open Fallible SolclashError AnchorError

structure Submission where
  sys : Sysvars
  submitter : Pubkey
  update : MockPriceUpdate

structure Candidate where
  outcome : Option U8
  priceE8 : I128
  publishTime : I64
  deriving DecidableEq

def stamp (c : Candidate) : Int := c.publishTime.val

-- What an update makes of the event when nothing but itself is in its way.
def candidate (e : Event) (update : MockPriceUpdate) : Option Candidate :=
  match verifyPriceUpdate (extract update) e.feedId e.resolutionTime with
  | .error _ => none
  | .ok verified =>
    match resolveConfidenceBand e.condition verified.priceE8 verified.confE8 e.thresholdE8 with
    | .error _ => none
    | .ok outcome => some ⟨outcome,verified.priceE8,verified.publishTime⟩

-- The first accepted update resolves the event, the later ones challenge it.
def submission (key : EventKey) (e : Event) (x : Submission) : Action :=
  .invoke x.sys (if e.status = .locked then .resolveEvent ⟨x.submitter,key,x.update⟩
    else .challengeResolution ⟨x.submitter,key,x.update⟩)

structure InWindow (e : Event) (now : I64) : Prop where
  due : e.resolutionTime.val ≤ now.val
  deadline : e.status = .locked → now.val + 300 ≤ 9223372036854775807
  inside : e.status = .resolving → now.val < e.finalizedAt.val

instance (e : Event) (now : I64) : Decidable (InWindow e now) :=
  decidable_of_iff (e.resolutionTime.val ≤ now.val ∧ (e.status = .locked → now.val + 300 ≤ 9223372036854775807) ∧
    (e.status = .resolving → now.val < e.finalizedAt.val)) ⟨fun h => ⟨h.1,h.2.1,h.2.2⟩,fun h => ⟨h.1,h.2,h.3⟩⟩

inductive Submitted (key : EventKey) : Chain → List Submission → Chain → Prop where
  | nil : Submitted key s [] s
  | cons (found : s.events key = some e) (window : InWindow e x.sys.unixTimestamp)
      (taken : advance s (submission key e x) = some next) (rest : Submitted key next xs final) :
      Submitted key s (x :: xs) final

variable {key : EventKey} {s next : Chain} {sys : Sysvars} {e : Event} {update : MockPriceUpdate} {c : Candidate}
  {labels : List Label}

theorem candidate_parts : candidate e update = some c ↔ ∃ verified,
    verifyPriceUpdate (extract update) e.feedId e.resolutionTime = .ok verified ∧
      resolveConfidenceBand e.condition verified.priceE8 verified.confE8 e.thresholdE8 = .ok c.outcome ∧
      verified.priceE8 = c.priceE8 ∧ verified.publishTime = c.publishTime := by
  unfold candidate
  cases verify : verifyPriceUpdate (extract update) e.feedId e.resolutionTime with
  | error cause => simp
  | ok verified =>
      cases band : resolveConfidenceBand e.condition verified.priceE8 verified.confE8 e.thresholdE8 with
      | error cause => simp [band]
      | ok outcome =>
          rcases c with ⟨outcome',priceE8,publishTime⟩
          simp [band]

theorem resolve_possible (facts : Facts key s e labels base) (isLocked : e.status = .locked)
    (window : InWindow e sys.unixTimestamp) (accepted : candidate e update = some c) :
    ∃ next, resolveEvent sys ⟨submitter,key,update⟩ s = .ok next := by
  obtain ⟨verified,verify,band,_,_⟩ := candidate_parts.mp accepted
  have escrow := escrow_early facts (.inr isLocked)
  have reward := reward_covered facts.book (.inl isLocked)
  have rent := e.rentExemptMinimum.lower
  apply returns
  intro err ran
  unfold resolveEvent at ran
  rw [bind_past facts.loads] at ran
  rcases require_refused.mp ran with ⟨missing,rfl⟩ | ⟨_,ran⟩
  · exact (missing isLocked).elim
  rcases require_refused.mp ran with ⟨missing,rfl⟩ | ⟨_,ran⟩
  · exact (missing window.due).elim
  rw [bind_past (lift_ok.mpr verify)] at ran
  rw [bind_past (lift_ok.mpr band)] at ran
  rcases okOr_refused.mp ran with ⟨overflow,rfl⟩ | ⟨_,_,ran⟩
  · have out := RangedInt.checkedAdd_none.mp overflow
    have room := window.deadline isLocked
    have lower := sys.unixTimestamp.lower
    have delay : resolutionChallengeSecsDev.val = 300 := rfl
    omega
  rcases bind_error.mp ran with failed | ⟨_,_,ran⟩
  · exact (requireEscrow_holds escrow failed).elim
  rcases bind_error.mp ran with failed | ⟨_,_,ran⟩
  · have enough : resolverRewardDev.val ≤ (s.lamports (.eventPda key)).val := by omega
    exact (transferFromPda_refused facts.capped enough failed).elim
  cases ran

theorem challenge_possible (facts : Facts key s e labels base) (resolving : e.status = .resolving)
    (inside : sys.unixTimestamp.val < e.finalizedAt.val) (accepted : candidate e update = some c)
    (newer : e.candidatePublishTime.val < stamp c) :
    ∃ next, challengeResolution sys ⟨submitter,key,update⟩ s = .ok next := by
  obtain ⟨verified,verify,band,_,published⟩ := candidate_parts.mp accepted
  apply returns
  intro err ran
  unfold challengeResolution at ran
  rw [bind_past facts.loads] at ran
  rcases require_refused.mp ran with ⟨missing,rfl⟩ | ⟨_,ran⟩
  · exact (missing resolving).elim
  rcases require_refused.mp ran with ⟨missing,rfl⟩ | ⟨_,ran⟩
  · exact (missing inside).elim
  rw [bind_past (lift_ok.mpr verify)] at ran
  rcases require_refused.mp ran with ⟨missing,rfl⟩ | ⟨_,ran⟩
  · refine (missing ?_).elim
    rw [published]
    exact newer
  rw [bind_past (lift_ok.mpr band)] at ran
  cases ran

-- The event after some submissions, by the candidate it holds.
inductive Standing (e : Event) : Option Candidate → Event → Prop where
  | waiting : Standing e none e
  | taken {c : Candidate} {finalizedAt : I64} : Standing e (some c) {e with
      candidateOutcome := c.outcome, candidatePriceE8 := c.priceE8, candidatePublishTime := c.publishTime,
      finalizedAt, status := .resolving}

def offer (held : Option Candidate) (offered : Option Candidate) : Option Candidate :=
  match offered with
  | none => held
  | some c => keep stamp held c

theorem refused_standing (standing : Standing e held e') (found : s.events key = some e')
    (refused : execute sys instruction s = .error err) (taken : advance s (.invoke sys instruction) = some next) :
    ∃ e', next.events key = some e' ∧ Standing e held e' := by
  obtain ⟨_,⟨_,ran,_⟩ | ⟨_,_,rfl⟩⟩ := advance_invoke taken
  · rw [refused] at ran; cases ran
  · exact ⟨e',found,standing⟩

theorem resolved_standing (reached : Reachable s) (found : s.events key = some e) (isLocked : e.status = .locked)
    (window : InWindow e sys.unixTimestamp)
    (taken : advance s (.invoke sys (.resolveEvent ⟨submitter,key,update⟩)) = some next) :
    ∃ e', next.events key = some e' ∧ Standing e (offer none (candidate e update)) e' := by
  obtain ⟨labels,base,facts⟩ := reachable_facts reached found
  cases ran : execute sys (.resolveEvent ⟨submitter,key,update⟩) s with
  | error err =>
      cases accepted : candidate e update with
      | none => exact refused_standing .waiting found ran taken
      | some c =>
          have succeeds : ∃ after, execute sys (.resolveEvent ⟨submitter,key,update⟩) s = .ok after :=
            resolve_possible facts isLocked window accepted
          rw [ran] at succeeds
          obtain ⟨_,absurd⟩ := succeeds
          cases absurd
  | ok after =>
      obtain ⟨e',verified,outcome,finalizedAt,lamports,loaded,_,_,verify,band,_,_,rfl⟩ := resolveEvent_parts ran
      rw [facts.loads] at loaded
      cases loaded
      have accepted : candidate e update = some ⟨outcome,verified.priceE8,verified.publishTime⟩ :=
        candidate_parts.mpr ⟨verified,verify,band,rfl,rfl⟩
      rw [accepted]
      obtain ⟨_,⟨moved,again,rfl⟩ | ⟨_,failed,_⟩⟩ := advance_invoke taken
      · rw [ran] at again
        cases again
        exact ⟨_,Function.update_self ..,.taken⟩
      · rw [ran] at failed
        cases failed

theorem challenged_standing (reached : Reachable s) (standing : Standing e (some held) e')
    (found : s.events key = some e') (resolving : e'.status = .resolving) (window : InWindow e' sys.unixTimestamp)
    (taken : advance s (.invoke sys (.challengeResolution ⟨submitter,key,update⟩)) = some next) :
    ∃ e'', next.events key = some e'' ∧ Standing e (offer (some held) (candidate e update)) e'' := by
  obtain ⟨labels,base,facts⟩ := reachable_facts reached found
  have same : candidate e' update = candidate e update := by cases standing; rfl
  have stamped : e'.candidatePublishTime.val = stamp held := by cases standing; rfl
  cases ran : execute sys (.challengeResolution ⟨submitter,key,update⟩) s with
  | error err =>
      cases accepted : candidate e update with
      | none => exact refused_standing standing found ran taken
      | some c =>
          rcases lt_or_ge (stamp held) (stamp c) with newer | older
          · rw [← same] at accepted
            rw [← stamped] at newer
            have succeeds : ∃ after, execute sys (.challengeResolution ⟨submitter,key,update⟩) s = .ok after :=
              challenge_possible facts resolving (window.inside resolving) accepted newer
            rw [ran] at succeeds
            obtain ⟨_,absurd⟩ := succeeds
            cases absurd
          · have kept : offer (some held) (some c) = some held := keep_held older
            rw [kept]
            exact refused_standing standing found ran taken
  | ok after =>
      obtain ⟨e'',verified,outcome,loaded,_,_,verify,newer,band,rfl⟩ := challengeResolution_parts ran
      rw [facts.loads] at loaded
      cases loaded
      have accepted : candidate e update = some ⟨outcome,verified.priceE8,verified.publishTime⟩ :=
        same.symm.trans (candidate_parts.mpr ⟨verified,verify,band,rfl,rfl⟩)
      rw [stamped] at newer
      have replaced : offer (some held) (candidate e update) =
          some ⟨outcome,verified.priceE8,verified.publishTime⟩ := by rw [accepted]; exact keep_newer newer
      rw [replaced]
      obtain ⟨_,⟨moved,again,rfl⟩ | ⟨_,failed,_⟩⟩ := advance_invoke taken
      · rw [ran] at again
        cases again
        refine ⟨_,Function.update_self ..,?_⟩
        cases standing
        exact .taken
      · rw [ran] at failed
        cases failed

-- What the submitted updates amount to, oldest first; refused ones are no-ops.
def candidates (e : Event) (xs : List Submission) : List Candidate := xs.filterMap fun x => candidate e x.update

theorem settle_cons (held : Option Candidate) (e : Event) (x : Submission) (xs : List Submission) :
    settle stamp held (candidates e (x :: xs)) = settle stamp (offer held (candidate e x.update)) (candidates e xs) := by
  unfold candidates
  cases accepted : candidate e x.update with
  | none => rw [List.filterMap_cons_none (f:=fun x => candidate e x.update) (a:=x) accepted]; rfl
  | some c => rw [List.filterMap_cons_some (f:=fun x => candidate e x.update) (a:=x) accepted]; rfl

theorem submitted_standing (isLocked : e.status = .locked) (submitted : Submitted key s xs final)
    (reached : Reachable s) (found : s.events key = some e') (standing : Standing e held e') :
    ∃ e'', final.events key = some e'' ∧ Standing e (settle stamp held (candidates e xs)) e'' := by
  induction submitted generalizing e' held with
  | nil => exact ⟨e',found,standing⟩
  | @cons e'' s x next xs final found' window taken rest ih =>
      rw [found] at found'
      cases found'
      have path : Run s [⟨s,submission key e'' x,next⟩] next := .cons .nil taken
      have onward : Reachable next := reached.extend path
      have stepped : ∃ e'', next.events key = some e'' ∧ Standing e (offer held (candidate e x.update)) e'' := by
        unfold submission at taken
        cases standing with
        | waiting =>
            rw [if_pos isLocked] at taken
            exact resolved_standing reached found isLocked window taken
        | taken =>
            rw [if_neg (fun isLocked => (by cases isLocked))] at taken
            exact challenged_standing reached .taken found rfl window taken
      obtain ⟨after,foundAfter,standingAfter⟩ := stepped
      rw [settle_cons]
      exact ih onward foundAfter standingAfter

-- The three candidate fields of an event.
def settled (e : Event) : Option U8 × I128 × I64 := (e.candidateOutcome,e.candidatePriceE8,e.candidatePublishTime)

theorem Standing.settled_eq (one : Standing e held e₁) (two : Standing e held e₂) : settled e₁ = settled e₂ := by
  cases one <;> cases two <;> rfl

theorem submissions_converge (reached : Reachable s) (found : s.events key = some e) (isLocked : e.status = .locked)
    (one : Submitted key s xs s₁) (two : Submitted key s ys s₂)
    (same : (xs.map (·.update)).Perm (ys.map (·.update))) :
    ∃ e₁ e₂, s₁.events key = some e₁ ∧ s₂.events key = some e₂ ∧
      Standing e (settle stamp none (candidates e xs)) e₁ ∧
      (∀ c, settle stamp none (candidates e xs) = some c → Newest stamp (candidates e xs) c) ∧
      (Agree stamp (candidates e xs) → settled e₁ = settled e₂) := by
  obtain ⟨e₁,found₁,standing₁⟩ := submitted_standing isLocked one reached found .waiting
  obtain ⟨e₂,found₂,standing₂⟩ := submitted_standing isLocked two reached found .waiting
  refine ⟨e₁,e₂,found₁,found₂,standing₁,fun _ => settle_newest,?_⟩
  intro agree
  have perm : (candidates e xs).Perm (candidates e ys) := by
    have mapped : ∀ zs : List Submission, candidates e zs = (zs.map (·.update)).filterMap (candidate e) := by
      intro zs
      rw [List.filterMap_map]
      rfl
    rw [mapped,mapped]
    exact same.filterMap _
  rw [settle_perm agree perm] at standing₁
  exact standing₁.settled_eq standing₂

section sample
open SampleMarket

def offered (price publishTime : I64) : Submission := ⟨sysvars (.lit 410),bob,SampleMarket.update price publishTime⟩
def resolvedBy (x : Submission) : Action := .invoke x.sys (.resolveEvent ⟨x.submitter,market,x.update⟩)
def challengedBy (x : Submission) : Action := .invoke x.sys (.challengeResolution ⟨x.submitter,market,x.update⟩)

def early : Submission := offered (.lit 1000) (.lit 380)
def newest : Submission := offered (.lit 50) (.lit 390)
def rival : Submission := offered (.lit 1200) (.lit 390)

-- Two updates in the order in which the names say them.
def after (x y : Submission) : Chain := stateOf (awaiting ++ [resolvedBy x,challengedBy y])

def lockedEvent : Event := ((stateOf awaiting).events market).get rfl

theorem submissions_converge_sample : ∃ e₁ e₂, (after early newest).events market = some e₁ ∧
    (after newest early).events market = some e₂ ∧
    Standing lockedEvent (settle stamp none (candidates lockedEvent [early,newest])) e₁ ∧ settled e₁ = settled e₂ := by
  have one : Submitted market (stateOf awaiting) [early,newest] (after early newest) :=
    .cons rfl (by decide) rfl (.cons rfl (by decide) rfl .nil)
  have two : Submitted market (stateOf awaiting) [newest,early] (after newest early) :=
    .cons rfl (by decide) rfl (.cons rfl (by decide) rfl .nil)
  have found : (stateOf awaiting).events market = some lockedEvent := rfl
  have same : ([early,newest].map (·.update)).Perm ([newest,early].map (·.update)) := .swap ..
  have agree : Agree stamp (candidates lockedEvent [early,newest]) := agree_distinct (by decide)
  obtain ⟨e₁,e₂,found₁,found₂,standing,_,agreed⟩ := submissions_converge (play_reachable rfl) found rfl one two same
  exact ⟨e₁,e₂,found₁,found₂,standing,agreed agree⟩

theorem first_tie_wins : ¬ ∀ {s s₁ s₂ : Chain} {key : EventKey} {e e₁ e₂ : Event} {xs ys : List Submission},
    Reachable s → s.events key = some e → e.status = .locked →
    (∀ x ∈ xs, ∃ verified, verifyPriceUpdate (extract x.update) e.feedId e.resolutionTime = .ok verified) →
    Submitted key s xs s₁ → Submitted key s ys s₂ → (xs.map (·.update)).Perm (ys.map (·.update)) →
    s₁.events key = some e₁ → s₂.events key = some e₂ → settled e₁ = settled e₂ := by
  intro claimed
  have one : Submitted market (stateOf awaiting) [newest,rival] (after newest rival) :=
    .cons rfl (by decide) rfl (.cons rfl (by decide) rfl .nil)
  have two : Submitted market (stateOf awaiting) [rival,newest] (after rival newest) :=
    .cons rfl (by decide) rfl (.cons rfl (by decide) rfl .nil)
  have same : ([newest,rival].map (·.update)).Perm ([rival,newest].map (·.update)) := .swap ..
  have reached : Reachable (stateOf awaiting) := play_reachable rfl
  have verified : ∀ x ∈ [newest,rival], ∃ verified,
      verifyPriceUpdate (extract x.update) ((0#8).replicate 32) (.lit 400) = .ok verified := by
    intro x member
    rcases List.mem_cons.mp member with rfl | rest
    · exact ⟨_,rfl⟩
    · rw [List.mem_singleton.mp rest]
      exact ⟨_,rfl⟩
  have agreed := claimed reached rfl rfl verified one two same rfl rfl
  revert agreed
  decide
end sample

end Solclash.Submissions
