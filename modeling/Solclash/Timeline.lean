import Solclash.Lifetimes

-- The calendar of a market as its bettors know it: bets until it closes, a
-- report when the price is due, a window to contest it, payments afterwards.
namespace Solclash.Timeline

structure Terms where
  close : Int
  due : Int
  window : Int
  patience : Int

inductive Move where
  | bet (now : Int)
  | withdraw (now : Int)
  | lock (now : Int)
  | report (now : Int)
  | challenge (now : Int)
  | finalize (now : Int)
  | abandon (now : Int)
  | win (now : Int)
  | refund (now : Int)
  | idle

-- Why the stakes go back.
inductive Cause where
  | unopposed
  | abandoned (given : Int)
  | inconclusive (report final : Int)

inductive Stage where
  | betting
  | awaiting (lock : Int)
  | contested (lock report : Int)
  | decided (lock report final : Int)
  | void (lock : Int) (cause : Cause)

inductive StageStep (t : Terms) : Int × Stage → Move → Int × Stage → Prop where
  | bet (later : clock ≤ now) (early : now < t.close) : StageStep t (clock,.betting) (.bet now) (now,.betting)
  | withdraw (later : clock ≤ now) : StageStep t (clock,.betting) (.withdraw now) (now,.betting)
  | lock (later : clock ≤ now) (closed : t.close ≤ now) : StageStep t (clock,.betting) (.lock now) (now,.awaiting now)
  | unopposed (later : clock ≤ now) (closed : t.close ≤ now) :
      StageStep t (clock,.betting) (.lock now) (now,.void now .unopposed)
  | report (later : clock ≤ now) (due : t.due ≤ now) :
      StageStep t (clock,.awaiting lock) (.report now) (now,.contested lock now)
  | challenge (later : clock ≤ now) (inside : now < report + t.window) :
      StageStep t (clock,.contested lock report) (.challenge now) (now,.contested lock report)
  | decide (later : clock ≤ now) (past : report + t.window ≤ now) :
      StageStep t (clock,.contested lock report) (.finalize now) (now,.decided lock report now)
  | inconclusive (later : clock ≤ now) (past : report + t.window ≤ now) :
      StageStep t (clock,.contested lock report) (.finalize now) (now,.void lock (.inconclusive report now))
  | abandon (later : clock ≤ now) (patient : t.due + t.patience ≤ now) :
      StageStep t (clock,.awaiting lock) (.abandon now) (now,.void lock (.abandoned now))
  | win (later : clock ≤ now) : StageStep t (clock,.decided lock report final) (.win now) (now,.decided lock report final)
  | refund (later : clock ≤ now) : StageStep t (clock,.void lock cause) (.refund now) (now,.void lock cause)
  | idle (later : clock ≤ now) : StageStep t (clock,stage) .idle (now,stage)

def milestone : Move → Bool
  | .lock _ | .report _ | .finalize _ | .abandon _ => true
  | _ => false

-- The milestones behind a stage, newest first.
def Stage.milestones : Stage → List Move
  | .betting => []
  | .awaiting lock => [.lock lock]
  | .contested lock report => [.report report,.lock lock]
  | .decided lock report final => [.finalize final,.report report,.lock lock]
  | .void lock .unopposed => [.lock lock]
  | .void lock (.abandoned given) => [.abandon given,.lock lock]
  | .void lock (.inconclusive report final) => [.finalize final,.report report,.lock lock]

def Cause.Dated (t : Terms) (lock clock : Int) : Cause → Prop
  | .unopposed => lock ≤ clock
  | .abandoned given => lock ≤ given ∧ t.due + t.patience ≤ given ∧ given ≤ clock
  | .inconclusive report final =>
      lock ≤ report ∧ t.due ≤ report ∧ report + t.window ≤ final ∧ report ≤ final ∧ final ≤ clock

def Stage.Dated (t : Terms) (clock : Int) : Stage → Prop
  | .betting => True
  | .awaiting lock => t.close ≤ lock ∧ lock ≤ clock
  | .contested lock report => t.close ≤ lock ∧ lock ≤ report ∧ t.due ≤ report ∧ report ≤ clock
  | .decided lock report final =>
      t.close ≤ lock ∧ lock ≤ report ∧ t.due ≤ report ∧ report + t.window ≤ final ∧ report ≤ final ∧ final ≤ clock
  | .void lock cause => t.close ≤ lock ∧ cause.Dated t lock clock

def Stage.lockedAt : Stage → Option Int
  | .betting => none
  | .awaiting lock | .contested lock _ | .decided lock _ _ | .void lock _ => some lock
def Stage.reportedAt : Stage → Option Int
  | .contested _ report | .decided _ report _ | .void _ (.inconclusive report _) => some report
  | _ => none
-- When the payments could begin.
def Stage.endedAt : Stage → Option Int
  | .decided _ _ final | .void _ (.inconclusive _ final) => some final
  | .void _ (.abandoned given) => some given
  | .void lock .unopposed => some lock
  | _ => none
def Stage.isDecided : Stage → Bool
  | .decided .. => true
  | _ => false

-- Why a move was in time, told from the stage that was reached since.
def InTime (t : Terms) (stage : Stage) : Move → Prop
  | .bet now => now < t.close ∧ ∀ lock, stage.lockedAt = some lock → now ≤ lock
  | .withdraw now => ∀ lock, stage.lockedAt = some lock → now ≤ lock
  | .challenge now => ∃ report, stage.reportedAt = some report ∧ report ≤ now ∧ now < report + t.window
  | .win now => stage.isDecided = true ∧ ∃ final, stage.endedAt = some final ∧ final ≤ now
  | .refund now => stage.isDecided = false ∧ ∃ ended, stage.endedAt = some ended ∧ ended ≤ now
  | _ => True

structure Kept (t : Terms) (moves : List Move) (clock : Int) (stage : Stage) : Prop where
  milestones : moves.filter milestone = stage.milestones
  dated : stage.Dated t clock
  inTime : ∀ m ∈ moves, InTime t stage m
  past : ∀ m ∈ moves, ∀ now, m = .bet now ∨ m = .withdraw now → now ≤ clock

-- A stage only ever adds to what is known of the dates.
structure Grows (clock : Int) (stage next : Stage) : Prop where
  locked : ∀ lock, next.lockedAt = some lock → stage.lockedAt = some lock ∨ clock ≤ lock
  reported : ∀ report, stage.reportedAt = some report → next.reportedAt = some report
  ended : stage.endedAt = none ∨ next = stage

section calendar
variable {t : Terms} {stage next : Stage} {m : Move} {moves : List Move} {clock now : Int}

theorem Grows.same (clock : Int) (stage : Stage) : Grows clock stage stage := ⟨fun _ => .inl,fun _ => id,.inr rfl⟩

theorem step_later (step : StageStep t (clock,stage) m (now,next)) : clock ≤ now := by
  cases step <;> assumption

theorem step_grows (step : StageStep t (clock,stage) m (now,next)) : Grows clock stage next := by
  cases step with
  | lock later =>
      refine ⟨?_,fun _ absurd => (by cases absurd),.inl rfl⟩
      intro lock same
      cases same
      exact .inr later
  | unopposed later =>
      refine ⟨?_,fun _ absurd => (by cases absurd),.inl rfl⟩
      intro lock same
      cases same
      exact .inr later
  | report => exact ⟨fun _ => .inl,fun _ absurd => (by cases absurd),.inl rfl⟩
  | decide => exact ⟨fun _ => .inl,fun _ => id,.inl rfl⟩
  | inconclusive => exact ⟨fun _ => .inl,fun _ => id,.inl rfl⟩
  | abandon => exact ⟨fun _ => .inl,fun _ absurd => (by cases absurd),.inl rfl⟩
  | _ => exact .same ..

theorem dated_later (dated : stage.Dated t clock) (later : clock ≤ now) : stage.Dated t now := by
  cases stage with
  | betting => exact trivial
  | awaiting => exact ⟨dated.1,dated.2.trans later⟩
  | contested => exact ⟨dated.1,dated.2.1,dated.2.2.1,dated.2.2.2.trans later⟩
  | decided =>
      obtain ⟨closed,order,due,window,past,before⟩ := dated
      exact ⟨closed,order,due,window,past,before.trans later⟩
  | void lock cause =>
      refine ⟨dated.1,?_⟩
      cases cause with
      | unopposed => exact dated.2.trans later
      | abandoned => exact ⟨dated.2.1,dated.2.2.1,dated.2.2.2.trans later⟩
      | inconclusive =>
          obtain ⟨_,order,due,window,past,before⟩ := dated
          exact ⟨order,due,window,past,before.trans later⟩

theorem step_dated (dated : stage.Dated t clock) (step : StageStep t (clock,stage) m (now,next)) : next.Dated t now := by
  have later := step_later step
  cases step with
  | bet => exact trivial
  | withdraw => exact trivial
  | lock _ closed => exact ⟨closed,le_refl _⟩
  | unopposed _ closed => exact ⟨closed,le_refl _⟩
  | report _ due =>
      obtain ⟨closed,past⟩ := dated
      exact ⟨closed,past.trans later,due,le_refl _⟩
  | challenge => exact dated_later dated later
  | decide _ window =>
      obtain ⟨closed,order,due,past⟩ := dated
      exact ⟨closed,order,due,window,past.trans later,le_refl _⟩
  | inconclusive _ window =>
      obtain ⟨closed,order,due,past⟩ := dated
      exact ⟨closed,order,due,window,past.trans later,le_refl _⟩
  | abandon _ patient =>
      obtain ⟨closed,past⟩ := dated
      exact ⟨closed,past.trans later,patient,le_refl _⟩
  | win => exact dated_later dated later
  | refund => exact dated_later dated later
  | idle => exact dated_later dated later

theorem InTime.grow (before : InTime t stage m) (past : ∀ now, m = .bet now ∨ m = .withdraw now → now ≤ clock)
    (grows : Grows clock stage next) : InTime t next m := by
  have order : ∀ now, m = .bet now ∨ m = .withdraw now → (∀ lock, stage.lockedAt = some lock → now ≤ lock) →
      ∀ lock, next.lockedAt = some lock → now ≤ lock := by
    intro now kind known lock locked
    rcases grows.locked lock locked with old | new
    · exact known lock old
    · exact (past now kind).trans new
  cases m with
  | bet now => exact ⟨before.1,order now (.inl rfl) before.2⟩
  | withdraw now => exact order now (.inr rfl) before
  | challenge now =>
      obtain ⟨report,reported,inside⟩ := before
      exact ⟨report,grows.reported report reported,inside⟩
  | win now =>
      rcases grows.ended with running | same
      · obtain ⟨_,final,ended,_⟩ := before
        rw [running] at ended
        cases ended
      · exact same ▸ before
  | refund now =>
      rcases grows.ended with running | same
      · obtain ⟨_,final,ended,_⟩ := before
        rw [running] at ended
        cases ended
      · exact same ▸ before
  | _ => exact trivial

theorem step_inTime (dated : stage.Dated t clock) (step : StageStep t (clock,stage) m (now,next)) : InTime t next m := by
  cases step with
  | bet _ early => exact ⟨early,fun _ absurd => (by cases absurd)⟩
  | withdraw => exact fun _ absurd => (by cases absurd)
  | challenge later inside => exact ⟨_,rfl,dated.2.2.2.trans later,inside⟩
  | win later => exact ⟨rfl,_,rfl,dated.2.2.2.2.2.trans later⟩
  | @refund _ _ lock cause later =>
      refine ⟨by cases cause <;> rfl,?_⟩
      cases cause with
      | unopposed => exact ⟨lock,rfl,dated.2.trans later⟩
      | abandoned given => exact ⟨given,rfl,dated.2.2.2.trans later⟩
      | inconclusive report final => exact ⟨final,rfl,dated.2.2.2.2.2.trans later⟩
  | _ => exact trivial

theorem kept_start (t : Terms) (clock : Int) : Kept t [] clock .betting :=
  ⟨rfl,trivial,fun m member => (by cases member),fun m member => (by cases member)⟩

theorem step_milestones (before : moves.filter milestone = stage.milestones)
    (step : StageStep t (clock,stage) m (now,next)) : (m :: moves).filter milestone = next.milestones := by
  cases step <;> simp only [List.filter_cons,milestone,before,Stage.milestones] <;> rfl

theorem kept_step (before : Kept t moves clock stage) (step : StageStep t (clock,stage) m (now,next)) :
    Kept t (m :: moves) now next where
  milestones := step_milestones before.milestones step
  dated := step_dated before.dated step
  inTime := by
    intro m' member
    rcases List.mem_cons.mp member with rfl | old
    · exact step_inTime before.dated step
    · exact (before.inTime m' old).grow (before.past m' old) (step_grows step)
  past := by
    intro m' member at' kind
    rcases List.mem_cons.mp member with rfl | old
    · cases step <;> rcases kind with same | same <;> cases same <;> exact le_refl _
    · exact (before.past m' old at' kind).trans (step_later step)

end calendar

open EventProtocol EventBook Lifetimes

def terms (e : Event) : Terms :=
  ⟨e.bettingCloseTime.val,e.resolutionTime.val,resolutionChallengeSecsDev.val,resolutionTimeoutSecsDev.val⟩

def move : Label → Move
  | .placed now .. => .bet now.val
  | .cancelled now .. => .withdraw now.val
  | .locked now => .lock now.val
  | .resolved now _ => .report now.val
  | .challenged now _ => .challenge now.val
  | .finalized now => .finalize now.val
  | .claimed now .. => .win now.val
  | .marked now => .abandon now.val
  | .refunded now .. => .refund now.val
  | .created _ | .closed _ | .donated _ | .quiet => .idle

-- The stage that an event's status and deadline stand for.
inductive At (e : Event) : Stage → Prop where
  | betting (opened : e.status = .open) : At e .betting
  | awaiting (isLocked : e.status = .locked) : At e (.awaiting lock)
  | contested (resolving : e.status = .resolving)
      (deadline : e.finalizedAt.val = report + resolutionChallengeSecsDev.val) : At e (.contested lock report)
  | decided (resolved : e.status = .resolved) : At e (.decided lock report final)
  | void (refundable : e.status = .refundable) : At e (.void lock cause)

structure OnTime (labels : List Label) (e : Event) (clock : Int) (stage : Stage) : Prop where
  path : ∃ born, Machine.Path (StageStep (terms e)) (born,.betting) (labels.map move) (clock,stage)
  stands : At e stage
  kept : Kept (terms e) (labels.map move) clock stage

section calendar
variable {key : EventKey} {labels : List Label} {l : Label} {e e' : Event} {v next : View} {stage : Stage}

theorem At.open (stands : At e stage) (opened : e.status = .open) : stage = .betting := by
  cases stands with
  | betting => rfl
  | awaiting status | contested status | decided status | void status => cases opened.symm.trans status

theorem At.locked (stands : At e stage) (isLocked : e.status = .locked) : ∃ lock, stage = .awaiting lock := by
  cases stands with
  | awaiting => exact ⟨_,rfl⟩
  | betting status | contested status | decided status | void status => cases isLocked.symm.trans status

theorem At.resolving (stands : At e stage) (resolving : e.status = .resolving) :
    ∃ lock report, stage = .contested lock report ∧ e.finalizedAt.val = report + resolutionChallengeSecsDev.val := by
  cases stands with
  | contested _ deadline => exact ⟨_,_,rfl,deadline⟩
  | betting status | awaiting status | decided status | void status => cases resolving.symm.trans status

theorem At.resolved (stands : At e stage) (resolved : e.status = .resolved) :
    ∃ lock report final, stage = .decided lock report final := by
  cases stands with
  | decided => exact ⟨_,_,_,rfl⟩
  | betting status | awaiting status | contested status | void status => cases resolved.symm.trans status

theorem At.refundable (stands : At e stage) (refundable : e.status = .refundable) : ∃ lock cause, stage = .void lock cause := by
  cases stands with
  | void => exact ⟨_,_,rfl⟩
  | betting status | awaiting status | contested status | decided status => cases refundable.symm.trans status

-- One step of the protocol is one step of the calendar.
structure Follows (v : View) (stage : Stage) (l : Label) (next : View) (e e' : Event) : Prop where
  same : terms e' = terms e
  step : ∃ stage', StageStep (terms e) (v.clock.val,stage) (move l) (next.clock.val,stage') ∧ At e' stage'

theorem terms_withBook (e : Event) (outcome : U8) (pot side : U64) (count : U32) :
    terms (e.withBook outcome pot side count) = terms e := by
  unfold terms
  rw [Event.withBook_bettingCloseTime,Event.withBook_resolutionTime]

theorem calendar_step (step : EventStep key v l next) (found : v.event = some e) (found' : next.event = some e')
    (stands : At e stage) : Follows v stage l next e e' := by
  cases step with
  | created vacant => rw [found] at vacant; cases vacant
  | placed same later opened betting =>
      rw [found] at same; cases same; cases found'
      obtain rfl := stands.open opened
      exact ⟨terms_withBook ..,_,.bet later betting,.betting (by rw [Event.withBook_status]; exact opened)⟩
  | cancelled same later opened =>
      rw [found] at same; cases same; cases found'
      obtain rfl := stands.open opened
      exact ⟨terms_withBook ..,_,.withdraw later,.betting (by rw [Event.withBook_status]; exact opened)⟩
  | locked same later opened late =>
      rw [found] at same; cases same; cases found'
      obtain rfl := stands.open opened
      exact ⟨rfl,_,.lock later late,.awaiting rfl⟩
  | oneSided same later opened late =>
      rw [found] at same; cases same; cases found'
      obtain rfl := stands.open opened
      exact ⟨rfl,_,.unopposed later late,.void rfl⟩
  | resolved same later isLocked due _ _ deadline =>
      rw [found] at same; cases same; cases found'
      obtain ⟨lock,rfl⟩ := stands.locked isLocked
      exact ⟨rfl,_,.report later due,.contested rfl deadline⟩
  | challenged same later resolving inside =>
      rw [found] at same; cases same; cases found'
      obtain ⟨lock,report,rfl,deadline⟩ := stands.resolving resolving
      exact ⟨rfl,_,.challenge later (deadline ▸ inside),.contested resolving deadline⟩
  | ambiguous same later resolving due =>
      rw [found] at same; cases same; cases found'
      obtain ⟨lock,report,rfl,deadline⟩ := stands.resolving resolving
      exact ⟨rfl,_,.inconclusive later (deadline ▸ due),.void rfl⟩
  | decided same later resolving due =>
      rw [found] at same; cases same; cases found'
      obtain ⟨lock,report,rfl,deadline⟩ := stands.resolving resolving
      exact ⟨rfl,_,.decide later (deadline ▸ due),.decided rfl⟩
  | claimed same later resolved =>
      rw [found] at same; cases same; cases found'
      obtain ⟨lock,report,final,rfl⟩ := stands.resolved resolved
      exact ⟨rfl,_,.win later,.decided resolved⟩
  | marked same later isLocked late =>
      rw [found] at same; cases same; cases found'
      obtain ⟨lock,rfl⟩ := stands.locked isLocked
      exact ⟨rfl,_,.abandon later late,.void rfl⟩
  | refunded same later refundable =>
      rw [found] at same; cases same; cases found'
      obtain ⟨lock,cause,rfl⟩ := stands.refundable refundable
      exact ⟨rfl,_,.refund later,.void refundable⟩
  | closed => cases found'
  | donated =>
      rw [show v.event = some e' from found'] at found; cases found
      exact ⟨rfl,_,.idle (le_refl _),stands⟩
  | quiet later =>
      rw [show v.event = some e' from found'] at found; cases found
      exact ⟨rfl,_,.idle later,stands⟩

theorem onTime_fresh (fresh : Fresh key now e) (clock : Int) : OnTime [] e clock .betting :=
  ⟨⟨clock,.nil⟩,.betting fresh.status,kept_start ..⟩

theorem OnTime.extend (before : OnTime labels e v.clock.val stage) (follows : Follows v stage l next e e') :
    ∃ stage', OnTime (l :: labels) e' next.clock.val stage' := by
  obtain ⟨born,path⟩ := before.path
  obtain ⟨same,stage',step,stands⟩ := follows
  refine ⟨stage',?_,stands,?_⟩
  · rw [same]
    exact ⟨born,.cons path step⟩
  · rw [same]
    exact kept_step before.kept step

-- The status and the milestones tell the stage.
theorem OnTime.unique (one : OnTime labels e clock stage) (other : OnTime labels e clock stage') : stage' = stage := by
  have same : stage.milestones = stage'.milestones := one.kept.milestones.symm.trans other.kept.milestones
  have stands := one.stands
  cases stands with
  | betting opened => exact other.stands.open opened
  | awaiting isLocked =>
      obtain ⟨lock,rfl⟩ := other.stands.locked isLocked
      cases same
      rfl
  | contested resolving =>
      obtain ⟨lock,report,rfl,_⟩ := other.stands.resolving resolving
      cases same
      rfl
  | decided resolved =>
      obtain ⟨lock,report,final,rfl⟩ := other.stands.resolved resolved
      cases same
      rfl
  | @void lock cause refundable =>
      obtain ⟨lock',cause',rfl⟩ := other.stands.refundable refundable
      cases cause <;> cases cause' <;> cases same <;> rfl

def OnTimeAt (labels : List Label) (v : View) : Prop :=
  ∀ e, v.event = some e → ∃ stage, OnTime (sinceCreation labels) e v.clock.val stage

theorem onTime_step (before : OnTimeAt labels v) (step : EventStep key v l next) : OnTimeAt (l :: labels) next := by
  intro e' found'
  cases found : v.event with
  | none =>
      cases step with
      | created _ _ fresh =>
          cases found'
          exact ⟨_,onTime_fresh fresh _⟩
      | donated => rw [found] at found'; cases found'
      | quiet => rw [found] at found'; cases found'
      | closed => cases found'
      | _ => simp_all
  | some e =>
      obtain ⟨stage,onTime⟩ := before e found
      have living : sinceCreation (l :: labels) = l :: sinceCreation labels := by
        cases step with
        | created vacant => rw [found] at vacant; cases vacant
        | _ => rfl
      rw [living]
      exact onTime.extend (calendar_step step found found' onTime.stands)

theorem calendar_kept (genesis : Genesis origin) (run : Run origin history s) (found : s.events key = some e) :
    ∃! stage, OnTime (sinceCreation (labelsAt key history)) e s.clock.val stage := by
  have along : OnTimeAt (labelsAt key history) (view key s) := by
    refine Machine.Path.invariant (I:=OnTimeAt) ?_ onTime_step (event_run key run)
    intro e present
    rw [show (view key origin).event = none from genesis.noEvents key] at present
    cases present
  obtain ⟨stage,onTime⟩ := along e found
  exact ⟨stage,onTime,fun _ other => onTime.unique other⟩

section sample
open SampleMarket

theorem calendar_kept_sample : ∃ e, (stateOf settling).events market = some e ∧
    OnTime (sinceCreation (labelsAt market (historyOf settling))) e 700 (.decided 100 400 700) := by
  have run : Run opening (historyOf settling) (stateOf settling) := play_run (rfl : (play settling).isSome = true)
  have found : (stateOf settling).events market = some _ := rfl
  obtain ⟨stage,onTime,_⟩ := calendar_kept opening_genesis run found
  obtain ⟨lock,report,final,rfl⟩ := onTime.stands.resolved rfl
  have dates : [Move.finalize 700,.report 400,.lock 100] = [.finalize final,.report report,.lock lock] :=
    onTime.kept.milestones
  cases dates
  exact ⟨_,found,onTime⟩
end sample

end calendar
end Solclash.Timeline
