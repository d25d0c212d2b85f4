import Solclash.EventSchedule

-- The three invariants together, along every run of the program and at every
-- event address, through any number of closings and creations.
namespace Solclash.Lifetimes
open EventProtocol EventBook EventPurse EventSchedule

structure Sound (key : EventKey) (labels : List Label) (v : View) : Prop where
  book : BookAt key labels v
  purse : PurseAt labels v
  schedule : ScheduleAt labels v

variable {key : EventKey} {labels earlier : List Label} {v : View} {l : Label} {s born : Chain} {history : List Step}

theorem sound_step (before : Sound key labels v) (step : EventStep key v l next) : Sound key (l :: labels) next where
  book := book_step before.book step
  purse := purse_step before.book before.purse step
  schedule := schedule_step before.schedule step

theorem sound_genesis (key : EventKey) (genesis : Genesis s) : Sound key [] (view key s) := by
  have absent : (view key s).event = none := genesis.noEvents key
  refine ⟨⟨fun _ => genesis.noBets key,?_⟩,?_,?_⟩
  all_goals
    intro e found
    rw [absent] at found
    cases found

-- The labels of a history at one event, newest first like the history.
def labelsAt (key : EventKey) (history : List Step) : List Label := history.map (label key)

theorem event_run (key : EventKey) (run : Run born history s) :
    Machine.Path (EventStep key) (view key born) (labelsAt key history) (view key s) :=
  Machine.History.project (f:=view key) (g:=label key) (fun step => advance_projects key step) run

theorem sound_run (before : Sound key earlier (view key born)) (run : Run born history s) :
    Sound key (labelsAt key history ++ earlier) (view key s) :=
  Machine.Path.invariant (I:=fun labels v => Sound key (labels ++ earlier) v) before
    (fun sound step => sound_step sound step) (event_run key run)

theorem sound_reachable (key : EventKey) (genesis : Genesis born) (run : Run born history s) :
    Sound key (labelsAt key history) (view key s) := by
  have sound := sound_run (sound_genesis key genesis) run
  rw [List.append_nil] at sound
  exact sound

theorem capped_step (capped : Balances.Capped s.lamports) (step : advance s action = some next) :
    Balances.Capped next.lamports := by
  cases action with
  | invoke sys instruction =>
      obtain ⟨_,⟨after,ran,rfl⟩ | ⟨_,_,rfl⟩⟩ := advance_invoke step
      · have moved := execute_capped capped ran
        exact moved
      · exact capped
  | transfer source target amount =>
      obtain ⟨lamports,paid,rfl⟩ := advance_transfer step
      exact systemTransfer_capped capped paid

theorem capped_run (capped : Balances.Capped born.lamports) (run : Run born history s) :
    Balances.Capped s.lamports := by
  induction run with
  | nil => exact capped
  | cons _ step ih => exact capped_step ih step

theorem reachable_sound (reached : Reachable s) (key : EventKey) : ∃ labels, Sound key labels (view key s) := by
  obtain ⟨_,history,genesis,run⟩ := reached
  exact ⟨labelsAt key history,sound_reachable key genesis run⟩

theorem reachable_capped (reached : Reachable s) : Balances.Capped s.lamports := by
  obtain ⟨_,_,genesis,run⟩ := reached
  exact capped_run genesis.capped run

-- Facts about one life of an event, by induction on its steps: `fresh` at the
-- creation and `kept` by every step that leaves the event in place.
theorem life_run {P : List Label → Event → Prop} {e : Event}
    (fresh : ∀ {now e}, Fresh key now e → P [] e)
    (kept : ∀ {labels v l next e e'}, Book key labels e v.bets → P labels e → EventStep key v l next →
      v.event = some e → next.event = some e' → P (l :: labels) e')
    (genesis : Genesis born) (run : Run born history s) (found : s.events key = some e) :
    P (sinceCreation (labelsAt key history)) e := by
  have along : Sound key (labelsAt key history) (view key s) ∧
      ∀ e, (view key s).event = some e → P (sinceCreation (labelsAt key history)) e := by
    refine Machine.Path.invariant
      (I:=fun labels v => Sound key labels v ∧ ∀ e, v.event = some e → P (sinceCreation labels) e)
      ⟨sound_genesis key genesis,?_⟩ ?_ (event_run key run)
    · intro e present
      rw [show (view key born).event = none from genesis.noEvents key] at present
      cases present
    · intro earlier v l next before step
      obtain ⟨sound,facts⟩ := before
      refine ⟨sound_step sound step,?_⟩
      intro e' present'
      cases present : v.event with
      | none =>
          cases step with
          | created _ _ isFresh => cases present'; exact fresh isFresh
          | donated => rw [present] at present'; cases present'
          | quiet => rw [present] at present'; cases present'
          | closed => cases present'
          | _ => simp_all
      | some e =>
          have living : sinceCreation (l :: earlier) = l :: sinceCreation earlier := by
            cases step with
            | created vacant => rw [present] at vacant; cases vacant
            | _ => rfl
          rw [living]
          exact kept (sound.book.kept e present) (facts e present) step present present'
  exact along.2 e found

-- An event that is never closed stays, and is not created a second time.
def closes : Label → Bool
  | .closed _ => true
  | _ => false
def creates : Label → Bool
  | .created _ => true
  | _ => false
abbrev Closing (l : Label) : Prop := closes l = true
abbrev Creating (l : Label) : Prop := creates l = true

theorem step_living (step : EventStep key v l next) (present : v.event ≠ none) (kept : ¬ Closing l) :
    next.event ≠ none ∧ ¬ Creating l := by
  cases step with
  | created vacant => exact False.elim (present vacant)
  | closed => exact False.elim (kept rfl)
  | donated => exact ⟨present,Bool.false_ne_true⟩
  | quiet => exact ⟨present,Bool.false_ne_true⟩
  | _ => exact ⟨Option.some_ne_none _,Bool.false_ne_true⟩

theorem path_living (path : Machine.Path (EventStep key) origin labels v) (present : origin.event ≠ none)
    (kept : ∀ l ∈ labels, ¬ Closing l) : v.event ≠ none ∧ ∀ l ∈ labels, ¬ Creating l := by
  induction path with
  | nil => exact ⟨present,fun l member => (by cases member)⟩
  | cons _ step ih =>
      obtain ⟨alive,uncreated⟩ := ih fun l member => kept l (List.mem_cons_of_mem _ member)
      obtain ⟨still,other⟩ := step_living step alive (kept _ (List.mem_cons_self ..))
      refine ⟨still,?_⟩
      intro l member
      rcases List.mem_cons.mp member with rfl | old
      · exact other
      · exact uncreated l old

theorem sinceCreation_append (uncreated : ∀ l ∈ labels, ¬ Creating l) :
    sinceCreation (labels ++ earlier) = labels ++ sinceCreation earlier := by
  induction labels with
  | nil => rfl
  | cons l labels ih =>
      have rest := ih fun l' member => uncreated l' (List.mem_cons_of_mem _ member)
      cases l with
      | created => exact False.elim (uncreated _ (List.mem_cons_self ..) rfl)
      | _ => simp only [List.cons_append,sinceCreation,rest]

theorem birthEscrow_append (uncreated : ∀ l ∈ labels, ¬ Creating l) :
    birthEscrow (labels ++ earlier) = birthEscrow earlier := by
  induction labels with
  | nil => rfl
  | cons l labels ih =>
      have rest := ih fun l' member => uncreated l' (List.mem_cons_of_mem _ member)
      cases l with
      | created => exact False.elim (uncreated _ (List.mem_cons_self ..) rfl)
      | _ => simpa only [List.cons_append,birthEscrow] using rest

-- The life that began at one transition of a run and has not ended since.
theorem life_of {t : Step} {later past : List Step} (run : Run born (later ++ t :: past) s)
    (created : label key t = .created escrow) (unclosed : ∀ l ∈ labelsAt key later, ¬ Closing l) :
    s.events key ≠ none ∧ sinceCreation (labelsAt key (later ++ t :: past)) = labelsAt key later ∧
      birthEscrow (labelsAt key (later ++ t :: past)) = escrow.val ∧
      (t.after.lamports (.eventPda key)).val = escrow.val := by
  obtain ⟨prior,step,after⟩ := run.around
  have own := advance_projects key step
  have creation : EventStep key (view key t.before) (.created escrow) (view key t.after) := created ▸ own
  have present : t.after.events key ≠ none ∧ (t.after.lamports (.eventPda key)).val = escrow.val := by
    generalize view key t.before = v at creation
    generalize found : view key t.after = v' at creation
    cases creation
    have event := congrArg View.event found
    have balance := congrArg View.escrow found
    exact ⟨by rw [show t.after.events key = some _ from event]; exact Option.some_ne_none _,congrArg _ balance⟩
  obtain ⟨alive,uncreated⟩ := path_living (event_run key after) present.1 unclosed
  have split : labelsAt key (later ++ t :: past) = labelsAt key later ++ .created escrow :: labelsAt key past := by
    simp only [labelsAt,List.map_append,List.map_cons,created]
  refine ⟨alive,?_,?_,present.2⟩
  · rw [split,sinceCreation_append uncreated,sinceCreation,List.append_nil]
  · rw [split,birthEscrow_append uncreated,birthEscrow]

end Solclash.Lifetimes

-- One market with a bettor on each side, for runs on fixed inputs.
namespace Solclash.SampleMarket

def creator : Pubkey := ⟨1⟩
def alice : Pubkey := ⟨2⟩
def bob : Pubkey := ⟨3⟩
def market : EventKey := ⟨creator,.lit 7⟩

def rent (size : Nat) : U64 := (RangedInt.narrow (6960 * (128 + size))).getD (.lit 0)
def sysvars (now : I64) : Sysvars := ⟨now,rent⟩

def funds (account : Address) : U64 :=
  if account = .wallet creator ∨ account = .wallet alice ∨ account = .wallet bob then .lit 1000000000000 else .lit 0
def opening : Chain := ⟨.lit 0,funds,fun _ => none,fun _ _ => none⟩

theorem opening_genesis : Genesis opening where
  noEvents := fun _ => rfl
  noBets := fun _ _ => rfl
  capped := by
    apply Balances.capped_support {.wallet creator,.wallet alice,.wallet bob}
    · intro account outside
      simp only [Finset.mem_insert,Finset.mem_singleton] at outside
      simp only [opening,funds,outside,if_false]
      rfl
    · decide

def create : Action := .invoke (sysvars (.lit 10))
  (.createEvent ⟨creator,.lit 7,.lit 255⟩ ((0#8).replicate 32) conditionGreaterThan (.lit 100) (.lit 100) (.lit 400))
def bet (now : I64) (bettor : Pubkey) (outcome : U8) (stake : U64) : Action :=
  .invoke (sysvars now) (.placeBet ⟨bettor,market,.lit 254⟩ outcome stake)
def bets : List Action :=
  [create,bet (.lit 20) alice outcomeYes (.lit 20000000),bet (.lit 30) bob outcomeNo (.lit 30000000)]
def lock : Action := .invoke (sysvars (.lit 100)) (.lockEvent ⟨bob,market⟩)
def update (price publishTime : I64) : MockPriceUpdate :=
  ⟨pythReceiverProgram,.full,(0#8).replicate 32,price,.lit 1,.lit (-8),publishTime⟩
def resolve (now : I64) (update : MockPriceUpdate) : Action := .invoke (sysvars now) (.resolveEvent ⟨bob,market,update⟩)
def finalize : Action := .invoke (sysvars (.lit 700)) (.finalizeResolution ⟨bob,market,feeWalletDev,true⟩)
def collect (bettor : Pubkey) : Action := .invoke (sysvars (.lit 700)) (.claim ⟨bettor,market⟩)

def play (actions : List Action) : Option (List Step × Chain) := Machine.replay machine actions [] opening
def historyOf (actions : List Action) : List Step := ((play actions).map (·.1)).getD []
def stateOf (actions : List Action) : Chain := ((play actions).map (·.2)).getD opening

theorem play_run (possible : (play actions).isSome = true) : Run opening (historyOf actions) (stateOf actions) := by
  obtain ⟨⟨history,s⟩,played⟩ := Option.isSome_iff_exists.mp possible
  have run : Run opening history s := Machine.replay_history .nil played
  simp only [historyOf,stateOf,played]
  exact run

theorem play_reachable (possible : (play actions).isSome = true) : Reachable (stateOf actions) :=
  ⟨opening,historyOf actions,opening_genesis,play_run possible⟩

def stepOf (actions : List Action) (action : Action) : Step :=
  ⟨stateOf actions,action,stateOf (actions ++ [action])⟩

def awaiting : List Action := bets ++ [lock]
def deciding : List Action := awaiting ++ [resolve (.lit 400) (update (.lit 1000) (.lit 390)),finalize]
def settling : List Action := deciding ++ [collect alice]

example : ((stateOf settling).events market).map (fun e => (e.status,e.betsClosed.val,e.bettorCount.val)) =
    some (.resolved,1,2) := by rfl

end Solclash.SampleMarket
