import Solclash.EventPurse

-- The clocks of one life of the event: when its bets moved, when it was locked
-- and which publish times its accepted updates carried.
namespace Solclash.EventSchedule
open EventProtocol EventBook

-- The price update that resolve_event or challenge_resolution accepted.
def Label.accepted : Label → Option ExtractedPriceUpdate
  | .resolved _ update | .challenged _ update => some update
  | _ => none

structure Schedule (labels : List Label) (e : Event) (clock : Int) : Prop where
  gap : e.bettingCloseTime.val + 300 ≤ e.resolutionTime.val
  placements : ∀ {t b x}, .placed t b x ∈ labels → t.val < e.bettingCloseTime.val
  cancels : ∀ {t b x p}, .cancelled t b x p ∈ labels → t.val ≤ clock
  lockings : ∀ {lock}, .locked lock ∈ labels →
    lock.val ≤ clock ∧ ∀ {t b x p}, .cancelled t b x p ∈ labels → t.val ≤ lock.val
  updates : ∀ {l u}, l ∈ labels → Label.accepted l = some u →
    e.resolutionTime.val - 60 ≤ u.publishTime.val ∧ u.publishTime.val ≤ e.resolutionTime.val ∧
      ∃ lock, .locked lock ∈ labels
  unlocked : e.status = .open → ∀ {lock}, .locked lock ∉ labels
  sealed : e.status ≠ .open → ∃ lock, .locked lock ∈ labels
  early : e.status = .open ∨ e.status = .locked → e.finalizedAt.val = 0
  settleable : Terminal e.status → e.finalizedAt.val = 0 ∨ e.finalizedAt.val ≤ clock

def ScheduleAt (labels : List Label) (v : View) : Prop :=
  ∀ e, v.event = some e → Schedule (sinceCreation labels) e v.clock.val

-- What a label may add to a schedule.
structure Fits (labels : List Label) (e : Event) (clock now : Int) (l : Label) : Prop where
  placement : ∀ {t b x}, l = .placed t b x → t.val < e.bettingCloseTime.val
  cancel : ∀ {t b x p}, l = .cancelled t b x p → t.val ≤ now ∧ ∀ {lock}, .locked lock ∉ labels
  lock : ∀ {t}, l = .locked t → clock ≤ t.val ∧ t.val ≤ now
  update : ∀ {u}, Label.accepted l = some u →
    e.resolutionTime.val - 60 ≤ u.publishTime.val ∧ u.publishTime.val ≤ e.resolutionTime.val ∧ e.status ≠ .open

variable {key : EventKey} {labels : List Label} {v next : View} {e e' : Event} {l : Label}

theorem Schedule.extend (before : Schedule labels e clock) (later : clock ≤ now)
    (betting : e'.bettingCloseTime = e.bettingCloseTime) (resolution : e'.resolutionTime = e.resolutionTime)
    (fits : Fits labels e clock now l)
    (unlocked : e'.status = .open → e.status = .open ∧ ∀ {t}, l ≠ .locked t)
    (isSealed : e'.status ≠ .open → (∃ t, l = .locked t) ∨ e.status ≠ .open)
    (early : e'.status = .open ∨ e'.status = .locked → e'.finalizedAt.val = 0)
    (settleable : Terminal e'.status → e'.finalizedAt.val = 0 ∨ e'.finalizedAt.val ≤ now) :
    Schedule (l :: labels) e' now where
  gap := by rw [betting,resolution]; exact before.gap
  placements := by
    intro t b x member
    rw [betting]
    rcases List.mem_cons.mp member with same | old
    · exact fits.placement same.symm
    · exact before.placements old
  cancels := by
    intro t b x p member
    rcases List.mem_cons.mp member with same | old
    · exact (fits.cancel same.symm).1
    · exact (before.cancels old).trans later
  lockings := by
    intro lock member
    rcases List.mem_cons.mp member with same | old
    · obtain ⟨after,most⟩ := fits.lock same.symm
      refine ⟨most,?_⟩
      intro t b x p cancelled
      rcases List.mem_cons.mp cancelled with both | earlier
      · rw [← both] at same; cases same
      · exact (before.cancels earlier).trans after
    · obtain ⟨past,kept⟩ := before.lockings old
      refine ⟨past.trans later,?_⟩
      intro t b x p cancelled
      rcases List.mem_cons.mp cancelled with same | earlier
      · exact False.elim ((fits.cancel same.symm).2 old)
      · exact kept earlier
  updates := by
    intro l' u member accepted
    rw [resolution]
    rcases List.mem_cons.mp member with same | old
    · obtain ⟨least,most,notOpen⟩ := fits.update (same ▸ accepted)
      obtain ⟨lock,locked⟩ := before.sealed notOpen
      exact ⟨least,most,lock,List.mem_cons_of_mem _ locked⟩
    · obtain ⟨least,most,lock,locked⟩ := before.updates old accepted
      exact ⟨least,most,lock,List.mem_cons_of_mem _ locked⟩
  unlocked := by
    intro opened lock member
    obtain ⟨wasOpen,other⟩ := unlocked opened
    rcases List.mem_cons.mp member with same | old
    · exact other same.symm
    · exact before.unlocked wasOpen old
  sealed := by
    intro notOpen
    rcases isSealed notOpen with ⟨t,same⟩ | old
    · exact ⟨t,same ▸ List.mem_cons_self ..⟩
    · obtain ⟨t,member⟩ := before.sealed old
      exact ⟨t,List.mem_cons_of_mem _ member⟩
  early := early
  settleable := settleable

-- A label that moves no bet, locks nothing and carries no update fits anywhere.
def plain : Label → Bool
  | .placed .. | .cancelled .. | .locked _ | .resolved .. | .challenged .. => false
  | _ => true

theorem plain_fits (isPlain : plain l = true) : Fits labels e clock now l where
  placement := by intro t b x same; rw [same] at isPlain; cases isPlain
  cancel := by intro t b x p same; rw [same] at isPlain; cases isPlain
  lock := by intro t same; rw [same] at isPlain; cases isPlain
  update := by
    intro u accepted
    cases l with
    | resolved => cases isPlain
    | challenged => cases isPlain
    | _ => cases accepted

theorem not_open_locked (isLocked : e.status = .locked) : e.status ≠ .open := by rw [isLocked]; decide
theorem not_open_resolving (resolving : e.status = .resolving) : e.status ≠ .open := by rw [resolving]; decide
theorem not_open_terminal (terminal : Terminal e.status) : e.status ≠ .open := by
  rcases terminal with status | status <;> rw [status] <;> decide

theorem locked_fits (later : clock ≤ now.val) : Fits labels e clock now.val (.locked now) where
  placement := fun same => (by cases same)
  cancel := fun same => (by cases same)
  lock := by
    intro t same
    cases same
    exact ⟨later,Int.le_refl _⟩
  update := fun accepted => (by cases accepted)

theorem accepted_fits (carries : Label.accepted l = some update) (notOpen : e.status ≠ .open)
    (verified : verifyPriceUpdate update e.feedId e.resolutionTime = .ok price) : Fits labels e clock now l where
  placement := by intro t b x same; rw [same] at carries; cases carries
  cancel := by intro t b x p same; rw [same] at carries; cases carries
  lock := by intro t same; rw [same] at carries; cases carries
  update := by
    intro u accepted
    rw [carries] at accepted
    cases accepted
    obtain ⟨_,_,_,most,least,_⟩ := verifyPriceUpdate_parts verified
    exact ⟨least,most,notOpen⟩

theorem Schedule.idle (before : Schedule labels e clock) (later : clock ≤ now) (isPlain : plain l = true) :
    Schedule (l :: labels) e now := by
  refine before.extend later rfl rfl (plain_fits isPlain) (fun opened => ⟨opened,?_⟩) .inr before.early ?_
  · intro t same
    rw [same] at isPlain
    cases isPlain
  · intro terminal
    exact (before.settleable terminal).imp_right fun past => past.trans later

theorem ScheduleAt.follow (found : next.event = some e)
    (lives : sinceCreation (l :: labels) = l :: sinceCreation labels) (clock : next.clock.val = now)
    (schedule : Schedule (l :: sinceCreation labels) e now) : ScheduleAt (l :: labels) next := by
  intro e' found'
  rw [found] at found'
  cases found'
  rw [lives,clock]
  exact schedule

theorem schedule_step (before : ScheduleAt labels v) (step : EventStep key v l next) :
    ScheduleAt (l :: labels) next := by
  cases step with
  | created _ _ fresh _ =>
      intro e found
      cases found
      exact {
        gap := fresh.gap
        placements := fun member => (by cases member)
        cancels := fun member => (by cases member)
        lockings := fun member => (by cases member)
        updates := fun member => (by cases member)
        unlocked := fun _ _ member => (by cases member)
        sealed := fun notOpen => False.elim (notOpen fresh.status)
        early := fun _ => fresh.finalizedAt
        settleable := fun _ => .inl fresh.finalizedAt }
  | placed found later opened betting =>
      refine ScheduleAt.follow rfl rfl rfl ?_
      have schedule := before _ found
      refine schedule.extend later (Event.withBook_bettingCloseTime ..) (Event.withBook_resolutionTime ..)
        ⟨?_,fun same => (by cases same),fun same => (by cases same),fun accepted => (by cases accepted)⟩
        ?_ ?_ ?_ ?_
      · intro t b x same
        cases same
        exact betting
      · exact fun _ => ⟨opened,fun same => (by cases same)⟩
      · rw [Event.withBook_status]
        exact fun notOpen => False.elim (notOpen opened)
      · rw [Event.withBook_finalizedAt]
        exact fun _ => schedule.early (.inl opened)
      · rw [Event.withBook_status]
        exact fun terminal => False.elim (not_terminal_open opened terminal)
  | cancelled found later opened =>
      refine ScheduleAt.follow rfl rfl rfl ?_
      have schedule := before _ found
      refine schedule.extend later (Event.withBook_bettingCloseTime ..) (Event.withBook_resolutionTime ..)
        ⟨fun same => (by cases same),?_,fun same => (by cases same),fun accepted => (by cases accepted)⟩
        ?_ ?_ ?_ ?_
      · intro t b x p same
        cases same
        exact ⟨Int.le_refl _,schedule.unlocked opened⟩
      · exact fun _ => ⟨opened,fun same => (by cases same)⟩
      · rw [Event.withBook_status]
        exact fun notOpen => False.elim (notOpen opened)
      · rw [Event.withBook_finalizedAt]
        exact fun _ => schedule.early (.inl opened)
      · rw [Event.withBook_status]
        exact fun terminal => False.elim (not_terminal_open opened terminal)
  | locked found later opened =>
      refine ScheduleAt.follow rfl rfl rfl ?_
      have schedule := before _ found
      exact schedule.extend later rfl rfl (locked_fits later) (fun opened' => (by cases opened'))
        (fun _ => .inl ⟨_,rfl⟩) (fun _ => schedule.early (.inl opened))
        (fun terminal => False.elim (not_terminal_locked rfl terminal))
  | oneSided found later opened =>
      refine ScheduleAt.follow rfl rfl rfl ?_
      have schedule := before _ found
      have unset := schedule.early (.inl opened)
      exact schedule.extend later rfl rfl (locked_fits later) (fun opened' => (by cases opened'))
        (fun _ => .inl ⟨_,rfl⟩) (fun _ => unset) (fun _ => .inl unset)
  | resolved found later isLocked _ accepted =>
      refine ScheduleAt.follow rfl rfl rfl ?_
      have notOpen := not_open_locked isLocked
      exact (before _ found).extend later rfl rfl (accepted_fits rfl notOpen accepted) (fun opened => (by cases opened))
        (fun _ => .inr notOpen) (by rintro (absurd | absurd) <;> cases absurd)
        (fun terminal => False.elim (not_terminal_resolving rfl terminal))
  | challenged found later resolving _ accepted =>
      refine ScheduleAt.follow rfl rfl rfl ?_
      have notOpen := not_open_resolving resolving
      have schedule := before _ found
      exact schedule.extend later rfl rfl (accepted_fits rfl notOpen accepted)
        (fun opened => False.elim (notOpen opened)) (fun _ => .inr notOpen) schedule.early
        (fun terminal => False.elim (not_terminal_resolving resolving terminal))
  | ambiguous found later resolving due =>
      refine ScheduleAt.follow rfl rfl rfl ?_
      exact (before _ found).extend later rfl rfl (plain_fits rfl) (fun opened => (by cases opened))
        (fun _ => .inr (not_open_resolving resolving)) (by rintro (absurd | absurd) <;> cases absurd)
        (fun _ => .inr due)
  | decided found later resolving due =>
      refine ScheduleAt.follow rfl rfl rfl ?_
      exact (before _ found).extend later rfl rfl (plain_fits rfl) (fun opened => (by cases opened))
        (fun _ => .inr (not_open_resolving resolving)) (by rintro (absurd | absurd) <;> cases absurd)
        (fun _ => .inr due)
  | claimed found later resolved due =>
      refine ScheduleAt.follow rfl rfl rfl ?_
      have notOpen := not_open_terminal (.inl resolved)
      have schedule := before _ found
      exact schedule.extend later rfl rfl (plain_fits rfl) (fun opened => False.elim (notOpen opened))
        (fun _ => .inr notOpen) schedule.early (fun _ => .inr due)
  | marked found later isLocked =>
      refine ScheduleAt.follow rfl rfl rfl ?_
      have schedule := before _ found
      have unset := schedule.early (.inr isLocked)
      exact schedule.extend later rfl rfl (plain_fits rfl) (fun opened => (by cases opened))
        (fun _ => .inr (not_open_locked isLocked)) (fun _ => unset) (fun _ => .inl unset)
  | refunded found later refundable due =>
      refine ScheduleAt.follow rfl rfl rfl ?_
      have notOpen := not_open_terminal (.inr refundable)
      have schedule := before _ found
      exact schedule.extend later rfl rfl (plain_fits rfl) (fun opened => False.elim (notOpen opened))
        (fun _ => .inr notOpen) schedule.early (fun _ => .inr due)
  | closed => intro e found; cases found
  | donated => exact fun e found => (before e found).idle (Int.le_refl _) rfl
  | quiet later => exact fun e found => (before e found).idle later rfl

end Solclash.EventSchedule
