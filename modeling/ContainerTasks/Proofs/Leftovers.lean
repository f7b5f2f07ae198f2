import ContainerTasks.Proofs.RemovalByHand
import ContainerTasks.Proofs.Teardown

/-!
# What is left behind

When the machine finishes, it may list what is left for the user to take down. It does so if there
is no second stage, or if the history tells of a failure to stop, remove or delete something. But a
step that is given up because of an unexpected error, a panic or a cancelled call leaves no such
failure in the history. What the step was to take down is then left behind without a word, and so is
whatever waits for it.

So everything is accounted for in exactly those runs that have a failure on record, or in which no
step of the second stage was given up.

## Main definitions

* `History.AllTakenDown`, `Machine.Accounted`
* `Ledger.OwnsUp`: the runs in which everything is accounted for

## Main results

* `Ledger.Sound.allTakenDown_iff`: how the second stage ends without a failure on record
* `Execution.Manages.accounted_iff`
-/

namespace ContainerTasks

/-- All that was made was taken down again. -/
structure History.AllTakenDown (h : History) : Prop where
  removed : ∀ c reference, .containerCreated c reference ∈ h → .containerRemoved c ∈ h
  deleted : ∀ network, .networkCreated network ∈ h → .networkDeleted ∈ h

/-- All that was made was taken down again, or its command is among those that are left to the
user. -/
structure Machine.Accounted (m : Machine) : Prop where
  containers : ∀ c reference, .containerCreated c reference ∈ m.history →
    .containerRemoved c ∈ m.history ∨
      (Leftover.container reference).command ∈ m.outcome.leftovers.map Leftover.command
  network : ∀ network, .networkCreated network ∈ m.history →
    .networkDeleted ∈ m.history ∨
      (Leftover.network network).command ∈ m.outcome.leftovers.map Leftover.command

/-- A failure to take something down is on record, or every step that takes something down was
completed. -/
def Ledger.OwnsUp (l : Ledger) : Prop :=
  l.machine.history.hasCleanupFailures = true ∨
    ∀ j ∈ l.jobs, j.step.isCleanup = true → j.ending = some .completed

/-! ### The list for the user -/

namespace History

variable {h : History} {c : String} {reference : ContainerReference} {network : NetworkReference}

/-- A network is listed if only one was made. -/
theorem network_mem_leftovers (hone : (h.about .prepareNetwork).length ≤ 1)
    (hmade : .networkCreated network ∈ h) (hthere : .networkDeleted ∉ h) :
    .network network ∈ h.leftovers := by
  obtain ⟨network', hfound⟩ := Option.isSome_iff_exists.mp
    (isSome_createdNetwork?_iff.mpr ⟨network, hmade⟩)
  have hsame : network' = network := by
    have hmem : ∀ n, .networkCreated n ∈ h → .networkCreated n ∈ h.about .prepareNetwork :=
      fun n hn => List.mem_filter.mpr ⟨hn, decide_eq_true rfl⟩
    obtain ⟨e, he⟩ := List.length_eq_one_iff.mp
      (Nat.le_antisymm hone (List.length_pos_of_mem (hmem _ hmade)))
    have hfirst := hmem _ (mem_of_createdNetwork? hfound)
    have hsecond := hmem _ hmade
    rw [he, List.mem_singleton] at hfirst hsecond
    exact Event.networkCreated.inj (hfirst.trans hsecond.symm)
  exact network_mem_leftovers_iff.mpr ⟨hsame ▸ hfound, hthere⟩

/-- If there is no failure on record, the outcome of a step that takes something down is good. -/
theorem mem_of_tellsOf_remove (hno : h.hasCleanupFailures = false) (ht : h.TellsOf (.remove c)) :
    .containerRemoved c ∈ h := by
  obtain ⟨e, he, hd⟩ := ht
  have hgood := List.any_eq_false.mp hno e he
  cases e <;> simp only [Event.duty?, Option.some.injEq, Duty.remove.injEq, reduceCtorEq] at hd
  · exact hd ▸ he
  · exact absurd rfl hgood

theorem mem_of_tellsOf_deleteNetwork (hno : h.hasCleanupFailures = false)
    (ht : h.TellsOf .deleteNetwork) : .networkDeleted ∈ h := by
  obtain ⟨e, he, hd⟩ := ht
  have hgood := List.any_eq_false.mp hno e he
  cases e <;> simp only [Event.duty?, Option.some.injEq, reduceCtorEq] at hd
  · exact he
  · exact absurd rfl hgood

end History

namespace Machine

variable {m m' : Machine}

/-- The list is made when the machine finishes: always after the first stage, and after the second
one if there is a failure on record. -/
theorem AdvancesTo.leftovers_of_finished (h : m.AdvancesTo m') (hs : m'.stage = .finished) :
    (m.stage = .run ∧ m'.leftovers = m.history.leftovers) ∨
      (m.stage = .cleanup ∧ m'.leftovers =
        if m.history.hasCleanupFailures then m.history.leftovers else m.leftovers) := by
  rw [h.eq, enterNextStage] at hs ⊢
  cases hstage : m.stage with
  | run =>
    rw [hstage] at hs
    dsimp only at hs ⊢
    split at hs
    · cases hs
    · next hpolicy => exact .inl ⟨rfl, by rw [if_neg hpolicy]; rfl⟩
  | cleanup => exact .inr ⟨rfl, rfl⟩
  | finished => exact absurd hstage h.unfinished

/-- With the list, everything is accounted for. -/
theorem accounted_of_leftovers (hone : (m.history.about .prepareNetwork).length ≤ 1)
    (hlist : m.leftovers = m.history.leftovers) : m.Accounted := by
  refine ⟨fun c reference hmade => ?_, fun network hmade => ?_⟩
  · refine Classical.or_iff_not_imp_left.mpr fun hthere => List.mem_map_of_mem ?_
    show Leftover.container reference ∈ m.leftovers
    rw [hlist]
    exact History.container_mem_leftovers_iff.mpr ⟨c, hmade, hthere⟩
  · refine Classical.or_iff_not_imp_left.mpr fun hthere => List.mem_map_of_mem ?_
    show Leftover.network network ∈ m.leftovers
    rw [hlist]
    exact History.network_mem_leftovers hone hmade hthere

/-- Without the list, everything is accounted for if all of it was taken down. -/
theorem accounted_iff_allTakenDown (hlist : m.leftovers = []) :
    m.Accounted ↔ m.history.AllTakenDown := by
  have hnone : ∀ command, command ∉ m.outcome.leftovers.map Leftover.command := by
    intro command hmem
    rw [show m.outcome.leftovers = [] from hlist] at hmem
    cases hmem
  constructor
  · rintro ⟨hcontainers, hnetwork⟩
    exact ⟨fun c reference hmade => (hcontainers c reference hmade).resolve_right (hnone _),
      fun network hmade => (hnetwork network hmade).resolve_right (hnone _)⟩
  · rintro ⟨hremoved, hdeleted⟩
    exact ⟨fun c reference hmade => .inl (hremoved c reference hmade),
      fun network hmade => .inl (hdeleted network hmade)⟩

end Machine

/-! ### The end of the second stage -/

namespace Ledger

variable {existing : Option String} {g : Graph} {policy : CleanupPolicy} {l l' : Ledger}
  {cancelled : Bool} {first : History}

/-- What was made was made in the first stage. -/
theorem Sealed.mem_first (hsealed : l.Sealed g first) {e : Event} (he : e ∈ l.machine.history)
    (hcreation : e.isCreation = true) : e ∈ first := by
  obtain ⟨later, hgrows, hlate⟩ := hsealed.grows
  rw [hgrows] at he
  refine (List.mem_append.mp he).resolve_right fun hlater => ?_
  rw [(Event.not_isCreation_of_isLate (hlate e hlater)).1] at hcreation
  cases hcreation

/-- A step that takes something down was completed if there is an outcome of it. -/
theorem Sound.completed_iff (hl : l.Sound existing g policy) (hidle : l.machine.inFlight = 0)
    {j : Job} (hj : j ∈ l.jobs) (hs : j.step.isCleanup = true) :
    j.ending = some .completed ↔ l.machine.history.TellsOf j.step.duty := by
  rw [History.tellsOf_iff_about_ne_nil]
  exact (hl.follows j hj).completed_iff hs (hl.isGone_of_idle hidle j hj)

/-- At the end of the second stage, with no failure on record, all that was made was taken down if
every step of the stage was completed. -/
theorem Sound.allTakenDown_iff (hl : l.Sound existing g policy) (hg : g.Sound)
    (hsealed : l.Sealed g first) (hs : l.machine.stage = .cleanup)
    (hstuck : l.machine.nextReady? = none) (hidle : l.machine.inFlight = 0)
    (hno : l.machine.history.hasCleanupFailures = false) :
    l.machine.history.AllTakenDown ↔
      ∀ j ∈ l.jobs, j.step.isCleanup = true → j.ending = some .completed := by
  have hm := hl.run.sound hg
  have htakes := hl.takesDown hg hsealed hs
  have hunfinished : l.machine.stage ≠ .finished := fun h => by rw [h] at hs; cases hs
  constructor
  · rintro ⟨hremoved, hdeleted⟩ j hj hcleanup
    rw [hl.completed_iff hidle hj hcleanup]
    obtain ⟨r, ⟨index, -, hr⟩, hd⟩ := hm.rule_of_step hunfinished j.step (List.mem_map_of_mem hj)
      (by rw [Step.isCleanup_duty, hcleanup, hs]; rfl)
    rw [← hd]
    have hremove : ∀ {c reference}, .containerCreated c reference ∈ first →
        l.machine.history.TellsOf (.remove c) := fun hmade =>
      ⟨_, hremoved _ _ (htakes.mem_history hmade), rfl⟩
    cases htakes.mem_rules.mp (List.mem_of_getElem? hr) with
    | stop hmade hneeds => exact htakes.tellsOf_stop hmade hneeds (hremove hmade)
    | remove hmade => exact hremove hmade
    | deleteNetwork hown =>
      exact ⟨_, hdeleted _ (htakes.mem_history (Plan.mem_of_ownNetwork? hown)), rfl⟩
  · intro hcompleted
    -- every step that was handed out has an outcome, and so all were handed out
    have htold : ∀ r, l.machine.HandedOut r → l.machine.history.TellsOf r.duty := by
      intro r hout
      obtain ⟨s, hmem, hd⟩ := hm.step_of_rule hout
      obtain ⟨j, hj, rfl⟩ := List.mem_map.mp hmem
      obtain ⟨index, -, hr⟩ := hout
      have hcleanup : j.step.isCleanup = true := by
        rw [← Step.isCleanup_duty, hd, hm.isCleanup_duty hg (List.mem_of_getElem? hr), hs]
        rfl
      rw [← hd]
      exact (hl.completed_iff hidle hj hcleanup).mp (hcompleted j hj hcleanup)
    have hall : ∀ r, Plan.TakesDown g first r → l.machine.history.TellsOf r.duty := fun r hr =>
      htold r (htakes.handedOut_of_mem hg hstuck htold r (htakes.mem_rules.mpr hr))
    refine ⟨fun c reference hmade => ?_, fun network hmade => ?_⟩
    · have hfirst := hsealed.mem_first hmade rfl
      have hthere := History.isRemoved_eq_false hsealed.making c
      exact History.mem_of_tellsOf_remove hno (hall _ (.remove hfirst hthere))
    · have hkept := History.networkDeleted_eq_false hsealed.making
      obtain ⟨network', hfound⟩ := Option.isSome_iff_exists.mp
        (History.isSome_createdNetwork?_iff.mpr ⟨network, hsealed.mem_first hmade rfl⟩)
      have hown : Plan.ownNetwork? first = some network' := by
        rw [Plan.ownNetwork?, hkept]
        exact hfound
      exact History.mem_of_tellsOf_deleteNetwork hno (hall _ (.deleteNetwork hown))

/-- When the machine finishes, everything is accounted for if the run owns up. -/
theorem Sound.accounted_iff_of_advancesTo (hl : l.Sound existing g policy) (hg : g.Sound)
    (hsealed : l.machine.stage ≠ .run → ∃ first, l.Sealed g first) {m : Machine}
    (hover : l.machine.AdvancesTo m) (hs : m.stage = .finished) :
    m.Accounted ↔ l.OwnsUp := by
  have hm := hl.run.sound hg
  have hlisted : m.leftovers = l.machine.history.leftovers → m.Accounted := by
    intro hlist
    refine Machine.accounted_of_leftovers ?_ (hover.history_eq ▸ hlist)
    rw [hover.history_eq]
    exact hl.length_about_le_one hg fun s hs => by cases s <;> first | rfl | cases hs
  rcases hover.leftovers_of_finished hs with ⟨hrun, hlist⟩ | ⟨hcleanup, hlist⟩
  · refine iff_of_true (hlisted hlist) (.inr fun j hj hmaking => ?_)
    rw [← Step.isCleanup_duty, hm.early hrun j.step (List.mem_map_of_mem hj)] at hmaking
    cases hmaking
  · cases hno : l.machine.history.hasCleanupFailures with
    | true =>
      rw [hno, if_pos rfl] at hlist
      exact iff_of_true (hlisted hlist) (.inl hno)
    | false =>
      obtain ⟨first, hsealed⟩ := hsealed fun hrun => by rw [hrun] at hcleanup; cases hcleanup
      rw [hno, if_neg Bool.false_ne_true, hm.leftovers_nil hover.unfinished] at hlist
      rw [Machine.accounted_iff_allTakenDown hlist, hover.history_eq,
        hl.allTakenDown_iff hg hsealed hcleanup hover.stuck hover.idle hno]
      simp [OwnsUp, hno]

/-- Once the machine has finished, nothing changes but that an interrupt may be recorded. -/
theorem Sound.eq_or_interrupt_of_finished (hl : l.Sound existing g policy) (hg : g.Sound)
    (hs : l.machine.stage = .finished) (h : l.Effect existing cancelled l') :
    l'.jobs = l.jobs ∧ (l'.machine = l.machine ∨
      cancelled = true ∧ l'.machine = l.machine.post .interrupted) := by
  have hm := hl.run.sound hg
  have hgone := hl.isGone_of_idle (hm.idle_finished hs)
  cases h with
  | advance ends => exact absurd hs ends.unfinished
  | handOut ready =>
    obtain ⟨-, r, hr, -⟩ := Machine.of_nextReady? ready
    exact absurd hs (hm.stage_ne_finished (List.mem_of_getElem? hr))
  | glide on =>
    have := hgone _ (List.mem_append_right _ List.mem_cons_self)
    rw [on.isGone_eq.1] at this
    cases this
  | drop | handBack | record | recordFailure =>
    cases hgone _ (List.mem_append_right _ List.mem_cons_self)
  | interrupt stopped => exact ⟨rfl, .inr ⟨stopped, rfl⟩⟩
  | log => exact ⟨rfl, .inl rfl⟩

theorem Sound.eq_of_finished (hl : l.Sound existing g policy) (hg : g.Sound)
    (hs : l.machine.stage = .finished)
    (h : Relation.ReflTransGen (Effect existing false) l l') :
    l'.machine = l.machine ∧ l'.jobs = l.jobs := by
  have hboth : l'.Sound existing g policy ∧ l'.machine = l.machine ∧ l'.jobs = l.jobs := by
    induction h with
    | refl => exact ⟨hl, rfl, rfl⟩
    | tail _ hlast ih =>
      obtain ⟨hsound, hmachine, hjobs⟩ := ih
      have hsound' := hsound.effect hg hlast
      obtain ⟨hjobs', hsame | ⟨hstopped, -⟩⟩ :=
        hsound.eq_or_interrupt_of_finished hg (hmachine ▸ hs) hlast
      · exact ⟨hsound', hsame.trans hmachine, hjobs'.trans hjobs⟩
      · cases hstopped
  exact hboth.2

/-- An interrupt makes no difference. -/
theorem accounted_post_interrupted {m : Machine} :
    (m.post .interrupted).Accounted ↔ m.Accounted := by
  have hmem : ∀ e, e ≠ .interrupted → (e ∈ (m.post .interrupted).history ↔ e ∈ m.history) := by
    intro e he
    rw [Machine.history_post, List.mem_append, List.mem_singleton]
    exact or_iff_left he
  have hlist : (m.post .interrupted).outcome.leftovers = m.outcome.leftovers :=
    Machine.leftovers_post ..
  constructor
  · rintro ⟨hcontainers, hnetwork⟩
    simp only [hmem, hlist, ne_eq, reduceCtorEq, not_false_eq_true] at hcontainers hnetwork
    exact ⟨hcontainers, hnetwork⟩
  · rintro ⟨hcontainers, hnetwork⟩
    refine ⟨?_, ?_⟩ <;> simp only [hmem, hlist, ne_eq, reduceCtorEq, not_false_eq_true]
    · exact hcontainers
    · exact hnetwork

/-- In a finished run, everything is accounted for if the run owns up. -/
theorem accounted_iff_of_effect (hl : l.Sound existing g policy) (hg : g.Sound)
    (hsealed : l.machine.stage ≠ .run → ∃ first, l.Sealed g first)
    (hl' : l.machine.stage = .finished → (l.machine.Accounted ↔ l.OwnsUp))
    (h : l.Effect existing cancelled l') (hs' : l'.machine.stage = .finished) :
    l'.machine.Accounted ↔ l'.OwnsUp := by
  by_cases hs : l.machine.stage = .finished
  · obtain ⟨hjobs, hsame | ⟨-, hpost⟩⟩ := hl.eq_or_interrupt_of_finished hg hs h
    · rw [OwnsUp, hsame, hjobs]
      exact hl' hs
    · have hno : (l.machine.post .interrupted).history.hasCleanupFailures =
          l.machine.history.hasCleanupFailures := by
        simp [History.hasCleanupFailures, Event.isCleanupFailure]
      rw [OwnsUp, hpost, hjobs, accounted_post_interrupted, hno]
      exact hl' hs
  · cases h with
    | advance ends =>
      refine (hl.accounted_iff_of_advancesTo hg hsealed ends hs').trans ?_
      simp only [OwnsUp, ends.history_eq]
    | handOut | glide | drop | handBack | log => exact absurd hs' hs
    | record | recordFailure | interrupt =>
      rw [Machine.stage_post] at hs'
      exact absurd hs' hs

end Ledger

namespace Execution

variable {existing : Option String} {g : Graph} {policy : CleanupPolicy} {x : Execution}

/-- When a managed run has finished, everything that it has made was taken down again or is listed
for the user in exactly these cases: a failure to stop, remove or delete something is on record, or
the work on every step that takes something down was completed. -/
theorem Manages.accounted_iff (h : x.Manages existing g policy)
    (hs : x.machine.stage = .finished) :
    x.machine.Accounted ↔ x.machine.history.hasCleanupFailures = true ∨
      ∀ j ∈ x.jobs, j.step.isCleanup = true → j.ending = some .completed := by
  have hboth := h.induction
    (P := fun l => (l.machine.stage ≠ .run → ∃ first, l.Sealed g first) ∧
      (l.machine.stage = .finished → (l.machine.Accounted ↔ l.OwnsUp)))
    ⟨fun hrun => absurd rfl hrun, nofun⟩
    (fun _ _ _ hl hP heffect => ⟨Ledger.sealed_of_effect hl h.sound_graph hP.1 heffect,
      Ledger.accounted_iff_of_effect hl h.sound_graph hP.1 hP.2 heffect⟩)
  exact hboth.2 hs

/-- If the runtime does what it is asked to do, everything is accounted for. -/
theorem Manages.accounted_of_reply : ∃ x : Execution, x.Manages none Sample.graph ⟨true, true⟩ ∧
    x.machine.stage = .finished ∧ x.machine.Accounted := by
  obtain ⟨x, hx, hp⟩ := Sample.exists_manages Sample.reply 14 [.dispatch]
    (p := fun x => decide (x.machine.stage = .finished ∧
      ∀ j ∈ x.jobs, j.step.isCleanup = true → j.ending = some .completed))
    (by decide +kernel)
  obtain ⟨hs, hcompleted⟩ := of_decide_eq_true hp
  exact ⟨x, hx, hs, (Manages.accounted_iff hx hs).mpr (.inr hcompleted)⟩

/-- An unexpected error when the app is removed, and nobody learns that the app is still there. -/
theorem Manages.not_accounted_of_error : ∃ x : Execution,
    x.Manages none Sample.graph ⟨true, true⟩ ∧ x.machine.stage = .finished ∧
      x.machine.outcome.leftovers = [] ∧ ¬ x.machine.Accounted := by
  obtain ⟨x, hx, hp⟩ := Sample.exists_manages
    (Sample.replyBut (.removeContainer ⟨"id-app", "app"⟩) fun _ =>
      .error (.ofMessage "connection lost"))
    13 [.dispatch]
    (p := fun x => decide (x.machine.stage = .finished ∧ x.machine.outcome.leftovers = [] ∧
      Event.containerCreated "app" ⟨"id-app", "app"⟩ ∈ x.machine.history ∧
      Event.containerRemoved "app" ∉ x.machine.history))
    (by decide +kernel)
  obtain ⟨hs, hlist, hmade, hthere⟩ := of_decide_eq_true hp
  refine ⟨x, hx, hs, hlist, fun haccounted => ?_⟩
  rcases haccounted.containers _ _ hmade with hremoved | hlisted
  · exact hthere hremoved
  · rw [hlist] at hlisted
    cases hlisted

end Execution

end ContainerTasks
