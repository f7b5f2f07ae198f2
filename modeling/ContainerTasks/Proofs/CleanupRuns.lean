import ContainerTasks.Proofs.Teardown

/-!
# Runs of the second stage

The first stage may have left behind anything: the second one is entered with a history that is
arbitrary but for two things, that no container was created twice and that nothing was taken down.
From then on somebody asks for steps, posts events and hands steps back, in whatever order, and
keeps to one thing: a step is handed back only when an outcome of it, good or bad, has been posted.

Such a run can always be brought to its end. At the end every step of the plan has been handed out,
once, and so everything that was made has an outcome of being taken down.

## Main definitions

* `History.Standing`: what the second stage can be entered with
* `Cleanup`: a machine with the steps that it has handed out
* `Cleanup.GoesOn`: what can happen
* `Cleanup.Complete`: what is wanted at the end
* `Cleanup.Sound`: what holds all along

## Main results

* `Cleanup.goesOn_pop`: asking for a step goes on with a run
* `Cleanup.Sound.goesOn`: what holds is kept
* `Cleanup.Sound.exists_finished`: a run can always be brought to its end
* `Cleanup.complete_of_finished`
-/

namespace ContainerTasks

/-- What the second stage can be entered with. -/
structure History.Standing (h : History) : Prop where
  /-- No container was created twice. -/
  nodup : (h.created.map (·.1)).Nodup
  /-- Nothing was taken down, or failed to be. -/
  making : ∀ e ∈ h, ∀ d, e.duty? = some d → d.isCleanup = false

/-- A step that was handed out. -/
structure Assignment where
  step : Step
  /-- What had happened when the step was handed out. -/
  past : History
  /-- The step has not been handed back. -/
  held : Bool

/-- The second stage as it is run: the machine, and the steps that it has handed out in the stage,
oldest first. -/
structure Cleanup where
  machine : Machine
  assignments : List Assignment

namespace Cleanup

/-- What can happen. -/
inductive GoesOn : Cleanup → Cleanup → Prop where
  | handOut {m : Machine} {given : List Assignment} {index : Nat} {step : Step}
    (ready : m.nextReady? = some (index, step)) :
    GoesOn ⟨m, given⟩ ⟨m.handOut index, given ++ [⟨step, m.history, true⟩]⟩
  /-- An event of no step, or an outcome of a step that was handed out. -/
  | post {m : Machine} {given : List Assignment} {e : Event}
    (may : e.duty? = none ∨ ∃ a ∈ given, e.duty? = some a.step.duty) :
    GoesOn ⟨m, given⟩ ⟨m.post e, given⟩
  /-- A step that has an outcome is handed back. -/
  | finishStep {m : Machine} {front back : List Assignment} {step : Step}
    {past : History} (told : m.history.TellsOf step.duty) :
    GoesOn ⟨m, front ++ ⟨step, past, true⟩ :: back⟩
      ⟨m.finishStep, front ++ ⟨step, past, false⟩ :: back⟩
  | advance {m m' : Machine} {given : List Assignment} (ends : m.AdvancesTo m') :
    GoesOn ⟨m, given⟩ ⟨m', given⟩

/-- What is wanted at the end of the second stage, if it was entered with a history. -/
structure Complete (h : History) (t : Cleanup) : Prop where
  removed : ∀ c reference, .containerCreated c reference ∈ h →
    .containerRemoved c ∈ t.machine.history ∨
      ∃ message, .containerRemovalFailed c message ∈ t.machine.history
  /-- One step stopped each container that still ran. -/
  stopped : ∀ c reference, .containerCreated c reference ∈ h → .containerStarted c ∈ h →
    (∀ exitCode, .containerExited c exitCode ∉ h) →
    (t.assignments.filter (·.step.duty = .stop c)).map (·.step) = [.stopContainer c reference]
  /-- It was not removed before. -/
  stopped_before : ∀ c, .containerStarted c ∈ h → (∀ exitCode, .containerExited c exitCode ∉ h) →
    ∀ a ∈ t.assignments, a.step.duty = .remove c →
      .containerStopped c ∈ a.past ∨ ∃ message, .containerStopFailed c message ∈ a.past
  /-- One step deleted the network, after all containers. -/
  deleted : (∃ network, .networkCreated network ∈ h) → ∃ a network,
    t.assignments.filter (·.step.duty = .deleteNetwork) = [a] ∧
      a.step = .deleteNetwork network ∧ .networkCreated network ∈ h ∧
      ∀ c reference, .containerCreated c reference ∈ h →
        .containerRemoved c ∈ a.past ∨ ∃ message, .containerRemovalFailed c message ∈ a.past
  kept : (∀ network, .networkCreated network ∉ h) →
    ∀ a ∈ t.assignments, a.step.duty ≠ .deleteNetwork

/-- Asking for a step goes on with a run. -/
theorem goesOn_pop (m : Machine) (given : List Assignment) :
    Relation.ReflTransGen GoesOn ⟨m, given⟩
      ⟨m.pop.2, given ++ m.pop.1.steps.map (⟨·, m.history, true⟩)⟩ := by
  obtain ⟨m', hadvances, hpop⟩ := m.pop_spec
  have hsteps : Relation.ReflTransGen GoesOn ⟨m, given⟩ ⟨m', given⟩ :=
    hadvances.lift (fun m => (⟨m, given⟩ : Cleanup)) fun _ _ ends => .advance ends
  have hhistory := (Machine.AdvancesTo.keeps hadvances).1
  rcases hpop with ⟨index, step, hready, heq⟩ | ⟨-, -, heq⟩ | ⟨-, -, -, heq⟩
  · rw [heq, ← hhistory]
    exact hsteps.tail (.handOut hready)
  · rw [heq]
    exact (List.append_nil given).symm ▸ hsteps
  · rw [heq]
    exact (List.append_nil given).symm ▸ hsteps

/-! ### What holds all along -/

/-- What holds all along, if the stage was entered with the history `first`. -/
structure Sound (g : Graph) (first : History) (t : Cleanup) : Prop where
  left : t.machine.stage ≠ .run
  rules_cleanup : t.machine.stage = .cleanup → t.machine.rules = Plan.forCleanup g first
  rules_finished : t.machine.stage = .finished → t.machine.rules = []
  grows : ∃ later, t.machine.history = first ++ later ∧ ∀ e ∈ later, e.isLate = true
  inFlight_eq : t.machine.inFlight = t.assignments.countP (·.held)
  idle_finished : t.machine.stage = .finished → t.machine.inFlight = 0
  nodup_duty : (t.assignments.map (·.step.duty)).Nodup
  /-- Each step was handed out for a rule of the plan. -/
  origin : ∀ a ∈ t.assignments, a.past <+: t.machine.history ∧ ∃ r, Plan.TakesDown g first r ∧
    r.evaluate a.past = .ready a.step ∧ (t.machine.stage = .cleanup → t.machine.HandedOut r)
  assigned : ∀ {r}, t.machine.HandedOut r → ∃ a ∈ t.assignments, r.evaluate a.past = .ready a.step
  told : ∀ {d}, d.isCleanup = true → t.machine.history.TellsOf d →
    ∃ a ∈ t.assignments, a.step.duty = d
  /-- A step that was handed back has an outcome. -/
  settled : ∀ a ∈ t.assignments, a.held = false → t.machine.history.TellsOf a.step.duty
  /-- At the end all steps of the plan were handed out. -/
  finished : t.machine.stage = .finished → ∀ r, Plan.TakesDown g first r →
    ∃ a ∈ t.assignments, a.step.duty = r.duty

variable {g : Graph} {first : History} {m m' : Machine} {t t' : Cleanup}
  {given front back : List Assignment} {index : Nat} {step : Step} {past : History} {e : Event}
  {r : Rule} {c : String} {reference : ContainerReference}

/-- The second stage is entered. -/
theorem sound_of_advancesTo (hfirst : m.history.Standing) (hrun : m.stage = .run)
    (henters : m.AdvancesTo m') (hs : m'.stage = .cleanup) :
    Sound m.graph m.history ⟨m', []⟩ where
  left := henters.stage_ne_run
  rules_cleanup _ := henters.rules_of_run hrun hs
  rules_finished h := by rw [show m'.stage = .finished from h] at hs; cases hs
  grows := ⟨[], by rw [henters.history_eq, List.append_nil], List.forall_mem_nil _⟩
  inFlight_eq := henters.inFlight_eq.trans henters.idle
  idle_finished h := by rw [show m'.stage = .finished from h] at hs; cases hs
  nodup_duty := List.nodup_nil
  origin := List.forall_mem_nil _
  assigned hr := absurd hr henters.not_handedOut
  told := by
    rintro d hd ⟨e, he, hduty⟩
    rw [show m'.history = m.history from henters.history_eq] at he
    rw [hfirst.making e he d hduty] at hd
    cases hd
  settled := List.forall_mem_nil _
  finished h := by rw [show m'.stage = .finished from h] at hs; cases hs

/-- While the stage lasts, it comes as it should. -/
theorem Sound.takesDown (ht : t.Sound g first) (hfirst : first.Standing)
    (hs : t.machine.stage = .cleanup) : t.machine.TakesDown g first where
  rules_eq := ht.rules_cleanup hs
  grows := ht.grows
  making := hfirst.making
  handedOut_of_tellsOf := by
    intro r hr htold
    rw [ht.rules_cleanup hs] at hr
    obtain ⟨a, ha, hd⟩ := ht.told (Plan.mem_forCleanup.mp hr).isCleanup_duty htold
    obtain ⟨-, r', hr', heval, hout⟩ := ht.origin a ha
    have hsame : r' = r := List.inj_on_of_nodup_map (Plan.nodup_duty_forCleanup hfirst.nodup)
      (Plan.mem_forCleanup.mpr hr') hr ((Rule.duty_of_evaluate heval).symm.trans hd)
    exact hsame ▸ hout hs
  ready_of_handedOut := by
    intro r hr
    obtain ⟨a, ha, heval⟩ := ht.assigned hr
    exact ⟨a.past, a.step, (ht.origin a ha).1, heval⟩

theorem Sound.handOut (ht : Sound g first ⟨m, given⟩) (hfirst : first.Standing)
    (hready : m.nextReady? = some (index, step)) :
    Sound g first ⟨m.handOut index, given ++ [⟨step, m.history, true⟩]⟩ := by
  obtain ⟨hfresh, r, hr, heval⟩ := Machine.of_nextReady? hready
  have hmem : r ∈ m.rules := List.mem_of_getElem? hr
  have hs : m.stage = .cleanup := by
    cases hs : m.stage with
    | run => exact absurd hs ht.left
    | cleanup => rfl
    | finished =>
      rw [show m.rules = [] from ht.rules_finished hs] at hmem
      cases hmem
  have hrules : m.rules = Plan.forCleanup g first := ht.rules_cleanup hs
  have hnodup : (m.rules.map Rule.duty).Nodup := hrules ▸ Plan.nodup_duty_forCleanup hfirst.nodup
  have hunfinished : m.stage ≠ .finished := fun h => by
    rw [hs] at h
    cases h
  have hkeep : ∀ {p : Assignment → Prop}, (∃ a ∈ given, p a) →
      ∃ a ∈ given ++ [⟨step, m.history, true⟩], p a :=
    fun ⟨a, ha, hp⟩ => ⟨a, List.mem_append_left _ ha, hp⟩
  exact { ht with
    inFlight_eq := by
      show m.inFlight + 1 = _
      rw [List.countP_append, show m.inFlight = given.countP (·.held) from ht.inFlight_eq]
      rfl
    idle_finished := fun h => absurd h hunfinished
    nodup_duty := by
      -- a step of the same duty would have been handed out for the same rule
      rw [List.map_append, List.nodup_append]
      refine ⟨ht.nodup_duty, List.nodup_singleton _, ?_⟩
      rintro d hd _ hd' rfl
      rcases List.mem_singleton.mp hd' with rfl
      obtain ⟨a, ha, hduty⟩ := List.mem_map.mp hd
      obtain ⟨-, r', -, heval', hout⟩ := ht.origin a ha
      obtain ⟨index', hindex', hr'⟩ := hout hs
      have hsame : r'.duty = r.duty :=
        ((Rule.duty_of_evaluate heval').symm.trans hduty).trans (Rule.duty_of_evaluate heval)
      exact hfresh (index_eq_of_nodup_map hnodup hr' hr hsame ▸ hindex')
    origin := by
      refine List.forall_mem_append.mpr ⟨fun a ha => ?_, List.forall_mem_singleton.mpr ?_⟩
      · obtain ⟨hp, r', hr', heval', hout⟩ := ht.origin a ha
        exact ⟨hp, r', hr', heval', fun hs => Machine.handedOut_handOut.mpr (.inr (hout hs))⟩
      · exact ⟨List.prefix_rfl, r, Plan.mem_forCleanup.mp (hrules ▸ hmem), heval,
          fun _ => Machine.handedOut_handOut.mpr (.inl hr)⟩
    assigned := fun {r'} hr' => by
      rcases Machine.handedOut_handOut.mp hr' with hr' | hr'
      · rw [hr, Option.some.injEq] at hr'
        exact ⟨_, List.mem_append_right _ (List.mem_singleton_self _), hr' ▸ heval⟩
      · exact hkeep (ht.assigned hr')
    told := fun hd htold => hkeep (ht.told hd htold)
    settled := List.forall_mem_append.mpr
      ⟨ht.settled, List.forall_mem_singleton.mpr fun hback => by cases hback⟩
    finished := fun h => absurd h hunfinished }

theorem Sound.post (ht : Sound g first ⟨m, given⟩)
    (hmay : e.duty? = none ∨ ∃ a ∈ given, e.duty? = some a.step.duty) :
    Sound g first ⟨m.post e, given⟩ := by
  have hgrow : m.history <+: m.history ++ [e] := List.prefix_append _ _
  have hrecorded : Sound g first ⟨{ m with history := m.history ++ [e] }, given⟩ :=
    { ht with
      grows := by
        obtain ⟨later, hgrows, hlate⟩ := ht.grows
        refine ⟨later ++ [e], ?_, List.forall_mem_append.mpr
          ⟨hlate, List.forall_mem_singleton.mpr (Event.isLate_of_duty? fun d hd => ?_)⟩⟩
        · rw [← List.append_assoc]
          exact congrArg (· ++ [e]) hgrows
        · rcases hmay with hnone | ⟨a, ha, hsome⟩
          · rw [hnone] at hd
            cases hd
          · obtain ⟨-, r, hr, heval, -⟩ := ht.origin a ha
            rw [hsome, Option.some.injEq] at hd
            rw [← hd, Rule.duty_of_evaluate heval, hr.isCleanup_duty]
      origin := fun a ha => (ht.origin a ha).imp_left fun hp => hp.trans hgrow
      told := by
        rintro d hd ⟨e', he', hduty⟩
        rcases List.mem_append.mp he' with he' | he'
        · exact ht.told hd ⟨e', he', hduty⟩
        · rcases List.mem_singleton.mp he' with rfl
          rcases hmay with hnone | ⟨a, ha, hsome⟩
          · rw [hnone] at hduty
            cases hduty
          · exact ⟨a, ha, Option.some.inj (hsome.symm.trans hduty)⟩
      settled := fun a ha hback => (ht.settled a ha hback).mono hgrow }
  unfold Machine.post
  split
  · exact hrecorded
  · exact { hrecorded with }

theorem Sound.finishStep (ht : Sound g first ⟨m, front ++ ⟨step, past, true⟩ :: back⟩)
    (htold : m.history.TellsOf step.duty) :
    Sound g first ⟨m.finishStep, front ++ ⟨step, past, false⟩ :: back⟩ := by
  have hsame : ∀ {p : Step → History → Prop},
      (∃ a ∈ front ++ ⟨step, past, true⟩ :: back, p a.step a.past) →
      ∃ a ∈ front ++ ⟨step, past, false⟩ :: back, p a.step a.past := by
    intro p h
    simpa only [List.mem_append, List.mem_cons, or_and_right, exists_or, exists_eq_left] using h
  have hcount : m.inFlight = (front ++ ⟨step, past, true⟩ :: back).countP (·.held) :=
    ht.inFlight_eq
  exact { ht with
    inFlight_eq := by
      show m.inFlight - 1 = _
      simp only [hcount, List.countP_append, List.countP_cons, if_true, Bool.false_eq_true,
        if_false]
      omega
    idle_finished := fun hs => by
      show m.inFlight - 1 = 0
      rw [show m.inFlight = 0 from ht.idle_finished hs]
    nodup_duty := by simpa using ht.nodup_duty
    origin := by
      have := ht.origin
      simp only [List.forall_mem_append, List.forall_mem_cons] at this ⊢
      exact this
    assigned := fun {r} hr => hsame (p := fun s h => r.evaluate h = .ready s) (ht.assigned hr)
    told := fun {d} hd h => hsame (p := fun s _ => s.duty = d) (ht.told hd h)
    settled := by
      have := ht.settled
      simp only [List.forall_mem_append, List.forall_mem_cons] at this ⊢
      exact ⟨this.1, fun _ => htold, this.2.2⟩
    finished := fun hs r hr => hsame (p := fun s _ => s.duty = r.duty) (ht.finished hs r hr) }

/-- When no step is held, every step that was handed out has an outcome. -/
theorem Sound.tellsOf_of_idle (ht : t.Sound g first) (hidle : t.machine.inFlight = 0) :
    ∀ a ∈ t.assignments, t.machine.history.TellsOf a.step.duty := by
  have hcount : t.assignments.countP (·.held) = 0 := ht.inFlight_eq.symm.trans hidle
  exact fun a ha => ht.settled a ha (by simpa using List.countP_eq_zero.mp hcount a ha)

theorem Sound.advance (ht : Sound g first ⟨m, given⟩) (hg : g.Sound) (hfirst : first.Standing)
    (hends : m.AdvancesTo m') : Sound g first ⟨m', given⟩ := by
  have hs : m.stage = .cleanup := by
    cases hs : m.stage with
    | run => exact absurd hs ht.left
    | cleanup => rfl
    | finished => exact absurd hs hends.unfinished
  have htakes : m.TakesDown g first := ht.takesDown hfirst hs
  have htold := ht.tellsOf_of_idle hends.idle
  have hs' : m'.stage ≠ .cleanup := hends.stage_ne_cleanup ht.left
  refine ⟨hends.stage_ne_run, fun h => absurd h hs', hends.rules_of_finished, ?_, ?_, fun _ => ?_,
    ht.nodup_duty, ?_, fun hr => absurd hr hends.not_handedOut, ?_, ?_, fun _ r hr => ?_⟩
  · rw [hends.history_eq]
    exact ht.grows
  · exact hends.inFlight_eq.trans ht.inFlight_eq
  · exact hends.inFlight_eq.trans hends.idle
  · intro a ha
    obtain ⟨hp, r, hr, heval, -⟩ := ht.origin a ha
    exact ⟨hends.history_eq ▸ hp, r, hr, heval, fun h => absurd h hs'⟩
  · rw [hends.history_eq]
    exact ht.told
  · rw [hends.history_eq]
    exact ht.settled
  · -- nothing is held up, since all that was handed out has an outcome
    have hall := htakes.handedOut_of_mem hg hends.stuck fun r hr => by
      obtain ⟨a, ha, heval⟩ := ht.assigned hr
      rw [← Rule.duty_of_evaluate heval]
      exact htold a ha
    obtain ⟨a, ha, heval⟩ := ht.assigned (hall r (htakes.mem_rules.mpr hr))
    exact ⟨a, ha, Rule.duty_of_evaluate heval⟩

/-- What holds is kept. -/
theorem Sound.goesOn (ht : t.Sound g first) (hg : g.Sound) (hfirst : first.Standing)
    (h : t.GoesOn t') : t'.Sound g first := by
  cases h with
  | handOut ready => exact ht.handOut hfirst ready
  | post may => exact ht.post may
  | finishStep told => exact ht.finishStep told
  | advance ends => exact ht.advance hg hfirst ends

theorem Sound.steps (ht : t.Sound g first) (hg : g.Sound) (hfirst : first.Standing)
    (h : Relation.ReflTransGen GoesOn t t') : t'.Sound g first := by
  induction h with
  | refl => exact ht
  | tail _ hlast ih => exact ih.goesOn hg hfirst hlast

/-! ### To the end -/

/-- No more steps are handed out than the plan has. -/
theorem Sound.length_le (ht : t.Sound g first) :
    t.assignments.length ≤ (Plan.forCleanup g first).length := by
  rw [← List.length_map (·.step.duty), ← List.length_map (f := Rule.duty)]
  refine (List.Nodup.subperm ht.nodup_duty fun d hd => ?_).length_le
  obtain ⟨a, ha, rfl⟩ := List.mem_map.mp hd
  obtain ⟨-, r, hr, heval, -⟩ := ht.origin a ha
  exact List.mem_map.mpr ⟨r, Plan.mem_forCleanup.mpr hr, (Rule.duty_of_evaluate heval).symm⟩

/-- There is an outcome for every duty of the stage. -/
theorem exists_event {d : Duty} (hd : d.isCleanup = true) : ∃ e : Event, e.duty? = some d := by
  cases d with
  | stop c => exact ⟨.containerStopped c, rfl⟩
  | remove c => exact ⟨.containerRemoved c, rfl⟩
  | deleteNetwork => exact ⟨.networkDeleted, rfl⟩
  | prepareNetwork | build | pull | create | run | checkHealth | setUp | markReady => cases hd

/-- How much is still to be done: steps have to be handed out, and to be handed back. -/
def remaining (g : Graph) (first : History) (t : Cleanup) : Nat :=
  2 * ((Plan.forCleanup g first).length - t.assignments.length) + t.assignments.countP (·.held)

/-- A step that is held can be handed back. -/
theorem Sound.exists_handBack (ht : t.Sound g first) {a : Assignment} (ha : a ∈ t.assignments)
    (hheld : a.held = true) : ∃ t', Relation.ReflTransGen GoesOn t t' ∧
      t'.remaining g first < t.remaining g first := by
  obtain ⟨m, given⟩ := t
  obtain ⟨step, past, _⟩ := a
  subst hheld
  obtain ⟨-, r, hr, heval, -⟩ := ht.origin _ ha
  obtain ⟨e, he⟩ := exists_event (Rule.duty_of_evaluate heval ▸ hr.isCleanup_duty)
  obtain ⟨front, back, rfl⟩ := List.append_of_mem ha
  refine ⟨⟨(m.post e).finishStep, front ++ ⟨step, past, false⟩ :: back⟩,
    .head (.post (.inr ⟨_, ha, he⟩)) (.single (.finishStep ⟨e, by simp, he⟩)), ?_⟩
  simp [remaining]

/-- A run can always be brought to its end. -/
theorem Sound.exists_finished (ht : t.Sound g first) (hg : g.Sound) (hfirst : first.Standing) :
    ∃ t', Relation.ReflTransGen GoesOn t t' ∧ t'.machine.stage = .finished := by
  induction hn : t.remaining g first using Nat.strongRecOn generalizing t with
  | ind n ih =>
    by_cases hs : t.machine.stage = .finished
    · exact ⟨_, .refl, hs⟩
    suffices ∃ t', Relation.ReflTransGen GoesOn t t' ∧
        (t'.machine.stage = .finished ∨ t'.remaining g first < t.remaining g first) by
      obtain ⟨t', hsteps, hs' | hless⟩ := this
      · exact ⟨t', hsteps, hs'⟩
      · obtain ⟨t'', hsteps', hs'⟩ := ih _ (hn ▸ hless) (ht.steps hg hfirst hsteps) rfl
        exact ⟨t'', hsteps.trans hsteps', hs'⟩
    by_cases hheld : ∃ a ∈ t.assignments, a.held = true
    · obtain ⟨a, ha, hheld⟩ := hheld
      obtain ⟨t', hsteps, hless⟩ := ht.exists_handBack ha hheld
      exact ⟨t', hsteps, .inr hless⟩
    · obtain ⟨m, given⟩ := t
      have hidle : m.inFlight = 0 := by
        rw [show m.inFlight = given.countP (·.held) from ht.inFlight_eq]
        exact List.countP_eq_zero.mpr fun a ha h => hheld ⟨a, ha, h⟩
      cases hready : m.nextReady? with
      | some found =>
        obtain ⟨index, step⟩ := found
        refine ⟨_, .single (.handOut hready), .inr ?_⟩
        have hle := (ht.handOut hfirst hready).length_le
        simp only [remaining, List.length_append, List.length_singleton, List.countP_append,
          List.countP_singleton, if_true] at hle ⊢
        omega
      | none =>
        have hends : m.AdvancesTo m.enterNextStage.notify := ⟨hready, hidle, hs, rfl⟩
        refine ⟨_, .single (.advance hends), .inl ?_⟩
        cases hs' : m.enterNextStage.notify.stage with
        | run => exact absurd hs' hends.stage_ne_run
        | cleanup => exact absurd hs' (hends.stage_ne_cleanup ht.left)
        | finished => rfl

/-! ### At the end -/

/-- No two steps that were handed out have the same duty. -/
theorem Sound.filter_duty (ht : t.Sound g first) {a : Assignment} (ha : a ∈ t.assignments)
    {d : Duty} (hd : a.step.duty = d) : t.assignments.filter (·.step.duty = d) = [a] := by
  have hnodup := ht.nodup_duty
  obtain ⟨front, back, hsplit⟩ := List.append_of_mem ha
  rw [hsplit, List.map_append, List.map_cons, List.nodup_middle, List.nodup_cons,
    ← List.map_append, hd] at hnodup
  have hothers : ∀ b ∈ front ++ back, b.step.duty ≠ d := fun b hb heq =>
    hnodup.1 (List.mem_map.mpr ⟨b, hb, heq⟩)
  have hnil : ∀ l : List Assignment, (∀ b ∈ l, b.step.duty ≠ d) →
      l.filter (·.step.duty = d) = [] := fun l hl => by simpa using hl
  obtain ⟨hfront, hback⟩ := List.forall_mem_append.mp hothers
  simp [hsplit, hd, hnil front hfront, hnil back hback]

/-- What the plan was to take down has an outcome. -/
theorem Sound.tellsOf_of_finished (ht : t.Sound g first) (hs : t.machine.stage = .finished)
    (hr : Plan.TakesDown g first r) : t.machine.history.TellsOf r.duty := by
  obtain ⟨a, ha, hd⟩ := ht.finished hs r hr
  exact hd ▸ ht.tellsOf_of_idle (ht.idle_finished hs) a ha

/-- Each step that was handed out is that of a rule of the plan, and its duty says of which. -/
theorem Sound.exists_rule {a : Assignment} {d : Duty} (ht : t.Sound g first)
    (ha : a ∈ t.assignments) (hd : a.step.duty = d) :
    ∃ r, Plan.TakesDown g first r ∧ r.duty = d ∧ r.evaluate a.past = .ready a.step := by
  obtain ⟨-, r, hr, heval, -⟩ := ht.origin a ha
  exact ⟨r, hr, (Rule.duty_of_evaluate heval).symm.trans hd, heval⟩

variable {a : Assignment} (ht : t.Sound g first) (hfirst : first.Standing)
include ht hfirst

/-- The step that stops a container has the name of the container in the runtime. -/
theorem Sound.step_eq_stop (hmade : .containerCreated c reference ∈ first)
    (ha : a ∈ t.assignments) (hd : a.step.duty = .stop c) :
    a.step = .stopContainer c reference := by
  obtain ⟨r, hr, hduty, heval⟩ := ht.exists_rule ha hd
  cases hr with
  | @stop c' reference' hmade' =>
    obtain rfl : c' = c := Duty.stop.inj hduty
    cases List.inj_on_of_nodup_map hfirst.nodup (History.mem_created.mpr hmade)
      (History.mem_created.mpr hmade') rfl
    generalize a.step = s at heval ⊢
    cases Rule.standsFor_of_evaluate heval
    rfl
  | remove | deleteNetwork => cases hduty

/-- A container that still ran is removed only when there is an outcome of stopping it. -/
theorem Sound.stopped_of_remove (hstarted : .containerStarted c ∈ first)
    (hruns : ∀ exitCode, .containerExited c exitCode ∉ first) (ha : a ∈ t.assignments)
    (hd : a.step.duty = .remove c) :
    .containerStopped c ∈ a.past ∨ ∃ message, .containerStopFailed c message ∈ a.past := by
  obtain ⟨r, hr, hduty, heval⟩ := ht.exists_rule ha hd
  have hsettled : a.past.stopSettled c = true := by
    cases hr with
    | remove hmade =>
      cases hduty
      have hneeds := Plan.needsStop_of_making hfirst.making hmade hstarted hruns
      simpa [Rule.isClear, hneeds] using Rule.isClear_of_evaluate heval
    | stop | deleteNetwork => cases hduty
  rcases History.stopSettled_iff.mp hsettled with he | ⟨exitCode, he⟩ | he
  · exact .inl he
  · obtain ⟨later, hgrows, hlate⟩ := ht.grows
    have hmem := (ht.origin a ha).1.subset he
    rw [hgrows] at hmem
    rcases List.mem_append.mp hmem with hmem | hmem
    · exact absurd hmem (hruns exitCode)
    · cases hlate _ hmem
  · exact .inr he

/-- The step that deletes the network has waited for all containers. -/
theorem Sound.exists_deletion (hs : t.machine.stage = .finished)
    (hmade : ∃ network, .networkCreated network ∈ first) : ∃ a network,
      t.assignments.filter (·.step.duty = .deleteNetwork) = [a] ∧
        a.step = .deleteNetwork network ∧ .networkCreated network ∈ first ∧
        ∀ c reference, .containerCreated c reference ∈ first →
          .containerRemoved c ∈ a.past ∨ ∃ message, .containerRemovalFailed c message ∈ a.past := by
  obtain ⟨network, hfound⟩ := Option.isSome_iff_exists.mp
    (History.isSome_createdNetwork?_iff.mpr hmade)
  have hown : Plan.ownNetwork? first = some network := by
    rw [Plan.ownNetwork?, History.networkDeleted_eq_false hfirst.making]
    exact hfound
  obtain ⟨a, ha, hd⟩ := ht.finished hs _ (.deleteNetwork hown)
  refine ⟨a, network, ht.filter_duty ha hd, ?_⟩
  obtain ⟨r, hr, hduty, heval⟩ := ht.exists_rule ha hd
  cases hr with
  | @deleteNetwork network' hown' =>
    obtain rfl : network' = network := Option.some.inj (hown'.symm.trans hown)
    have hready : a.step = .deleteNetwork network' ∧
        (first.created.map (·.1)).all a.past.removalSettled = true := by
      refine ⟨?_, Rule.isClear_of_evaluate heval⟩
      generalize a.step = s at heval ⊢
      cases Rule.standsFor_of_evaluate heval
      rfl
    refine ⟨hready.1, History.mem_of_createdNetwork? hfound, fun c reference hmade => ?_⟩
    exact History.removalSettled_iff.mp (List.all_eq_true.mp hready.2 c
      (List.mem_map.mpr ⟨(c, reference), History.mem_created.mpr hmade, rfl⟩))
  | stop | remove => cases hduty

/-- At the end nothing is missing. -/
theorem Sound.complete (hs : t.machine.stage = .finished) : t.Complete first where
  removed c reference hmade := by
    have hthere := History.isRemoved_eq_false hfirst.making c
    exact History.removalSettled_iff.mp (History.removalSettled_of_tellsOf
      (ht.tellsOf_of_finished hs (.remove hmade hthere)))
  stopped c reference hmade hstarted hruns := by
    have hneeds := Plan.needsStop_of_making hfirst.making hmade hstarted hruns
    obtain ⟨a, ha, hd⟩ : ∃ a ∈ t.assignments, a.step.duty = .stop c :=
      ht.finished hs _ (.stop hmade hneeds)
    rw [ht.filter_duty ha hd, List.map_singleton, ht.step_eq_stop hfirst hmade ha hd]
  stopped_before c hstarted hruns a ha hd := ht.stopped_of_remove hfirst hstarted hruns ha hd
  deleted := ht.exists_deletion hfirst hs
  kept hnone a ha hd := by
    obtain ⟨r, hr, hduty, -⟩ := ht.exists_rule ha hd
    cases hr with
    | deleteNetwork hown => exact hnone _ (Plan.mem_of_ownNetwork? hown)
    | stop | remove => cases hduty

omit ht hfirst in
/-- A second stage that hands a step back only when there is an outcome of it, good or bad, can be
brought to its end from wherever it is, and whoever asks for a step is kept waiting only while some
step is held. When it is at its end, nothing is missing. -/
theorem complete_of_finished {task : Task} {catalogue : NameMap Container}
    (hbuild : Graph.build task catalogue = .ok m.graph) (hfirst : m.history.Standing)
    (hrun : m.stage = .run) (henters : m.AdvancesTo m') (hs : m'.stage = .cleanup)
    (hsteps : Relation.ReflTransGen GoesOn ⟨m', []⟩ t) :
    (∃ t', Relation.ReflTransGen GoesOn t t' ∧ t'.machine.stage = .finished) ∧
    (t.machine.pop.1 = .blocked → ∃ a ∈ t.assignments, a.held = true) ∧
    (t.machine.stage = .finished → t.Complete m.history) := by
  have hg := Graph.sound_of_build hbuild
  have ht := (sound_of_advancesTo hfirst hrun henters hs).steps hg hfirst hsteps
  refine ⟨ht.exists_finished hg hfirst, fun hblocked => ?_, ht.complete hfirst⟩
  have hflight := Machine.inFlight_of_blocked hblocked
  rw [ht.inFlight_eq] at hflight
  exact List.countP_pos_iff.mp (Nat.pos_of_ne_zero hflight)

end Cleanup

/-- The small task when both of its containers run, and its first stage is over. -/
def Sample.leftRunning : Machine :=
  { Machine.start graph ⟨true, true⟩ with
    history := [.networkCreated ⟨"network"⟩, .containerCreated "db" ⟨"id-db", "db"⟩,
      .containerStarted "db", .containerReady "db", .containerCreated "app" ⟨"id-app", "app"⟩,
      .containerStarted "app", .interrupted]
    handedOut := List.range (Plan.forRun graph).length }

/-- The small task is taken down. -/
theorem Cleanup.complete_of_finished_sample : ∃ t : Cleanup,
    Relation.ReflTransGen GoesOn ⟨Sample.leftRunning.enterNextStage.notify, []⟩ t ∧
      t.machine.stage = .finished ∧ t.Complete Sample.leftRunning.history := by
  have hfirst : Sample.leftRunning.history.Standing :=
    ⟨by decide, by simp [Sample.leftRunning, Event.duty?, Duty.isCleanup]⟩
  have henters : Sample.leftRunning.AdvancesTo Sample.leftRunning.enterNextStage.notify :=
    ⟨by decide +kernel, rfl, by decide, rfl⟩
  have hs : Sample.leftRunning.enterNextStage.notify.stage = .cleanup := by decide
  obtain ⟨t, hsteps, hfinished⟩ :=
    (complete_of_finished Sample.build_eq hfirst rfl henters hs .refl).1
  exact ⟨t, hsteps, hfinished,
    (complete_of_finished Sample.build_eq hfirst rfl henters hs hsteps).2.2 hfinished⟩

end ContainerTasks
