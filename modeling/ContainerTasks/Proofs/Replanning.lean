import ContainerTasks.Proofs.CleanupPlans

/-!
# A plan of the second stage does not grow old

The plan of the second stage is made once, from what the first stage has left behind, and kept until
all of it is done. A plan that is made anew from a later history has other rules: there is none to
stop or to remove what has been stopped or removed since, fewer containers have to be stopped before
another one, and a removal that waited for a stop does not wait any more. Yet the steps that are
ready are the same, and in the same order. A rule that the new plan does without is over in the old
one, and a rule that waits for less in the new plan waits in the old one for nothing that has not
been settled.

One thing must not have happened in the meantime. The old plan waits for a container to be stopped
before what it depends on is, and to a rule that waits for this it means nothing that the container
was removed. So a container that was still running must not have been removed before stopping it had
an outcome.

## Main definitions

* `Plan.readySteps`: the steps that are ready under the rules of a plan
* `History.TakenDownSince`: what may have happened since a plan was made

## Main results

* `History.TakenDownSince.needsStop_eq`: what still has to be stopped, by what had to be stopped
* `History.TakenDownSince.all_stopSettled_stopAfter`: what a container is stopped after in the old
  plan is settled if and only if what it is stopped after in the new one is
* `Plan.readySteps_replanned`
-/

namespace ContainerTasks

/-- The step that is ready, if one is. -/
def Readiness.step? : Readiness → Option Step
  | ready s => some s
  | notReady | done => none

/-- The steps that are ready under the rules of a plan, in the order of the plan. -/
def Plan.readySteps (rules : List Rule) (h : History) : List Step :=
  rules.filterMap fun r => (r.evaluate h).step?

/-- Since `h` nothing has been made or started, and no container that was running then has been
removed without an outcome of stopping it. -/
structure History.TakenDownSince (h later : History) : Prop where
  notCreated : ∀ c reference, .containerCreated c reference ∉ later
  notStarted : ∀ c, .containerStarted c ∉ later
  noNetwork : ∀ network, .networkCreated network ∉ later
  settled : ∀ c, .containerRemoved c ∈ later → h.hasStarted c = true → h.isStopped c = false →
    h.isRemoved c = false → (h ++ later).stopSettled c = true

namespace History.TakenDownSince

variable {h later : History} (hsince : h.TakenDownSince later)
include hsince

/-! ### What has been made -/

theorem created_eq : (h ++ later).created = h.created := by
  have hnone : created later = [] := by
    refine List.eq_nil_iff_forall_not_mem.mpr ?_
    rintro ⟨c, reference⟩ hmem
    exact hsince.notCreated c reference (mem_created.mp hmem)
  rw [created, List.filterMap_append, ← created, ← created, hnone, List.append_nil]

theorem hasStarted_eq (c : String) : (h ++ later).hasStarted c = h.hasStarted c := by
  have hnone : hasStarted later c = false :=
    Bool.eq_false_iff.mpr fun hstarted => hsince.notStarted c (hasStarted_iff.mp hstarted)
  rw [hasStarted, List.any_append, ← hasStarted, ← hasStarted, hnone, Bool.or_false]

theorem createdNetwork?_eq : (h ++ later).createdNetwork? = h.createdNetwork? := by
  have hnone : createdNetwork? later = none := by
    refine Option.eq_none_iff_forall_ne_some.mpr fun network hnetwork => ?_
    exact hsince.noNetwork network (mem_of_createdNetwork? hnetwork)
  rw [createdNetwork?, List.findSome?_append, ← createdNetwork?, ← createdNetwork?, hnone,
    Option.or_none]

/-! ### What still has to be stopped -/

/-- Of what had to be stopped, that is left which has neither stopped nor been removed since. -/
theorem needsStop_eq (c : String) : Plan.needsStop (h ++ later) c =
    (Plan.needsStop h c && !(h ++ later).isStopped c && !(h ++ later).isRemoved c) := by
  have hstopped : h.isStopped c = true → (h ++ later).isStopped c = true :=
    any_mono (List.subset_append_left h later)
  have hremoved : h.isRemoved c = true → (h ++ later).isRemoved c = true :=
    any_mono (List.subset_append_left h later)
  rw [Plan.needsStop, Plan.needsStop, hsince.created_eq, hsince.hasStarted_eq]
  grind

/-- A container that had to be stopped is settled unless it has to be stopped still. -/
theorem stopSettled_of_needsStop {c : String} (hneeds : Plan.needsStop h c = true)
    (hnot : Plan.needsStop (h ++ later) c = false) : (h ++ later).stopSettled c = true := by
  obtain ⟨-, hstarted, hruns, hthere⟩ := Plan.needsStop_iff.mp hneeds
  cases hstopped : (h ++ later).isStopped c with
  | true => rw [stopSettled, hstopped, Bool.true_or]
  | false =>
    have hremoved : (h ++ later).isRemoved c = true := by
      simpa [hsince.needsStop_eq, hneeds, hstopped] using hnot
    rcases List.mem_append.mp (isRemoved_iff.mp hremoved) with he | he
    · rw [isRemoved_iff.mpr he] at hthere
      cases hthere
    · exact hsince.settled c he (hasStarted_iff.mpr hstarted) hruns hthere

/-- What a container is stopped after in the old plan is settled if and only if what it is stopped
after in the new one is: the old plan knows more dependents, but these are settled. -/
theorem all_stopSettled_stopAfter (g : Graph) (c : String) :
    (Plan.stopAfter g h c).toList.all (h ++ later).stopSettled =
      (Plan.stopAfter g (h ++ later) c).toList.all (h ++ later).stopSettled := by
  have hmem : ∀ {h' : History} {d : String}, d ∈ (Plan.stopAfter g h' c).toList ↔
      (∃ dependents, g.dependentsOf? c = some dependents ∧ d ∈ dependents) ∧
        Plan.needsStop h' d = true :=
    Plan.mem_stopAfter
  rw [Bool.eq_iff_iff, List.all_eq_true, List.all_eq_true]
  constructor
  · intro hall d hd
    obtain ⟨hon, hneeds⟩ := hmem.mp hd
    refine hall d (hmem.mpr ⟨hon, ?_⟩)
    rw [hsince.needsStop_eq, Bool.and_eq_true, Bool.and_eq_true] at hneeds
    exact hneeds.1.1
  · intro hall d hd
    obtain ⟨hon, hneeds⟩ := hmem.mp hd
    cases hstill : Plan.needsStop (h ++ later) d with
    | true => exact hall d (hmem.mpr ⟨hon, hstill⟩)
    | false => exact hsince.stopSettled_of_needsStop hneeds hstill

end History.TakenDownSince

/-! ### Rule by rule -/

namespace Plan

variable {g : Graph} {h later : History} {r r' : Rule} {rules : List Rule}

theorem readySteps_append (first second : List Rule) :
    readySteps (first ++ second) h = readySteps first h ++ readySteps second h :=
  List.filterMap_append

/-- A rule that is over offers nothing. -/
theorem readySteps_of_isOver (hover : r.isOver h = true) : readySteps [r] h = [] := by
  simp [readySteps, Rule.evaluate_eq_done_iff.mpr hover, Readiness.step?]

/-- Rules that differ only in how they ask whether they have to wait offer the same if the answers
are the same. -/
theorem readySteps_congr (hover : r.isOver h = r'.isOver h) (hstep : r.step? h = r'.step? h)
    (hclear : r.isClear h = r'.isClear h) : readySteps [r] h = readySteps [r'] h := by
  have heval : r.evaluate h = r'.evaluate h := by
    rw [Rule.evaluate_eq, Rule.evaluate_eq, hover, hstep, hclear]
  simp only [readySteps, List.filterMap_cons, List.filterMap_nil, heval]

section Replanned

variable (hsince : h.TakenDownSince later)
include hsince

/-- To stop a container is offered by both plans or by neither. -/
theorem readySteps_stop (g : Graph) (c : String) (reference : ContainerReference) :
    readySteps (if needsStop h c then [.stopContainer c reference (stopAfter g h c)] else [])
        (h ++ later) =
      readySteps (if needsStop (h ++ later) c then
        [.stopContainer c reference (stopAfter g (h ++ later) c)] else []) (h ++ later) := by
  have hstill := hsince.needsStop_eq c
  cases hneeds : needsStop h c with
  | false =>
    rw [hneeds, Bool.false_and, Bool.false_and] at hstill
    rw [hstill]
    rfl
  | true =>
    cases hneeds' : needsStop (h ++ later) c with
    | true => exact readySteps_congr rfl rfl (hsince.all_stopSettled_stopAfter g c)
    | false =>
      -- the new plan has no such rule, and the old one has been overtaken
      refine readySteps_of_isOver ?_
      rw [hneeds, hneeds'] at hstill
      rw [Rule.isOver]
      grind

/-- To remove a container is offered by both plans or by neither. -/
theorem readySteps_remove (c : String) (reference : ContainerReference) :
    readySteps (if h.isRemoved c then [] else [.removeContainer c reference (needsStop h c)])
        (h ++ later) =
      readySteps (if (h ++ later).isRemoved c then [] else
        [.removeContainer c reference (needsStop (h ++ later) c)]) (h ++ later) := by
  cases hremoved : h.isRemoved c with
  | true =>
    have hremoved' : (h ++ later).isRemoved c = true :=
      any_mono (List.subset_append_left h later) hremoved
    rw [hremoved']
    rfl
  | false =>
    cases hremoved' : (h ++ later).isRemoved c with
    | true => exact readySteps_of_isOver (by rw [Rule.isOver, hremoved', Bool.true_or])
    | false =>
      refine readySteps_congr rfl rfl ?_
      have hsettled := hsince.stopSettled_of_needsStop (c := c)
      have hstill := hsince.needsStop_eq c
      simp only [Rule.isClear]
      grind

/-- To delete the network is offered by both plans or by neither. -/
theorem readySteps_deleteNetwork (containers : List String) :
    readySteps ((ownNetwork? h).toList.map (.deleteNetwork · containers)) (h ++ later) =
      readySteps ((ownNetwork? (h ++ later)).toList.map (.deleteNetwork · containers))
        (h ++ later) := by
  rw [ownNetwork?, ownNetwork?, hsince.createdNetwork?_eq]
  cases hdeleted : (h ++ later).networkDeleted with
  | false =>
    have hthere : h.networkDeleted = false := by
      rw [History.networkDeleted, List.any_append, Bool.or_eq_false_iff] at hdeleted
      exact hdeleted.1
    rw [hthere]
  | true =>
    cases hthere : h.networkDeleted with
    | true => rfl
    | false =>
      cases h.createdNetwork? with
      | none => rfl
      | some network => exact readySteps_of_isOver (by rw [Rule.isOver, hdeleted, Bool.true_or])

/-- **A plan of the second stage does not grow old.** As long as nothing is made or started, and
containers that were running are removed only after stopping them had an outcome, the steps that are
ready under the plan are those that would be ready under a plan made anew, in the same order. -/
theorem readySteps_replanned (g : Graph) : readySteps (forCleanup g h) (h ++ later) =
    readySteps (forCleanup g (h ++ later)) (h ++ later) := by
  have hone : ∀ e : String × ContainerReference,
      readySteps (takeDown g h e.1 e.2) (h ++ later) =
        readySteps (takeDown g (h ++ later) e.1 e.2) (h ++ later) := by
    intro e
    rw [takeDown, takeDown, readySteps_append, readySteps_append,
      readySteps_stop hsince g e.1 e.2, readySteps_remove hsince e.1 e.2]
  rw [forCleanup, forCleanup, readySteps_append, readySteps_append, hsince.created_eq,
    readySteps_deleteNetwork hsince]
  refine congrArg (· ++ _) ?_
  rw [readySteps, readySteps, List.filterMap_flatMap, List.filterMap_flatMap]
  exact congrArg (List.flatMap · _) (funext hone)

end Replanned

end Plan

namespace Sample

/-- The network was made, and both containers were and are running. -/
def running : History :=
  [.networkCreated ⟨"net"⟩, .containerCreated "db" ⟨"1", "db"⟩, .containerStarted "db",
    .containerReady "db", .containerCreated "app" ⟨"2", "app"⟩, .containerStarted "app"]

/-- The app could not be stopped and was removed all the same, and the database was stopped. -/
def windingDown : History :=
  [.containerStopFailed "app" "no answer", .containerRemoved "app", .containerStopped "db"]

end Sample

/-- Halfway through, the plan has rules that a new one does without, and a removal that waits where
the new one does not. What is ready is the same: to remove the database. -/
theorem Plan.readySteps_replanned_windingDown :
    Sample.running.TakenDownSince Sample.windingDown ∧
      forCleanup Sample.graph Sample.running ≠
        forCleanup Sample.graph (Sample.running ++ Sample.windingDown) ∧
      readySteps (forCleanup Sample.graph Sample.running) (Sample.running ++ Sample.windingDown) =
        [.removeContainer "db" ⟨"1", "db"⟩] ∧
      readySteps (forCleanup Sample.graph (Sample.running ++ Sample.windingDown))
        (Sample.running ++ Sample.windingDown) = [.removeContainer "db" ⟨"1", "db"⟩] := by
  have hsince : Sample.running.TakenDownSince Sample.windingDown := by
    constructor
    case settled =>
      intro c hremoved _ _ _
      obtain rfl : c = "app" := by simpa [Sample.windingDown] using hremoved
      decide
    all_goals simp [Sample.windingDown]
  have hready : readySteps (forCleanup Sample.graph Sample.running)
      (Sample.running ++ Sample.windingDown) = [.removeContainer "db" ⟨"1", "db"⟩] := by
    decide +kernel
  exact ⟨hsince, by decide +kernel, hready, (readySteps_replanned hsince Sample.graph) ▸ hready⟩

/-- A container that is removed while it is running holds up the old plan and not the new one. -/
example : Plan.readySteps (Plan.forCleanup Sample.graph Sample.running)
      (Sample.running ++ [.containerRemoved "app"]) = [] ∧
    Plan.readySteps (Plan.forCleanup Sample.graph (Sample.running ++ [.containerRemoved "app"]))
      (Sample.running ++ [.containerRemoved "app"]) = [.stopContainer "db" ⟨"1", "db"⟩] := by
  decide +kernel

end ContainerTasks
