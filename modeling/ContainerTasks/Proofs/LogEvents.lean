import ContainerTasks.Proofs.MachineRuns

/-!
# Events for the log

Some events are of interest to a log alone. A question that is put to a history names the kinds of
events that answer it, and no event for the log is among them. So no rule becomes ready because of
such an event, no plan is another one after it, and whoever asks the machine for a step gets the
same answer with it as without it.

## Main definitions

* `History.heard`: the events that decisions are taken on
* `Machine.record`: an event enters the history

## Main results

* `Rule.evaluate_heard`, `Plan.forCleanup_heard`: no decision is taken on events for the log
* `Machine.pop_of_heard_eq`, `Machine.pop_record`: events for the log make no difference to who asks
  for a step
-/

namespace ContainerTasks

/-! ### Questions -/

namespace History

variable {h : History}

/-- The events that decisions are taken on. -/
def heard (h : History) : History := h.filter (!·.isInformational)

/-- A question that looks at no event for the log has one answer for histories that differ in such
events only. -/
theorem eq_of_heard_eq {α : Type} {question : History → α}
    (hheard : ∀ h : History, question h.heard = question h) {h h' : History}
    (hsame : h'.heard = h.heard) : question h' = question h := by
  rw [← hheard, hsame, hheard]

@[simp] theorem heard_heard (h : History) : h.heard.heard = h.heard := by
  simp [heard, List.filter_filter]

/-- A question that no event for the log answers with yes. -/
theorem any_heard {p : Event → Bool} (hstep : ∀ step, p (.stepStarting step) = false)
    (hbuild : ∀ container progress, p (.imageBuildProgress container progress) = false)
    (hpull : ∀ imageName progress, p (.imagePullProgress imageName progress) = false) :
    h.heard.any p = h.any p := by
  rw [heard, List.any_filter]
  refine congrArg h.any (funext fun e => ?_)
  cases e <;> simp [Event.isInformational, hstep, hbuild, hpull]

/-- A question that no event for the log answers. -/
theorem findSome?_heard {β : Type} {f : Event → Option β}
    (hstep : ∀ step, f (.stepStarting step) = none)
    (hbuild : ∀ container progress, f (.imageBuildProgress container progress) = none)
    (hpull : ∀ imageName progress, f (.imagePullProgress imageName progress) = none) :
    h.heard.findSome? f = h.findSome? f := by
  refine findSome?_filter fun e he => ?_
  cases e <;> simp_all [Event.isInformational]

/-! #### Questions of rules -/

theorem isReady_heard (h : History) : h.heard.isReady = h.isReady := by
  funext c
  simp [isReady, any_heard]

theorem stopSettled_heard (h : History) : h.heard.stopSettled = h.stopSettled := by
  funext c
  simp [stopSettled, isStopped, stopFailed, any_heard]

theorem removalSettled_heard (h : History) : h.heard.removalSettled = h.removalSettled := by
  funext c
  simp [removalSettled, isRemoved, removalFailed, any_heard]

theorem imageOf?_heard (h : History) : h.heard.imageOf? = h.imageOf? := by
  funext container
  simp [imageOf?, builtImage?, pulledImage?, findSome?_heard]

theorem preparedUpTo_heard (h : History) : h.heard.preparedUpTo = h.preparedUpTo := by
  funext c n healthCheck
  cases n <;> simp [preparedUpTo, setupCompleted, isHealthy, hasStarted, any_heard]

/-! #### Questions of plans and stages -/

theorem created_heard (h : History) : h.heard.created = h.created := by
  rw [heard, created, created, List.filterMap_filter]
  refine congrArg (List.filterMap · h) (funext fun e => ?_)
  cases e <;> rfl

theorem isRemoved_heard (h : History) : h.heard.isRemoved = h.isRemoved := by
  funext c
  simp [isRemoved, any_heard]

theorem networkDeleted_heard (h : History) : h.heard.networkDeleted = h.networkDeleted := by
  simp [networkDeleted, any_heard]

theorem createdNetwork?_heard (h : History) : h.heard.createdNetwork? = h.createdNetwork? := by
  simp [createdNetwork?, findSome?_heard]

theorem leftovers_heard (h : History) : h.heard.leftovers = h.leftovers := by
  simp [leftovers, created_heard, isRemoved_heard, networkDeleted_heard, createdNetwork?_heard]

theorem hasFailures_heard (h : History) : h.heard.hasFailures = h.hasFailures :=
  any_heard (fun _ => rfl) (fun _ _ => rfl) (fun _ _ => rfl)

theorem hasCleanupFailures_heard (h : History) :
    h.heard.hasCleanupFailures = h.hasCleanupFailures :=
  any_heard (fun _ => rfl) (fun _ _ => rfl) (fun _ _ => rfl)

end History

/-! ### Rules and plans -/

namespace Rule

open History

theorem isOver_heard (r : Rule) (h : History) : r.isOver h.heard = r.isOver h := by
  cases r <;>
    simp [isOver, network?, networkPreparationFailed, builtImage?, imageBuildFailed, pulledImage?,
      imagePullFailed, reference?, creationFailed, hasStarted, runFailed, isHealthy, isUnhealthy,
      setupCompleted, setupFailed, isReady, isStopped, stopFailed, isRemoved, removalFailed,
      networkDeleted, networkDeletionFailed, any_heard, findSome?_heard]

theorem step?_heard (r : Rule) (h : History) : r.step? h.heard = r.step? h := by
  cases r <;> simp [step?, imageOf?_heard, network?, reference?, findSome?_heard]

theorem isClear_heard (r : Rule) (h : History) : r.isClear h.heard = r.isClear h := by
  cases r <;>
    simp [isClear, isReady_heard, hasStarted, any_heard, preparedUpTo_heard, stopSettled_heard,
      removalSettled_heard]

/-- No decision is taken on events for the log. -/
theorem evaluate_heard (r : Rule) (h : History) : r.evaluate h.heard = r.evaluate h := by
  rw [evaluate_eq, isOver_heard, step?_heard, isClear_heard, ← evaluate_eq]

end Rule

namespace Plan

open History

theorem needsStop_heard (h : History) : needsStop h.heard = needsStop h := by
  funext c
  simp [needsStop, created_heard, isRemoved_heard, hasStarted, isStopped, any_heard]

theorem forCleanup_heard (g : Graph) (h : History) : forCleanup g h.heard = forCleanup g h := by
  simp [forCleanup, takeDown, stopAfter, needsStop_heard, ownNetwork?, created_heard,
    isRemoved_heard, networkDeleted_heard, createdNetwork?_heard]

end Plan

/-! ### The machine -/

namespace Machine

open History

variable {e : Event}

/-- An event enters the history. Nobody is told of it. -/
def record (m : Machine) (e : Event) : Machine := { m with history := m.history ++ [e] }

section

variable (m : Machine) {h : History} (hh : h.heard = m.history.heard)
include hh

theorem nextReady?_of_heard_eq : nextReady? { m with history := h } = m.nextReady? := by
  simp only [nextReady?, eq_of_heard_eq (Rule.evaluate_heard _) hh]

theorem enterNextStage_of_heard_eq :
    enterNextStage { m with history := h } = { m.enterNextStage with history := h } := by
  unfold enterNextStage
  simp only [eq_of_heard_eq (Plan.forCleanup_heard _) hh, eq_of_heard_eq leftovers_heard hh,
    eq_of_heard_eq hasFailures_heard hh, eq_of_heard_eq hasCleanupFailures_heard hh, finish]
  split
  · split <;> rfl
  · rfl
  · rfl

/-- Whoever asks for a step gets the same answer whatever events for the log there are. -/
theorem pop_of_heard_eq :
    pop { m with history := h } = (m.pop.1, { m.pop.2 with history := h }) := by
  induction hn : m.stage.remaining using Nat.strongRecOn generalizing m with
  | ind n ih =>
    rw [pop_eq, pop_eq m, nextReady?_of_heard_eq m hh]
    cases hready : m.nextReady? with
    | some found => rfl
    | none =>
      dsimp only
      by_cases hbusy : m.inFlight ≠ 0
      · rw [if_pos hbusy, if_pos hbusy]
      · rw [if_neg hbusy, if_neg hbusy]
        by_cases hs : m.stage = .finished
        · rw [if_pos hs, if_pos hs]
        · rw [if_neg hs, if_neg hs, enterNextStage_of_heard_eq m hh]
          have hends : m.AdvancesTo m.enterNextStage.notify := ⟨hready, not_not.mp hbusy, hs, rfl⟩
          exact ih _ (hn ▸ remaining_enterNextStage m hs) m.enterNextStage.notify
            (hends.history_eq ▸ hh) rfl

end

variable {e : Event} (he : e.isInformational = true) (m : Machine)
include he

theorem heard_record : (m.record e).history.heard = m.history.heard := by
  simp [record, heard, he]

theorem nextReady?_record : (m.record e).nextReady? = m.nextReady? :=
  nextReady?_of_heard_eq m (heard_record he m)

/-- Whoever asks for a step gets the same answer with an event for the log as without it. -/
theorem pop_record : (m.record e).pop = (m.pop.1, m.pop.2.record e) := by
  have hkept : m.pop.2.history = m.history := history_of_pop rfl
  rw [show m.pop.2.record e = { m.pop.2 with history := m.history ++ [e] } by rw [record, hkept]]
  exact pop_of_heard_eq m (heard_record he m)

end Machine

end ContainerTasks
