import ContainerTasks.Proofs.Sealing

/-!
# The second stage comes as far as it can

The rules of the second stage wait for each other's outcomes, good or bad: a container is stopped
after those that depend on it, removed after it was stopped, and the network is deleted after all
containers. So if every step that was handed out has posted an outcome, no rule is held up, and all
of them have handed out their steps. As in the first stage, whatever a rule waits for has a lower
rank; here the rank of stopping a container goes down along the order of the graph.

Nothing is said here about who runs the machine. All that counts is that the history tells of no
step of the second stage that was not handed out; see `Machine.TakesDown`.

## Main definitions

* `Rule.teardownRank`
* `Machine.TakesDown`: the second stage, as far as it has come

## Main results

* `Machine.TakesDown.tellsOf_stop`: a container is not removed without an outcome of stopping it
* `Machine.TakesDown.handedOut_of_mem`: all steps are handed out, if all that were have outcomes
* `Ledger.Sound.takesDown`: this is what the second stage of a managed run is like
-/

namespace ContainerTasks

/-! ### Outcomes -/

namespace History

variable {h : History} {c : String}

theorem stopSettled_of_tellsOf (ht : h.TellsOf (.stop c)) : h.stopSettled c = true := by
  obtain ⟨e, he, hd⟩ := ht
  refine Bool.or_eq_true_iff.mpr ?_
  cases e <;> simp only [Event.duty?, Option.some.injEq, Duty.stop.injEq, reduceCtorEq] at hd
  · exact .inl (isStopped_iff.mpr (.inl (hd ▸ he)))
  · exact .inr (List.any_eq_true.mpr ⟨_, he, by simp [hd]⟩)

theorem removalSettled_of_tellsOf (ht : h.TellsOf (.remove c)) : h.removalSettled c = true := by
  obtain ⟨e, he, hd⟩ := ht
  refine Bool.or_eq_true_iff.mpr ?_
  cases e <;> simp only [Event.duty?, Option.some.injEq, Duty.remove.injEq, reduceCtorEq] at hd
  · exact .inl (isRemoved_iff.mpr (hd ▸ he))
  · exact .inr (List.any_eq_true.mpr ⟨_, he, by simp [hd]⟩)

theorem tellsOf_of_stopFailed (hf : h.stopFailed c = true) : h.TellsOf (.stop c) := by
  obtain ⟨message, he⟩ := stopFailed_iff.mp hf
  exact ⟨_, he, rfl⟩

end History

/-- Where a rule of the second stage stands: a container is stopped after those that depend on it,
then removed, and the network comes last. -/
def Rule.teardownRank (g : Graph) : Rule → Nat
  | stopContainer c _ _ => g.order.length - g.order.idxOf c
  | removeContainer .. => g.order.length + 1
  | deleteNetwork .. => g.order.length + 2
  | _ => 0

namespace Machine

/-- The second stage, as far as it has come: its plan was made from what had happened `first`, and
what has happened since comes from steps that it has handed out, or from no step. -/
structure TakesDown (g : Graph) (first : History) (m : Machine) : Prop where
  rules_eq : m.rules = Plan.forCleanup g first
  grows : ∃ later, m.history = first ++ later ∧ ∀ e ∈ later, e.isLate = true
  making : ∀ e ∈ first, ∀ d, e.duty? = some d → d.isCleanup = false
  handedOut_of_tellsOf : ∀ {r}, r ∈ m.rules → m.history.TellsOf r.duty → m.HandedOut r
  /-- A rule that has handed out its step was ready at some time. -/
  ready_of_handedOut : ∀ {r}, m.HandedOut r →
    ∃ h : History, ∃ s, h <+: m.history ∧ r.evaluate h = .ready s

namespace TakesDown

variable {g : Graph} {first : History} {m : Machine} {c : String} {r : Rule}
  {reference : ContainerReference}

theorem mem_rules (hm : m.TakesDown g first) : r ∈ m.rules ↔ Plan.TakesDown g first r := by
  rw [hm.rules_eq, Plan.mem_forCleanup]

theorem mem_history (hm : m.TakesDown g first) {e : Event} (he : e ∈ first) : e ∈ m.history := by
  obtain ⟨later, hgrows, -⟩ := hm.grows
  rw [hgrows]
  exact List.mem_append_left _ he

theorem grounds_first (hm : m.TakesDown g first) (hh : g.Grounds m.history) : g.Grounds first := by
  obtain ⟨later, hgrows, -⟩ := hm.grows
  exact hh.of_prefix ⟨later, hgrows.symm⟩

/-- A container that still ran at the end of the first stage has not come to its end by itself
since, as far as the history goes. -/
theorem tellsOf_stop_of_isStopped (hm : m.TakesDown g first)
    (hneeds : Plan.needsStop first c = true) (hstopped : m.history.isStopped c = true) :
    m.history.TellsOf (.stop c) := by
  rcases History.isStopped_iff.mp hstopped with he | ⟨exitCode, he⟩
  · exact ⟨_, he, rfl⟩
  · obtain ⟨later, hgrows, hlate⟩ := hm.grows
    rw [hgrows] at he
    rcases List.mem_append.mp he with he | he
    · have := (Plan.needsStop_iff.mp hneeds).2.2.1
      rw [History.isStopped_iff.mpr (.inr ⟨exitCode, he⟩)] at this
      cases this
    · cases hlate _ he

theorem tellsOf_stop_of_stopSettled (hm : m.TakesDown g first)
    (hneeds : Plan.needsStop first c = true) (hsettled : m.history.stopSettled c = true) :
    m.history.TellsOf (.stop c) := by
  rcases Bool.or_eq_true_iff.mp hsettled with hstopped | hfailed
  · exact hm.tellsOf_stop_of_isStopped hneeds hstopped
  · exact History.tellsOf_of_stopFailed hfailed

/-- The step that removes a container that still ran is not handed out before stopping it has had an
outcome. -/
theorem tellsOf_stop_of_handedOut (hm : m.TakesDown g first)
    (hneeds : Plan.needsStop first c = true)
    (hout : m.HandedOut (.removeContainer c reference (Plan.needsStop first c))) :
    m.history.TellsOf (.stop c) := by
  obtain ⟨h, s, hp, heval⟩ := hm.ready_of_handedOut hout
  have hsettled : h.stopSettled c = true := by
    simpa [Rule.isClear, hneeds] using Rule.isClear_of_evaluate heval
  exact hm.tellsOf_stop_of_stopSettled hneeds (History.stopSettled_mono hp.subset hsettled)

/-- A container that still ran is not removed before stopping it has had an outcome. -/
theorem tellsOf_stop (hm : m.TakesDown g first) (hmade : .containerCreated c reference ∈ first)
    (hneeds : Plan.needsStop first c = true) (hremoved : m.history.TellsOf (.remove c)) :
    m.history.TellsOf (.stop c) := by
  have hrule : .removeContainer c reference (Plan.needsStop first c) ∈ m.rules :=
    hm.mem_rules.mpr (.remove hmade (History.isRemoved_eq_false hm.making c))
  exact hm.tellsOf_stop_of_handedOut hneeds (hm.handedOut_of_tellsOf hrule hremoved)

/-- A rule that has not handed out its step is not over. -/
theorem isOver_eq_false (hm : m.TakesDown g first) (hr : r ∈ m.rules) (hout : ¬ m.HandedOut r) :
    r.isOver m.history = false := by
  have htold : ¬ m.history.TellsOf r.duty := fun htold => hout (hm.handedOut_of_tellsOf hr htold)
  by_contra hover
  rw [Bool.not_eq_false] at hover
  rcases Rule.tellsOf_of_isOver hover with h | ⟨c, hd, h⟩
  · exact htold h
  · have htakes := hm.mem_rules.mp hr
    rw [hd] at htold
    cases htakes with
    | stop hmade hneeds =>
      cases hd
      rcases h with hstopped | hremoved
      · exact htold (hm.tellsOf_stop_of_isStopped hneeds hstopped)
      · exact htold (hm.tellsOf_stop hmade hneeds ⟨_, History.isRemoved_iff.mp hremoved, rfl⟩)
    | remove | deleteNetwork => cases hd

/-- If nothing can be handed out, and all steps that were have had an outcome, then all steps of the
plan were handed out. -/
theorem handedOut_of_mem (hm : m.TakesDown g first) (hg : g.Sound) (hstuck : m.nextReady? = none)
    (htold : ∀ r, m.HandedOut r → m.history.TellsOf r.duty) : ∀ r ∈ m.rules, m.HandedOut r := by
  intro r hr
  -- a rule waits only for the steps of rules of a lower rank
  induction hn : r.teardownRank g using Nat.strongRecOn generalizing r with
  | ind n ih =>
    have hlower : ∀ r', Plan.TakesDown g first r' → r'.teardownRank g < n →
        m.history.TellsOf r'.duty := fun r' hr' hlt =>
      htold r' (ih _ hlt r' (hm.mem_rules.mpr hr') rfl)
    by_contra hout
    have hclear : r.isClear m.history = true := by
      cases hm.mem_rules.mp hr with
      | @stop c reference hmade hneeds =>
        refine List.all_eq_true.mpr fun d hd => ?_
        obtain ⟨hon, hneeds'⟩ := (Plan.mem_stopAfter_iff_dependsOn hg).mp hd
        obtain ⟨⟨reference', hmade'⟩, -⟩ := Plan.needsStop_iff.mp hneeds'
        refine History.stopSettled_of_tellsOf (hlower _ (.stop hmade' hneeds') ?_)
        have hlt := hg.idxOf_lt hon
        have hle : g.order.idxOf d ≤ g.order.length := List.idxOf_le_length
        simp only [Rule.teardownRank] at hn ⊢
        omega
      | @remove c reference hmade =>
        show (!Plan.needsStop first c || m.history.stopSettled c) = true
        cases hneeds : Plan.needsStop first c with
        | false => rfl
        | true =>
          refine History.stopSettled_of_tellsOf (hlower _ (.stop hmade hneeds) ?_)
          simp only [Rule.teardownRank] at hn ⊢
          omega
      | @deleteNetwork network =>
        refine List.all_eq_true.mpr fun c hc => ?_
        obtain ⟨⟨_, reference⟩, hmade, rfl⟩ := List.mem_map.mp hc
        refine History.removalSettled_of_tellsOf (hlower _
          (.remove (History.mem_created.mp hmade) (History.isRemoved_eq_false hm.making _)) ?_)
        simp only [Rule.teardownRank] at hn ⊢
        omega
    obtain ⟨s, hstep⟩ := (hm.mem_rules.mp hr).exists_step
    exact evaluate_ne_ready hstuck hr hout s
      (Rule.evaluate_eq_ready_iff.mpr ⟨hm.isOver_eq_false hr hout, hstep _, hclear⟩)

end TakesDown

end Machine

/-- In a managed run, the second stage comes as it should. -/
theorem Ledger.Sound.takesDown {existing : Option String} {g : Graph} {policy : CleanupPolicy}
    {l : Ledger} {first : History} (hl : l.Sound existing g policy) (hg : g.Sound)
    (hsealed : l.Sealed g first) (hs : l.machine.stage = .cleanup) :
    l.machine.TakesDown g first where
  rules_eq := hsealed.planned hs
  grows := hsealed.grows
  making := hsealed.making
  handedOut_of_tellsOf := (hl.run.sound hg).handedOut_of_tellsOf hg (hl.nodup_duty_rules hg)
  ready_of_handedOut := (hl.run.sound hg).ready_of_handedOut

/-- A step that takes something down and has not been handed back is one of the second stage. -/
theorem Ledger.Sound.stage_eq_cleanup {existing : Option String} {g : Graph}
    {policy : CleanupPolicy} {l : Ledger} (hl : l.Sound existing g policy) (hg : g.Sound) {j : Job}
    (hj : j ∈ l.jobs) (hs : j.step.isCleanup = true) (hgone : j.isGone = false) :
    l.machine.stage = .cleanup := by
  have hm := hl.run.sound hg
  cases hstage : l.machine.stage with
  | run =>
    have := hm.early hstage j.step (List.mem_map_of_mem hj)
    rw [Step.isCleanup_duty, hs] at this
    cases this
  | cleanup => rfl
  | finished =>
    have := hl.isGone_of_idle (hm.idle_finished hstage) j hj
    rw [hgone] at this
    cases this

end ContainerTasks
