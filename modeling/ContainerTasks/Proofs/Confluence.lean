import ContainerTasks.Proofs.Agreement
import ContainerTasks.Proofs.Foresight
import ContainerTasks.Proofs.Leftovers
import ContainerTasks.Proofs.Successes

/-!
# The outcome does not depend on the schedule

Two runs of a task may hand out and carry out their steps in different orders. If the runtime
answers each call alike in both of them, and neither is cancelled, they come to the same outcome.

The argument goes stage by stage. A rule that is ready in view of a part of what has happened is
not put off by what happens besides, and the step it is ready with is the only one that it can ever
be ready with. So when nothing can be handed out any more, every step has been handed out that some
rule of the stage is ready with in view of some of the history (`Covers`). Of another run of the
stage it follows, one step after the other, that it hands out none but these, as what it sees has
come of steps that were handed out here as well. The rules of the second stage are made of what the
first one leaves behind; they come in another order, but each has its counterpart.

## Main definitions

* `Ledger.Covers`: what a rule can be ready with was handed out
* `Ledger.Stage`: a stage of a run, from its beginning to its end
* `Execution.ComesTo`: a run that goes by the answers and is not cancelled, and its outcome
* `Execution.SameOutcome`: what does not depend on the schedule

## Main results

* `Ledger.steps_subset`: a run hands out no more in a stage than another one
* `Ledger.sameEnd_of_goes`: two runs come to the same end
* `Execution.ComesTo.sameOutcome`
-/

namespace ContainerTasks

/-! ### Stages -/

/-- A rule that was ready in view of some of what has happened has handed out its step when nothing
can be handed out any more, unless it was over without that. -/
theorem Machine.handedOut_of_evaluate {m : Machine} {r : Rule} {h : History} {s : Step}
    (hstuck : m.nextReady? = none) (hr : r ∈ m.rules) (hready : r.evaluate h = .ready s)
    (hsub : h ⊆ m.history) (hover : ¬ m.HandedOut r → r.isOver m.history = false) :
    m.HandedOut r := by
  by_contra hout
  cases heval : r.evaluate m.history with
  | notReady => exact Rule.evaluate_ne_notReady hsub hready heval
  | ready s' => exact evaluate_ne_ready hstuck hr hout s' heval
  | done =>
    rw [Rule.evaluate_eq_done_iff, hover hout] at heval
    cases heval

namespace Ledger

variable {answers : Answers} {existing : Option String} {g : Graph} {policy : CleanupPolicy}
  {l l' a l₁ l₂ a₁ a₂ : Ledger} {r : Rule} {first : History}

/-- An effect that leaves the machine in its stage. -/
def GoesWithin (answers : Answers) (existing : Option String) (l l' : Ledger) : Prop :=
  l.Goes answers existing l' ∧ l.machine.SameStage l'.machine

theorem goes_of_within (h : Relation.ReflTransGen (GoesWithin answers existing) l l') :
    Relation.ReflTransGen (Goes answers existing) l l' ∧ l.machine.SameStage l'.machine := by
  induction h with
  | refl => exact ⟨.refl, .refl _⟩
  | tail _ hlast ih => exact ⟨ih.1.tail hlast.1, ih.2.trans hlast.2⟩

/-- A run that leaves a stage comes to its end before. -/
theorem exists_advance (h : Relation.ReflTransGen (Goes answers existing) l l')
    (hleft : l'.machine.stage ≠ l.machine.stage) :
    ∃ a m, Relation.ReflTransGen (GoesWithin answers existing) l a ∧ a.machine.AdvancesTo m ∧
      Relation.ReflTransGen (Goes answers existing) ⟨m, a.jobs, a.trace⟩ l' := by
  induction h using Relation.ReflTransGen.head_induction_on with
  | refl => exact absurd rfl hleft
  | @head l b hlb hbl' ih =>
    rcases hlb.1.eq_advance_or_sameStage with ⟨m, hadvances, rfl⟩ | hsame
    · exact ⟨l, m, .refl, hadvances, hbl'⟩
    · obtain ⟨a, m, hba, hadvances, hal'⟩ := ih (hsame.stage_eq ▸ hleft)
      exact ⟨a, m, .head ⟨hlb, hsame⟩ hba, hadvances, hal'⟩

/-- An effect hands out one step, or none. -/
theorem Effect.steps_eq {cancelled : Bool} (h : l.Effect existing cancelled l') :
    l'.steps = l.steps ∨ ∃ index s, l.machine.nextReady? = some (index, s) ∧
      l'.steps = l.steps ++ [s] := by
  cases h with
  | handOut ready => exact .inr ⟨_, _, ready, by simp [steps, Job.new]⟩
  | glide on => exact .inl (by simp [steps, on.step_eq])
  | drop | handBack | record | recordFailure => exact .inl (by simp [steps])
  | advance | interrupt | log => exact .inl rfl

/-- Whatever a rule was ready with in view of some of what has happened was handed out. -/
def Covers (a : Ledger) (r : Rule) : Prop :=
  ∀ (h : History) (s : Step), h ⊆ a.machine.history → r.evaluate h = .ready s → s ∈ a.steps

/-- If a ledger covers the rules of a stage, and all steps have been handed back, then the stage
hands out no step in any run that was not handed out there. -/
theorem steps_subset (hpath : Relation.ReflTransGen (GoesWithin answers existing) l l')
    (hl : l.OnTrack answers existing g policy) (hg : g.Sound)
    (ha : a.OnTrack answers existing g policy) (hgone : ∀ j ∈ a.jobs, j.isGone = true)
    (hrules : ∀ r ∈ l.machine.rules, a.Covers r) (hsteps : l.steps ⊆ a.steps) :
    l'.steps ⊆ a.steps := by
  induction hpath with
  | refl => exact hsteps
  | @tail b c hpath hbc ih =>
    obtain ⟨hgoes, hsame⟩ := goes_of_within hpath
    have hb := hl.reflTransGen hg hgoes
    rcases hbc.1.1.steps_eq with hkept | ⟨index, s, hready, hnext⟩
    · rw [hkept]
      exact ih
    · obtain ⟨-, r, hr, heval⟩ := Machine.of_nextReady? hready
      have hseen : b.machine.history ⊆ a.machine.history := by
        intro e he
        obtain ⟨s, hs, hresult⟩ := hb.foreseen.exists_step he
        exact (ha.foreseen.history_perm hgone).symm.subset
          (List.mem_flatMap.mpr ⟨s, ih hs, hresult⟩)
      have hmem : r ∈ l.machine.rules := hsame.rules_eq ▸ List.mem_of_getElem? hr
      have hs : s ∈ a.steps := hrules r hmem _ s hseen heval
      rw [hnext]
      exact List.append_subset.mpr ⟨ih, List.cons_subset.mpr ⟨hs, List.nil_subset _⟩⟩

/-! ### The end of a stage -/

/-- At the end of the first stage its rules are covered. -/
theorem Sound.covers_of_run (ha : a.Sound existing g policy) (hg : g.Sound)
    (hs : a.machine.stage = .run) (hstuck : a.machine.nextReady? = none)
    (hr : r ∈ a.machine.rules) : a.Covers r := by
  intro h s hsub hready
  have hm := ha.run.sound hg
  have hplan : r ∈ Plan.forRun g := hm.rules_run hs ▸ hr
  have hstage := Plan.isCleanup_duty_of_mem_forRun hg hplan
  have hout : a.machine.HandedOut r := by
    refine Machine.handedOut_of_evaluate hstuck hr hready hsub fun hout => ?_
    by_contra hover
    rcases Rule.tellsOf_of_isOver (Bool.of_not_eq_false hover) with htold | ⟨c, hd, -⟩
    · exact hout (hm.handedOut_of_tellsOf hg (ha.nodup_duty_rules hg) hr htold)
    · rw [hd] at hstage
      cases hstage
  obtain ⟨s', hs', hd⟩ := hm.step_of_rule hout
  obtain ⟨r', h', hr', hp, hready'⟩ := (hm.warranted s' hs').exists_forRun (hd ▸ hstage)
  obtain rfl : r' = r := List.inj_on_of_nodup_map (Plan.nodup_duty_forRun hg) hr' hplan
    ((Rule.duty_of_evaluate hready').symm.trans hd)
  obtain rfl := Rule.step_unique hready hready' (ha.unequivocal hg) hsub hp.subset
  exact hs'

/-- At the end of the second stage its rules are covered. -/
theorem Sound.covers_of_cleanup (ha : a.Sound existing g policy) (hg : g.Sound)
    (hs : a.machine.stage = .cleanup) (hsealed : a.Sealed g first)
    (hstuck : a.machine.nextReady? = none) (hr : r ∈ a.machine.rules) : a.Covers r := by
  intro h s hsub hready
  have hm := ha.run.sound hg
  have htakes := ha.takesDown hg hsealed hs
  have hplan := htakes.mem_rules.mp hr
  have hout : a.machine.HandedOut r :=
    Machine.handedOut_of_evaluate hstuck hr hready hsub (htakes.isOver_eq_false hr)
  obtain ⟨s', hs', hd⟩ := hm.step_of_rule hout
  obtain ⟨r', first', h', hfirst', hr', hp, hready'⟩ :=
    (hm.warranted s' hs').exists_takesDown hg (hd ▸ hplan.isCleanup_duty)
  have hduty : r.duty = r'.duty := hd.symm.trans (Rule.duty_of_evaluate hready')
  obtain rfl := hplan.step_unique hr' hduty hready hready' (ha.unequivocal hg)
    (fun e he => htakes.mem_history he) (hfirst'.trans hp).subset
  exact hs'

/-- A stage of a run that goes by the answers, with the machine that it leads to. -/
structure Stage (answers : Answers) (existing : Option String) (g : Graph)
    (policy : CleanupPolicy) (l a : Ledger) (m : Machine) : Prop where
  begins : l.OnTrack answers existing g policy
  goes : Relation.ReflTransGen (GoesWithin answers existing) l a
  ends : a.machine.AdvancesTo m

namespace Stage

variable {m m₁ m₂ : Machine} (h : Stage answers existing g policy l a m) (hg : g.Sound)
include h hg

theorem onTrack : a.OnTrack answers existing g policy :=
  h.begins.reflTransGen hg (goes_of_within h.goes).1

theorem isGone : ∀ j ∈ a.jobs, j.isGone = true :=
  (h.onTrack hg).sound.isGone_of_idle h.ends.idle

/-- The rules of a stage are covered when it has come to its end. -/
theorem covers (hr : r ∈ l.machine.rules) : a.Covers r := by
  have ha := h.onTrack hg
  rw [← (goes_of_within h.goes).2.rules_eq] at hr
  cases hs : a.machine.stage with
  | run => exact ha.sound.covers_of_run hg hs h.ends.stuck hr
  | cleanup =>
    obtain ⟨first, hsealed⟩ := ha.isSealed (by rw [hs]; exact nofun)
    exact ha.sound.covers_of_cleanup hg hs hsealed h.ends.stuck hr
  | finished => exact absurd hs h.ends.unfinished

/-- When the last stage is over, nothing happens any more. -/
theorem eq_of_finished (hs : m.stage = .finished)
    (hrest : Relation.ReflTransGen (Goes answers existing) ⟨m, a.jobs, a.trace⟩ l') :
    l'.machine = m ∧ l'.jobs = a.jobs :=
  ((h.onTrack hg).advance hg h.ends).sound.eq_of_finished hg hs
    (hrest.lift id fun _ _ hgoes => hgoes.1)

end Stage

/-! ### Two runs -/

/-- Two ledgers tell of the same steps and the same events, and list the same as left over, though
not in the same order. -/
structure SameEnd (l₁ l₂ : Ledger) : Prop where
  steps : l₁.steps.Perm l₂.steps
  history : l₁.machine.history.Perm l₂.machine.history
  leftovers : l₁.machine.leftovers.Perm l₂.machine.leftovers

namespace Stage

variable {m₁ m₂ : Machine} (h₁ : Stage answers existing g policy l₁ a₁ m₁)
  (h₂ : Stage answers existing g policy l₂ a₂ m₂) (hg : g.Sound)
include h₁ h₂ hg

/-- What one run hands out in a stage, the other one has handed out when its stage is over. -/
theorem steps_subset (hbegin : l₁.steps ⊆ l₂.steps)
    (hrules : Plan.AgreesWith l₁.machine.rules l₂.machine.rules) : a₁.steps ⊆ a₂.steps := by
  refine Ledger.steps_subset h₁.goes h₁.begins hg (h₂.onTrack hg) (h₂.isGone hg) ?_ ?_
  · intro r hr h s hsub hready
    obtain ⟨r', hr', hsame⟩ := hrules r hr
    exact h₂.covers hg hr' h s hsub ((hsame h).trans hready)
  · exact List.Subset.trans hbegin (precedes_of_goes (goes_of_within h₂.goes).1).steps.subset

theorem steps_perm (hbegin : l₁.steps.Perm l₂.steps)
    (hrules : Plan.AgreesWith l₁.machine.rules l₂.machine.rules)
    (hrules' : Plan.AgreesWith l₂.machine.rules l₁.machine.rules) : a₁.steps.Perm a₂.steps :=
  (List.perm_ext_iff_of_nodup ((h₁.onTrack hg).sound.nodup_duty_steps.of_map _)
    ((h₂.onTrack hg).sound.nodup_duty_steps.of_map _)).mpr fun _ =>
      ⟨fun hs => h₁.steps_subset h₂ hg hbegin.subset hrules hs,
        fun hs => h₂.steps_subset h₁ hg hbegin.symm.subset hrules' hs⟩

/-- Stages that hand out the same steps bring about the same events. -/
theorem history_perm (hsteps : a₁.steps.Perm a₂.steps) :
    a₁.machine.history.Perm a₂.machine.history :=
  (((h₁.onTrack hg).foreseen.history_perm (h₁.isGone hg)).trans (hsteps.flatMap_right _)).trans
    ((h₂.onTrack hg).foreseen.history_perm (h₂.isGone hg)).symm

/-- If the stages were the last ones, the runs have the same end. -/
theorem sameEnd {l₁' l₂' : Ledger} (hsteps : a₁.steps.Perm a₂.steps)
    (hstage : a₁.machine.stage = a₂.machine.stage) (hs₁ : m₁.stage = .finished)
    (hs₂ : m₂.stage = .finished)
    (hrest₁ : Relation.ReflTransGen (Goes answers existing) ⟨m₁, a₁.jobs, a₁.trace⟩ l₁')
    (hrest₂ : Relation.ReflTransGen (Goes answers existing) ⟨m₂, a₂.jobs, a₂.trace⟩ l₂') :
    l₁'.SameEnd l₂' := by
  obtain ⟨hm₁, hjobs₁⟩ := h₁.eq_of_finished hg hs₁ hrest₁
  obtain ⟨hm₂, hjobs₂⟩ := h₂.eq_of_finished hg hs₂ hrest₂
  have hhistory := h₁.history_perm h₂ hg hsteps
  have hleft := History.leftovers_perm hhistory ((h₁.onTrack hg).sound.unequivocal hg)
  refine ⟨?_, ?_, ?_⟩
  · rw [steps, steps, hjobs₁, hjobs₂]
    exact hsteps
  · rw [hm₁, hm₂, h₁.ends.history_eq, h₂.ends.history_eq]
    exact hhistory
  · rw [hm₁, hm₂]
    rcases h₁.ends.leftovers_of_finished hs₁ with ⟨hrun₁, hlist₁⟩ | ⟨hcleanup₁, hlist₁⟩ <;>
      rcases h₂.ends.leftovers_of_finished hs₂ with ⟨hrun₂, hlist₂⟩ | ⟨hcleanup₂, hlist₂⟩
    · rw [hlist₁, hlist₂]
      exact hleft
    · rw [hrun₁, hcleanup₂] at hstage
      cases hstage
    · rw [hcleanup₁, hrun₂] at hstage
      cases hstage
    · have hfailures : a₁.machine.history.hasCleanupFailures =
          a₂.machine.history.hasCleanupFailures := hhistory.any_eq
      have hnone : ∀ {a}, OnTrack answers existing g policy a → a.machine.stage ≠ .finished →
          a.machine.leftovers = [] := fun ha hs => (ha.sound.run.sound hg).leftovers_nil hs
      rw [hlist₁, hlist₂, hfailures, hnone (h₁.onTrack hg) h₁.ends.unfinished,
        hnone (h₂.onTrack hg) h₂.ends.unfinished]
      split
      · exact hleft
      · exact .refl _

end Stage

/-- A run that is in the second stage leaves it for good. -/
theorem OnTrack.exists_lastStage (hl : l.OnTrack answers existing g policy)
    (hs : l.machine.stage = .cleanup) (h : Relation.ReflTransGen (Goes answers existing) l l')
    (hs' : l'.machine.stage = .finished) :
    ∃ a m, Stage answers existing g policy l a m ∧ a.machine.stage = .cleanup ∧
      m.stage = .finished ∧
      Relation.ReflTransGen (Goes answers existing) ⟨m, a.jobs, a.trace⟩ l' := by
  obtain ⟨a, m, hgoes, hends, hrest⟩ := exists_advance h (by rw [hs, hs']; exact nofun)
  have hstage : a.machine.stage = .cleanup := (goes_of_within hgoes).2.stage_eq.trans hs
  refine ⟨a, m, ⟨hl, hgoes, hends⟩, hstage, ?_, hrest⟩
  cases hm : m.stage with
  | run => exact absurd hm hends.stage_ne_run
  | cleanup => exact absurd hm (hends.stage_ne_cleanup (by rw [hstage]; exact nofun))
  | finished => rfl

/-- Two runs that go by the same answers come to the same end. -/
theorem sameEnd_of_goes (hg : g.Sound)
    (h₁ : Relation.ReflTransGen (Goes answers existing) ⟨.start g policy, [], []⟩ l₁)
    (h₂ : Relation.ReflTransGen (Goes answers existing) ⟨.start g policy, [], []⟩ l₂)
    (hs₁ : l₁.machine.stage = .finished) (hs₂ : l₂.machine.stage = .finished) : l₁.SameEnd l₂ := by
  have hstart := onTrack_start answers existing g policy
  obtain ⟨a₁, m₁, hgoes₁, hends₁, hrest₁⟩ := exists_advance h₁ (by rw [hs₁]; exact nofun)
  obtain ⟨a₂, m₂, hgoes₂, hends₂, hrest₂⟩ := exists_advance h₂ (by rw [hs₂]; exact nofun)
  have hrun₁ : Stage answers existing g policy _ a₁ m₁ := ⟨hstart, hgoes₁, hends₁⟩
  have hrun₂ : Stage answers existing g policy _ a₂ m₂ := ⟨hstart, hgoes₂, hends₂⟩
  have hstage₁ : a₁.machine.stage = .run := (goes_of_within hgoes₁).2.stage_eq
  have hstage₂ : a₂.machine.stage = .run := (goes_of_within hgoes₂).2.stage_eq
  -- the first stages hand out the same steps, and so agree on whether there is a second one
  have hsteps := hrun₁.steps_perm hrun₂ hg (.refl _) (.refl _) (.refl _)
  have hhistory := hrun₁.history_perm hrun₂ hg hsteps
  have hm₁ := (hrun₁.onTrack hg).sound.run.sound hg
  have hm₂ := (hrun₂.onTrack hg).sound.run.sound hg
  have hfailures : a₁.machine.history.hasFailures = a₂.machine.history.hasFailures :=
    hhistory.any_eq
  have hnext : m₂.stage = m₁.stage := by
    rw [hends₁.stage_of_run hstage₁, hends₂.stage_of_run hstage₂, hm₁.policy_eq, hm₂.policy_eq,
      hfailures]
  cases hs : m₁.stage with
  | run => exact absurd hs hends₁.stage_ne_run
  | finished =>
    exact hrun₁.sameEnd hrun₂ hg hsteps (hstage₁.trans hstage₂.symm) hs (hnext.trans hs) hrest₁
      hrest₂
  | cleanup =>
    have hrules₁ := hends₁.rules_of_run hstage₁ hs
    have hrules₂ := hends₂.rules_of_run hstage₂ (hnext.trans hs)
    rw [hm₁.graph_eq] at hrules₁
    rw [hm₂.graph_eq] at hrules₂
    have hone₁ := (hrun₁.onTrack hg).sound.unequivocal hg
    have hone₂ := (hrun₂.onTrack hg).sound.unequivocal hg
    obtain ⟨b₁, n₁, hlast₁, hb₁, hn₁, hend₁⟩ :=
      ((hrun₁.onTrack hg).advance hg hends₁).exists_lastStage hs hrest₁ hs₁
    obtain ⟨b₂, n₂, hlast₂, hb₂, hn₂, hend₂⟩ :=
      ((hrun₂.onTrack hg).advance hg hends₂).exists_lastStage (hnext.trans hs) hrest₂ hs₂
    have hsteps' : b₁.steps.Perm b₂.steps := by
      refine hlast₁.steps_perm hlast₂ hg hsteps ?_ ?_ <;> dsimp only <;> rw [hrules₁, hrules₂]
      · exact Plan.agreesWith_forCleanup hhistory hone₁
      · exact Plan.agreesWith_forCleanup hhistory.symm hone₂
    exact hlast₁.sameEnd hlast₂ hg hsteps' (hb₁.trans hb₂.symm) hn₁ hn₂ hend₁ hend₂

end Ledger

/-! ### Executions -/

namespace Execution

variable {answers : Answers} {existing : Option String} {g : Graph} {policy : CleanupPolicy}
  {x y : Execution} {o o' : Outcome}

/-- A run that goes by the answers and is not cancelled has come to an outcome. -/
structure ComesTo (answers : Answers) (existing : Option String) (g : Graph)
    (policy : CleanupPolicy) (x : Execution) (o : Outcome) : Prop where
  manages : x.Manages existing g policy
  going : x.cancelled = false
  heeds : x.ledger.Heeds answers
  outcome : x.outcome? = some o

/-- What two runs have in common that differ in the schedule only. -/
structure SameOutcome (x y : Execution) (o o' : Outcome) : Prop where
  /-- The same steps were begun. -/
  steps : (x.trace.filterMap Happening.started?).Perm (y.trace.filterMap Happening.started?)
  /-- The same events are on record. -/
  history : x.machine.history.Perm y.machine.history
  exitCode : o.exitCode = o'.exitCode
  failures : o.failures.Perm o'.failures
  /-- The same commands are left to the user. -/
  commands : (o.leftovers.map Leftover.command).Perm (o'.leftovers.map Leftover.command)

/-- What the manager tells is how the machine stands, in a run that is not cancelled. -/
theorem Manages.outcome_eq (h : x.Manages existing g policy) (hgoing : x.cancelled = false)
    (hreturned : x.manager = .returned o) : o = x.machine.outcome := by
  refine h.moves_induction
    (P := fun x => x.cancelled = false → x.manager = .returned o → o = x.machine.outcome)
    ?_ ?_ hgoing hreturned
  · intro limit cancelled first hfirst _ hreturned
    obtain rfl := eq_of_start? hfirst
    cases hreturned
  · intro x y move hx ih hm hgoing hreturned
    have hxy := hx.continuesTo hm
    have hbefore := hxy.going hgoing
    have hkept : x.manager ≠ .dispatching → y.machine = x.machine := fun hmanager =>
      (hx.sound.ledger.eq_of_finished hx.sound_graph (hx.candid.finished hmanager)
        (hbefore ▸ hx.effects hm)).1
    rcases hxy.returned_or_eq_outcome hreturned with hmanager | ⟨hmanager, heq⟩
    · rw [hkept (by simp [hmanager])]
      exact ih hbefore hmanager
    · rw [hkept hmanager]
      exact heq

section ComesTo

variable (hx : x.ComesTo answers existing g policy o)
include hx

theorem ComesTo.goes :
    Relation.ReflTransGen (Ledger.Goes answers existing) ⟨.start g policy, [], []⟩ x.ledger :=
  hx.manages.goes hx.going hx.heeds

theorem ComesTo.onTrack : x.ledger.OnTrack answers existing g policy :=
  (Ledger.onTrack_start answers existing g policy).reflTransGen hx.manages.sound_graph hx.goes

theorem ComesTo.isGone : ∀ j ∈ x.jobs, j.isGone = true :=
  hx.manages.isGone_of_outcome? (by rw [hx.outcome]; rfl)

theorem ComesTo.stage_eq : x.machine.stage = .finished :=
  hx.manages.candid.finished (by rw [returned_of_outcome? hx.outcome]; exact nofun)

/-- What a run comes to depends on the answers alone, and not on the schedule: neither on how the
jobs take turns nor on the limit on parallel work. -/
theorem ComesTo.sameOutcome (hy : y.ComesTo answers existing g policy o') :
    x.SameOutcome y o o' := by
  have hg := hx.manages.sound_graph
  have hend := Ledger.sameEnd_of_goes hg hx.goes hy.goes hx.stage_eq hy.stage_eq
  obtain rfl := hx.manages.outcome_eq hx.going (returned_of_outcome? hx.outcome)
  obtain rfl := hy.manages.outcome_eq hy.going (returned_of_outcome? hy.outcome)
  have hgraph : x.machine.graph = y.machine.graph :=
    (hx.onTrack.sound.run.sound hg).graph_eq.trans (hy.onTrack.sound.run.sound hg).graph_eq.symm
  have hexit : x.machine.history.exitCode? = y.machine.history.exitCode? := by
    refine funext fun c => findSome?_eq_of_perm hend.history fun e he e' he' n n' hn hn' => ?_
    cases e <;> simp only [reduceCtorEq, Option.ite_none_right_eq_some, Option.some.injEq] at hn
    cases e' <;> simp only [reduceCtorEq, Option.ite_none_right_eq_some, Option.some.injEq] at hn'
    obtain ⟨rfl, rfl⟩ := hn
    obtain ⟨rfl, rfl⟩ := hn'
    exact hx.onTrack.foreseen.exitCode_unique hx.onTrack.sound he he'
  exact {
    steps := ((hx.onTrack.foreseen.started_perm hx.isGone).trans hend.steps).trans
      (hy.onTrack.foreseen.started_perm hy.isGone).symm
    history := hend.history
    exitCode := by
      show x.machine.graph.root.bind _ = y.machine.graph.root.bind _
      rw [hgraph, hexit]
    failures := hend.history.filter _
    commands := hend.leftovers.map _ }

end ComesTo

end Execution

namespace Sample

/-- A runtime that cannot remove the app. -/
def busy : (c : Call) → Reply c.Value :=
  replyBut (.removeContainer ⟨"id-app", "app"⟩) fun _ => .failed "busy"

/-- The small task with two steps of limited work at a time. The image of the app is pulled before
that of the database, although it is handed out later. -/
def overtaken? : Option Execution := do
  let x ← Execution.start? (.start graph ⟨true, true⟩) none (some 2) false
  let x ← x.inTurn? busy 1
  let x ← x.after? ([.dispatch, .place 1, .dispatch, .place 2] ++
    ((Step.pullImage "app" .ifNotPresent).moves none busy 2).tail ++
    ((Step.pullImage "db" .ifNotPresent).moves none busy 1).tail)
  let x ← x.inTurn? busy 11
  x.after? [.dispatch, .conclude, .deliver]

theorem manages_of_overtaken? {x : Execution} (h : overtaken? = some x) :
    x.Manages none graph ⟨true, true⟩ := by
  simp only [overtaken?, Option.bind_eq_bind, Option.bind_eq_some_iff] at h
  obtain ⟨first, hfirst, x₁, h₁, x₂, h₂, x₃, h₃, h⟩ := h
  exact ⟨⟨task, catalogue, build_eq⟩, some 2, false, first, hfirst,
    (((Execution.Reachable.refl.inTurn? h₁).after? h₂).inTurn? h₃).after? h⟩

/-- What can be seen of a run of the small task that comes to an outcome. -/
theorem exists_comesTo (answers : Answers) (run : Option Execution)
    {p : Execution → Outcome → Bool}
    (hmanages : ∀ x, run = some x → x.Manages none graph ⟨true, true⟩)
    (h : (run.any fun x => decide (x.cancelled = false ∧ x.ledger.Heeds answers ∧
      x.outcome?.any (p x) = true)) = true) :
    ∃ x o, x.ComesTo answers none graph ⟨true, true⟩ o ∧ p x o = true := by
  obtain ⟨x, hx, hseen⟩ := (Option.any_eq_true _ _).mp h
  obtain ⟨hgoing, hheeds, hseen⟩ := of_decide_eq_true hseen
  obtain ⟨o, ho, hp⟩ := (Option.any_eq_true _ _).mp hseen
  exact ⟨x, o, ⟨hmanages x hx, hgoing, hheeds, ho⟩, hp⟩

end Sample

namespace Execution

/-- Two runs of the small task, with two limits and in two orders. In both the app cannot be
removed, and this is left to the user. -/
theorem ComesTo.sameOutcome_of_busy : ∃ (x y : Execution) (o o' : Outcome),
    x.ComesTo (fun _ => Sample.busy) none Sample.graph ⟨true, true⟩ o ∧
      y.ComesTo (fun _ => Sample.busy) none Sample.graph ⟨true, true⟩ o' ∧
      x.machine.history[1]? = some (.imagePulled "db" ⟨"image"⟩) ∧
      y.machine.history[1]? = some (.imagePulled "app" ⟨"image"⟩) ∧
      o.exitCode = some 0 ∧ o.failures.length = 1 ∧
      o.leftovers.map Leftover.command = ["docker rm --force id-app"] ∧ x.SameOutcome y o o' := by
  obtain ⟨x, o, hx, hseen⟩ := Sample.exists_comesTo (fun _ => Sample.busy)
    (Sample.run? Sample.busy 14 [.dispatch, .conclude, .deliver])
    (p := fun x o => decide (x.machine.history[1]? = some (Event.imagePulled "db" ⟨"image"⟩) ∧
      o.exitCode = some 0 ∧ o.failures.length = 1 ∧
      o.leftovers.map Leftover.command = ["docker rm --force id-app"]))
    (fun _ => Sample.manages_of_run?) (by decide +kernel)
  obtain ⟨y, o', hy, hseen'⟩ := Sample.exists_comesTo (fun _ => Sample.busy) Sample.overtaken?
    (p := fun y _ => decide (y.machine.history[1]? = some (Event.imagePulled "app" ⟨"image"⟩)))
    (fun _ => Sample.manages_of_overtaken?) (by decide +kernel)
  obtain ⟨hfirst, hcode, hfailed, hleft⟩ := of_decide_eq_true hseen
  exact ⟨x, y, o, o', hx, hy, hfirst, of_decide_eq_true hseen', hcode, hfailed, hleft,
    hx.sameOutcome hy⟩

end Execution

end ContainerTasks
