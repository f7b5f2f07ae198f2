import ContainerTasks.Proofs.ManagedRuns

/-!
# The first stage is sealed

When the first stage is over, what it has made is on record, and nothing more will be made or
started. The stage is left only when every step has been handed back, so no job is left that could
make anything, or has made something and not said so; and steps that are handed out later take
things down. So the plan of the second stage misses nothing.

## Main definitions

* `Event.isLate`: events that can still be recorded once the first stage is over
* `Plan.RemovesCreated`: a plan removes what was created, and nothing else
* `Ledger.Sealed`: how the history falls into the two stages

## Main results

* `Ledger.Sound.late_of_effect`: once the first stage is over, only late events are recorded
* `Ledger.Sound.removesCreated`: the plan of the second stage removes what was created
* `Execution.Manages.runStage_sealed`: both, and that all that was made is on record
-/

namespace ContainerTasks

/-- Events that can still be recorded once the first stage is over: those of steps that take
something down, and those of no step. -/
def Event.isLate (e : Event) : Bool := e.duty?.all Duty.isCleanup

/-- The rules remove the containers that were created, newest first and each once, and are about no
other container. -/
structure Plan.RemovesCreated (rules : List Rule) (h : History) : Prop where
  removals : rules.filterMap Rule.removal? = h.created.reverse
  nodup : (h.created.map (·.1)).Nodup
  noOther : ∀ r ∈ rules, ∀ c, r.duty.container? = some c → c ∈ h.created.map (·.1)

namespace Event

variable {e : Event}

theorem isLate_of_duty? (h : ∀ d, e.duty? = some d → d.isCleanup = true) : e.isLate = true := by
  unfold isLate
  cases hd : e.duty? with
  | none => rfl
  | some d => exact h d hd

/-- Late events make and start nothing. -/
theorem not_isCreation_of_isLate (h : e.isLate = true) :
    e.isCreation = false ∧ ∀ c, e ≠ .containerStarted c := by
  cases e <;> simp_all [isLate, duty?, Duty.isCleanup, isCreation]

end Event

/-- Late events do not tell of a container that was created. -/
theorem History.created_append_of_isLate {h later : History} (hl : ∀ e ∈ later, e.isLate = true) :
    (h ++ later).created = h.created := by
  have hnil : later.created = [] := by
    refine List.filterMap_eq_nil_iff.mpr fun e he => ?_
    have := (Event.not_isCreation_of_isLate (hl e he)).1
    cases e <;> simp_all [Event.isCreation]
  rw [created, List.filterMap_append]
  exact (congrArg _ hnil).trans (List.append_nil _)

namespace Ledger

/-- How the history falls into the two stages, once the first one is over: in `first` nothing was
taken down, what came later is late, and the plan of the second stage was made in between. -/
structure Sealed (g : Graph) (l : Ledger) (first : History) : Prop where
  grows : ∃ later, l.machine.history = first ++ later ∧ ∀ e ∈ later, e.isLate = true
  making : ∀ e ∈ first, ∀ d, e.duty? = some d → d.isCleanup = false
  planned : l.machine.stage = .cleanup → l.machine.rules = Plan.forCleanup g first

variable {existing : Option String} {g : Graph} {policy : CleanupPolicy} {l l' : Ledger}
  {cancelled : Bool} {first : History}

/-- In the first stage nothing has been taken down. -/
theorem Sound.making_of_run (hl : l.Sound existing g policy) (hg : g.Sound)
    (hs : l.machine.stage = .run) :
    ∀ e ∈ l.machine.history, ∀ d, e.duty? = some d → d.isCleanup = false := by
  intro e he d hd
  have hm := hl.run.sound hg
  obtain ⟨s, hs', rfl⟩ := hm.told ⟨e, he, hd⟩
  exact hm.early hs s hs'

/-- Once the first stage is over, only late events are recorded. -/
theorem Sound.late_of_effect (hl : l.Sound existing g policy) (hs : l.machine.stage ≠ .run)
    (h : l.Effect existing cancelled l') :
    ∃ later, l'.machine.history = l.machine.history ++ later ∧ ∀ e ∈ later, e.isLate = true := by
  have hpost : ∀ {m : Machine} {e : Event}, e.isLate = true →
      ∃ later, (m.post e).history = m.history ++ later ∧ ∀ e ∈ later, e.isLate = true :=
    fun he => ⟨[_], Machine.history_post .., fun _ he' => List.mem_singleton.mp he' ▸ he⟩
  cases h with
  | advance ends => exact ⟨[], by rw [ends.history_eq, List.append_nil], List.forall_mem_nil _⟩
  | handOut | glide | drop | handBack | log =>
    exact ⟨[], (List.append_nil _).symm, List.forall_mem_nil _⟩
  | @record m front back s o e rest trace =>
    have hmem : ⟨s, .working (.post e rest), o⟩ ∈
        front ++ ⟨s, .working (.post e rest), o⟩ :: back := by simp
    have hcleanup : s.isCleanup = true := hl.late hs _ hmem rfl
    refine hpost (Event.isLate_of_duty? fun d hd => ?_)
    rcases (hl.follows _ hmem).post.1 with hlog | hcan
    · rw [Event.duty?_eq_none_of_isInformational hlog] at hd
      cases hd
    · rw [Step.duty_of_canPost hcan, Option.some.injEq] at hd
      rw [← hd, Step.isCleanup_duty, hcleanup]
  | recordFailure | interrupt => exact hpost rfl

/-- From the end of the first stage on, the history falls into the two stages. -/
theorem sealed_of_effect (hl : l.Sound existing g policy) (hg : g.Sound)
    (hsealed : l.machine.stage ≠ .run → ∃ first, l.Sealed g first)
    (h : l.Effect existing cancelled l') :
    l'.machine.stage ≠ .run → ∃ first, l'.Sealed g first := by
  intro hs'
  by_cases hs : l.machine.stage = .run
  · -- the first stage ends here
    rcases h.advancesTo_or_sameStage with hover | hsame
    · have hgrows : l'.machine.history = l.machine.history ++ [] := by
        rw [hover.history_eq, List.append_nil]
      refine ⟨l.machine.history, ⟨[], hgrows, List.forall_mem_nil _⟩, hl.making_of_run hg hs,
        fun hcleanup => ?_⟩
      rw [hover.rules_of_run hs hcleanup, (hl.run.sound hg).graph_eq]
    · rw [hsame.stage_eq] at hs'
      exact absurd hs hs'
  · obtain ⟨first, ⟨earlier, hgrows, hearlier⟩, hmaking, hplanned⟩ := hsealed hs
    obtain ⟨later, hlater, hlate⟩ := hl.late_of_effect hs h
    refine ⟨first, ⟨earlier ++ later, ?_, ?_⟩, hmaking, fun hcleanup => ?_⟩
    · rw [hlater, hgrows, List.append_assoc]
    · exact List.forall_mem_append.mpr ⟨hearlier, hlate⟩
    · rcases h.advancesTo_or_sameStage with hover | hsame
      · exact absurd hcleanup (hover.stage_ne_cleanup hs)
      · rw [hsame.rules_eq]
        exact hplanned (hsame.stage_eq ▸ hcleanup)

/-- Once the first stage is over, no job has made something and not said so. -/
theorem Sound.owed_eq_nil (hl : l.Sound existing g policy) (hs : l.machine.stage ≠ .run) :
    l.jobs.flatMap Job.owed = [] := by
  refine List.flatMap_eq_nil_iff.mpr fun j hj => ?_
  obtain ⟨s, phase, o⟩ := j
  cases phase with
  | working rest =>
    have hcleanup : s.isCleanup = true := hl.late hs _ hj rfl
    obtain ⟨-, hcourse | ⟨-, rfl⟩⟩ := (hl.follows _ hj).working
    · cases rest with
      | post e rest =>
        have hduty := Step.duty_of_canPost (hcourse.canPost (.inl rfl))
        have hlate : e.isLate = true := Event.isLate_of_duty? fun d hd => by
          rw [hduty, Option.some.injEq] at hd
          rw [← hd, Step.isCleanup_duty, hcleanup]
        simp [Job.owed, Procedure.owed, (Event.not_isCreation_of_isLate hlate).1]
      | ended | check | call => rfl
    · rfl
  | _ => rfl

/-- The plan of the second stage removes what the run has created, and nothing else. -/
theorem Sound.removesCreated (hl : l.Sound existing g policy) (hg : g.Sound)
    (hsealed : l.Sealed g first) (hs : l.machine.stage = .cleanup) :
    Plan.RemovesCreated l.machine.rules l.machine.history := by
  have hkept := History.isRemoved_eq_false hsealed.making
  obtain ⟨⟨later, hgrows, hlate⟩, -, hplanned⟩ := hsealed
  have hcreated : l.machine.history.created = first.created := by
    rw [hgrows, History.created_append_of_isLate hlate]
  rw [hplanned hs]
  refine ⟨?_, hl.nodup_created hg, fun r hr c hc => ?_⟩
  · rw [hcreated, Plan.removals_forCleanup]
    exact List.filter_eq_self.mpr fun e _ => by rw [hkept, Bool.not_false]
  · obtain ⟨reference, hmade⟩ := (Plan.mem_forCleanup.mp hr).made_of_container? hc
    rw [hcreated]
    exact List.mem_map.mpr ⟨(c, reference), History.mem_created.mpr hmade, rfl⟩

end Ledger

/-! ### Managed runs -/

namespace Execution

variable {existing : Option String} {g : Graph} {policy : CleanupPolicy} {x y : Execution}

theorem Manages.sealed (h : x.Manages existing g policy) (hleft : x.machine.stage ≠ .run) :
    ∃ first, x.ledger.Sealed g first :=
  h.induction (P := fun l => l.machine.stage ≠ .run → ∃ first, l.Sealed g first)
    (fun hs => absurd rfl hs)
    (fun _ _ _ hl hsealed heffect => Ledger.sealed_of_effect hl h.sound_graph hsealed heffect) hleft

/-- From the moment when the first stage is left, the history has one event for each container and
each network that a call has made, and from then on it gets no event about something that was made
or started. The plan of the second stage, as it is made and as long as the stage lasts, removes each
container that was created, newest first, and is about no other container. -/
theorem Manages.runStage_sealed (h : x.Manages existing g policy) :
    (x.machine.stage ≠ .run →
      (x.trace.filterMap Happening.creation?).Perm (x.machine.history.filter Event.isCreation) ∧
      ∀ y, x.Reachable y → ∃ later, y.machine.history = x.machine.history ++ later ∧
        ∀ e ∈ later, e.isCreation = false ∧ ∀ c, e ≠ .containerStarted c) ∧
    (∀ m, x.machine.AdvancesTo m → m.stage = .cleanup → Plan.RemovesCreated m.rules m.history) ∧
    (x.machine.stage = .cleanup → Plan.RemovesCreated x.machine.rules x.machine.history) := by
  have hl := h.sound.ledger
  have hg := h.sound_graph
  refine ⟨fun hleft => ⟨?_, fun y hy => ?_⟩, fun m hover hs => ?_, fun hs => ?_⟩
  · have := hl.accounted
    rwa [hl.owed_eq_nil hleft, List.append_nil] at this
  · have hlater : y.machine.stage ≠ .run ∧ ∃ later,
        y.machine.history = x.machine.history ++ later ∧ ∀ e ∈ later, e.isLate = true := by
      refine h.holds_of_reachable (P := fun l => l.machine.stage ≠ .run ∧ ∃ later,
        l.machine.history = x.machine.history ++ later ∧ ∀ e ∈ later, e.isLate = true) ?_ ?_ hy
      · exact ⟨hleft, [], (List.append_nil _).symm, List.forall_mem_nil _⟩
      · rintro l l' _ hl ⟨hs, earlier, hgrows, hearlier⟩ heffect
        obtain ⟨later, hlater, hlate⟩ := hl.late_of_effect hs heffect
        refine ⟨?_, earlier ++ later, ?_, List.forall_mem_append.mpr ⟨hearlier, hlate⟩⟩
        · rcases heffect.advancesTo_or_sameStage with hover | hsame
          · exact hover.stage_ne_run
          · exact hsame.stage_eq ▸ hs
        · rw [hlater, hgrows, List.append_assoc]
    obtain ⟨-, later, hgrows, hlate⟩ := hlater
    exact ⟨later, hgrows, fun e he => Event.not_isCreation_of_isLate (hlate e he)⟩
  · have heffect : x.ledger.Effect existing x.cancelled ⟨m, x.jobs, x.trace⟩ := .advance hover
    obtain ⟨first, hsealed⟩ :=
      Ledger.sealed_of_effect hl hg h.sealed heffect hover.stage_ne_run
    exact (hl.effect hg heffect).removesCreated hg hsealed hs
  · have hleft : x.machine.stage ≠ .run := fun hrun => by rw [hrun] at hs; cases hs
    obtain ⟨first, hsealed⟩ := h.sealed hleft
    exact hl.removesCreated hg hsealed hs

/-- An app and its database have been run, and are being removed. -/
theorem Manages.runStage_sealed_of_cleanup : ∃ x : Execution,
    x.Manages none Sample.graph ⟨true, true⟩ ∧ x.machine.stage = .cleanup ∧
      x.machine.history.created.map (·.1) = ["db", "app"] ∧
      Plan.RemovesCreated x.machine.rules x.machine.history := by
  obtain ⟨x, hx, hp⟩ := Sample.exists_manages Sample.reply 11 []
    (p := fun x => decide (x.machine.stage = .cleanup ∧
      x.machine.history.created.map (·.1) = ["db", "app"]))
    (by decide +kernel)
  obtain ⟨hs, hcreated⟩ := of_decide_eq_true hp
  exact ⟨x, hx, hs, hcreated, (Manages.runStage_sealed hx).2.2 hs⟩

end Execution

end ContainerTasks
