import ContainerTasks.Machine
import ContainerTasks.Proofs.CleanupPlans
import ContainerTasks.Proofs.RunPlans

/-!
# Runs of the state machine

Somebody asks the machine for steps, posts events and hands steps back, in whatever order they see
fit. The only thing they have to keep to is what they post: events for the log alone, unexpected
errors, interrupts, and events of steps that were handed out. Nothing is said here about how often
or how late a step posts its events, or whether it does so before it is handed back.

Every event of a step then goes back to the moment when the step was handed out, and so to a rule
that was ready at that moment. This is what makes histories trustworthy: a container that became
ready was started before, and that was after it was created.

## Main definitions

* `Machine.MayPost`, `Machine.Run`: a machine with the steps that it has handed out
* `Graph.Warrants`: a step could be handed out
* `Graph.Grounds`: every event of a history comes from a step that could be handed out before
* `Machine.Sound`: what holds all along a run

## Main results

* `Machine.pop_spec`: asking for a step, with the stages that end over it
* `Machine.Run.pop`: asking for a step goes on with a run
* `Machine.Run.sound`
* `Machine.Sound.handedOut_of_tellsOf`: no rule is over because of the step of another rule
* `Graph.Grounds.isSome_reference?`: what happens in a container happens after it was created
-/

namespace ContainerTasks

/-! ### Asking for a step -/

/-- The steps that an answer comes with. -/
def Pop.steps : Pop → List Step
  | step s => [s]
  | blocked | finished => []

namespace Machine

variable {m : Machine} {index : Nat} {step : Step} {r : Rule}

/-- The rule has handed out its step. -/
def HandedOut (m : Machine) (r : Rule) : Prop := ∃ index ∈ m.handedOut, m.rules[index]? = some r

/-- No rule of the stage is ready whose step has not been handed out. -/
def NoneReady (m : Machine) : Prop :=
  ∀ index r, m.rules[index]? = some r → index ∉ m.handedOut → ∀ s, r.evaluate m.history ≠ .ready s

/-- The stage is over, and the machine goes on to the next one. -/
structure AdvancesTo (m m' : Machine) : Prop where
  stuck : m.nextReady? = none
  idle : m.inFlight = 0
  unfinished : m.stage ≠ .finished
  eq : m' = m.enterNextStage.notify

section Post

variable (m : Machine) (e : Event)

@[simp] theorem graph_post : (m.post e).graph = m.graph := by unfold post; split <;> rfl

@[simp] theorem policy_post : (m.post e).policy = m.policy := by unfold post; split <;> rfl

@[simp] theorem history_post : (m.post e).history = m.history ++ [e] := by
  unfold post; split <;> rfl

@[simp] theorem stage_post : (m.post e).stage = m.stage := by unfold post; split <;> rfl

@[simp] theorem rules_post : (m.post e).rules = m.rules := by unfold post; split <;> rfl

@[simp] theorem handedOut_post : (m.post e).handedOut = m.handedOut := by
  unfold post; split <;> rfl

@[simp] theorem inFlight_post : (m.post e).inFlight = m.inFlight := by unfold post; split <;> rfl

@[simp] theorem leftovers_post : (m.post e).leftovers = m.leftovers := by
  unfold post; split <;> rfl

end Post

theorem AdvancesTo.history_eq {m' : Machine} (h : m.AdvancesTo m') : m'.history = m.history := by
  rw [h.eq, enterNextStage]
  split
  · split <;> rfl
  · rfl
  · rfl

theorem AdvancesTo.inFlight_eq {m' : Machine} (h : m.AdvancesTo m') :
    m'.inFlight = m.inFlight := by
  rw [h.eq, enterNextStage]
  split
  · split <;> rfl
  · rfl
  · rfl

theorem AdvancesTo.graph_eq {m' : Machine} (h : m.AdvancesTo m') : m'.graph = m.graph := by
  rw [h.eq, enterNextStage]
  split
  · split <;> rfl
  · rfl
  · rfl

theorem AdvancesTo.changes_eq {m' : Machine} (h : m.AdvancesTo m') :
    m'.changes = m.changes + 1 := by
  rw [h.eq, enterNextStage]
  split
  · split <;> rfl
  · rfl
  · rfl

theorem AdvancesTo.handedOut_eq {m' : Machine} (h : m.AdvancesTo m') : m'.handedOut = [] := by
  rw [h.eq, enterNextStage]
  split
  · split <;> rfl
  · rfl
  · next hs => exact absurd hs h.unfinished

/-- Nothing has been handed out yet of the next plan. -/
theorem AdvancesTo.not_handedOut {m' : Machine} (h : m.AdvancesTo m') : ¬ m'.HandedOut r := by
  rintro ⟨index, hindex, -⟩
  rw [h.handedOut_eq] at hindex
  cases hindex

theorem AdvancesTo.rules_of_finished {m' : Machine} (h : m.AdvancesTo m')
    (hs : m'.stage = .finished) : m'.rules = [] := by
  rw [h.eq, enterNextStage] at hs ⊢
  split
  · next hrun =>
    rw [hrun] at hs
    dsimp only at hs
    split at hs
    · cases hs
    · next hpolicy => rw [if_neg hpolicy]; rfl
  · rfl
  · next hfinished => exact absurd hfinished h.unfinished

/-- The stage that comes after the first one. -/
theorem AdvancesTo.stage_of_run {m' : Machine} (h : m.AdvancesTo m') (hs : m.stage = .run) :
    m'.stage = if m.policy.applies m.history.hasFailures then .cleanup else .finished := by
  rw [h.eq, enterNextStage, hs]
  dsimp only
  split <;> rfl

theorem AdvancesTo.stage_of_cleanup {m' : Machine} (h : m.AdvancesTo m') (hs : m.stage = .cleanup) :
    m'.stage = .finished := by
  rw [h.eq, enterNextStage, hs]
  rfl

theorem AdvancesTo.stage_ne_run {m' : Machine} (h : m.AdvancesTo m') : m'.stage ≠ .run := by
  rw [h.eq, enterNextStage]
  split
  · split <;> exact nofun
  · exact nofun
  · next hs => exact absurd hs h.unfinished

/-- After the first stage only the last one can follow. -/
theorem AdvancesTo.stage_ne_cleanup {m' : Machine} (h : m.AdvancesTo m') (hs : m.stage ≠ .run) :
    m'.stage ≠ .cleanup := by
  rw [h.eq, enterNextStage]
  split
  · next hrun => exact absurd hrun hs
  · exact nofun
  · next hfinished => exact absurd hfinished h.unfinished

/-- The plan of the second stage is made when the first one ends. -/
theorem AdvancesTo.rules_of_run {m' : Machine} (h : m.AdvancesTo m') (hs : m.stage = .run)
    (hcleanup : m'.stage = .cleanup) : m'.rules = Plan.forCleanup m.graph m.history := by
  rw [h.eq, enterNextStage, hs] at hcleanup ⊢
  dsimp only at hcleanup ⊢
  split at hcleanup
  · next hpolicy =>
    rw [if_pos hpolicy]
    rfl
  · cases hcleanup

theorem HandedOut.mem_rules (h : m.HandedOut r) : r ∈ m.rules := by
  obtain ⟨index, -, hindex⟩ := h
  exact List.mem_of_getElem? hindex

theorem handedOut_handOut : (m.handOut index).HandedOut r ↔
    m.rules[index]? = some r ∨ m.HandedOut r := by
  simp [HandedOut, handOut]

theorem of_nextReady? (h : m.nextReady? = some (index, step)) :
    index ∉ m.handedOut ∧ ∃ r, m.rules[index]? = some r ∧ r.evaluate m.history = .ready step := by
  obtain ⟨⟨r, i⟩, hmem, hfound⟩ := List.exists_of_findSome?_eq_some h
  dsimp only at hfound
  split at hfound
  · cases hfound
  · next hfresh =>
    split at hfound
    · next s hready =>
      cases hfound
      exact ⟨hfresh, r, List.mem_zipIdx_iff_getElem?.mp hmem, hready⟩
    · cases hfound

theorem nextReady?_eq_none_iff : m.nextReady? = none ↔ m.NoneReady := by
  simp only [NoneReady, nextReady?, List.findSome?_eq_none_iff, Prod.forall,
    List.mem_zipIdx_iff_getElem?]
  constructor
  · intro h index r hr hfresh s hready
    have hnone := h r index hr
    simp [hfresh, hready] at hnone
  · intro h r index hr
    split
    · rfl
    · next hfresh =>
      split
      · next s hready => exact absurd hready (h index r hr hfresh s)
      · rfl

/-- Where nothing can be handed out, no rule is ready that has not handed out its step. -/
theorem evaluate_ne_ready (h : m.nextReady? = none) (hr : r ∈ m.rules) (hout : ¬ m.HandedOut r)
    (s : Step) : r.evaluate m.history ≠ .ready s := by
  obtain ⟨index, hindex⟩ := List.getElem?_of_mem hr
  exact nextReady?_eq_none_iff.mp h index r hindex (fun hmem => hout ⟨index, hmem, hindex⟩) s

/-- Asking for a step: some stages may end, and then a step is handed out, or none can be. -/
theorem pop_spec (m : Machine) : ∃ m', Relation.ReflTransGen AdvancesTo m m' ∧
    ((∃ index step, m'.nextReady? = some (index, step) ∧ m.pop = (.step step, m'.handOut index)) ∨
      (m'.nextReady? = none ∧ m'.inFlight ≠ 0 ∧ m.pop = (.blocked, m')) ∨
      (m'.nextReady? = none ∧ m'.inFlight = 0 ∧ m'.stage = .finished ∧
        m.pop = (.finished, m'))) := by
  induction hn : m.stage.remaining using Nat.strongRecOn generalizing m with
  | ind n ih =>
    rw [pop_eq]
    cases hready : m.nextReady? with
    | some found =>
      obtain ⟨index, step⟩ := found
      exact ⟨m, .refl, .inl ⟨index, step, hready, rfl⟩⟩
    | none =>
      dsimp only
      by_cases hidle : m.inFlight ≠ 0
      · exact ⟨m, .refl, .inr (.inl ⟨hready, hidle, by rw [if_pos hidle]⟩)⟩
      · by_cases hstage : m.stage = .finished
        · exact ⟨m, .refl, .inr (.inr ⟨hready, by omega, hstage, by
            rw [if_neg hidle, if_pos hstage]⟩)⟩
        · rw [if_neg hidle, if_neg hstage]
          obtain ⟨m', hm', hpop⟩ :=
            ih _ (hn ▸ remaining_enterNextStage m hstage) m.enterNextStage.notify rfl
          exact ⟨m', .head ⟨hready, by omega, hstage, rfl⟩ hm', hpop⟩

theorem AdvancesTo.keeps {m' : Machine} (h : Relation.ReflTransGen AdvancesTo m m') :
    m'.history = m.history ∧ m'.inFlight = m.inFlight := by
  induction h with
  | refl => exact ⟨rfl, rfl⟩
  | tail _ hlast ih => exact ⟨hlast.history_eq.trans ih.1, hlast.inFlight_eq.trans ih.2⟩

theorem history_of_pop {m' : Machine} {answer : Pop} (h : m.pop = (answer, m')) :
    m'.history = m.history := by
  obtain ⟨m₁, hadvances, hpop⟩ := m.pop_spec
  have hkept := (AdvancesTo.keeps hadvances).1
  rcases hpop with ⟨_, _, -, heq⟩ | ⟨-, -, heq⟩ | ⟨-, -, -, heq⟩ <;> rw [heq] at h <;> cases h <;>
    exact hkept

/-- Whoever asks for a step is kept waiting only while some step is in flight. -/
theorem inFlight_of_blocked (h : m.pop.1 = .blocked) : m.inFlight ≠ 0 := by
  obtain ⟨m', hadvances, hpop⟩ := m.pop_spec
  rcases hpop with ⟨index, step, -, heq⟩ | ⟨-, hflight, -⟩ | ⟨-, -, -, heq⟩
  · rw [heq] at h
    cases h
  · exact (AdvancesTo.keeps hadvances).2 ▸ hflight
  · rw [heq] at h
    cases h

/-- The first stage ends only when nothing can be handed out and every step is back. -/
theorem of_pop_leaves_run (hstage : m.stage = .run) (h : m.pop.2.stage ≠ .run) :
    m.nextReady? = none ∧ m.inFlight = 0 := by
  rw [pop_eq] at h
  cases hready : m.nextReady? with
  | some found =>
    rw [hready] at h
    exact absurd hstage h
  | none =>
    rw [hready] at h
    refine ⟨rfl, Nat.eq_zero_of_not_pos fun hpos => ?_⟩
    rw [if_pos (Nat.ne_of_gt hpos)] at h
    exact h hstage

/-! ### Runs -/

/-- What may be posted: an event for the log alone, an unexpected error, an interrupt, or an event
of a step that was handed out. -/
def MayPost (existing : Option String) (handed : List Step) (e : Event) : Prop :=
  e.isInformational = true ∨ (∃ message, e = .executionFailed message) ∨ e = .interrupted ∨
    ∃ s ∈ handed, (s.procedure existing).CanPost e

/-- A machine as it is run, with the steps that it has handed out, oldest first. `existing` names
the network to use, if it is not to be made. -/
inductive Run (existing : Option String) (g : Graph) (policy : CleanupPolicy) :
    Machine → List Step → Prop where
  | start : Run existing g policy (.start g policy) []
  | handOut {m : Machine} {handed : List Step} {index : Nat} {step : Step}
    (run : Run existing g policy m handed) (ready : m.nextReady? = some (index, step)) :
    Run existing g policy (m.handOut index) (handed ++ [step])
  | advance {m m' : Machine} {handed : List Step} (run : Run existing g policy m handed)
    (ends : m.AdvancesTo m') : Run existing g policy m' handed
  | post {m : Machine} {handed : List Step} {e : Event} (run : Run existing g policy m handed)
    (may : MayPost existing handed e) : Run existing g policy (m.post e) handed
  | finishStep {m : Machine} {handed : List Step} (run : Run existing g policy m handed)
    (held : m.inFlight ≠ 0) : Run existing g policy m.finishStep handed

variable {existing : Option String} {g : Graph} {policy : CleanupPolicy} {handed : List Step}
  {e : Event} {m' : Machine}

/-- Asking for a step goes on with a run. -/
theorem Run.pop (run : Run existing g policy m handed) :
    Run existing g policy m.pop.2 (handed ++ m.pop.1.steps) := by
  obtain ⟨m', hadvances, hpop⟩ := m.pop_spec
  have hrun : Run existing g policy m' handed := by
    clear hpop
    induction hadvances with
    | refl => exact run
    | tail _ hlast ih => exact .advance ih hlast
  rcases hpop with ⟨index, step, hready, heq⟩ | ⟨-, -, heq⟩ | ⟨-, -, -, heq⟩
  · rw [heq]
    exact .handOut hrun hready
  · rw [heq]
    exact (List.append_nil handed).symm ▸ hrun
  · rw [heq]
    exact (List.append_nil handed).symm ▸ hrun

theorem MayPost.duty? (h : MayPost existing handed e) :
    e.duty? = none ∨ ∃ s ∈ handed, e.duty? = some s.duty := by
  rcases h with h | ⟨message, rfl⟩ | rfl | ⟨s, hs, h⟩
  · exact .inl (Event.duty?_eq_none_of_isInformational h)
  · exact .inl rfl
  · exact .inl rfl
  · exact .inr ⟨s, hs, Step.duty_of_canPost h⟩

end Machine

/-! ### Where events come from -/

/-- What is done in a container can be done only once the container has been created. -/
theorem Rule.isSome_reference?_of_evaluate {r : Rule} {h : History} {s : Step} {c : String}
    (hr : r.evaluate h = .ready s)
    (hd : r.duty = .run c ∨ r.duty = .checkHealth c ∨ ∃ index, r.duty = .setUp c index) :
    (h.reference? c).isSome = true := by
  cases standsFor_of_evaluate hr with
  | runContainer hcreated | awaitHealth hcreated | runSetupCommand hcreated =>
    obtain rfl : _ = c := by simpa [duty] using hd
    exact Option.isSome_of_eq_some hcreated
  | _ => simp [duty] at hd

namespace Graph

/-- The step could be handed out at some time up to the history: a rule was ready with it, of the
plan of the first stage, or of one that was made before for the second. -/
def Warrants (g : Graph) (h : History) (s : Step) : Prop :=
  ∃ r h', (r ∈ Plan.forRun g ∨ ∃ first, first <+: h' ∧ Plan.TakesDown g first r) ∧ h' <+: h ∧
    r.evaluate h' = .ready s

/-- Each event of a step comes after the step could be handed out. -/
def Grounds (g : Graph) (h : History) : Prop :=
  ∀ before e after, h = before ++ e :: after → ∀ d, e.duty? = some d →
    ∃ s, s.duty = d ∧ g.Warrants before s

variable {g : Graph} {h h' : History} {s : Step} {e : Event} {d : Duty} {c : String}

theorem Warrants.mono (hs : g.Warrants h' s) (hp : h' <+: h) : g.Warrants h s := by
  obtain ⟨r, h₀, hr, hp₀, hready⟩ := hs
  exact ⟨r, h₀, hr, hp₀.trans hp, hready⟩

theorem Warrants.exists_forRun (hs : g.Warrants h s) (hd : s.duty.isCleanup = false) :
    ∃ r h', r ∈ Plan.forRun g ∧ h' <+: h ∧ r.evaluate h' = .ready s := by
  obtain ⟨r, h', hr | ⟨first, -, hr⟩, hp, hready⟩ := hs
  · exact ⟨r, h', hr, hp, hready⟩
  · rw [Rule.duty_of_evaluate hready, hr.isCleanup_duty] at hd
    cases hd

theorem Warrants.exists_takesDown (hs : g.Warrants h s) (hg : g.Sound)
    (hd : s.duty.isCleanup = true) : ∃ r first h', first <+: h' ∧ Plan.TakesDown g first r ∧
      h' <+: h ∧ r.evaluate h' = .ready s := by
  obtain ⟨r, h', hr | ⟨first, hfirst, hr⟩, hp, hready⟩ := hs
  · rw [Rule.duty_of_evaluate hready, Plan.isCleanup_duty_of_mem_forRun hg hr] at hd
    cases hd
  · exact ⟨r, first, h', hfirst, hr, hp, hready⟩

theorem grounds_nil : g.Grounds [] := by
  intro before e after hsplit
  cases before <;> cases hsplit

theorem Grounds.of_prefix (hg : g.Grounds h) (hp : h' <+: h) : g.Grounds h' := by
  obtain ⟨later, rfl⟩ := hp
  intro before e after hsplit d hd
  exact hg before e (after ++ later) (by rw [hsplit, List.append_assoc]; rfl) d hd

theorem Grounds.append (hg : g.Grounds h)
    (he : ∀ d, e.duty? = some d → ∃ s, s.duty = d ∧ g.Warrants h s) : g.Grounds (h ++ [e]) := by
  intro before e' after hsplit d hd
  rcases List.eq_nil_or_concat after with rfl | ⟨after, last, rfl⟩
  · obtain ⟨rfl, hlast⟩ := List.append_inj' hsplit rfl
    cases hlast
    exact he d hd
  · rw [List.concat_eq_append, ← List.cons_append, ← List.append_assoc] at hsplit
    obtain ⟨hfront, -⟩ := List.append_inj' hsplit rfl
    exact hg before e' after hfront d hd

/-- An event of the first stage goes back to a rule of its duty, ready before the event. -/
theorem Grounds.origin (hg : g.Grounds h) (he : e ∈ h) (hd : e.duty? = some d)
    (hstage : d.isCleanup = false) :
    ∃ before after r, ∃ h' : History, ∃ s, h = before ++ e :: after ∧ h' <+: before ∧
      r ∈ Plan.forRun g ∧ r.duty = d ∧ r.evaluate h' = .ready s := by
  obtain ⟨before, after, hsplit⟩ := List.append_of_mem he
  obtain ⟨s, hs, hwarrants⟩ := hg before e after hsplit d hd
  obtain ⟨r, h', hr, hp, hready⟩ := hwarrants.exists_forRun (hs ▸ hstage)
  exact ⟨before, after, r, h', s, hsplit, hp, hr, (Rule.duty_of_evaluate hready).symm.trans hs,
    hready⟩

/-- What happens in a container happens after it was created. -/
theorem Grounds.isSome_reference? (hg : g.Grounds h) (he : e ∈ h)
    (hd : e.duty? = some (.run c) ∨ e.duty? = some (.checkHealth c) ∨
      ∃ index, e.duty? = some (.setUp c index)) : (h.reference? c).isSome = true := by
  obtain ⟨d, hduty, hstage, hd⟩ : ∃ d, e.duty? = some d ∧ d.isCleanup = false ∧
      (d = .run c ∨ d = .checkHealth c ∨ ∃ index, d = .setUp c index) := by
    rcases hd with hd | hd | ⟨index, hd⟩
    · exact ⟨_, hd, rfl, .inl rfl⟩
    · exact ⟨_, hd, rfl, .inr (.inl rfl)⟩
    · exact ⟨_, hd, rfl, .inr (.inr ⟨index, rfl⟩)⟩
  obtain ⟨before, after, r, h', s, rfl, hp, -, rfl, hready⟩ := hg.origin he hduty hstage
  exact History.isSome_reference?_mono (hp.trans (List.prefix_append before _)).subset
    (Rule.isSome_reference?_of_evaluate hready hd)

end Graph

/-! ### What holds all along a run -/

namespace Machine

variable {existing : Option String} {g : Graph} {policy : CleanupPolicy} {m m' : Machine}
  {handed : List Step} {index : Nat} {step : Step} {r : Rule} {e : Event}

/-- What holds of a machine as it is run. -/
structure Sound (g : Graph) (policy : CleanupPolicy) (m : Machine) (handed : List Step) :
    Prop where
  graph_eq : m.graph = g
  policy_eq : m.policy = policy
  rules_run : m.stage = .run → m.rules = Plan.forRun g
  /-- The plan of the second stage was made from what had happened until then. -/
  rules_cleanup : m.stage = .cleanup → ∃ h, h <+: m.history ∧ m.rules = Plan.forCleanup g h
  rules_finished : m.stage = .finished → m.rules = []
  idle_finished : m.stage = .finished → m.inFlight = 0
  leftovers_nil : m.stage ≠ .finished → m.leftovers = []
  /-- In the first stage nothing has been handed out that takes something down. -/
  early : m.stage = .run → ∀ s ∈ handed, s.duty.isCleanup = false
  /-- What was handed out in the stage was handed out for a rule of its plan. -/
  rule_of_step : m.stage ≠ .finished → ∀ s ∈ handed,
    s.duty.isCleanup = decide (m.stage = .cleanup) → ∃ r, m.HandedOut r ∧ r.duty = s.duty
  step_of_rule : ∀ {r}, m.HandedOut r → ∃ s ∈ handed, s.duty = r.duty
  /-- A rule that has handed out its step was ready at some time. -/
  ready_of_handedOut : ∀ {r}, m.HandedOut r →
    ∃ h : History, ∃ s, h <+: m.history ∧ r.evaluate h = .ready s
  warranted : ∀ s ∈ handed, g.Warrants m.history s
  /-- Nothing is heard of a duty before a step with the duty is handed out. -/
  told : ∀ {d}, m.history.TellsOf d → ∃ s ∈ handed, s.duty = d
  grounded : g.Grounds m.history

/-- There is a rule only as long as the machine has not finished. -/
theorem Sound.stage_ne_finished (hm : m.Sound g policy handed) (hr : r ∈ m.rules) :
    m.stage ≠ .finished := fun hs => by
  rw [hm.rules_finished hs] at hr
  cases hr

theorem Sound.isCleanup_duty (hm : m.Sound g policy handed) (hg : g.Sound) (hr : r ∈ m.rules) :
    r.duty.isCleanup = decide (m.stage = .cleanup) := by
  cases hs : m.stage with
  | run =>
    rw [hm.rules_run hs] at hr
    exact Plan.isCleanup_duty_of_mem_forRun hg hr
  | cleanup =>
    obtain ⟨h, -, hrules⟩ := hm.rules_cleanup hs
    rw [hrules] at hr
    exact (Plan.mem_forCleanup.mp hr).isCleanup_duty
  | finished => exact absurd hs (hm.stage_ne_finished hr)

theorem sound_start (g : Graph) (policy : CleanupPolicy) : (start g policy).Sound g policy [] where
  graph_eq := rfl
  policy_eq := rfl
  rules_run _ := rfl
  rules_cleanup h := by cases h
  rules_finished h := by cases h
  idle_finished h := by cases h
  leftovers_nil _ := rfl
  early := by simp
  rule_of_step := by simp
  step_of_rule := by rintro r ⟨index, hindex, -⟩; cases hindex
  ready_of_handedOut := by rintro r ⟨index, hindex, -⟩; cases hindex
  warranted := by simp
  told := by rintro d ⟨e, he, -⟩; cases he
  grounded := Graph.grounds_nil

theorem Sound.handOut (hm : m.Sound g policy handed) (hg : g.Sound)
    (hready : m.nextReady? = some (index, step)) :
    (m.handOut index).Sound g policy (handed ++ [step]) := by
  obtain ⟨-, r, hr, heval⟩ := of_nextReady? hready
  have hmem : r ∈ m.rules := List.mem_of_getElem? hr
  have hduty : step.duty = r.duty := Rule.duty_of_evaluate heval
  have hstage := hm.isCleanup_duty hg hmem
  have hunfinished := hm.stage_ne_finished hmem
  have hplan : r ∈ Plan.forRun g ∨ ∃ first, first <+: m.history ∧ Plan.TakesDown g first r := by
    cases hs : m.stage with
    | run => exact .inl (hm.rules_run hs ▸ hmem)
    | cleanup =>
      obtain ⟨first, hfirst, hrules⟩ := hm.rules_cleanup hs
      exact .inr ⟨first, hfirst, Plan.mem_forCleanup.mp (hrules ▸ hmem)⟩
    | finished => exact absurd hs hunfinished
  have hall : ∀ {p : Step → Prop}, (∀ s ∈ handed, p s) → p step → ∀ s ∈ handed ++ [step], p s :=
    fun hp hlast => List.forall_mem_append.mpr ⟨hp, List.forall_mem_singleton.mpr hlast⟩
  exact { hm with
    idle_finished := fun hs => absurd hs hunfinished
    early := fun hs => by
      refine hall (hm.early hs) ?_
      rw [hduty, hstage, show m.stage = .run from hs]
      rfl
    rule_of_step := fun _ => by
      refine hall (fun s hs hd => ?_) fun _ => ⟨r, handedOut_handOut.mpr (.inl hr), hduty.symm⟩
      obtain ⟨r', hr', hd⟩ := hm.rule_of_step hunfinished s hs hd
      exact ⟨r', handedOut_handOut.mpr (.inr hr'), hd⟩
    step_of_rule := fun {r'} hr' => by
      rcases handedOut_handOut.mp hr' with hr' | hr'
      · rw [hr, Option.some.injEq] at hr'
        exact ⟨step, by simp, hr' ▸ hduty⟩
      · obtain ⟨s, hs, hd⟩ := hm.step_of_rule hr'
        exact ⟨s, List.mem_append_left _ hs, hd⟩
    ready_of_handedOut := fun {r'} hr' => by
      rcases handedOut_handOut.mp hr' with hr' | hr'
      · rw [hr, Option.some.injEq] at hr'
        exact ⟨m.history, step, List.prefix_rfl, hr' ▸ heval⟩
      · exact hm.ready_of_handedOut hr'
    warranted := hall hm.warranted ⟨r, m.history, hplan, List.prefix_rfl, heval⟩
    told := fun {d} hd => by
      obtain ⟨s, hs, hd⟩ := hm.told hd
      exact ⟨s, List.mem_append_left _ hs, hd⟩ }

theorem Sound.advance (hm : m.Sound g policy handed) (hover : m.AdvancesTo m') :
    m'.Sound g policy handed := by
  obtain ⟨-, hidle, hunfinished, rfl⟩ := hover
  have hfinish : ∀ leftovers, (m.finish leftovers).notify.Sound g policy handed := fun _ =>
    { graph_eq := hm.graph_eq
      policy_eq := hm.policy_eq
      rules_run := nofun
      rules_cleanup := nofun
      rules_finished := fun _ => rfl
      idle_finished := fun _ => hidle
      leftovers_nil := fun h => absurd rfl h
      early := nofun
      rule_of_step := fun h => absurd rfl h
      step_of_rule := by rintro r ⟨index, hindex, -⟩; cases hindex
      ready_of_handedOut := by rintro r ⟨index, hindex, -⟩; cases hindex
      warranted := hm.warranted
      told := hm.told
      grounded := hm.grounded }
  unfold enterNextStage
  cases hs : m.stage with
  | run =>
    dsimp only
    split
    · exact { hm with
        rules_run := nofun
        rules_cleanup := fun _ => ⟨m.history, List.prefix_rfl, by rw [← hm.graph_eq]; rfl⟩
        rules_finished := nofun
        idle_finished := nofun
        leftovers_nil := fun _ => hm.leftovers_nil hunfinished
        early := nofun
        rule_of_step := fun _ s hmem hc => by
          -- what was handed out so far does not take anything down
          rw [hm.early hs s hmem] at hc
          cases hc
        step_of_rule := by rintro r ⟨index, hindex, -⟩; cases hindex
        ready_of_handedOut := by rintro r ⟨index, hindex, -⟩; cases hindex }
    · exact hfinish _
  | cleanup => exact hfinish _
  | finished => exact absurd hs hunfinished

/-- Posting an event of a step that was handed out, or of no step. -/
theorem Sound.post (hm : m.Sound g policy handed)
    (he : e.duty? = none ∨ ∃ s ∈ handed, e.duty? = some s.duty) :
    (m.post e).Sound g policy handed := by
  have hgrow : m.history <+: m.history ++ [e] := List.prefix_append _ _
  have horigin : ∀ d, e.duty? = some d → ∃ s ∈ handed, s.duty = d := by
    intro d hd
    rcases he with he | ⟨s, hs, he⟩
    · rw [he] at hd
      cases hd
    · rw [he, Option.some.injEq] at hd
      exact ⟨s, hs, hd⟩
  have hrecorded : Sound g policy { m with history := m.history ++ [e] } handed :=
    { hm with
      rules_cleanup := fun hs => by
        obtain ⟨h, hp, hrules⟩ := hm.rules_cleanup hs
        exact ⟨h, hp.trans hgrow, hrules⟩
      ready_of_handedOut := fun hr => by
        obtain ⟨h, s, hp, heval⟩ := hm.ready_of_handedOut hr
        exact ⟨h, s, hp.trans hgrow, heval⟩
      warranted := fun s hs => (hm.warranted s hs).mono hgrow
      told := by
        rintro d ⟨e', he', hd⟩
        rcases List.mem_append.mp he' with he' | he'
        · exact hm.told ⟨e', he', hd⟩
        · rcases List.mem_singleton.mp he' with rfl
          exact horigin d hd
      grounded := by
        refine hm.grounded.append fun d hd => ?_
        obtain ⟨s, hs, rfl⟩ := horigin d hd
        exact ⟨s, rfl, hm.warranted s hs⟩ }
  -- to tell whoever waits changes nothing of this
  unfold Machine.post
  split
  · exact hrecorded
  · exact { hrecorded with }

theorem Sound.finishStep (hm : m.Sound g policy handed) : m.finishStep.Sound g policy handed :=
  { hm with
    idle_finished := fun hs => by
      show m.inFlight - 1 = 0
      rw [hm.idle_finished hs] }

theorem Run.sound (hg : g.Sound) (run : Run existing g policy m handed) :
    m.Sound g policy handed := by
  induction run with
  | start => exact sound_start g policy
  | handOut _ ready ih => exact ih.handOut hg ready
  | advance _ ends ih => exact ih.advance ends
  | post _ may ih => exact ih.post may.duty?
  | finishStep _ _ ih => exact ih.finishStep

/-! ### Rules and their steps -/

/-- No rule is over because of the step of another rule. -/
theorem Sound.handedOut_of_tellsOf (hm : m.Sound g policy handed) (hg : g.Sound)
    (hnodup : (m.rules.map Rule.duty).Nodup) (hr : r ∈ m.rules)
    (htold : m.history.TellsOf r.duty) : m.HandedOut r := by
  have hunfinished := hm.stage_ne_finished hr
  obtain ⟨s, hs, hd⟩ := hm.told htold
  obtain ⟨r', hr', hd'⟩ := hm.rule_of_step hunfinished s hs (by rw [hd, hm.isCleanup_duty hg hr])
  obtain ⟨index, -, hindex⟩ := id hr'
  have hsame : r' = r := List.inj_on_of_nodup_map hnodup (List.mem_of_getElem? hindex) hr
    (hd'.trans hd)
  exact hsame ▸ hr'

/-- The step that is handed out has a duty that no step had before. -/
theorem Sound.duty_notMem (hm : m.Sound g policy handed) (hg : g.Sound)
    (hnodup : (m.rules.map Rule.duty).Nodup) (hready : m.nextReady? = some (index, step)) :
    step.duty ∉ handed.map Step.duty := by
  obtain ⟨hfresh, r, hr, heval⟩ := of_nextReady? hready
  have hmem : r ∈ m.rules := List.mem_of_getElem? hr
  have hunfinished := hm.stage_ne_finished hmem
  intro hin
  obtain ⟨s, hs, hd⟩ := List.mem_map.mp hin
  rw [Rule.duty_of_evaluate heval] at hd
  obtain ⟨r', ⟨index', hout, hr'⟩, hd'⟩ :=
    hm.rule_of_step hunfinished s hs (by rw [hd, hm.isCleanup_duty hg hmem])
  exact hfresh (index_eq_of_nodup_map hnodup hr' hr (hd'.trans hd) ▸ hout)

end Machine

end ContainerTasks
