import ContainerTasks.Proofs.CleanupPlans
import ContainerTasks.Proofs.ManagedRuns

/-!
# Rules do not depend on the order of events

A rule asks a history what has happened, not when. If it was ready, it is ready or over in any
history that has all the events it has seen, whatever else has happened and in whatever order. And
the step that it is ready with is always the same, as long as the history does not give two answers
to the questions that have one: which network, which image, which reference.

The plan of the second stage is made from a history, too. Two histories with the same events lead to
plans that say the same, though not in the same order.

## Main definitions

* `History.Unequivocal`: no question has two answers
* `Plan.AgreesWith`: one plan says the same as another

## Main results

* `Rule.step_unique`: a rule is ready with one step only
* `Plan.agreesWith_forCleanup`: two plans of the second stage say the same
-/

namespace ContainerTasks

/-- The duties whose events are looked up by others. -/
def Duty.isTold : Duty → Bool
  | prepareNetwork | build _ | pull _ | create _ => true
  | run _ | checkHealth _ | setUp .. | markReady _ | stop _ | remove _ | deleteNetwork => false

namespace History

variable {h h' H : History}

/-- A history has one event at most of a duty whose events are looked up. -/
def Unequivocal (H : History) : Prop :=
  ∀ e ∈ H, ∀ e' ∈ H, ∀ d : Duty, d.isTold = true → e.duty? = some d → e'.duty? = some d → e = e'

/-- Two answers that are taken from one history are the same. -/
theorem Unequivocal.eq_of_findSome? (hH : H.Unequivocal) {α : Type} {f : Event → Option α} {d : Duty}
    (hd : d.isTold = true) (hf : ∀ e a, f e = some a → e.duty? = some d) (hsub : h ⊆ H)
    (hsub' : h' ⊆ H) {a a' : α} (ha : h.findSome? f = some a) (ha' : h'.findSome? f = some a') :
    a = a' := by
  obtain ⟨e, he, hfe⟩ := List.exists_of_findSome?_eq_some ha
  obtain ⟨e', he', hfe'⟩ := List.exists_of_findSome?_eq_some ha'
  obtain rfl := hH e (hsub he) e' (hsub' he') d hd (hf e a hfe) (hf e' a' hfe')
  exact Option.some.inj (hfe.symm.trans hfe')

section Lookups

variable (hH : H.Unequivocal) (hsub : h ⊆ H) (hsub' : h' ⊆ H)
include hH hsub hsub'

theorem Unequivocal.network_eq {n n' : NetworkReference} (hn : h.network? = some n)
    (hn' : h'.network? = some n') : n = n' := by
  refine hH.eq_of_findSome? (d := .prepareNetwork) rfl ?_ hsub hsub' hn hn'
  intro e a he
  cases e <;> simp_all [Event.duty?]

theorem Unequivocal.reference_eq {c : String} {r r' : ContainerReference}
    (hr : h.reference? c = some r) (hr' : h'.reference? c = some r') : r = r' := by
  refine hH.eq_of_findSome? (d := .create c) rfl ?_ hsub hsub' hr hr'
  intro e a he
  cases e <;> simp_all [Event.duty?]

theorem Unequivocal.image_eq {c : Container} {i i' : ImageReference}
    (hi : h.imageOf? c = some i) (hi' : h'.imageOf? c = some i') : i = i' := by
  unfold imageOf? at hi hi'
  cases hsource : c.imageSource with
  | build =>
    rw [hsource] at hi hi'
    refine hH.eq_of_findSome? (d := .build c.name) rfl ?_ hsub hsub' hi hi'
    intro e a he
    cases e <;> simp_all [Event.duty?]
  | pull imageName =>
    rw [hsource] at hi hi'
    refine hH.eq_of_findSome? (d := .pull imageName) rfl ?_ hsub hsub' hi hi'
    intro e a he
    cases e <;> simp_all [Event.duty?]

end Lookups

/-! ### The same events in another order -/

section Perm

variable (hperm : h.Perm h')
include hperm

theorem created_perm : h.created.Perm h'.created := hperm.filterMap _

theorem createdNetwork?_congr (hone : h.Unequivocal) : h.createdNetwork? = h'.createdNetwork? := by
  refine findSome?_eq_of_perm hperm fun e he e' he' n n' hn hn' => ?_
  cases e <;> simp only [Option.some.injEq, reduceCtorEq] at hn
  cases e' <;> simp only [Option.some.injEq, reduceCtorEq] at hn'
  exact hn ▸ hn' ▸ Event.networkCreated.inj (hone _ he _ he' .prepareNetwork rfl rfl rfl)

/-- What is left over does not depend on the order of events. -/
theorem leftovers_perm (hone : h.Unequivocal) : h.leftovers.Perm h'.leftovers := by
  have hremoved : h.isRemoved = h'.isRemoved := funext fun _ => hperm.any_eq
  have hdeleted : h.networkDeleted = h'.networkDeleted := hperm.any_eq
  unfold leftovers
  rw [hremoved, hdeleted, createdNetwork?_congr hperm hone]
  exact ((((List.reverse_perm _).trans (created_perm hperm)).trans
    (List.reverse_perm _).symm).filter _).map _ |>.append_right _

end Perm

end History

namespace Rule

variable {r : Rule} {h h' H : History} {s s' : Step}

/-- A rule is ready with one step only. -/
theorem step_unique (hr : r.evaluate h = .ready s) (hr' : r.evaluate h' = .ready s')
    (hH : H.Unequivocal) (hsub : h ⊆ H) (hsub' : h' ⊆ H) : s = s' := by
  have hstands' := standsFor_of_evaluate hr'
  cases standsFor_of_evaluate hr with
  | createContainer himage hnetwork =>
    cases hstands' with
    | createContainer himage' hnetwork' =>
      rw [hH.image_eq hsub hsub' himage himage', hH.network_eq hsub hsub' hnetwork hnetwork']
  | runContainer hcreated | awaitHealth hcreated | runSetupCommand hcreated =>
    cases hstands'
    next hcreated' => rw [hH.reference_eq hsub hsub' hcreated hcreated']
  | prepareNetwork | buildImage | pullImage | markReady | stopContainer | removeContainer
  | deleteNetwork =>
    cases hstands'
    rfl

end Rule

/-! ### Plans of the second stage -/

namespace Plan

variable {g : Graph} {first second h h' H : History} {r r' : Rule} {s s' : Step}

/-- What runs and what has come to its end does not depend on the order of events. -/
theorem needsStop_congr (hperm : first.Perm second) (c : String) :
    needsStop first c = needsStop second c := by
  have hcreated := (History.created_perm hperm).any_eq (f := (·.1 = c))
  have hstarted : first.hasStarted c = second.hasStarted c := hperm.any_eq
  have hstopped : first.isStopped c = second.isStopped c := hperm.any_eq
  have hremoved : first.isRemoved c = second.isRemoved c := hperm.any_eq
  rw [needsStop, needsStop, hcreated, hstarted, hstopped, hremoved]

theorem stopAfter_congr (hperm : first.Perm second) (c : String) :
    stopAfter g first c = stopAfter g second c :=
  NameSet.ext fun d => by rw [mem_stopAfter, mem_stopAfter, needsStop_congr hperm]

/-- A plan that is made from the same events, in whatever order, has a rule for the same that says
the same. -/
theorem TakesDown.exists_of_perm (hr : TakesDown g first r) (hperm : first.Perm second)
    (hone : first.Unequivocal) :
    ∃ r', TakesDown g second r' ∧ ∀ h, r'.evaluate h = r.evaluate h := by
  cases hr with
  | @stop c reference made running =>
    refine ⟨_, .stop (hperm.subset made) (needsStop_congr hperm c ▸ running), fun h => ?_⟩
    rw [stopAfter_congr hperm]
  | @remove c reference made there =>
    have hremoved : first.isRemoved c = second.isRemoved c := hperm.any_eq
    refine ⟨_, .remove (hperm.subset made) (hremoved ▸ there), fun h => ?_⟩
    rw [needsStop_congr hperm]
  | @deleteNetwork network own =>
    have hdeleted : first.networkDeleted = second.networkDeleted := hperm.any_eq
    have hown : ownNetwork? second = some network := by
      rw [← own, ownNetwork?, ownNetwork?, hdeleted, History.createdNetwork?_congr hperm hone]
    refine ⟨_, .deleteNetwork hown, fun h => ?_⟩
    have hclear : (Rule.deleteNetwork network (second.created.map (·.1))).isClear h =
        (Rule.deleteNetwork network (first.created.map (·.1))).isClear h :=
      ((History.created_perm hperm).map _).all_eq.symm
    rw [Rule.evaluate_eq, Rule.evaluate_eq, hclear]
    rfl

/-- Each rule of the one plan says the same as some rule of the other. -/
def AgreesWith (rules rules' : List Rule) : Prop :=
  ∀ r ∈ rules, ∃ r' ∈ rules', ∀ h, r'.evaluate h = r.evaluate h

theorem AgreesWith.refl (rules : List Rule) : AgreesWith rules rules := fun r hr =>
  ⟨r, hr, fun _ => rfl⟩

theorem agreesWith_forCleanup (hperm : first.Perm second) (hone : first.Unequivocal) :
    AgreesWith (forCleanup g first) (forCleanup g second) := fun _ hr =>
  have ⟨r', hr', hsame⟩ := (mem_forCleanup.mp hr).exists_of_perm hperm hone
  ⟨r', mem_forCleanup.mpr hr', hsame⟩

/-- Two plans of the second stage that are made in one run do not differ about what is to be done
for a duty. -/
theorem TakesDown.step_unique (hr : TakesDown g first r) (hr' : TakesDown g second r')
    (hduty : r.duty = r'.duty) (hs : r.evaluate h = .ready s) (hs' : r'.evaluate h' = .ready s')
    (hH : H.Unequivocal) (hsub : first ⊆ H) (hsub' : second ⊆ H) : s = s' := by
  have hmade : ∀ {c reference reference'}, .containerCreated c reference ∈ first →
      .containerCreated c reference' ∈ second → reference = reference' := by
    intro c reference reference' he he'
    have := hH _ (hsub he) _ (hsub' he') (.create c) rfl rfl rfl
    exact (Event.containerCreated.inj this).2
  have hstands := Rule.standsFor_of_evaluate hs
  have hstands' := Rule.standsFor_of_evaluate hs'
  cases hr with
  | stop made =>
    cases hr' with
    | stop made' =>
      cases hduty
      cases hstands
      cases hstands'
      rw [hmade made made']
    | remove | deleteNetwork => cases hduty
  | remove made =>
    cases hr' with
    | remove made' =>
      cases hduty
      cases hstands
      cases hstands'
      rw [hmade made made']
    | stop | deleteNetwork => cases hduty
  | deleteNetwork own =>
    cases hr' with
    | deleteNetwork own' =>
      have hsame := Event.networkCreated.inj (hH _ (hsub (mem_of_ownNetwork? own)) _
        (hsub' (mem_of_ownNetwork? own')) .prepareNetwork rfl rfl rfl)
      cases hstands
      cases hstands'
      rw [hsame]
    | stop | remove => cases hduty

end Plan

/-- In a managed run, no question that one event answers has two answers. -/
theorem Ledger.Sound.unequivocal {existing : Option String} {g : Graph} {policy : CleanupPolicy}
    {l : Ledger} (hl : l.Sound existing g policy) (hg : g.Sound) :
    l.machine.history.Unequivocal := by
  intro e he e' he' d hd hduty hduty'
  have hone : (l.machine.history.about d).length ≤ 1 :=
    hl.length_about_le_one hg fun s hs => by
      subst hs
      cases s <;> first | rfl | cases hd
  have hmem : ∀ e ∈ l.machine.history, e.duty? = some d → e ∈ l.machine.history.about d :=
    fun e he hduty => List.mem_filter.mpr ⟨he, decide_eq_true hduty⟩
  obtain ⟨only, honly⟩ := List.length_eq_one_iff.mp
    (Nat.le_antisymm hone (List.length_pos_of_mem (hmem e he hduty)))
  have hfirst := hmem e he hduty
  have hsecond := hmem e' he' hduty'
  rw [honly, List.mem_singleton] at hfirst hsecond
  exact hfirst.trans hsecond.symm

end ContainerTasks
