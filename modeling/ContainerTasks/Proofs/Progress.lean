import ContainerTasks.Proofs.ManagedRuns
import Mathlib.Data.Prod.Lex

/-!
# The first stage comes as far as it can

A rule of the first stage needs other rules: a container is created once the network and its image
are there and everything it depends on is ready, and then one thing follows after the other. When
the stage ends, a rule that has not handed out its step is held up by a rule that it needs, if only
through others, and that has handed out its step without success. Nothing else holds a rule up.

Two facts carry the argument. A rule that is not ready lacks the success of a rule that it needs;
this uses that no container can be started or healthy without having been created. And what a rule
needs has a lower rank, where the order of the graph counts first and the place among the rules of
a container second; so whoever follows failing needs comes to an end.

## Main definitions

* `Rule.needs`, `Plan.Needs`: what a rule needs
* `Rule.hasSucceeded`: the step of a rule has done what it is for
* `Duty.rank`

## Main results

* `Plan.exists_needs_of_notReady`: a rule that is not ready lacks something that it needs
* `Machine.Run.progress`: at the end of the first stage
-/

namespace ContainerTasks

/-! ### What a rule needs -/

/-- The duty that comes before the setup command of an index, or, if the index is the number of
setup commands, before the word that the container is ready. -/
def Duty.before (container : String) (index : Nat) (healthCheck : Bool) : Duty :=
  match index with
  | last + 1 => .setUp container last
  | 0 => if healthCheck then .checkHealth container else .run container

namespace Rule

/-- The duties that have to be done with success before the step can be taken. -/
def needs : Rule → List Duty
  | createContainer container dependencies =>
    .prepareNetwork :: container.imageDuty :: dependencies.toList.map .markReady
  | runContainer container _ => [.create container]
  | awaitHealth container => [.run container]
  | runSetupCommand container _ index healthCheck => [.before container index healthCheck]
  | markReady container setupCommands healthCheck => [.before container setupCommands healthCheck]
  | _ => []

/-- The step of the rule has done what it is for. The main container has also come to its end. -/
def hasSucceeded (r : Rule) (h : History) : Bool :=
  match r with
  | prepareNetwork => h.network?.isSome
  | buildImage container => (h.builtImage? container.name).isSome
  | pullImage imageName _ => (h.pulledImage? imageName).isSome
  | createContainer container _ => (h.reference? container.name).isSome
  | runContainer container main =>
    h.hasStarted container && (!main || (h.exitCode? container).isSome)
  | awaitHealth container => h.isHealthy container
  | runSetupCommand container _ index _ => h.setupCompleted container index
  | markReady container _ _ => h.isReady container
  | stopContainer container _ _ => h.isStopped container
  | removeContainer container _ _ => h.isRemoved container
  | deleteNetwork _ _ => h.networkDeleted

theorem hasSucceeded_of_imageDuty {r : Rule} {c : Container} (hd : r.duty = c.imageDuty)
    (h : History) : r.hasSucceeded h = (h.imageOf? c).isSome := by
  unfold Container.imageDuty at hd
  unfold History.imageOf?
  cases hsource : c.imageSource with
  | build directory dockerfile =>
    cases r <;> simp only [hsource, duty, reduceCtorEq, Duty.build.injEq] at hd
    simp only [hasSucceeded, hd]
  | pull imageName policy =>
    cases r <;> simp only [hsource, duty, reduceCtorEq, Duty.pull.injEq] at hd
    simp only [hasSucceeded, hd]

end Rule

namespace Plan

variable {g : Graph} {h : History} {r r' : Rule} {name : String} {node : Graph.Node}

/-- One rule of the first plan needs another one. -/
def Needs (g : Graph) (r r' : Rule) : Prop :=
  r ∈ forRun g ∧ r' ∈ forRun g ∧ r'.duty ∈ r.needs

/-! ### What a rule that is not ready lacks -/

/-- Somebody in the plan sees to each duty that a container has before it is ready, and its success
is what the rules of the container look for. -/
theorem exists_rule_before (hg : g.Sound) (hnode : g.node? name = some node)
    (side : node.isRoot = false) {index : Nat}
    (hindex : index ≤ node.container.setupCommands.length) :
    ∃ r ∈ forRun g, r.duty = .before node.container.name index node.container.hasHealthCheck ∧
      ∀ h, r.hasSucceeded h =
        h.preparedUpTo node.container.name index node.container.hasHealthCheck := by
  cases index with
  | succ last =>
    have hlast := List.getElem?_eq_getElem hindex
    exact ⟨_, mem_forRun_of_serves hg hnode (.setUp side hlast), rfl, fun _ => rfl⟩
  | zero =>
    cases has : node.container.hasHealthCheck with
    | true => exact ⟨_, mem_forRun_of_serves hg hnode (.checkHealth side has), rfl, fun _ => rfl⟩
    | false =>
      refine ⟨_, mem_forRun_of_serves hg hnode .run, rfl, fun h => ?_⟩
      rw [side]
      exact Bool.and_true _

/-- Whoever has come that far has been created. -/
theorem isSome_reference?_of_preparedUpTo (hh : g.Grounds h) {index : Nat} {healthCheck : Bool}
    (hprepared : h.preparedUpTo name index healthCheck = true) :
    (h.reference? name).isSome = true := by
  cases index with
  | succ last =>
    exact hh.isSome_reference? (History.setupCompleted_iff.mp hprepared) (.inr (.inr ⟨last, rfl⟩))
  | zero =>
    cases healthCheck with
    | true => exact hh.isSome_reference? (History.isHealthy_iff.mp hprepared) (.inr (.inl rfl))
    | false => exact hh.isSome_reference? (History.hasStarted_iff.mp hprepared) (.inl rfl)

/-- A container that cannot be created yet lacks the network, its image, or a dependency that is
ready. -/
theorem exists_needs_of_create (hg : g.Sound) (hnode : g.node? node.container.name = some node)
    (hnot : (Rule.createContainer node.container node.dependsOn).evaluate h = .notReady) :
    ∃ r', Needs g (.createContainer node.container node.dependsOn) r' ∧
      r'.hasSucceeded h = false := by
  have hr := mem_forRun_of_serves hg hnode .create
  rcases (Rule.evaluate_eq_notReady_iff.mp hnot).2 with hnone | hblocked
  · cases himage : h.imageOf? node.container with
    | none =>
      obtain ⟨r', hr', hd⟩ := exists_imageRule_forRun hg hnode
      exact ⟨r', ⟨hr, hr', by simp [Rule.needs, hd]⟩,
        by rw [Rule.hasSucceeded_of_imageDuty hd, himage]; rfl⟩
    | some image =>
      have hnetwork : h.network? = none := by simpa [Rule.step?, himage] using hnone
      exact ⟨.prepareNetwork, ⟨hr, prepareNetwork_mem_forRun hnode, List.mem_cons_self ..⟩,
        by simp [Rule.hasSucceeded, hnetwork]⟩
  · obtain ⟨d, hd, hready⟩ := List.all_eq_false.mp hblocked
    have hon : g.DependsOn node.container.name d := ⟨node, hnode, hd⟩
    obtain ⟨dep, hdep, side⟩ := hg.side_of_dependsOn hon
    have hname := hg.name_eq hdep
    refine ⟨_, ⟨hr, mem_forRun_of_serves hg hdep (.markReady side), ?_⟩, ?_⟩
    · have : Duty.markReady d ∈ node.dependsOn.toList.map Duty.markReady :=
        List.mem_map_of_mem hd
      simp [Rule.needs, Rule.duty, hname, this]
    · simpa [Rule.hasSucceeded, hname] using hready

/-- A rule that is not ready lacks the success of a rule that it needs. -/
theorem exists_needs_of_notReady (hg : g.Sound) (hh : g.Grounds h) (hr : r ∈ forRun g)
    (hnot : r.evaluate h = .notReady) : ∃ r', Needs g r r' ∧ r'.hasSucceeded h = false := by
  have hwaits := (Rule.evaluate_eq_notReady_iff.mp hnot).2
  rcases mem_forRun hg hr with rfl | ⟨node, hnode, hserves | himage⟩
  · rcases hwaits with hnone | hblocked
    · cases hnone
    · cases hblocked
  · cases hserves with
    | create => exact exists_needs_of_create hg hnode hnot
    | run =>
      have hlacks : h.reference? node.container.name = none := by
        rcases hwaits with hnone | hblocked
        · exact Option.map_eq_none_iff.mp hnone
        · cases hblocked
      exact ⟨_, ⟨hr, mem_forRun_of_serves hg hnode .create, List.mem_singleton_self _⟩,
        by simp [Rule.hasSucceeded, hlacks]⟩
    | checkHealth side has =>
      have hlacks : h.hasStarted node.container.name = false := by
        refine hwaits.elim (fun hnone => Bool.eq_false_iff.mpr fun hstarted => ?_) id
        have hcreated := hh.isSome_reference? (History.hasStarted_iff.mp hstarted) (.inl rfl)
        rw [Option.map_eq_none_iff.mp hnone] at hcreated
        cases hcreated
      exact ⟨_, ⟨hr, mem_forRun_of_serves hg hnode .run, List.mem_singleton_self _⟩,
        by simp [Rule.hasSucceeded, hlacks]⟩
    | @setUp index command side has =>
      have hlacks : h.preparedUpTo node.container.name index node.container.hasHealthCheck =
          false := by
        refine hwaits.elim (fun hnone => Bool.eq_false_iff.mpr fun hprepared => ?_) id
        have hcreated := isSome_reference?_of_preparedUpTo hh hprepared
        rw [Option.map_eq_none_iff.mp hnone] at hcreated
        cases hcreated
      have hindex : index ≤ node.container.setupCommands.length :=
        Nat.le_of_lt (List.getElem?_eq_some_iff.mp has).1
      obtain ⟨r', hr', hd, hsuccess⟩ := exists_rule_before hg hnode side hindex
      exact ⟨r', ⟨hr, hr', hd ▸ List.mem_singleton_self _⟩, by rw [hsuccess, hlacks]⟩
    | markReady side =>
      have hlacks : h.preparedUpTo node.container.name node.container.setupCommands.length
          node.container.hasHealthCheck = false := by
        rcases hwaits with hnone | hblocked
        · cases hnone
        · exact hblocked
      obtain ⟨r', hr', hd, hsuccess⟩ := exists_rule_before hg hnode side (Nat.le_refl _)
      exact ⟨r', ⟨hr, hr', hd ▸ List.mem_singleton_self _⟩, by rw [hsuccess, hlacks]⟩
  · -- an image is seen to without waiting for anything
    unfold Container.imageDuty at himage
    split at himage <;> cases r <;> simp only [Rule.duty, reduceCtorEq] at himage <;>
      rcases hwaits with hnone | hblocked <;> first | cases hnone | cases hblocked

end Plan

/-! ### Needs have lower ranks -/

/-- Where a duty stands: first by the place of its container in the order of the graph, with the
word that the container is ready after all else, and then by its own place among the duties of the
container. -/
def Duty.rank (g : Graph) : Duty → ℕ ×ₗ ℕ
  | create c => toLex (2 * g.order.idxOf c + 1, 0)
  | run c => toLex (2 * g.order.idxOf c + 1, 1)
  | checkHealth c => toLex (2 * g.order.idxOf c + 1, 2)
  | setUp c index => toLex (2 * g.order.idxOf c + 1, index + 3)
  | markReady c => toLex (2 * g.order.idxOf c + 2, 0)
  | _ => toLex (0, 0)

theorem Duty.rank_before_lt (g : Graph) (c : String) (index : Nat) (healthCheck : Bool) :
    (before c index healthCheck).rank g < toLex (2 * g.order.idxOf c + 1, index + 3) := by
  cases index <;> cases healthCheck <;>
    simp only [before, rank, Prod.Lex.toLex_lt_toLex, if_true, Bool.false_eq_true, if_false,
      true_and] <;>
    omega

theorem Container.rank_imageDuty (g : Graph) (c : Container) :
    c.imageDuty.rank g = toLex (0, 0) := by
  unfold imageDuty
  split <;> rfl

/-- What a rule needs has a lower rank. -/
theorem Plan.rank_lt_of_needs {g : Graph} (hg : g.Sound) {r r' : Rule} (h : Needs g r r') :
    r'.duty.rank g < r.duty.rank g := by
  obtain ⟨hr, -, hneeds⟩ := h
  generalize r'.duty = d at hneeds
  rcases mem_forRun hg hr with rfl | ⟨node, hnode, hserves | himage⟩
  · cases hneeds
  · cases hserves with
    | create =>
      rcases List.mem_cons.mp hneeds with rfl | hneeds
      · simp only [Rule.duty, Duty.rank, Prod.Lex.toLex_lt_toLex]
        omega
      · rcases List.mem_cons.mp hneeds with rfl | hneeds
        · rw [Container.rank_imageDuty]
          simp only [Rule.duty, Duty.rank, Prod.Lex.toLex_lt_toLex]
          omega
        · obtain ⟨dep, hdep, rfl⟩ := List.mem_map.mp hneeds
          have hlt := hg.idxOf_lt (a := node.container.name) ⟨node, hnode, hdep⟩
          simp only [Rule.duty, Duty.rank, Prod.Lex.toLex_lt_toLex]
          omega
    | run | checkHealth =>
      rcases List.mem_singleton.mp hneeds with rfl
      simp only [Rule.duty, Duty.rank, Prod.Lex.toLex_lt_toLex, true_and]
      omega
    | setUp side has =>
      rcases List.mem_singleton.mp hneeds with rfl
      exact Duty.rank_before_lt ..
    | markReady side =>
      rcases List.mem_singleton.mp hneeds with rfl
      refine (Duty.rank_before_lt ..).trans ?_
      simp only [Rule.duty, Duty.rank, Prod.Lex.toLex_lt_toLex]
      omega
  · unfold Container.imageDuty at himage
    split at himage <;> cases r <;> simp only [Rule.duty, reduceCtorEq] at himage <;> cases hneeds

/-! ### The end of the first stage -/

/-- Whoever is held up and follows what holds it up comes to something that is not held up itself,
provided that a rank goes down on the way. -/
theorem exists_transGen_of_heldUp {α β : Type} [Preorder β] [WellFoundedLT β] {R : α → α → Prop}
    {heldUp culprit : α → Prop} (rank : α → β) (hrank : ∀ a b, R a b → rank b < rank a)
    (hstep : ∀ a, heldUp a → ∃ b, R a b ∧ (culprit b ∨ heldUp b)) {a : α} (ha : heldUp a) :
    ∃ b, Relation.TransGen R a b ∧ culprit b := by
  induction hn : rank a using WellFoundedLT.induction generalizing a with
  | ind n ih =>
    obtain ⟨b, hab, hb | hb⟩ := hstep a ha
    · exact ⟨b, .single hab, hb⟩
    · obtain ⟨c, hbc, hc⟩ := ih (rank b) (hn ▸ hrank a b hab) hb rfl
      exact ⟨c, .head hab hbc, hc⟩

namespace Machine

variable {existing : Option String} {g : Graph} {policy : CleanupPolicy} {m : Machine}
  {handed : List Step}

/-- Where nothing can be handed out in the first stage, a rule that has not handed out its step
lacks the success of a rule that it needs. -/
theorem Sound.exists_needs (hm : m.Sound g policy handed) (hg : g.Sound) (hstage : m.stage = .run)
    (hstuck : m.nextReady? = none) {r : Rule} (hr : r ∈ Plan.forRun g) (hout : ¬ m.HandedOut r) :
    ∃ r', Plan.Needs g r r' ∧ r'.hasSucceeded m.history = false := by
  have hrules := hm.rules_run hstage
  refine Plan.exists_needs_of_notReady hg hm.grounded hr ?_
  cases heval : r.evaluate m.history with
  | notReady => rfl
  | ready s => exact absurd heval (evaluate_ne_ready hstuck (hrules ▸ hr) hout s)
  | done =>
    -- the rule is over because of its own step, which was never handed out
    refine absurd ?_ hout
    refine hm.handedOut_of_tellsOf hg (hrules ▸ Plan.nodup_duty_forRun hg) (hrules ▸ hr) ?_
    refine (Rule.tellsOf_of_isOver (Rule.evaluate_eq_done_iff.mp heval)).resolve_right ?_
    rintro ⟨c, hstop, -⟩
    have := Plan.isCleanup_duty_of_mem_forRun hg hr
    rw [hstop] at this
    cases this

section Stuck

variable (hm : m.Sound g policy handed) (hg : g.Sound) (hstage : m.stage = .run)
  (hstuck : m.nextReady? = none)
include hm hg hstage hstuck

/-- Where nothing can be handed out in the first stage, a rule that has not handed out its step is
held up by a rule that it needs, if only through others, and that has handed out its step without
success. -/
theorem Sound.handedOut_or_heldUp {r : Rule} (hr : r ∈ Plan.forRun g) :
    m.HandedOut r ∨ ∃ r', Relation.TransGen (Plan.Needs g) r r' ∧ m.HandedOut r' ∧
      r'.hasSucceeded m.history = false := by
  have hstep : ∀ r, (r ∈ Plan.forRun g ∧ ¬ m.HandedOut r) → ∃ r', Plan.Needs g r r' ∧
      ((m.HandedOut r' ∧ r'.hasSucceeded m.history = false) ∨
        (r' ∈ Plan.forRun g ∧ ¬ m.HandedOut r')) := by
    rintro r ⟨hr, hout⟩
    obtain ⟨r', hneeds, hlacks⟩ := hm.exists_needs hg hstage hstuck hr hout
    refine ⟨r', hneeds, ?_⟩
    by_cases hout' : m.HandedOut r'
    · exact .inl ⟨hout', hlacks⟩
    · exact .inr ⟨hneeds.2.1, hout'⟩
  by_cases hout : m.HandedOut r
  · exact .inl hout
  · exact .inr (exists_transGen_of_heldUp (fun r => r.duty.rank g)
      (fun r r' => Plan.rank_lt_of_needs hg) hstep ⟨hr, hout⟩)

variable (hsuccess : ∀ r, m.HandedOut r → r.hasSucceeded m.history = true)
include hsuccess

/-- If all steps that were handed out have success, all steps of the plan were handed out. -/
theorem Sound.handedOut_of_hasSucceeded {r : Rule} (hr : r ∈ Plan.forRun g) : m.HandedOut r := by
  rcases hm.handedOut_or_heldUp hg hstage hstuck hr with hout | ⟨r', -, hout, hlacks⟩
  · exact hout
  · rw [hsuccess r' hout] at hlacks
    cases hlacks

/-- If all steps that were handed out have success, the main container has come to its end. -/
theorem Sound.isSome_exitCode (hroot : g.root.isSome = true) :
    m.outcome.exitCode.isSome = true := by
  obtain ⟨root, hroot⟩ := Option.isSome_iff_exists.mp hroot
  obtain ⟨node, hnode⟩ := Option.isSome_iff_exists.mp (hg.root_mem hroot)
  have hran := hsuccess _ (hm.handedOut_of_hasSucceeded hg hstage hstuck hsuccess
    (Plan.mem_forRun_of_serves hg hnode .run))
  rw [(hg.isRoot_iff hnode).mpr hroot, hg.name_eq hnode] at hran
  have hexit : (m.history.exitCode? root).isSome = true := by
    simp only [Rule.hasSucceeded, Bool.not_true, Bool.false_or, Bool.and_eq_true] at hran
    exact hran.2
  show (m.graph.root.bind m.history.exitCode?).isSome = true
  rw [hm.graph_eq, hroot]
  exact hexit

end Stuck

/-- When the first stage ends, each rule of its plan has handed out its step, or is held up by a
rule that it needs, if only through others, and that has handed out its step without success. So if
all steps that were handed out have success, all steps of the plan were handed out, and the exit
code of the main container is known. -/
theorem Run.progress {task : Task} {catalogue : NameMap Container}
    (hbuild : Graph.build task catalogue = .ok g) (run : Run existing g policy m handed)
    (hstage : m.stage = .run) (hleft : m.pop.2.stage ≠ .run) :
    (∀ r ∈ Plan.forRun g, m.HandedOut r ∨ ∃ r', Relation.TransGen (Plan.Needs g) r r' ∧
      m.HandedOut r' ∧ r'.hasSucceeded m.history = false) ∧
    ((∀ r, m.HandedOut r → r.hasSucceeded m.history = true) →
      (∀ r ∈ Plan.forRun g, m.HandedOut r) ∧
        (g.root.isSome = true → m.outcome.exitCode.isSome = true)) := by
  have hg := Graph.sound_of_build hbuild
  have hm := run.sound hg
  obtain ⟨hstuck, -⟩ := of_pop_leaves_run hstage hleft
  exact ⟨fun r => hm.handedOut_or_heldUp hg hstage hstuck, fun hsuccess =>
    ⟨fun r => hm.handedOut_of_hasSucceeded hg hstage hstuck hsuccess,
      hm.isSome_exitCode hg hstage hstuck hsuccess⟩⟩

/-- The image of the database cannot be had, and so the first stage ends early. -/
theorem Run.progress_without_image : ∃ m : Machine, ∃ handed,
    Run none Sample.graph ⟨true, true⟩ m handed ∧ m.stage = .run ∧ m.pop.2.stage ≠ .run ∧
      ∀ r ∈ Plan.forRun Sample.graph, m.HandedOut r ∨
        ∃ r', Relation.TransGen (Plan.Needs Sample.graph) r r' ∧ m.HandedOut r' ∧
          r'.hasSucceeded m.history = false := by
  obtain ⟨x, hx, hp⟩ := Sample.exists_manages
    (Sample.replyBut (.pullImage "db" .ifNotPresent) fun _ => .failed "no such image") 3 []
    (p := fun x => decide (x.machine.stage = .run ∧ x.machine.pop.2.stage ≠ .run))
    (by decide +kernel)
  obtain ⟨hstage, hleft⟩ := of_decide_eq_true hp
  have hrun := hx.sound.ledger.run
  exact ⟨_, _, hrun, hstage, hleft, (Run.progress Sample.build_eq hrun hstage hleft).1⟩

end Machine

end ContainerTasks
