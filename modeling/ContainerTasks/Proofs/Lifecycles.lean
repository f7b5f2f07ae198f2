import ContainerTasks.Proofs.Operations
import ContainerTasks.Proofs.Readiness
import ContainerTasks.Proofs.Teardown
import Mathlib.Data.Prod.Lex

/-!
# The lifecycle of a container

What a task asks of the runtime for one container has an order. The rules of the first stage do not
speak of calls, only of events: each looks for the event that comes last before its step. But an
event of success is recorded only of a call that was answered so, and the events before it were
looked for by the rules before. So when the first stage makes a call for a container, all that comes
before in the lifecycle was answered with success.

## Main definitions

* `Graph.Node.lifecycle`: all that is asked for a container, in order
* `Operation.place`: the place of an operation in that order
* `Event.achievement?`: what has succeeded, by an event

## Main results

* `Graph.Grounds.exists_achievement`: what a rule of the first stage relies on is on record
* `Ledger.Traced.exists_success_before`: and was answered with success
-/

namespace ContainerTasks

/-! ### The order of operations -/

namespace Operation

/-- The container in whose lifecycle an operation has a place. -/
def subject? : Operation → Option String
  | create c | start c | awaitExit c | awaitHealth c | exec c _ | stop c | remove c => some c
  | prepareNetwork | build _ | pull _ | deleteNetwork => none

/-- The place of an operation in the lifecycle of its container. -/
def place : Operation → ℕ ×ₗ ℕ
  | start _ => toLex (1, 0)
  | awaitExit _ | awaitHealth _ => toLex (2, 0)
  | exec _ index => toLex (3, index)
  | stop _ => toLex (4, 0)
  | remove _ => toLex (5, 0)
  | _ => toLex (0, 0)

section Place

variable (c : String) (index : Nat)

@[simp] theorem place_create : (create c).place = toLex (0, 0) := rfl

@[simp] theorem place_start : (start c).place = toLex (1, 0) := rfl

@[simp] theorem place_awaitExit : (awaitExit c).place = toLex (2, 0) := rfl

@[simp] theorem place_awaitHealth : (awaitHealth c).place = toLex (2, 0) := rfl

@[simp] theorem place_exec : (exec c index).place = toLex (3, index) := rfl

@[simp] theorem place_stop : (stop c).place = toLex (4, 0) := rfl

@[simp] theorem place_remove : (remove c).place = toLex (5, 0) := rfl

end Place

theorem not_place_lt_zero (o : Operation) : ¬ o.place < toLex (0, 0) := by
  cases o <;> simp [place, Prod.Lex.toLex_lt_toLex]

theorem container?_duty {o : Operation} {c : String} (h : o.subject? = some c) :
    o.duty.container? = some c ∧ o.duty ≠ .build c := by
  cases o <;> simp_all [subject?, duty, Duty.container?]

end Operation

namespace Graph.Node

/-- What is asked of the runtime to run a container, in order. The main container is run to its end;
any other is made ready. -/
def runOperations (node : Node) : List Operation :=
  [.create node.container.name, .start node.container.name] ++
    if node.isRoot then [.awaitExit node.container.name]
    else (if node.container.hasHealthCheck then [.awaitHealth node.container.name] else []) ++
      (List.range node.container.setupCommands.length).map (.exec node.container.name)

/-- All that is asked of the runtime for a container, in order. -/
def lifecycle (node : Node) : List Operation :=
  node.runOperations ++ [.stop node.container.name, .remove node.container.name]

variable {node : Node} {o p : Operation}

theorem mem_runOperations : o ∈ node.runOperations ↔
    o = .create node.container.name ∨ o = .start node.container.name ∨
      (node.isRoot = true ∧ o = .awaitExit node.container.name) ∨
      (node.isRoot = false ∧ node.container.hasHealthCheck = true ∧
        o = .awaitHealth node.container.name) ∨
      (node.isRoot = false ∧ ∃ index < node.container.setupCommands.length,
        o = .exec node.container.name index) := by
  unfold runOperations
  cases node.isRoot <;> cases node.container.hasHealthCheck <;> simp [eq_comm]

theorem pairwise_runOperations (node : Node) :
    node.runOperations.Pairwise (·.place < ·.place) := by
  have hexec : ((List.range node.container.setupCommands.length).map
      (Operation.exec node.container.name)).Pairwise (·.place < ·.place) := by
    rw [List.pairwise_map]
    refine List.pairwise_lt_range.imp fun hlt => ?_
    simpa [Prod.Lex.toLex_lt_toLex] using hlt
  unfold runOperations
  cases node.isRoot <;> cases node.container.hasHealthCheck <;>
    simp [Prod.Lex.toLex_lt_toLex, hexec]

/-- Of what is asked to run a container, no two have the same place. -/
theorem eq_of_place_eq (ho : o ∈ node.runOperations) (hp : p ∈ node.runOperations)
    (hplace : o.place = p.place) : o = p := by
  have hnodup : (node.runOperations.map Operation.place).Nodup :=
    List.pairwise_map.mpr (node.pairwise_runOperations.imp ne_of_lt)
  exact List.inj_on_of_nodup_map hnodup ho hp hplace

theorem isCleanup_duty_of_mem_runOperations (ho : o ∈ node.runOperations) :
    o.duty.isCleanup = false := by
  rcases mem_runOperations.mp ho with rfl | rfl | ⟨-, rfl⟩ | ⟨-, -, rfl⟩ | ⟨-, index, -, rfl⟩ <;> rfl

theorem place_lt_of_mem_runOperations (ho : o ∈ node.runOperations) :
    o.place < toLex (4, 0) := by
  rcases mem_runOperations.mp ho with rfl | rfl | ⟨-, rfl⟩ | ⟨-, -, rfl⟩ | ⟨-, index, -, rfl⟩ <;>
    simp [Prod.Lex.toLex_lt_toLex]

theorem mem_runOperations_of_mem_lifecycle (ho : o ∈ node.lifecycle)
    (hmaking : o.duty.isCleanup = false) : o ∈ node.runOperations := by
  refine (List.mem_append.mp ho).resolve_right fun hmem => ?_
  rcases List.mem_cons.mp hmem with rfl | hmem
  · cases hmaking
  · rcases List.mem_singleton.mp hmem with rfl
    cases hmaking

theorem pairwise_lifecycle (node : Node) : node.lifecycle.Pairwise (·.place < ·.place) := by
  refine List.pairwise_append.mpr ⟨node.pairwise_runOperations, ?_, fun o ho p hp => ?_⟩
  · simp [Prod.Lex.toLex_lt_toLex]
  · refine (place_lt_of_mem_runOperations ho).trans_le ?_
    rcases List.mem_cons.mp hp with rfl | hp
    · exact le_refl _
    · rcases List.mem_singleton.mp hp with rfl
      simp [Prod.Lex.toLex_le_toLex]

end Graph.Node

/-! ### Success on record -/

/-- The operation whose success an event tells. -/
def Event.achievement? : Event → Option Operation
  | containerCreated c _ => some (.create c)
  | containerStarted c => some (.start c)
  | containerHealthy c => some (.awaitHealth c)
  | setupCommandCompleted c index => some (.exec c index)
  | _ => none

theorem Event.duty?_of_achievement? {e : Event} {o : Operation} (h : e.achievement? = some o) :
    e.duty? = some o.duty := by
  cases e <;> simp only [achievement?, Option.some.injEq, reduceCtorEq] at h <;> subst h <;> rfl

/-- The work on a step tells success only of an operation that was answered so. -/
theorem Step.Asks.of_report? {s : Step} {c : Call} {reply : Reply c.Value} {o p : Operation}
    {e : Event} (hasks : s.Asks c p) (hreport : s.report? ⟨c, reply⟩ = some e)
    (he : e.achievement? = some o) : p = o ∧ Answer.isSuccess ⟨c, reply⟩ = true := by
  cases hasks with
  | exec =>
    cases reply with
    | ok result =>
      rcases Option.some.inj hreport with rfl
      dsimp only at he
      by_cases hcode : result.exitCode = 0
      · rw [if_pos hcode] at he
        exact ⟨Option.some.inj he, decide_eq_true hcode⟩
      · rw [if_neg hcode] at he
        cases he
    | failed =>
      cases hreport
      cases he
    | cancelled | error | panicked => cases hreport
  | _ =>
    cases reply <;> cases hreport <;> cases he
    try exact ⟨rfl, rfl⟩

namespace Graph

variable {g : Graph} {node : Node} {h : History} {p : Operation} {reference : ContainerReference}

theorem Node.eq_create_of_place_lt (hp : p ∈ node.runOperations) (hlt : p.place < toLex (1, 0)) :
    p = .create node.container.name := by
  rcases mem_runOperations.mp hp with rfl | rfl | ⟨-, rfl⟩ | ⟨-, -, rfl⟩ | ⟨-, index, -, rfl⟩
  · rfl
  all_goals simp [Prod.Lex.toLex_lt_toLex] at hlt

/-- A container that was started was created before, with success. -/
theorem Node.exists_achievement_of_started
    (hsub : [.containerCreated node.container.name reference,
      .containerStarted node.container.name].Sublist h)
    (hp : p ∈ node.runOperations) (hlt : p.place < toLex (2, 0)) :
    ∃ e ∈ h, e.achievement? = some p := by
  rcases mem_runOperations.mp hp with rfl | rfl | ⟨-, rfl⟩ | ⟨-, -, rfl⟩ | ⟨-, index, -, rfl⟩
  · exact ⟨.containerCreated node.container.name reference, hsub.subset (by simp), rfl⟩
  · exact ⟨.containerStarted node.container.name, hsub.subset (by simp), rfl⟩
  · simp at hlt
  · simp at hlt
  · simp [Prod.Lex.toLex_lt_toLex] at hlt

/-- A container that has come as far as a setup command has had success with all before. -/
theorem Node.exists_achievement_of_eventsUpTo {n : Nat} (side : node.isRoot = false)
    (hsub : (node.eventsUpTo reference n).Sublist h) (hp : p ∈ node.runOperations)
    (hlt : p.place < toLex (3, n)) : ∃ e ∈ h, e.achievement? = some p := by
  rcases mem_runOperations.mp hp with rfl | rfl | ⟨hroot, -⟩ | ⟨-, has, rfl⟩ | ⟨-, index, -, rfl⟩
  · exact ⟨.containerCreated node.container.name reference,
      hsub.subset (by simp [eventsUpTo]), rfl⟩
  · exact ⟨.containerStarted node.container.name, hsub.subset (by simp [eventsUpTo]), rfl⟩
  · rw [side] at hroot
    cases hroot
  · exact ⟨.containerHealthy node.container.name, hsub.subset (by simp [eventsUpTo, has]), rfl⟩
  · have hindex : index < n := by simpa [Prod.Lex.toLex_lt_toLex] using hlt
    refine ⟨.setupCommandCompleted node.container.name index, hsub.subset ?_, rfl⟩
    exact List.mem_append_right _ (List.mem_map_of_mem (List.mem_range.mpr hindex))

/-- When the step of a rule of the first stage can be taken, all that comes in the lifecycle of the
container before a call of the step has had success. The second call of a step relies on the
success of the first. -/
theorem Grounds.exists_achievement (hh : g.Grounds h) (hg : g.Sound)
    (hnode : g.node? node.container.name = some node) {r : Rule} (hserves : Plan.Serves node r)
    {h' : History} (hsince : h' <+: h) {s : Step} (heval : r.evaluate h' = .ready s)
    {c : Call} {o : Operation} (hasks : s.Asks c o)
    (hstarted : o = .awaitExit node.container.name → .containerStarted node.container.name ∈ h) :
    o ∈ node.runOperations ∧ ∀ p ∈ node.runOperations, p.place < o.place →
      ∃ e ∈ h, e.achievement? = some p := by
  have hd : s.duty = r.duty := Rule.duty_of_evaluate heval
  have hh' : g.Grounds h' := hh.of_prefix hsince
  have hlater : ∀ {p}, (∃ e ∈ h', e.achievement? = some p) → ∃ e ∈ h, e.achievement? = some p :=
    fun ⟨e, he, hp⟩ => ⟨e, hsince.subset he, hp⟩
  cases hserves with
  | create =>
    cases hasks <;> simp only [Step.duty, Rule.duty, reduceCtorEq, Duty.create.injEq] at hd
    exact ⟨Node.mem_runOperations.mpr (.inl (by rw [hd])),
      fun p _ hlt => absurd hlt p.not_place_lt_zero⟩
  | run =>
    have href := Rule.isSome_reference?_of_evaluate heval (.inl rfl)
    cases hasks <;> simp only [Step.duty, Rule.duty, reduceCtorEq, Duty.run.injEq] at hd
    · subst hd
      refine ⟨Node.mem_runOperations.mpr (.inr (.inl rfl)), fun p hp hlt => ?_⟩
      obtain ⟨reference, hmade⟩ := History.isSome_reference?_iff.mp href
      rw [Node.eq_create_of_place_lt hp hlt]
      exact hlater ⟨_, hmade, rfl⟩
    · subst hd
      have hroot : node.isRoot = true := by
        generalize node.isRoot = main at heval
        cases Rule.standsFor_of_evaluate heval
        rfl
      refine ⟨Node.mem_runOperations.mpr (.inr (.inr (.inl ⟨hroot, rfl⟩))), fun p hp hlt => ?_⟩
      obtain ⟨reference, hsub⟩ := hh.sublist_of_started (hstarted rfl)
      exact Node.exists_achievement_of_started hsub hp hlt
  | checkHealth side has =>
    cases hasks <;> simp only [Step.duty, Rule.duty, reduceCtorEq, Duty.checkHealth.injEq] at hd
    subst hd
    have hbefore : h'.hasStarted node.container.name = true := Rule.isClear_of_evaluate heval
    refine ⟨Node.mem_runOperations.mpr (.inr (.inr (.inr (.inl ⟨side, has, rfl⟩)))),
      fun p hp hlt => hlater ?_⟩
    obtain ⟨reference, hsub⟩ := hh'.sublist_of_started (History.hasStarted_iff.mp hbefore)
    exact Node.exists_achievement_of_started hsub hp hlt
  | @setUp index command side has =>
    cases hasks <;> simp only [Step.duty, Rule.duty, reduceCtorEq, Duty.setUp.injEq] at hd
    obtain ⟨rfl, rfl⟩ := hd
    next index =>
    have hbefore : h'.preparedUpTo node.container.name index node.container.hasHealthCheck =
        true := Rule.isClear_of_evaluate heval
    have hindex : index < node.container.setupCommands.length :=
      (List.getElem?_eq_some_iff.mp has).1
    refine ⟨Node.mem_runOperations.mpr (.inr (.inr (.inr (.inr ⟨side, index, hindex, rfl⟩)))),
      fun p hp hlt => hlater ?_⟩
    obtain ⟨reference, hsub⟩ := hh'.sublist_of_preparedUpTo hg hnode hbefore
    exact Node.exists_achievement_of_eventsUpTo side hsub hp hlt
  | markReady side =>
    cases hasks <;> simp only [Step.duty, Rule.duty, reduceCtorEq] at hd

end Graph

namespace Job

variable {existing : Option String} {index : Nat} {posted : List Event} {seen : List Happening}
  {s : Step} {o : Option Ending} {c : Call} {next : Reply c.Value → Procedure}

/-- Before it waits for a container to come to its end, a job has told that the container was
started. -/
theorem Accounts.started_of_awaitExit {container : String} {reference : ContainerReference}
    {main : Bool} {next : Reply (Call.awaitExit reference).Value → Procedure}
    (hj : Accounts existing index posted seen
      ⟨.runContainer container reference main, .working (.call (.awaitExit reference) next), o⟩) :
    .containerStarted container ∈ posted := by
  rcases hj.working with hw | ⟨-, h⟩
  · have htells := (hw.along (Step.tells _ existing index)).here
    have hstart : .startContainer reference ∈ seen.filterMap Happening.begun? := by
      have hcalls := htells.calls
      cases hbegun : seen.filterMap Happening.begun? with
      | nil => simp [hbegun, Procedure.nextCall?, Step.calls] at hcalls
      | cons first rest =>
        rw [hbegun, List.cons_append] at hcalls
        rw [(List.cons_prefix_cons.mp hcalls).1]
        exact List.mem_cons_self
    obtain ⟨⟨call, reply⟩, hcall, hsub⟩ | ⟨hmay, -⟩ := hw.over_of_began (hw.began_mem hstart)
    · obtain rfl : call = .startContainer reference := hcall
      have hanswered := hsub.subset (List.mem_cons_of_mem _ (List.mem_singleton_self _))
      have hsuccess := htells.heeds rfl _ hanswered
      cases reply with
      | ok =>
        have hreport : .containerStarted container ∈
            (Step.runContainer container reference main).reports seen :=
          List.mem_filterMap.mpr ⟨_, hanswered, rfl⟩
        have hposted := htells.posted_eq
        rw [show (Procedure.call _ next).upcoming = [] from rfl, List.append_nil] at hposted
        rw [hposted]
        exact List.mem_append_right _ hreport
      | failed | cancelled | error | panicked => cases hsuccess
    · cases hmay
  · cases h

end Job

namespace Ledger

variable {existing : Option String} {g : Graph} {policy : CleanupPolicy} {l : Ledger} {i : Nat}
  {s : Step} {c : Call} {next : Reply c.Value → Procedure} {ending : Option Ending}
  {node : Graph.Node} {o p : Operation} {e : Event}

/-- Success on record was answered. -/
theorem Traced.exists_success (ht : l.Traced existing) (hl : l.Sound existing g policy)
    (hg : g.Sound) (he : e ∈ l.machine.history) (ho : e.achievement? = some o) :
    ∃ i j a, l.jobs[i]? = some j ∧ .answered i a ∈ l.trace ∧
      j.step.operation? a.call = some o ∧ a.isSuccess = true := by
  obtain ⟨i, j, hj, -, hpreamble | ⟨a, ha, hreport⟩⟩ :=
    ht.exists_of_mem_history hl hg he (Event.duty?_of_achievement? ho)
  · have hnone : ∀ s : Step, ∀ e ∈ s.preamble, e.achievement? = none := by
      intro s e he
      cases s <;> simp only [Step.preamble, List.mem_singleton, List.not_mem_nil] at he <;>
        subst he <;> rfl
    rw [hnone _ _ hpreamble] at ho
    cases ho
  · obtain ⟨j', hj', hcall⟩ := ht.mem_calls (ht.began_of_answered ha)
    obtain rfl := Option.some.inj (hj.symm.trans hj')
    obtain ⟨p, hp, hasks⟩ := Step.exists_asks hcall
    obtain ⟨rfl, hsuccess⟩ := hasks.of_report? hreport ho
    exact ⟨i, j, a, hj, ha, hp, hsuccess⟩

/-- When the first stage makes a call for a container, all that comes before in the lifecycle of the
container was answered with success. -/
theorem Traced.exists_success_before (ht : l.Traced existing) (hl : l.Sound existing g policy)
    (hg : g.Sound) (hnode : g.node? node.container.name = some node)
    (hj : l.jobs[i]? = some ⟨s, .working (.call c next), ending⟩)
    (hmaking : s.duty.isCleanup = false) (hasks : s.Asks c o)
    (hsubject : o.subject? = some node.container.name) : o ∈ node.runOperations ∧
      ∀ p ∈ node.runOperations, p.place < o.place → ∃ i j a, l.jobs[i]? = some j ∧
        .answered i a ∈ l.trace ∧ j.step.operation? a.call = some p ∧ a.isSuccess = true := by
  have hm := hl.run.sound hg
  obtain ⟨r, h', hr, hp, heval⟩ := (hm.warranted s
    (List.mem_map.mpr ⟨_, List.mem_of_getElem? hj, rfl⟩)).exists_forRun hmaking
  have hd : r.duty = o.duty := (Rule.duty_of_evaluate heval).symm.trans hasks.duty_eq.symm
  obtain ⟨hcontainer, hbuild⟩ := Operation.container?_duty hsubject
  have hserves := hg.serves hnode hr (hd ▸ hcontainer) (hd ▸ hbuild)
  have hstarted : o = .awaitExit node.container.name →
      .containerStarted node.container.name ∈ l.machine.history := by
    rintro rfl
    cases hasks
    exact List.mem_of_mem_filter (ht.accounts i _ hj).started_of_awaitExit
  obtain ⟨hmem, hearlier⟩ := hm.grounded.exists_achievement hg hnode hserves hp heval hasks hstarted
  refine ⟨hmem, fun p hp hlt => ?_⟩
  obtain ⟨e, he, hachievement⟩ := hearlier p hp hlt
  exact ht.exists_success hl hg he hachievement

end Ledger

end ContainerTasks
