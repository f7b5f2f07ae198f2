import ContainerTasks.Proofs.Lifecycles
import Mathlib.Data.List.Sort

/-!
# One call after the other

The calls for one container are made in the order of its lifecycle, and none is begun while another
one is under way. In the first stage a call relies on the success of all that come before. Between
the stages no step is in flight, so all calls of the first stage are over in the second. There a
container that is to be stopped is removed only when the call that stops it has had an outcome.

Each of this is seen at the *moment* when a call is begun, from the ledger of that time; what was
asked before a moment is what the trace shows before it.

## Main definitions

* `Call.IsOver`: a call was answered, or is not awaited any longer
* `Execution.Moment`: the ledger at the time when a call was begun
* `Execution.Timely`: what holds when a call is begun
* `Execution.Sequential`: the calls for each container are made one after the other

## Main results

* `Execution.Manages.place_lt`: calls are begun in the order of the lifecycle
* `Execution.Manages.isOver_before`: and only when those before are over
* `Execution.Manages.sequential`
-/

namespace ContainerTasks

/-- A call that a job began is over: it was answered, or is not awaited any longer. -/
def Call.IsOver (job : Nat) (seen : List Happening) (c : Call) : Prop :=
  (∃ a : Answer, a.call = c ∧ [.began job c, .answered job a].Sublist seen) ∨
    (c.isAbandonable = true ∧ [.began job c, .abandoned job c].Sublist seen)

namespace Ledger

variable {existing : Option String} {g : Graph} {policy : CleanupPolicy} {l : Ledger} {i : Nat}
  {j k : Job} {c : Call} {a : Answer} {container : String} {first : History}

/-! ### Calls that are over -/

/-- A call is over unless its job waits for it. -/
theorem Traced.isOver_of_began (ht : l.Traced existing) (hc : .began i c ∈ l.trace)
    (hj : l.jobs[i]? = some j) (hidle : ∀ next, j.phase ≠ .calling c next) :
    c.IsOver i l.trace := by
  have hseen : .began i c ∈ l.seen i := List.mem_filter.mpr ⟨hc, decide_eq_true rfl⟩
  have hsub : (l.seen i).Sublist l.trace := List.filter_sublist
  rcases (ht.accounts i j hj).over_of_began hseen with ⟨a, ha, hover⟩ | ⟨hmay, hover⟩ | ⟨next, h⟩
  · exact .inl ⟨a, ha, hover.trans hsub⟩
  · exact .inr ⟨hmay, hover.trans hsub⟩
  · exact absurd h (hidle next)

theorem Traced.isOver_of_answered (ht : l.Traced existing) (ha : .answered i a ∈ l.trace) :
    a.call.IsOver i l.trace := by
  obtain ⟨j, hj, -⟩ := ht.mem_calls (ht.began_of_answered ha)
  refine ht.isOver_of_began (ht.began_of_answered ha) hj fun next hcalling => ?_
  have haccounts := ht.accounts i j hj
  obtain ⟨s, phase, o⟩ := j
  obtain rfl : phase = _ := hcalling
  exact haccounts.call_ne_of_calling (mem_answers_seen.mpr ha) rfl

theorem Traced.isOver_of_isGone (ht : l.Traced existing) (hc : .began i c ∈ l.trace)
    (hj : l.jobs[i]? = some j) (hgone : j.isGone = true) : c.IsOver i l.trace := by
  refine ht.isOver_of_began hc hj fun next hcalling => ?_
  rw [Job.isGone, hcalling] at hgone
  cases hgone

/-! ### Taking a container down -/

/-- In the second stage, if one job is to stop a container and one to remove it, then the container
was stopped, or could not be. -/
theorem Sound.tellsOf_stop (hl : l.Sound existing g policy) (hg : g.Sound)
    (hsealed : l.Sealed g first) (hs : l.machine.stage = .cleanup) (hj : j ∈ l.jobs)
    (hstop : j.step.duty = .stop container) (hk : k ∈ l.jobs)
    (hremove : k.step.duty = .remove container) :
    l.machine.history.TellsOf (.stop container) := by
  have hm := hl.run.sound hg
  have htakes := hl.takesDown hg hsealed hs
  have hunfinished : l.machine.stage ≠ .finished := fun hfinished => by
    rw [hs] at hfinished
    cases hfinished
  have hrule : ∀ k ∈ l.jobs, k.step.duty.isCleanup = true →
      ∃ r, l.machine.HandedOut r ∧ Plan.TakesDown g first r ∧ r.duty = k.step.duty := by
    intro k hk hcleanup
    obtain ⟨r, hout, hd⟩ := hm.rule_of_step hunfinished k.step (List.mem_map_of_mem hk)
      (by rw [hcleanup, hs]; rfl)
    exact ⟨r, hout, htakes.mem_rules.mp hout.mem_rules, hd⟩
  obtain ⟨r, -, hr, hd⟩ := hrule j hj (by rw [hstop]; rfl)
  obtain ⟨r', hout, hr', hd'⟩ := hrule k hk (by rw [hremove]; rfl)
  rw [hstop] at hd
  rw [hremove] at hd'
  cases hr with
  | stop _ hneeds =>
    cases hd
    cases hr' with
    | remove =>
      cases hd'
      exact htakes.tellsOf_stop_of_handedOut hneeds hout
    | stop | deleteNetwork => cases hd'
  | remove | deleteNetwork => cases hd

/-- A job that is to take something down has been answered when something is heard of its duty. -/
theorem Traced.exists_answered (ht : l.Traced existing) (hl : l.Sound existing g policy)
    (hg : g.Sound) (hj : l.jobs[i]? = some j) (hcleanup : j.step.isCleanup = true)
    (htold : l.machine.history.TellsOf j.step.duty) : ∃ a, .answered i a ∈ l.trace := by
  obtain ⟨e, he, hd⟩ := htold
  obtain ⟨i', j', hj', hduty, hpreamble | ⟨a, ha, -⟩⟩ := ht.exists_of_mem_history hl hg he hd
  · rw [← Step.isCleanup_duty, ← hduty, Step.isCleanup_duty] at hcleanup
    rw [Step.preamble_eq_nil hcleanup] at hpreamble
    cases hpreamble
  · by_cases heq : i' = i
    · exact ⟨a, heq ▸ ha⟩
    · exact absurd hduty (hl.duty_ne hj' hj heq)

end Ledger

/-! ### The container of a call -/

/-- The container that a step is done to, with its reference. -/
def Step.reference? : Step → Option (String × ContainerReference)
  | runContainer container reference _ | awaitHealth container reference
  | runSetupCommand container reference .. | stopContainer container reference
  | removeContainer container reference => some (container, reference)
  | _ => none

/-- The reference that a call passes to the runtime. -/
def Call.reference? : Call → Option ContainerReference
  | startContainer reference | awaitExit reference | awaitHealth reference | exec reference _
  | stopContainer reference | removeContainer reference => some reference
  | buildImage _ | pullImage .. | createNetwork | findNetwork _ | createContainer ..
  | deleteNetwork _ => none

section Reference

variable {g : Graph} {h first : History} {s : Step} {r : Rule} {c : Call} {o : Operation}
  {container : String} {reference : ContainerReference}

theorem Step.Asks.reference? (hasks : s.Asks c o) (hsubject : o.subject? = some container)
    (href : c.reference? = some reference) : s.reference? = some (container, reference) := by
  cases hasks <;> cases hsubject <;> cases href <;> rfl

theorem Rule.reference?_of_evaluate (heval : r.evaluate h = .ready s)
    (hmaking : r.duty.isCleanup = false) (href : s.reference? = some (container, reference)) :
    h.reference? container = some reference := by
  cases Rule.standsFor_of_evaluate heval with
  | runContainer hcreated | awaitHealth hcreated | runSetupCommand hcreated =>
    cases href
    exact hcreated
  | stopContainer | removeContainer => cases hmaking
  | _ => cases href

theorem Plan.TakesDown.created (hr : TakesDown g first r) (heval : r.evaluate h = .ready s)
    (href : s.reference? = some (container, reference)) :
    .containerCreated container reference ∈ first := by
  have hstands := Rule.standsFor_of_evaluate heval
  cases hr with
  | stop hmade | remove hmade =>
    cases hstands
    cases href
    exact hmade
  | deleteNetwork =>
    cases hstands
    cases href

/-- What is done to a container is done to the one that was created. -/
theorem Graph.Warrants.created (hs : g.Warrants h s) (hg : g.Sound)
    (href : s.reference? = some (container, reference)) :
    .containerCreated container reference ∈ h := by
  cases hd : s.duty.isCleanup with
  | false =>
    obtain ⟨r, h', -, hp, heval⟩ := hs.exists_forRun hd
    exact hp.subset (History.mem_of_reference?
      (Rule.reference?_of_evaluate heval (Rule.duty_of_evaluate heval ▸ hd) href))
  | true =>
    obtain ⟨r, first, h', hfirst, hr, hp, heval⟩ := hs.exists_takesDown hg hd
    exact hp.subset (hfirst.subset (hr.created heval href))

/-- What is done to set a container up is what was declared. -/
theorem Graph.Warrants.declared (hs : g.Warrants h s) (hg : g.Sound) {node : Graph.Node}
    (hnode : g.node? node.container.name = some node) {index : Nat}
    (hasks : s.Asks c (.exec node.container.name index)) : ∃ reference command,
      c = .exec reference command ∧ node.container.setupCommands[index]? = some command := by
  cases hasks
  next reference command =>
  obtain ⟨r, h', hr, -, heval⟩ := hs.exists_forRun rfl
  have hd : .setUp node.container.name index = r.duty := Rule.duty_of_evaluate heval
  have hserves := hg.serves hnode hr (by rw [← hd]; rfl) (by simp [← hd])
  cases hserves <;> simp only [Rule.duty, reduceCtorEq, Duty.setUp.injEq] at hd
  next declared side has =>
  obtain ⟨-, rfl⟩ := hd
  refine ⟨reference, command, rfl, has.trans ?_⟩
  cases Rule.standsFor_of_evaluate heval
  rfl

end Reference

/-! ### Managed runs -/

/-- Of two elements in order, the first one comes before the second. -/
theorem exists_split_of_pair {α : Type} {l : List α} {a b : α} (h : [a, b].Sublist l) :
    ∃ before after, l = before ++ b :: after ∧ a ∈ before := by
  obtain ⟨front, back, rfl, ha, hb⟩ := List.cons_sublist_iff.mp h
  obtain ⟨between, after, rfl⟩ := List.append_of_mem (List.singleton_sublist.mp hb)
  exact ⟨front ++ between, after, (List.append_assoc ..).symm, List.mem_append_left _ ha⟩

namespace Execution

variable {existing : Option String} {g : Graph} {policy : CleanupPolicy} {x : Execution}
  {node : Graph.Node} {before after : List Happening} {i k : Nat} {c d : Call} {o p : Operation}

/-- What holds when a call is begun that is part of the lifecycle of a container. -/
structure Timely (x : Execution) (node : Graph.Node) (before : List Happening) (c : Call)
    (o : Operation) : Prop where
  /-- All calls for the container that were begun before are over. -/
  alone : ∀ k d p, .began k d ∈ before → x.operation? (.began k d) = some p →
    p.subject? = some node.container.name → d.IsOver k before
  /-- To run a container is gone on with only after success. -/
  heeds : ∀ p, [p, o].Sublist node.runOperations → ∃ k a, .answered k a ∈ before ∧
    x.operation? (.began k a.call) = some p ∧ a.isSuccess = true
  /-- No setup command is run after one that was not successful. -/
  spared : ∀ index, o = .exec node.container.name index → ∀ k a m, .answered k a ∈ before →
    x.operation? (.began k a.call) = some (.exec node.container.name m) → a.isSuccess = true
  declared : ∀ index, o = .exec node.container.name index → ∃ reference command,
    c = .exec reference command ∧ node.container.setupCommands[index]? = some command
  /-- The container is known to the runtime by the reference that the runtime gave it. -/
  created : ∀ reference, c.reference? = some reference →
    ∃ e ∈ before, e.creation? = some (.containerCreated node.container.name reference)

/-- The calls for each container are made one after the other, in the order of its lifecycle. -/
structure Sequential (g : Graph) (x : Execution) : Prop where
  known : ∀ i c o container, .began i c ∈ x.trace → x.operation? (.began i c) = some o →
    o.subject? = some container → ∃ node, g.node? container = some node
  order : ∀ node, g.node? node.container.name = some node →
    (x.operations.filter (·.subject? = some node.container.name)).Sublist node.lifecycle
  timely : ∀ node, g.node? node.container.name = some node → ∀ before i c after o,
    x.trace = before ++ .began i c :: after → x.operation? (.began i c) = some o →
      o.subject? = some node.container.name → x.Timely node before c o
  /-- Only in a cancelled run a call is not awaited to its end. -/
  awaited : ∀ i c, .abandoned i c ∈ x.trace → x.cancelled = true

/-- The ledger at the time when a call was begun. -/
structure Moment (existing : Option String) (g : Graph) (policy : CleanupPolicy) (x : Execution)
    (before : List Happening) (i : Nat) (c : Call) (o : Operation) (l : Ledger) : Prop where
  sound : l.Sound existing g policy
  traced : l.Traced existing
  sealed_of_left : l.machine.stage ≠ .run → ∃ first, l.Sealed g first
  trace_eq : l.trace = before
  precedes : l.Precedes x.ledger
  asking : ∃ s ending next, l.jobs[i]? = some ⟨s, .working (.call c next), ending⟩ ∧ s.Asks c o

section Trace

variable (h : x.Manages existing g policy)
include h

theorem Manages.exists_moment (htrace : x.trace = before ++ .began i c :: after)
    (ho : x.operation? (.began i c) = some o) :
    ∃ l, Moment existing g policy x before i c o l := by
  obtain ⟨l, hsound, htraced, hsealed, hbefore, hprecedes, s, ending, next, hj⟩ :=
    h.exists_of_began (P := fun l => l.machine.stage ≠ .run → ∃ first, l.Sealed g first)
      (fun hs => absurd rfl hs)
      (fun l l' _ hl hP heffect => Ledger.sealed_of_effect hl h.sound_graph hP heffect) htrace
  obtain ⟨j, hj', hstep⟩ := hprecedes.step_eq hj
  rw [operation?_began hj', hstep] at ho
  exact ⟨l, hsound, htraced, hsealed, hbefore, hprecedes, s, ending, next, hj,
    Step.asks_of_operation? (htraced.accounts i _ hj).mem_calls ho⟩

/-- Two calls do not ask for one operation. -/
theorem Manages.operation?_ne (htrace : x.trace = before ++ .began i c :: after)
    (ho : x.operation? (.began i c) = some o) {e : Happening} (he : e ∈ before) :
    x.operation? e ≠ some o := by
  intro hp
  have hnodup := h.nodup_operations
  rw [operations, htrace, List.filterMap_append, List.filterMap_cons_some ho,
    List.nodup_append] at hnodup
  exact hnodup.2.2 o (List.mem_filterMap.mpr ⟨e, he, hp⟩) o List.mem_cons_self rfl

/-- What asks for one operation is one call. -/
theorem Manages.eq_of_operation?_eq {e e' : Happening} (he : e ∈ x.trace) (he' : e' ∈ x.trace)
    (ho : x.operation? e = some o) (ho' : x.operation? e' = some o) : e = e' := by
  obtain ⟨i, -, c, rfl, -, -⟩ := exists_of_operation? ho
  obtain ⟨before, after, htrace⟩ := List.append_of_mem he
  obtain ⟨i', -, c', rfl, -, -⟩ := exists_of_operation? ho'
  obtain ⟨before', after', htrace'⟩ := List.append_of_mem he'
  rw [htrace] at he'
  rcases List.mem_append.mp he' with hmem | hmem
  · exact absurd ho' (h.operation?_ne htrace ho hmem)
  · rcases List.mem_cons.mp hmem with heq | hmem
    · exact heq.symm
    · obtain ⟨front, back, rfl⟩ := List.append_of_mem hmem
      have hlater : x.trace = (before ++ .began i c :: front) ++ .began i' c' :: back := by
        rw [htrace, List.append_assoc, List.cons_append]
      exact absurd ho (h.operation?_ne hlater ho' (by simp))

end Trace

section Moments

variable {l : Ledger} (hl : Moment existing g policy x before i c o l)
include hl

/-- A call that was begun before was made by a job. -/
theorem Moment.exists_job (hd : .began k d ∈ before) (hp : x.operation? (.began k d) = some p) :
    ∃ j, l.jobs[k]? = some j ∧ j.step.Asks d p := by
  obtain ⟨j, hj, hcalls⟩ := hl.traced.mem_calls (hl.trace_eq ▸ hd)
  obtain ⟨j', hj', hstep⟩ := hl.precedes.step_eq hj
  rw [operation?_began hj', hstep] at hp
  exact ⟨j, hj, Step.asks_of_operation? hcalls hp⟩

/-- To run a container is gone on with only after success, and to take one down is begun only in the
second stage. -/
theorem Moment.heeds (hg : g.Sound) (hnode : g.node? node.container.name = some node)
    (hsubject : o.subject? = some node.container.name) :
    (l.machine.stage = .run ∧ o ∈ node.runOperations ∧ ∀ p ∈ node.runOperations,
      p.place < o.place → ∃ k a, .answered k a ∈ before ∧
        x.operation? (.began k a.call) = some p ∧ a.isSuccess = true) ∨
    (l.machine.stage = .cleanup ∧
      (o = .stop node.container.name ∨ o = .remove node.container.name)) := by
  obtain ⟨s, ending, next, hj, hasks⟩ := hl.asking
  have hmem := List.mem_of_getElem? hj
  cases hcleanup : s.isCleanup with
  | true =>
    refine .inr ⟨hl.sound.stage_eq_cleanup hg hmem hcleanup rfl, ?_⟩
    cases hasks <;> cases hcleanup <;> cases hsubject
    · exact .inl rfl
    · exact .inr rfl
  | false =>
    obtain ⟨ho, hearlier⟩ := hl.traced.exists_success_before hl.sound hg hnode hj
      (s.isCleanup_duty.trans hcleanup) hasks hsubject
    refine .inl ⟨?_, ho, fun p hp hlt => ?_⟩
    · by_contra hstage
      have := hl.sound.late hstage _ hmem rfl
      rw [hcleanup] at this
      cases this
    · obtain ⟨k, j, a, hk, ha, hpa, hsuccess⟩ := hearlier p hp hlt
      obtain ⟨j', hj', hstep⟩ := hl.precedes.step_eq hk
      exact ⟨k, a, hl.trace_eq ▸ ha, by rw [operation?_began hj', hstep, hpa], hsuccess⟩

/-- In the second stage, if a container is to be stopped and to be removed, then the call that stops
it was answered. -/
theorem Moment.exists_answered_stop (hg : g.Sound) (hstage : l.machine.stage = .cleanup)
    {container : String} {j j' : Job} {d' : Call} (hj : l.jobs[k]? = some j)
    (hstop : j.step.Asks d (.stop container)) (hj' : j' ∈ l.jobs)
    (hremove : j'.step.Asks d' (.remove container)) :
    ∃ a : Answer, a.call = d ∧ .answered k a ∈ before := by
  obtain ⟨first, hsealed⟩ := hl.sealed_of_left (by rw [hstage]; simp)
  have htold := hl.sound.tellsOf_stop hg hsealed hstage (List.mem_of_getElem? hj)
    hstop.duty_eq.symm hj' hremove.duty_eq.symm
  have hduty : .stop container = j.step.duty := hstop.duty_eq
  obtain ⟨a, ha⟩ := hl.traced.exists_answered hl.sound hg hj
    (by rw [← Step.isCleanup_duty, ← hduty]; rfl) (hduty ▸ htold)
  obtain ⟨j₀, hj₀, hcall⟩ := hl.traced.mem_calls (hl.traced.began_of_answered ha)
  obtain rfl := Option.some.inj (hj.symm.trans hj₀)
  refine ⟨a, ?_, hl.trace_eq ▸ ha⟩
  obtain ⟨step, phase, ending⟩ := j
  cases hstop
  exact List.mem_singleton.mp hcall

end Moments

section Trace

variable (h : x.Manages existing g policy)
  (hnode : g.node? node.container.name = some node)
  (htrace : x.trace = before ++ .began i c :: after) (ho : x.operation? (.began i c) = some o)
  (hsubject : o.subject? = some node.container.name) (hd : .began k d ∈ before)
  (hp : x.operation? (.began k d) = some p) (hsubject' : p.subject? = some node.container.name)
include h hnode htrace ho hsubject hd hp hsubject'

omit ho hsubject hnode hd hp hsubject' htrace in
/-- What is asked for a container is part of its lifecycle. -/
theorem Manages.mem_lifecycle (hnode : g.node? node.container.name = some node)
    (hc : .began i c ∈ x.trace) (ho : x.operation? (.began i c) = some o)
    (hsubject : o.subject? = some node.container.name) : o ∈ node.lifecycle := by
  obtain ⟨before, after, htrace⟩ := List.append_of_mem hc
  obtain ⟨l, hl⟩ := h.exists_moment htrace ho
  rcases hl.heeds h.sound_graph hnode hsubject with ⟨-, hmem, -⟩ | ⟨-, hwhat⟩
  · exact List.mem_append_left _ hmem
  · exact List.mem_append_right _ (by simpa using hwhat)

/-- What is asked for a container is asked for in the order of its lifecycle. -/
theorem Manages.place_lt : p.place < o.place := by
  have hg := h.sound_graph
  obtain ⟨l, hl⟩ := h.exists_moment htrace ho
  obtain ⟨front, back, rfl⟩ := List.append_of_mem hd
  have htrace' : x.trace = front ++ .began k d :: (back ++ .began i c :: after) := by simp [htrace]
  obtain ⟨l', hl'⟩ := h.exists_moment htrace' hp
  have hne : p ≠ o := fun heq => h.operation?_ne htrace ho hd (heq ▸ hp)
  obtain ⟨j, hj, hasks⟩ := hl.exists_job hd hp
  rcases hl.heeds hg hnode hsubject with ⟨hrun, hmem, -⟩ | ⟨hcleanup, hwhat⟩ <;>
    rcases hl'.heeds hg hnode hsubject' with ⟨-, hmem', hearlier⟩ | ⟨-, hwhat'⟩
  · by_contra hle
    have hinj : p.place ≠ o.place := fun heq => hne (Graph.Node.eq_of_place_eq hmem' hmem heq)
    obtain ⟨k', a, ha, hoa, -⟩ := hearlier o hmem (lt_of_le_of_ne (not_lt.mp hle) hinj.symm)
    have hbegan := hl'.traced.began_of_answered (hl'.trace_eq ▸ ha)
    rw [hl'.trace_eq] at hbegan
    exact h.operation?_ne htrace ho (List.mem_append_left _ hbegan) hoa
  · -- nothing is taken down in the first stage
    have hearly := (hl.sound.run.sound hg).early hrun j.step
      (List.mem_map_of_mem (List.mem_of_getElem? hj))
    rw [← hasks.duty_eq] at hearly
    rcases hwhat' with rfl | rfl <;> cases hearly
  · refine (Graph.Node.place_lt_of_mem_runOperations hmem').trans_le ?_
    rcases hwhat with rfl | rfl <;> simp [Prod.Lex.toLex_le_toLex]
  · rcases hwhat with rfl | rfl <;> rcases hwhat' with rfl | rfl
    · exact absurd rfl hne
    · obtain ⟨s, ending, next, hi, hstop⟩ := hl.asking
      obtain ⟨a, rfl, ha⟩ :=
        hl.exists_answered_stop hg hcleanup hi hstop (List.mem_of_getElem? hj) hasks
      have hbegan := hl.traced.began_of_answered (hl.trace_eq ▸ ha)
      exact absurd ho (h.operation?_ne htrace ho (hl.trace_eq ▸ hbegan))
    · simp [Prod.Lex.toLex_lt_toLex]
    · exact absurd rfl hne

/-- A call for a container is begun only when all before are over. -/
theorem Manages.isOver_before : d.IsOver k before := by
  have hg := h.sound_graph
  have hlt := h.place_lt hnode htrace ho hsubject hd hp hsubject'
  have hd' : .began k d ∈ x.trace := by rw [htrace]; exact List.mem_append_left _ hd
  obtain ⟨l, hl⟩ := h.exists_moment htrace ho
  obtain ⟨j, hj, hasks⟩ := hl.exists_job hd hp
  have htraced := hl.traced
  obtain rfl := hl.trace_eq
  rcases List.mem_append.mp (h.mem_lifecycle hnode hd' hp hsubject') with hmem' | hmem'
  · rcases hl.heeds hg hnode hsubject with ⟨-, -, hearlier⟩ | ⟨hcleanup, -⟩
    · -- it was answered with success
      obtain ⟨k', a, ha, hpa, -⟩ := hearlier p hmem' hlt
      have ha' : .began k' a.call ∈ x.trace := by
        rw [htrace]; exact List.mem_append_left _ (htraced.began_of_answered ha)
      cases h.eq_of_operation?_eq ha' hd' hpa hp
      exact htraced.isOver_of_answered ha
    · -- its step was handed back before the second stage
      refine htraced.isOver_of_isGone hd hj ?_
      by_contra hgone
      have hlate := hl.sound.late (by rw [hcleanup]; simp) j (List.mem_of_getElem? hj)
        (Bool.eq_false_of_not_eq_true hgone)
      rw [← Step.isCleanup_duty, ← hasks.duty_eq,
        Graph.Node.isCleanup_duty_of_mem_runOperations hmem'] at hlate
      cases hlate
  · -- it stops the container, and the container is to be removed
    have hwhat' : p = .stop node.container.name ∨ p = .remove node.container.name := by
      simpa using hmem'
    rcases hl.heeds hg hnode hsubject with ⟨-, hmem, -⟩ | ⟨hcleanup, hwhat⟩
    · have hearlier := hlt.trans (Graph.Node.place_lt_of_mem_runOperations hmem)
      rcases hwhat' with rfl | rfl <;> simp [Prod.Lex.toLex_lt_toLex] at hearlier
    · rcases hwhat' with rfl | rfl <;> rcases hwhat with rfl | rfl <;>
        simp only [Operation.place_stop, Operation.place_remove, Prod.Lex.toLex_lt_toLex] at hlt
      · omega
      · obtain ⟨s, ending, next, hi, hremove⟩ := hl.asking
        obtain ⟨a, rfl, ha⟩ :=
          hl.exists_answered_stop hg hcleanup hj hasks (List.mem_of_getElem? hi) hremove
        exact htraced.isOver_of_answered ha
      · omega
      · omega

end Trace

section Sequence

variable (h : x.Manages existing g policy)
include h

theorem Manages.cancelled_of_abandoned (hc : .abandoned i c ∈ x.trace) : x.cancelled = true := by
  by_contra hgoing
  suffices ∀ l : Ledger, Relation.ReflTransGen (Ledger.Effect existing false)
      ⟨.start g policy, [], []⟩ l → .abandoned i c ∉ l.trace from
    this _ (h.effects_of_going (Bool.eq_false_of_not_eq_true hgoing)) hc
  intro l heffects
  induction heffects with
  | refl => exact List.not_mem_nil
  | tail _ hlast ih =>
    cases hlast with
    | glide on => cases on <;> simp_all
    | log => simpa using ih
    | _ => exact ih

/-- Every container for which something is asked is one of the graph. -/
theorem Manages.exists_node {container : String} (hc : .began i c ∈ x.trace)
    (ho : x.operation? (.began i c) = some o) (hsubject : o.subject? = some container) :
    ∃ node, g.node? container = some node := by
  have hg := h.sound_graph
  obtain ⟨before, after, htrace⟩ := List.append_of_mem hc
  obtain ⟨l, hl⟩ := h.exists_moment htrace ho
  obtain ⟨s, ending, next, hj, hasks⟩ := hl.asking
  have hm := hl.sound.run.sound hg
  have hwarrants := hm.warranted s (List.mem_map.mpr ⟨_, List.mem_of_getElem? hj, rfl⟩)
  obtain ⟨hcontainer, hbuild⟩ := Operation.container?_duty hsubject
  rw [hasks.duty_eq] at hcontainer hbuild
  cases hcleanup : s.duty.isCleanup with
  | false =>
    obtain ⟨r, h', hr, -, heval⟩ := hwarrants.exists_forRun hcleanup
    rw [Rule.duty_of_evaluate heval] at hcontainer hbuild
    obtain ⟨node, hnode, -⟩ := Plan.serves_of_mem_forRun hg hr hcontainer hbuild
    exact ⟨node, hnode⟩
  | true =>
    obtain ⟨r, first, h', hfirst, hr, hp, heval⟩ := hwarrants.exists_takesDown hg hcleanup
    obtain ⟨reference, hmade⟩ := hr.made_of_container? (Rule.duty_of_evaluate heval ▸ hcontainer)
    obtain ⟨-, -, r', -, -, -, -, hr', hd, -⟩ :=
      hm.grounded.origin (hp.subset (hfirst.subset hmade)) rfl rfl
    obtain ⟨node, hnode, -⟩ := Plan.serves_of_mem_forRun hg hr' (by rw [hd]; rfl) (by simp [hd])
    exact ⟨node, hnode⟩

variable (hnode : g.node? node.container.name = some node)
include hnode

theorem Manages.timely (htrace : x.trace = before ++ .began i c :: after)
    (ho : x.operation? (.began i c) = some o)
    (hsubject : o.subject? = some node.container.name) : x.Timely node before c o := by
  have hg := h.sound_graph
  obtain ⟨l, hl⟩ := h.exists_moment htrace ho
  obtain ⟨s, ending, next, hj, hasks⟩ := hl.asking
  have hm := hl.sound.run.sound hg
  have hwarrants := hm.warranted s (List.mem_map.mpr ⟨_, List.mem_of_getElem? hj, rfl⟩)
  have hheeds : ∀ p ∈ node.runOperations, p.place < o.place → o ∈ node.runOperations →
      ∃ k a, .answered k a ∈ before ∧ x.operation? (.began k a.call) = some p ∧
        a.isSuccess = true := by
    intro p hp hlt hmem
    rcases hl.heeds hg hnode hsubject with ⟨-, -, hearlier⟩ | ⟨-, hwhat⟩
    · exact hearlier p hp hlt
    · have hearly := Graph.Node.isCleanup_duty_of_mem_runOperations hmem
      rcases hwhat with rfl | rfl <;> cases hearly
  refine ⟨fun k d p hd hp hsubject' => h.isOver_before hnode htrace ho hsubject hd hp hsubject',
    fun p hpair => ?_, ?_, ?_, fun reference href => ?_⟩
  · have hlt : p.place < o.place :=
      List.pairwise_iff_forall_sublist.mp node.pairwise_runOperations hpair
    exact hheeds p (hpair.subset (by simp)) hlt (hpair.subset (by simp))
  · rintro index rfl k a m ha hp
    have hbegan := hl.traced.began_of_answered (hl.trace_eq ▸ ha)
    rw [hl.trace_eq] at hbegan
    have htold : ∀ {e}, e ∈ before → e ∈ x.trace := fun he => htrace ▸ List.mem_append_left _ he
    have hmem := h.mem_lifecycle hnode (by simp [htrace]) ho rfl
    have hmem' := h.mem_lifecycle hnode (htold hbegan) hp rfl
    obtain ⟨k', a', ha', hp', hsuccess⟩ := hheeds _
      (Graph.Node.mem_runOperations_of_mem_lifecycle hmem' rfl)
      (h.place_lt hnode htrace ho hsubject hbegan hp rfl)
      (Graph.Node.mem_runOperations_of_mem_lifecycle hmem rfl)
    have hbegan' := hl.traced.began_of_answered (hl.trace_eq ▸ ha')
    rw [hl.trace_eq] at hbegan'
    obtain ⟨rfl, hcall⟩ := Happening.began.inj
      (h.eq_of_operation?_eq (htold hbegan') (htold hbegan) hp' hp)
    rw [← hl.trace_eq] at ha ha'
    exact hl.traced.answer_unique ha' ha hcall ▸ hsuccess
  · rintro index rfl
    exact hwarrants.declared hg hnode hasks
  · have hcreated := hwarrants.created hg (hasks.reference? hsubject href)
    obtain ⟨e, he, hcreation⟩ := List.mem_filterMap.mp (hl.sound.accounted.mem_iff.mpr
      (List.mem_append_left _ (List.mem_filter.mpr ⟨hcreated, rfl⟩)))
    exact ⟨e, hl.trace_eq ▸ he, hcreation⟩

/-- What is asked for a container is asked for in the order of its lifecycle. -/
theorem Manages.sublist_lifecycle :
    (x.operations.filter (·.subject? = some node.container.name)).Sublist node.lifecycle := by
  have hsorted : (x.operations.filter (·.subject? = some node.container.name)).Pairwise
      (·.place < ·.place) := by
    rw [List.pairwise_filter, operations, List.pairwise_filterMap,
      List.pairwise_iff_forall_sublist]
    intro e e' hpair p hp o ho hsubject' hsubject
    obtain ⟨k, -, d, rfl, -, -⟩ := exists_of_operation? hp
    obtain ⟨i, -, c, rfl, -, -⟩ := exists_of_operation? ho
    obtain ⟨before, after, htrace, hd⟩ := exists_split_of_pair hpair
    exact h.place_lt hnode htrace ho (of_decide_eq_true hsubject) hd hp
      (of_decide_eq_true hsubject')
  have hsub : x.operations.filter (·.subject? = some node.container.name) ⊆ node.lifecycle := by
    intro o hmem
    obtain ⟨hmem, hsubject⟩ := List.mem_filter.mp hmem
    obtain ⟨e, he, ho⟩ := List.mem_filterMap.mp hmem
    obtain ⟨i, -, c, rfl, -, -⟩ := exists_of_operation? ho
    exact h.mem_lifecycle hnode he ho (of_decide_eq_true hsubject)
  have : Std.Antisymm fun o p : Operation => o.place < p.place :=
    ⟨fun _ _ hlt hgt => absurd hgt (lt_asymm hlt)⟩
  exact List.sublist_of_subperm_of_pairwise
    (List.subperm_of_subset (h.nodup_operations.filter _) hsub) hsorted node.pairwise_lifecycle

omit hnode in
/-- In a managed run, the calls for each container are made one after the other, in the order of its
lifecycle. -/
theorem Manages.sequential : x.Sequential g where
  known _ _ _ _ := h.exists_node
  order _ := h.sublist_lifecycle
  timely _ hnode _ _ _ _ _ := h.timely hnode
  awaited _ _ := h.cancelled_of_abandoned

omit h hnode in
/-- The database goes through all of its lifecycle. -/
theorem Manages.sequential_for_database : ∃ x : Execution,
    x.Manages none Sample.graph ⟨true, true⟩ ∧
      x.operations.filter (·.subject? = some "db") = [.create "db", .start "db", .awaitHealth "db",
        .exec "db" 0, .stop "db", .remove "db"] ∧
      x.Sequential Sample.graph := by
  obtain ⟨x, hx, hp⟩ := Sample.exists_manages Sample.reply 14 []
    (p := fun x => x.operations.filter (·.subject? = some "db") = [.create "db", .start "db",
      .awaitHealth "db", .exec "db" 0, .stop "db", .remove "db"]) (by decide +kernel)
  exact ⟨x, hx, of_decide_eq_true hp, Manages.sequential hx⟩

end Sequence

end Execution

end ContainerTasks
