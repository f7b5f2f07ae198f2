import ContainerTasks.Proofs.Accounts

/-!
# Nothing is asked of the runtime twice

For each thing that a task needs of the runtime there is one operation: to make or find the network,
to build the image of a container, to pull an image, to create a container, and so on. However the
jobs take turns, whatever the runtime answers and whenever the run is cancelled, no operation is
asked for twice.

The work on one step asks for its operations in order, none of them twice, and an operation tells
the duty of the step. Two steps that are handed out have two duties; this holds although the rules
of steps that were given up stay ready, and although the plan of the second stage is made anew.

## Main definitions

* `Operation`, `Operation.duty`
* `Step.operation?`: the operation that the work on a step asks for by a call
* `Execution.operation?`, `Execution.operations`: what was asked of the runtime, in order

## Main results

* `Step.nodup_operations`: the work on one step asks for nothing twice
* `Execution.Manages.asks_once`
-/

namespace ContainerTasks

/-- What a task needs of the runtime. -/
inductive Operation where
  /-- The network is made or looked up. -/
  | prepareNetwork
  | build (container : String)
  | pull (imageName : String)
  | create (container : String)
  | start (container : String)
  | awaitExit (container : String)
  | awaitHealth (container : String)
  /-- The setup command of an index is run. -/
  | exec (container : String) (index : Nat)
  | stop (container : String)
  | remove (container : String)
  | deleteNetwork
  deriving DecidableEq

/-- The duty that an operation is for. -/
def Operation.duty : Operation → Duty
  | prepareNetwork => .prepareNetwork
  | build container => .build container
  | pull imageName => .pull imageName
  | create container => .create container
  | start container | awaitExit container => .run container
  | awaitHealth container => .checkHealth container
  | exec container index => .setUp container index
  | stop container => .stop container
  | remove container => .remove container
  | deleteNetwork => .deleteNetwork

namespace Step

/-- The index of the setup command that a step is about, if it is about one. -/
def setupIndex? : Step → Option Nat
  | runSetupCommand _ _ _ index => some index
  | _ => none

/-- The operation that the work on a step asks for by a call. What container the operation is for
is known from the step where the call has but a reference to it. -/
def operation? (s : Step) : Call → Option Operation
  | .createNetwork | .findNetwork _ => some .prepareNetwork
  | .buildImage container => some (.build container.name)
  | .pullImage imageName _ => some (.pull imageName)
  | .createContainer container _ _ => some (.create container.name)
  | .startContainer _ => s.containerName?.map .start
  | .awaitExit _ => s.containerName?.map .awaitExit
  | .awaitHealth _ => s.containerName?.map .awaitHealth
  | .exec .. => s.containerName?.bind fun container => s.setupIndex?.map (.exec container)
  | .stopContainer _ => s.containerName?.map .stop
  | .removeContainer _ => s.containerName?.map .remove
  | .deleteNetwork _ => some .deleteNetwork

variable {existing : Option String} {s : Step} {c : Call} {o : Operation}

/-- In the work on a step a call is made that asks for an operation. -/
inductive Asks : Step → Call → Operation → Prop where
  | createNetwork : Asks .prepareNetwork .createNetwork .prepareNetwork
  | findNetwork {identifier : String} :
    Asks .prepareNetwork (.findNetwork identifier) .prepareNetwork
  | buildImage {container : Container} :
    Asks (.buildImage container) (.buildImage container) (.build container.name)
  | pullImage {imageName : String} {policy : PullPolicy} :
    Asks (.pullImage imageName policy) (.pullImage imageName policy) (.pull imageName)
  | createContainer {container : Container} {image : ImageReference}
    {network : NetworkReference} :
    Asks (.createContainer container image network) (.createContainer container image network)
      (.create container.name)
  | startContainer {container : String} {reference : ContainerReference} {main : Bool} :
    Asks (.runContainer container reference main) (.startContainer reference) (.start container)
  | awaitExit {container : String} {reference : ContainerReference} :
    Asks (.runContainer container reference true) (.awaitExit reference) (.awaitExit container)
  | awaitHealth {container : String} {reference : ContainerReference} :
    Asks (.awaitHealth container reference) (.awaitHealth reference) (.awaitHealth container)
  | exec {container : String} {reference : ContainerReference} {command : SetupCommand}
    {index : Nat} :
    Asks (.runSetupCommand container reference command index) (.exec reference command)
      (.exec container index)
  | stopContainer {container : String} {reference : ContainerReference} :
    Asks (.stopContainer container reference) (.stopContainer reference) (.stop container)
  | removeContainer {container : String} {reference : ContainerReference} :
    Asks (.removeContainer container reference) (.removeContainer reference) (.remove container)
  | deleteNetwork {network : NetworkReference} :
    Asks (.deleteNetwork network) (.deleteNetwork network) .deleteNetwork

/-- Each call of the work on a step asks for an operation. -/
theorem exists_asks (hc : c ∈ s.calls existing) : ∃ o, s.operation? c = some o ∧ s.Asks c o := by
  cases s with
  | prepareNetwork =>
    cases existing with
    | some identifier =>
      rcases List.mem_singleton.mp hc with rfl
      exact ⟨_, rfl, .findNetwork⟩
    | none =>
      rcases List.mem_singleton.mp hc with rfl
      exact ⟨_, rfl, .createNetwork⟩
  | runContainer container reference main =>
    rcases List.mem_cons.mp hc with rfl | hc
    · exact ⟨_, rfl, .startContainer⟩
    · cases main with
      | true =>
        rcases List.mem_singleton.mp hc with rfl
        exact ⟨_, rfl, .awaitExit⟩
      | false => cases hc
  | markReady => cases hc
  | buildImage | pullImage | createContainer | awaitHealth | runSetupCommand | stopContainer
  | removeContainer | deleteNetwork =>
    rcases List.mem_singleton.mp hc with rfl
    exact ⟨_, rfl, by constructor⟩

theorem asks_of_operation? (hc : c ∈ s.calls existing) (ho : s.operation? c = some o) :
    s.Asks c o := by
  obtain ⟨o', ho', hasks⟩ := exists_asks hc
  rw [ho, Option.some.injEq] at ho'
  exact ho' ▸ hasks

/-- What is asked for is for the duty of the step. -/
theorem Asks.duty_eq (h : s.Asks c o) : o.duty = s.duty := by cases h <;> rfl

/-- The work on one step asks for nothing twice. -/
theorem nodup_operations (s : Step) (existing : Option String) :
    ((s.calls existing).filterMap s.operation?).Nodup := by
  cases s with
  | prepareNetwork => cases existing <;> exact List.nodup_singleton _
  | runContainer container reference main =>
    cases main with
    | true =>
      have : [Operation.start container, .awaitExit container].Nodup := by simp
      exact this
    | false => exact List.nodup_singleton _
  | markReady => exact List.nodup_nil
  | buildImage | pullImage | createContainer | awaitHealth | runSetupCommand | stopContainer
  | removeContainer | deleteNetwork => exact List.nodup_singleton _

end Step

/-- What was asked of the runtime when something is seen to begin. -/
def Execution.operation? (x : Execution) : Happening → Option Operation
  | .began job c => x.jobs[job]?.bind (·.step.operation? c)
  | _ => none

/-- What was asked of the runtime, in order. -/
def Execution.operations (x : Execution) : List Operation := x.trace.filterMap x.operation?

/-- A list has nothing twice in view of `f` if this holds of the elements of each key, and elements
with two keys do not look the same. -/
theorem nodup_filterMap_of_key {α β κ : Type} [DecidableEq κ] {l : List α} {f : α → Option β}
    (key : α → Option κ) (hkey : ∀ a ∈ l, ∀ b, f a = some b → ∃ k, key a = some k)
    (hone : ∀ k, ((l.filter (key · = some k)).filterMap f).Nodup)
    (htwo : ∀ a ∈ l, ∀ a' ∈ l, ∀ b, f a = some b → f a' = some b → key a = key a') :
    (l.filterMap f).Nodup := by
  refine List.pairwise_filterMap.mpr (List.pairwise_iff_forall_sublist.mpr fun {a a'} hsub => ?_)
  rintro b hb _ hb' rfl
  have ha : a ∈ l := hsub.subset (by simp)
  have ha' : a' ∈ l := hsub.subset (by simp)
  obtain ⟨k, hk⟩ := hkey a ha b hb
  have hk' : key a' = some k := (htwo a ha a' ha' b hb hb').symm.trans hk
  have hboth : [a, a'].Sublist (l.filter (key · = some k)) := by
    simpa [hk, hk'] using hsub.filter (key · = some k)
  have hpair := List.pairwise_iff_forall_sublist.mp (List.pairwise_filterMap.mp (hone k)) hboth
  exact hpair b hb b hb' rfl

namespace Execution

variable {existing : Option String} {g : Graph} {policy : CleanupPolicy} {x : Execution} {i : Nat}
  {j : Job} {c : Call} {o : Operation}

theorem operation?_began (hj : x.jobs[i]? = some j) :
    x.operation? (.began i c) = j.step.operation? c := by
  rw [operation?, hj]
  rfl

/-- What is asked of the runtime is seen of a job. -/
theorem exists_of_operation? {e : Happening} (he : x.operation? e = some o) :
    ∃ i j c, e = .began i c ∧ x.jobs[i]? = some j ∧ j.step.operation? c = some o := by
  cases e with
  | began i c =>
    obtain ⟨j, hj, ho⟩ := Option.bind_eq_some_iff.mp he
    exact ⟨i, j, c, rfl, hj, ho⟩
  | logged | answered | abandoned | reported => cases he

variable (h : x.Manages existing g policy)
include h

/-- One job asks for nothing twice. -/
theorem Manages.nodup_operations_of_job (i : Nat) :
    ((x.trace.filter (·.caller? = some i)).filterMap x.operation?).Nodup := by
  cases hj : x.jobs[i]? with
  | none =>
    have hnone : x.trace.filter (·.caller? = some i) = [] := by
      refine List.filter_eq_nil_iff.mpr fun e he hcaller => ?_
      have hlt := h.traced.known e he i (of_decide_eq_true hcaller)
      exact Nat.not_le_of_lt hlt (List.getElem?_eq_none_iff.mp hj)
    rw [hnone]
    exact List.nodup_nil
  | some j =>
    have hcalls := (h.traced.accounts i j hj).begun_initial
    have hsame : (x.trace.filter (·.caller? = some i)).filterMap x.operation? =
        ((x.ledger.seen i).filterMap Happening.begun?).filterMap j.step.operation? := by
      rw [List.filterMap_filterMap]
      refine List.filterMap_congr fun e he => ?_
      have hcaller := of_decide_eq_true (List.mem_filter.mp he).2
      cases e with
      | began i' c =>
        obtain rfl : i' = i := Option.some.inj hcaller
        exact operation?_began hj
      | logged | answered | abandoned | reported => rfl
    rw [hsame]
    exact (j.step.nodup_operations existing).sublist (hcalls.sublist.filterMap _)

theorem Manages.isSome_operation? (hc : .began i c ∈ x.trace) :
    (x.operation? (.began i c)).isSome = true := by
  obtain ⟨j, hj, hmem⟩ := h.traced.mem_calls hc
  obtain ⟨o, ho, -⟩ := Step.exists_asks hmem
  rw [operation?_began hj, ho]
  rfl

theorem Manages.nodup_operations : x.operations.Nodup := by
  refine nodup_filterMap_of_key Happening.caller? ?_ h.nodup_operations_of_job ?_
  · intro e _ o he
    obtain ⟨i, -, -, rfl, -⟩ := exists_of_operation? he
    exact ⟨i, rfl⟩
  · -- two jobs have two duties, and an operation tells the duty
    intro e he e' he' o ho ho'
    obtain ⟨i, j, c, rfl, hj, hop⟩ := exists_of_operation? ho
    obtain ⟨k, j', c', rfl, hk, hop'⟩ := exists_of_operation? ho'
    by_contra hne
    have hmem : c ∈ j.step.calls existing := by
      obtain ⟨_, hj', hmem⟩ := h.traced.mem_calls he
      exact Option.some.inj (hj.symm.trans hj') ▸ hmem
    have hmem' : c' ∈ j'.step.calls existing := by
      obtain ⟨_, hk', hmem⟩ := h.traced.mem_calls he'
      exact Option.some.inj (hk.symm.trans hk') ▸ hmem
    refine h.sound.ledger.duty_ne hj hk (fun heq => hne (congrArg some heq)) ?_
    rw [← (Step.asks_of_operation? hmem hop).duty_eq, ← (Step.asks_of_operation? hmem' hop').duty_eq]

/-- In a managed run, each call asks for an operation, and no operation is asked for twice. -/
theorem Manages.asks_once :
    (∀ i c, .began i c ∈ x.trace → (x.operation? (.began i c)).isSome = true) ∧
      x.operations.Nodup :=
  ⟨fun _ _ => h.isSome_operation?, h.nodup_operations⟩

omit h in
/-- The small task asks for fourteen operations, and for none of them twice. -/
theorem Manages.asks_once_for_fourteen : ∃ x : Execution,
    x.Manages none Sample.graph ⟨true, true⟩ ∧ x.operations.length = 14 ∧
      (∀ i c, .began i c ∈ x.trace → (x.operation? (.began i c)).isSome = true) ∧
      x.operations.Nodup := by
  obtain ⟨x, hx, hp⟩ := Sample.exists_manages Sample.reply 14 []
    (p := fun x => x.operations.length = 14) (by decide +kernel)
  exact ⟨x, hx, of_decide_eq_true hp, Manages.asks_once hx⟩

end Execution

end ContainerTasks
