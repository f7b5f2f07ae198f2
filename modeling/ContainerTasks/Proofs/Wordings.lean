import ContainerTasks.Config.Validation
import ContainerTasks.Graph
import ContainerTasks.Step
import ContainerTasks.TaskOrder

/-!
# What messages show

A fault carries the names of what it is about, and its message shows them all, so that nobody has to
look for the container or the task that is meant. The name of the kind of a step is shown where work
ends unexpectedly; it tells which kind it is, since no two kinds go by one name.

## Main definitions

* `Shown`: a name stands somewhere in a text
* `Mention.name`, `Graph.Fault.names`, `TaskOrder.Fault.names`, `Config.Flaw.particulars`: what a
  message is about
* `Step.kinds`: the names of the kinds of steps

## Main results

* `Mention.shown_text`, `Graph.Fault.shown_message`, `TaskOrder.Fault.shown_message`,
  `Config.Flaw.shown_message`: the message shows what it is about
* `Step.kind_ne_empty`, `Step.kind_eq_iff`
-/

namespace ContainerTasks

/-! ### Names in a text -/

/-- The name stands somewhere in the text. -/
def Shown (name text : String) : Prop := name.toList <:+: text.toList

section Texts

variable {name a b separator : String} {names : List String}

@[grind ←]
theorem shown_self (name : String) : Shown name name := List.infix_rfl

@[grind ←]
theorem Shown.append_right (h : Shown name a) (b : String) : Shown name (a ++ b) := by
  rw [Shown, String.toList_append]
  exact h.trans (List.prefix_append _ _).isInfix

@[grind ←]
theorem Shown.append_left (a : String) (h : Shown name b) : Shown name (a ++ b) := by
  rw [Shown, String.toList_append]
  exact h.trans (List.suffix_append _ _).isInfix

@[grind ←]
theorem shown_quote (name : String) : Shown name (quote name) :=
  ((shown_self name).append_left _).append_right _

/-- All names of a list that is written out are shown. -/
@[grind ←]
theorem shown_intercalate (h : name ∈ names) : Shown name (separator.intercalate names) := by
  induction names with
  | nil => cases h
  | cons first rest ih =>
    cases rest with
    | nil =>
      rw [List.mem_singleton.mp h, String.intercalate_singleton]
      exact shown_self first
    | cons second rest =>
      rw [String.intercalate_cons_cons]
      rcases List.mem_cons.mp h with rfl | h
      · exact ((shown_self name).append_right _).append_right _
      · exact (ih h).append_left _

end Texts

/-! ### Graphs -/

/-- Who it is that mentions a container. -/
def Mention.name : Mention → String
  | byTask task => task
  | byContainer container => container

@[grind ←]
theorem Mention.shown_text (m : Mention) : Shown m.name m.text := by
  cases m with
  | byTask task => exact (shown_quote task).append_left _
  | byContainer container => exact (shown_quote container).append_left _

/-- What a fault of a graph is about. -/
def Graph.Fault.names : Graph.Fault → List String
  | missingContainer container mention => [container, mention.name]
  | selfDependency container => [container]
  | cycle task containers => task :: containers

theorem Graph.Fault.shown_message (f : Graph.Fault) : ∀ n ∈ f.names, Shown n f.message := by
  unfold message
  cases f <;> dsimp only [names] <;> grind

/-! ### Task orders -/

/-- What a fault of an order is about. -/
def TaskOrder.Fault.names : TaskOrder.Fault → List String
  | unknownTask name => [name]
  | cycle path => path

theorem TaskOrder.Fault.shown_message (f : TaskOrder.Fault) : ∀ n ∈ f.names, Shown n f.message := by
  unfold message
  cases f <;> dsimp only [names] <;> grind

/-! ### Configurations -/

namespace Config.Flaw

/-- What a flaw is about: containers, tasks, and which of the setup commands it is. -/
def particulars : Flaw → List String
  | noTasks | noParallelism | blankProjectName => []
  | imageAndBuildDirectory container | noImage container | selfDependency container => [container]
  | unknownDependency container dependency => [container, dependency]
  | blankSetupCommand container index => [container, toString index]
  | emptyTask task | dependenciesWithoutRun task | prerequisiteCycle task => [task]
  | runsUnknown task container | customisesMain task container
  | unknownTaskDependency task container | customisesUnknown task container => [task, container]
  | unknownPrerequisite task prerequisite => [task, prerequisite]

@[grind ←]
theorem shown_fault {name text : String} (h : Shown name text) : Shown name (message.fault text) :=
  h.append_left _

theorem shown_message (f : Flaw) : ∀ n ∈ f.particulars, Shown n f.message := by
  unfold message
  cases f <;> dsimp only [particulars] <;> grind

end Config.Flaw

/-! ### Steps -/

namespace Step

/-- The names of the kinds of steps, in the order in which the kinds are declared. -/
def kinds : List String :=
  ["PrepareTaskNetwork", "BuildImage", "PullImage", "CreateContainer", "RunContainer",
    "WaitForContainerToBecomeHealthy", "RunSetupCommand", "MarkContainerReady", "StopContainer",
    "RemoveContainer", "DeleteTaskNetwork"]

theorem getElem?_kinds (s : Step) : kinds[s.ctorIdx]? = some s.kind := by
  cases s <;> rfl

theorem kind_ne_empty (s : Step) : s.kind ≠ "" := by
  have hmem : s.kind ∈ kinds := List.mem_of_getElem? s.getElem?_kinds
  have hnone : "" ∉ kinds := by decide
  exact fun hempty => hnone (hempty ▸ hmem)

/-- Steps of different kinds go by different names. -/
theorem kind_eq_iff (s t : Step) : s.kind = t.kind ↔ s.ctorIdx = t.ctorIdx := by
  have hnodup : kinds.Nodup := by decide
  have hlt : s.ctorIdx < kinds.length := (List.getElem?_eq_some_iff.mp s.getElem?_kinds).1
  rw [← Option.some_inj, ← s.getElem?_kinds, ← t.getElem?_kinds]
  exact List.getElem?_inj hlt hnodup

end Step

end ContainerTasks
