/-!
# References to runtime resources

What a container runtime hands back when it has made an image, a network or a container, and the
policy by which an image is fetched.
-/

namespace ContainerTasks

/-- A name as messages show it, in single quotes. -/
def quote (name : String) : String := "'" ++ name ++ "'"

/-- An image that exists in the runtime. -/
structure ImageReference where
  id : String
  deriving DecidableEq, Inhabited

/-- A network that exists in the runtime. -/
structure NetworkReference where
  id : String
  deriving DecidableEq, Inhabited

/-- A container that exists in the runtime, with the name it was given there. -/
structure ContainerReference where
  id : String
  name : String
  deriving DecidableEq, Inhabited

namespace ImageReference

/-- An image is shown by its id. -/
def text (r : ImageReference) : String := r.id

end ImageReference

namespace NetworkReference

/-- A network is shown by its id. -/
def text (r : NetworkReference) : String := r.id

end NetworkReference

namespace ContainerReference

/-- A container is shown by its name, with the id in brackets. -/
def text (r : ContainerReference) : String := r.name ++ " (" ++ r.id ++ ")"

end ContainerReference

/-- When an image is fetched from its registry. -/
inductive PullPolicy where
  /-- Only if the runtime does not have it. -/
  | ifNotPresent
  /-- Each time. -/
  | always
  deriving DecidableEq, Inhabited

namespace PullPolicy

/-- The word for the policy in configurations and in logs. -/
def word : PullPolicy → String
  | ifNotPresent => "if_not_present"
  | always => "always"

/-- The policy of a word. -/
def ofWord? : String → Option PullPolicy
  | "if_not_present" => some ifNotPresent
  | "always" => some always
  | _ => none

/-- The title of the policy in listings of rules. -/
def title : PullPolicy → String
  | ifNotPresent => "IfNotPresent"
  | always => "Always"

theorem ofWord?_word (p : PullPolicy) : ofWord? p.word = some p := by
  cases p <;> rfl

end PullPolicy

end ContainerTasks
