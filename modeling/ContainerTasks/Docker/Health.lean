import ContainerTasks.Json.Reading

/-!
# The state of a container

Docker tells the state of a container as a JSON text, of which three fields count.

## Main definitions

* `Docker.ContainerState`, `Docker.ContainerState.read?`
* `Docker.Health`, `Docker.ContainerState.verdict`: what the state says about the health
-/

namespace ContainerTasks.Docker

/-- What counts of the state of a container. -/
structure ContainerState where
  running : Bool
  exitCode : Int
  /-- The status of the health check, if there is one. -/
  health : Option String
  deriving DecidableEq

namespace ContainerState

/-- The status of a health check. -/
def status? (health : JsonText) : Option String := do
  match ← health.record? ["Status"] with
  | [some (.string status)] => status
  | _ => none

/-- The state of a record. A field that is not there is a zero exit code or no health check. -/
def ofJson? (state : JsonText) : Option ContainerState := do
  match ← state.record? ["Running", "ExitCode", "Health"] with
  | [some (.bool running), exitCode, health] =>
    let exitCode ← match exitCode with
      | none => some 0
      | some (.whole n) =>
        if Int64.minValue.toInt ≤ n ∧ n ≤ Int64.maxValue.toInt then some n else none
      | some _ => none
    let health ← match health with
      | none | some .null => some none
      | some health => (status? health).map some
    return ⟨running, exitCode, health⟩
  | _ => none

/-- The state that a text tells. -/
def read? (text : String) : Option ContainerState := do ofJson? (← JsonText.read? text)

end ContainerState

/-- What a state says about the health of a container. -/
inductive Health where
  | healthy
  /-- It will not become healthy. -/
  | failed (message : String)
  | undecided
  deriving DecidableEq

/-- What a state says about the health of a container. -/
def ContainerState.verdict (state : ContainerState) : Health :=
  match state.health with
  | none => .failed "container has no health check"
  | some "healthy" => .healthy
  | some "unhealthy" => .failed "container became unhealthy"
  | some _ =>
    if state.running then .undecided
    else .failed
      ("container exited with code " ++ toString state.exitCode ++ " before becoming healthy")

end ContainerTasks.Docker
