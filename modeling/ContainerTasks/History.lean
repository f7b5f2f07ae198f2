import ContainerTasks.Event

/-!
# Histories

The events of a task, oldest first. Rules are decided by asking a history what has happened; each
question looks at all events, and of several answers the oldest one counts.

## Main definitions

* `History`: a list of events
* questions about the network, about images and about one container
* `History.created`: the containers made, in order
* `History.failures`
-/

namespace ContainerTasks

/-- The events of a task so far, oldest first. -/
abbrev History := List Event

namespace History

variable (h : History)

/-! ### The network -/

/-- The network to attach containers to, made for the task or found. -/
def network? : Option NetworkReference :=
  h.findSome? fun
    | .networkCreated network | .networkFound network => some network
    | _ => none

/-- The network made for the task. -/
def createdNetwork? : Option NetworkReference :=
  h.findSome? fun
    | .networkCreated network => some network
    | _ => none

/-- The network could be neither made nor found. -/
def networkPreparationFailed : Bool :=
  h.any fun
    | .networkCreationFailed _ | .networkCheckFailed .. => true
    | _ => false

def networkDeleted : Bool :=
  h.any fun
    | .networkDeleted => true
    | _ => false

def networkDeletionFailed : Bool :=
  h.any fun
    | .networkDeletionFailed _ => true
    | _ => false

/-! ### Images -/

/-- The image built for a container. -/
def builtImage? (container : String) : Option ImageReference :=
  h.findSome? fun
    | .imageBuilt c image => if c = container then some image else none
    | _ => none

/-- The image that an image name was pulled to. -/
def pulledImage? (imageName : String) : Option ImageReference :=
  h.findSome? fun
    | .imagePulled n image => if n = imageName then some image else none
    | _ => none

def imageBuildFailed (container : String) : Bool :=
  h.any fun
    | .imageBuildFailed c _ => c = container
    | _ => false

def imagePullFailed (imageName : String) : Bool :=
  h.any fun
    | .imagePullFailed n _ => n = imageName
    | _ => false

/-! ### One container -/

/-- What the container is called in the runtime. -/
def reference? (container : String) : Option ContainerReference :=
  h.findSome? fun
    | .containerCreated c reference => if c = container then some reference else none
    | _ => none

def creationFailed (container : String) : Bool :=
  h.any fun
    | .containerCreationFailed c _ => c = container
    | _ => false

def hasStarted (container : String) : Bool :=
  h.any fun
    | .containerStarted c => c = container
    | _ => false

def runFailed (container : String) : Bool :=
  h.any fun
    | .containerRunFailed c _ => c = container
    | _ => false

/-- The exit code of a container that was run to its end. -/
def exitCode? (container : String) : Option Int :=
  h.findSome? fun
    | .containerExited c exitCode => if c = container then some exitCode else none
    | _ => none

def isHealthy (container : String) : Bool :=
  h.any fun
    | .containerHealthy c => c = container
    | _ => false

def isUnhealthy (container : String) : Bool :=
  h.any fun
    | .containerUnhealthy c _ => c = container
    | _ => false

def setupCompleted (container : String) (index : Nat) : Bool :=
  h.any fun
    | .setupCommandCompleted c i => c = container && i = index
    | _ => false

/-- The setup command gave a bad exit code or could not be run. -/
def setupFailed (container : String) (index : Nat) : Bool :=
  h.any fun
    | .setupCommandFailed c _ i _ _ | .setupCommandError c _ i _ => c = container && i = index
    | _ => false

def isReady (container : String) : Bool :=
  h.any fun
    | .containerReady c => c = container
    | _ => false

/-- The container was stopped, or came to its end by itself. -/
def isStopped (container : String) : Bool :=
  h.any fun
    | .containerStopped c | .containerExited c _ => c = container
    | _ => false

def stopFailed (container : String) : Bool :=
  h.any fun
    | .containerStopFailed c _ => c = container
    | _ => false

def isRemoved (container : String) : Bool :=
  h.any fun
    | .containerRemoved c => c = container
    | _ => false

def removalFailed (container : String) : Bool :=
  h.any fun
    | .containerRemovalFailed c _ => c = container
    | _ => false

/-! ### The whole run -/

/-- The containers made, oldest first. A name that was made twice is listed twice. -/
def created : List (String × ContainerReference) :=
  h.filterMap fun
    | .containerCreated container reference => some (container, reference)
    | _ => none

/-- The failures, oldest first. -/
def failures : List Event := h.filter Event.isFailure

def hasFailures : Bool := h.any Event.isFailure

def hasCleanupFailures : Bool := h.any Event.isCleanupFailure

end History

end ContainerTasks
