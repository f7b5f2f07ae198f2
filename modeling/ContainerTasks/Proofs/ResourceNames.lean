import ContainerTasks.Docker.Client
import ContainerTasks.Proofs.Numerals
import Mathlib.Data.List.Nodup

/-!
# No name is made twice

Networks and containers get names that end in the number of the process and in a number that the
process counts up. There is a dash before each of the two numbers and none inside them, so both can
be told from the end of a name, whatever stands in front: the name of a project or a container may
have dashes and numbers of its own. This is why two names are different if they are made by different
processes or one after the other by the same.

The count starts anew after as many names as there are numbers of 64 bits.

## Main definitions

* `Call.isNaming`: the calls that make something with a name of its own
* `Docker.Client.names`: the names that are made for calls
* `Docker.Client.given`: the names that docker has been given
* `Docker.Process`: a process with a docker client

## Main results

* `Docker.Naming.EndsIn.unique`: what the end of a name tells
* `Docker.Client.gives_serve`: what names a call comes to
* `Docker.Process.names_distinct`
-/

namespace ContainerTasks

/-- Whether a call makes something with a name of its own. -/
def Call.isNaming : Call → Bool
  | createNetwork | createContainer .. => true
  | buildImage _ | pullImage .. | findNetwork _ | startContainer _ | awaitExit _ | awaitHealth _
  | exec .. | stopContainer _ | removeContainer _ | deleteNetwork _ => false

namespace Docker

/-! ### The end of a name -/

/-- Only one part of a list follows the last occurrence of something. -/
theorem eq_of_append_cons_eq {α : Type} {x : α} {a b s t : List α} (h : a ++ x :: s = b ++ x :: t)
    (hs : x ∉ s) (ht : x ∉ t) : a = b ∧ s = t := by
  rcases List.append_eq_append_iff.mp h with ⟨mid, rfl, hmid⟩ | ⟨mid, rfl, hmid⟩ <;>
    rcases mid with _ | ⟨y, mid⟩ <;> simp_all

namespace Naming

/-- The name ends in the number of a process and a count. -/
def EndsIn (process count : Nat) (name : String) : Prop :=
  ∃ front, name = front ++ "-" ++ (toString process ++ "-" ++ toString count)

theorem dash_notMem_toString (n : Nat) : '-' ∉ (toString n).toList := fun h =>
  absurd (isDigit_of_mem_toString h) (by decide)

/-- A name ends in only one way. -/
theorem EndsIn.unique {p q m k : Nat} {name : String} (h : EndsIn p m name)
    (h' : EndsIn q k name) : p = q ∧ m = k := by
  have hchars (front : String) (p m : Nat) :
      (front ++ "-" ++ (toString p ++ "-" ++ toString m)).toList =
        (front.toList ++ '-' :: (toString p).toList) ++ '-' :: (toString m).toList := by
    simp only [String.toList_append, List.append_assoc]
    rfl
  obtain ⟨front, rfl⟩ := h
  obtain ⟨front', heq⟩ := h'
  have hlists := congrArg String.toList heq
  rw [hchars, hchars] at hlists
  obtain ⟨hfront, hcount⟩ :=
    eq_of_append_cons_eq hlists (dash_notMem_toString m) (dash_notMem_toString k)
  obtain ⟨-, hprocess⟩ :=
    eq_of_append_cons_eq hfront (dash_notMem_toString p) (dash_notMem_toString q)
  exact ⟨eq_of_toString_eq (String.toList_injective hprocess),
    eq_of_toString_eq (String.toList_injective hcount)⟩

/-! ### Names and calls -/

/-- The name that a call needs, if it makes something. -/
def nameFor? (n : Naming) : Call → Option String
  | .createNetwork => some n.networkName
  | .createContainer container _ _ => some (n.containerName container.name)
  | _ => none

/-- The naming after a call. -/
def after (n : Naming) (call : Call) : Naming := if call.isNaming then n.next else n

theorem isSome_nameFor? (n : Naming) (call : Call) :
    (n.nameFor? call).isSome = call.isNaming := by
  cases call <;> rfl

@[simp] theorem process_after (n : Naming) (call : Call) : (n.after call).process = n.process := by
  unfold after
  split <;> rfl

/-- How many more names have been made after a call. The count may start anew, so that it is less. -/
theorem counter_after_le (n : Naming) (call : Call) :
    (n.after call).counter.toNat ≤ n.counter.toNat + if call.isNaming then 1 else 0 := by
  unfold after next
  split
  · rw [UInt64.toNat_add]
    exact Nat.mod_le _ _
  · exact Nat.le_refl _

theorem counter_after {n : Naming} {call : Call}
    (h : (n.counter.toNat + if call.isNaming then 1 else 0) < UInt64.size) :
    (n.after call).counter.toNat = n.counter.toNat + if call.isNaming then 1 else 0 := by
  unfold after next
  split
  · next hnaming =>
    rw [if_pos hnaming] at h
    rw [UInt64.toNat_add]
    exact Nat.mod_eq_of_lt h
  · rfl

theorem endsIn_of_nameFor? {n : Naming} {process : Nat} (hprocess : n.process = toString process)
    {call : Call} {name : String} (h : n.nameFor? call = some name) :
    EndsIn process n.counter.toNat name := by
  cases call with
  | createNetwork =>
    obtain rfl := Option.some.inj h
    exact ⟨n.projectName, by rw [networkName, suffix, hprocess]⟩
  | createContainer container =>
    obtain rfl := Option.some.inj h
    exact ⟨n.projectName ++ "-" ++ container.name, by rw [containerName, suffix, hprocess]⟩
  | _ => cases h

end Naming

/-! ### What a client does about names -/

/-- The name that an invocation of docker gives to something. -/
def givenName? : List String → Option String
  | ["network", "create", name] => some name
  | "create" :: "--name" :: name :: _ => some name
  | _ => none

namespace Client

variable {c d e : Client} {fresh : List String}

/-- The names that docker has been given, oldest first. -/
def given (c : Client) : List String := c.invocations.filterMap givenName?

/-- One client has come from another without having made a name. At most the names of the list have
been given to docker meanwhile. -/
structure Gives (c d : Client) (fresh : List String) : Prop where
  naming_eq : d.naming = c.naming
  given : d.given.Sublist (c.given ++ fresh)

theorem Gives.trans (h : c.Gives d []) (h' : d.Gives e fresh) : c.Gives e fresh where
  naming_eq := h'.naming_eq.trans h.naming_eq
  given := h'.given.trans ((List.append_nil c.given ▸ h.given).append_right fresh)

theorem Gives.refl (c : Client) : c.Gives c [] := ⟨rfl, List.sublist_append_left _ _⟩

/-! What an operation leaves of the client is what its invocations leave. -/

theorem snd_ask (c : Client) (arguments : List String) :
    (c.ask arguments).2 = (c.run arguments).2 := by
  unfold ask
  rcases c.run arguments with ⟨_ | _, _⟩
  · rfl
  · dsimp only
    split <;> rfl

theorem snd_stream (c : Client) (arguments : List String) :
    (c.stream arguments).2.2 = (c.run arguments).2 := by
  unfold stream
  rcases c.run arguments with ⟨_ | _, _⟩
  · rfl
  · dsimp only
    split <;> rfl

theorem snd_exec (c : Client) (reference : ContainerReference) (command : SetupCommand) :
    (c.exec reference command).2 = (c.run (execArguments reference command)).2 := by
  unfold exec
  rcases c.run (execArguments reference command) with ⟨_ | _, _⟩ <;> rfl

theorem snd_hasImage (c : Client) (imageName : String) : (c.hasImage imageName).2 =
    (c.run ["image", "inspect", "--format", "\x7b\x7b.Id\x7d\x7d", imageName]).2 := by
  rw [← snd_ask]
  unfold hasImage
  split <;> next heq => rw [heq]

theorem snd_inspect (c : Client) (reference : ContainerReference) : (c.inspect reference).2 =
    (c.run ["inspect", "--format", "\x7b\x7bjson .State\x7d\x7d", reference.id]).2 := by
  rw [← snd_ask]
  unfold inspect
  split
  · next heq =>
    rw [heq]
    split <;> rfl
  · next heq => rw [heq]

/-! Only the operations that make something give a name to docker. -/

theorem gives_run (c : Client) (arguments : List String) :
    c.Gives (c.run arguments).2 (givenName? arguments).toList := by
  unfold run
  split
  · exact ⟨rfl, List.sublist_append_left _ _⟩
  · refine ⟨rfl, ?_⟩
    cases h : givenName? arguments <;> simp [Client.given, h]

theorem gives_ask (c : Client) (arguments : List String) :
    c.Gives (c.ask arguments).2 (givenName? arguments).toList :=
  c.snd_ask arguments ▸ c.gives_run arguments

theorem gives_stream (c : Client) (arguments : List String) :
    c.Gives (c.stream arguments).2.2 (givenName? arguments).toList :=
  c.snd_stream arguments ▸ c.gives_run arguments

theorem gives_follow (c : Client) (reference : ContainerReference) :
    c.Gives (c.follow reference).2 [] := by
  unfold follow
  split <;> exact ⟨rfl, List.sublist_append_left _ _⟩

theorem gives_buildImage (c : Client) (container : Container) :
    c.Gives (c.buildImage container).2.2 [] := by
  unfold buildImage
  split
  · exact .refl c
  · exact c.gives_stream _

theorem gives_pullImage (c : Client) (imageName : String) (policy : PullPolicy) :
    c.Gives (c.pullImage imageName policy).2.2 [] := by
  have hfetch (d : Client) : d.Gives (d.fetchImage imageName).2.2 [] := d.gives_stream _
  have hlook : c.Gives (c.hasImage imageName).2 [] := c.snd_hasImage imageName ▸ c.gives_run _
  cases policy with
  | always => exact hfetch c
  | ifNotPresent =>
    unfold pullImage
    dsimp only
    split
    · next heq => rwa [heq] at hlook
    · next heq =>
      rw [heq] at hlook
      exact hlook.trans (hfetch _)

theorem gives_inspect (c : Client) (reference : ContainerReference) :
    c.Gives (c.inspect reference).2 [] :=
  c.snd_inspect reference ▸ c.gives_run _

theorem gives_awaitHealthWithin (c : Client) (reference : ContainerReference) (polls : Nat) :
    c.Gives (c.awaitHealthWithin reference polls).2 [] := by
  induction polls generalizing c with
  | zero => exact .refl c
  | succ polls ih =>
    have hinspect := c.gives_inspect reference
    unfold awaitHealthWithin
    split
    · next heq =>
      rw [heq] at hinspect
      split
      · exact hinspect
      · exact hinspect
      · exact hinspect.trans (ih _)
    · next heq => rwa [heq] at hinspect

theorem gives_awaitExit (c : Client) (reference : ContainerReference) :
    c.Gives (c.awaitExit reference).2 [] := by
  have hfollow := c.gives_follow reference
  unfold awaitExit
  split
  · next heq => rwa [heq] at hfollow
  · next d heq =>
    rw [heq] at hfollow
    have hask := hfollow.trans (d.gives_ask ["wait", reference.id])
    split <;> next heq => rwa [heq] at hask

/-- What names a call comes to. -/
theorem gives_serve (c : Client) (call : Call) :
    Gives { c with naming := c.naming.after call } (serve call c).2
      (c.naming.nameFor? call).toList := by
  cases call with
  | buildImage container => exact c.gives_buildImage container
  | pullImage imageName policy => exact c.gives_pullImage imageName policy
  | createNetwork | createContainer => exact c.named.gives_ask _
  | awaitExit reference => exact c.gives_awaitExit reference
  | awaitHealth reference =>
    have hawait := c.gives_awaitHealthWithin reference c.program.variety
    simp only [serve, awaitHealth]
    split <;> next heq => rwa [heq] at hawait
  | exec reference command => exact c.snd_exec reference command ▸ c.gives_run _
  | findNetwork | startContainer | stopContainer | removeContainer | deleteNetwork =>
    exact c.gives_ask _

/-! ### The names that are made for calls -/

/-- The client after several calls. -/
def serveAll (c : Client) : List Call → Client
  | [] => c
  | call :: rest => (serve call c).2.serveAll rest

/-- The names that are made for several calls, in order. -/
def names (c : Client) : List Call → List String
  | [] => []
  | call :: rest => (c.naming.nameFor? call).toList ++ (serve call c).2.names rest

/-- Every call that makes something has a name made for it. -/
theorem length_names (c : Client) (calls : List Call) :
    (c.names calls).length = calls.countP Call.isNaming := by
  induction calls generalizing c with
  | nil => rfl
  | cons call rest ih =>
    rw [names, List.length_append, ih, List.countP_cons, ← c.naming.isSome_nameFor? call, add_comm]
    cases c.naming.nameFor? call <;> rfl

/-- Docker is given no other names, nor any of them twice. -/
theorem given_serveAll (c : Client) (calls : List Call) :
    (c.serveAll calls).given.Sublist (c.given ++ c.names calls) := by
  induction calls generalizing c with
  | nil => exact List.sublist_append_left _ _
  | cons call rest ih =>
    have hcall := (c.gives_serve call).given.append_right ((serve call c).2.names rest)
    rw [List.append_assoc] at hcall
    exact (ih _).trans hcall

/-- A client of a process with a given number, before calls for which the count is enough. -/
structure HasRoom (process : Nat) (calls : List Call) (c : Client) : Prop where
  process_eq : c.naming.process = toString process
  few : c.naming.counter.toNat + calls.countP Call.isNaming ≤ UInt64.size

section Room

variable {process : Nat} {calls rest : List Call} {call : Call} {name : String}

theorem HasRoom.serve (h : c.HasRoom process (call :: rest)) :
    (serve call c).2.HasRoom process rest := by
  have hfew := h.few
  have hle := c.naming.counter_after_le call
  rw [List.countP_cons] at hfew
  constructor <;> rw [(c.gives_serve call).naming_eq]
  · exact (c.naming.process_after call).trans h.process_eq
  · dsimp only
    omega

/-- If there are further names, then the count has not started anew. -/
theorem HasRoom.counter_serve (h : c.HasRoom process (call :: rest))
    (hname : name ∈ (Client.serve call c).2.names rest) :
    (Client.serve call c).2.naming.counter.toNat =
      c.naming.counter.toNat + if call.isNaming then 1 else 0 := by
  have hfew := h.few
  have hmore := length_names _ rest ▸ List.length_pos_of_mem hname
  rw [List.countP_cons] at hfew
  rw [(c.gives_serve call).naming_eq]
  exact Naming.counter_after (by omega)

/-- The names that are made from a count on end in counts from there on. -/
theorem HasRoom.endsIn (h : c.HasRoom process calls) (hname : name ∈ c.names calls) :
    ∃ count, c.naming.counter.toNat ≤ count ∧ Naming.EndsIn process count name := by
  induction calls generalizing c with
  | nil => cases hname
  | cons call rest ih =>
    rw [names, List.mem_append, Option.mem_toList] at hname
    rcases hname with hhead | hrest
    · exact ⟨_, Nat.le_refl _, Naming.endsIn_of_nameFor? h.process_eq hhead⟩
    · obtain ⟨count, hle, hends⟩ := ih h.serve hrest
      rw [h.counter_serve hrest] at hle
      exact ⟨count, (Nat.le_add_right _ _).trans hle, hends⟩

/-- A client makes no name twice. -/
theorem HasRoom.nodup_names (h : c.HasRoom process calls) : (c.names calls).Nodup := by
  induction calls generalizing c with
  | nil => exact List.nodup_nil
  | cons call rest ih =>
    have hrest := ih h.serve
    rw [names]
    cases hcall : c.naming.nameFor? call with
    | none => exact hrest
    | some name =>
      refine List.nodup_cons.mpr ⟨fun hagain => ?_, hrest⟩
      -- a later name ends in a larger count
      obtain ⟨count, hle, hends⟩ := h.serve.endsIn hagain
      have hnaming : call.isNaming = true := by
        rw [← c.naming.isSome_nameFor? call, hcall, Option.isSome_some]
      rw [h.counter_serve hagain, if_pos hnaming,
        (hends.unique (Naming.endsIn_of_nameFor? h.process_eq hcall)).2] at hle
      exact Nat.not_succ_le_self _ hle

end Room

end Client

/-! ### Processes -/

/-- A process that makes calls with a docker client. -/
structure Process where
  number : Nat
  projectName : String
  /-- The docker program, as the process finds it. -/
  program : Program
  calls : List Call

namespace Process

/-- The client of a process at its beginning. -/
def client (p : Process) : Client := .new ⟨p.projectName, toString p.number, 0⟩ p.program

/-- The names that a process makes. -/
def names (p : Process) : List String := p.client.names p.calls

/-- The names that a process gives to docker. -/
def given (p : Process) : List String := (p.client.serveAll p.calls).given

theorem hasRoom {p : Process} (hfew : p.calls.countP Call.isNaming < UInt64.size) :
    p.client.HasRoom p.number p.calls where
  process_eq := rfl
  few := by
    rw [client, Client.new]
    exact (Nat.zero_add _).le.trans hfew.le

/-- **All names of networks and containers are different** that processes make whose numbers are
different, as long as none of them makes too many for its count. Each network and each container
gets such a name, and docker is given no others, nor any of them twice. -/
theorem names_distinct {processes : List Process}
    (hnumbers : (processes.map (·.number)).Nodup)
    (hfew : ∀ p ∈ processes, p.calls.countP Call.isNaming < UInt64.size) :
    (processes.flatMap names).Nodup ∧
      ∀ p ∈ processes, p.names.length = p.calls.countP Call.isNaming ∧
        p.given.Sublist p.names := by
  constructor
  · refine List.nodup_flatMap.mpr ⟨fun p hp => (hasRoom (hfew p hp)).nodup_names, ?_⟩
    rw [List.nodup_iff_pairwise_ne, List.pairwise_map] at hnumbers
    refine hnumbers.imp_of_mem fun {p q} hp hq hne name hname hname' => hne ?_
    obtain ⟨_, -, hends⟩ := (hasRoom (hfew p hp)).endsIn hname
    obtain ⟨_, -, hends'⟩ := (hasRoom (hfew q hq)).endsIn hname'
    exact (hends.unique hends').1
  · exact fun p _ => ⟨p.client.length_names p.calls, p.client.given_serveAll p.calls⟩

end Process

end Docker

namespace Sample

/-- Two processes of which the first one uses names that look like names of the second. -/
def rivals : List Docker.Process :=
  let create (name : String) : Call := .createContainer { (default : Container) with name } ⟨""⟩ ⟨""⟩
  [⟨1, "web", ⟨true, []⟩, [.createNetwork, create "1", create "web-11", create "1-1"]⟩,
    ⟨11, "web", ⟨false, []⟩, [create "1", .createNetwork, .createNetwork]⟩]

end Sample

/-- Names with dashes and numbers do not make names equal. Docker is not given the names of a process
that cannot start it. -/
theorem Docker.Process.names_distinct_rivals :
    Sample.rivals.flatMap Docker.Process.names =
      ["web-1-0", "web-1-1-1", "web-web-11-1-2", "web-1-1-1-3", "web-1-11-0", "web-11-1",
        "web-11-2"] ∧
      (Sample.rivals.flatMap Docker.Process.names).Nodup ∧
      Sample.rivals.map Docker.Process.given =
        [["web-1-0", "web-1-1-1", "web-web-11-1-2", "web-1-1-1-3"], []] :=
  ⟨by decide +kernel, (Docker.Process.names_distinct (by decide) (by decide)).1,
    by decide +kernel⟩

end ContainerTasks
