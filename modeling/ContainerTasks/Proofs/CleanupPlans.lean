import ContainerTasks.Proofs.Graphs
import ContainerTasks.Proofs.Histories
import Mathlib.Data.List.Nodup

/-!
# The plan of the second stage

The plan is made from what the first stage has left behind. It has a rule to remove each container
that was made, newest first, a rule to stop each that still runs, and a rule to delete the network
that was made for the task.

## Main definitions

* `Plan.TakesDown`: the rules of the plan, kind by kind
* `Rule.removal?`: what a rule removes

## Main results

* `Plan.mem_forCleanup`: what is in the plan
* `Plan.filterMap_forCleanup`, `Plan.removals_forCleanup`: what the plan removes, in order
* `Plan.nodup_duty_forCleanup`: no two rules of the plan have the same duty
-/

namespace ContainerTasks

/-- What a rule removes. -/
def Rule.removal? : Rule → Option (String × ContainerReference)
  | removeContainer container reference _ => some (container, reference)
  | _ => none

namespace Plan

variable {g : Graph} {h : History} {r : Rule} {c d : String} {reference : ContainerReference}

theorem needsStop_iff : needsStop h c = true ↔
    (∃ reference, .containerCreated c reference ∈ h) ∧ .containerStarted c ∈ h ∧
      h.isStopped c = false ∧ h.isRemoved c = false := by
  simp only [needsStop, Bool.and_eq_true, Bool.not_eq_true', List.any_eq_true, decide_eq_true_eq,
    Prod.exists, History.mem_created, History.hasStarted_iff, and_assoc]
  refine and_congr_left' ⟨?_, ?_⟩
  · rintro ⟨_, reference, hmade, rfl⟩
    exact ⟨reference, hmade⟩
  · rintro ⟨reference, hmade⟩
    exact ⟨c, reference, hmade, rfl⟩

/-- If nothing was taken down, a container that was started still runs unless it has come to its end
by itself. -/
theorem needsStop_of_making (hmaking : ∀ e ∈ h, ∀ d, e.duty? = some d → d.isCleanup = false)
    (hmade : .containerCreated c reference ∈ h) (hstarted : .containerStarted c ∈ h)
    (hruns : ∀ exitCode, .containerExited c exitCode ∉ h) : needsStop h c = true :=
  needsStop_iff.mpr ⟨⟨reference, hmade⟩, hstarted, History.isStopped_eq_false hmaking hruns,
    History.isRemoved_eq_false hmaking c⟩

theorem mem_stopAfter : d ∈ stopAfter g h c ↔
    (∃ dependents, g.dependentsOf? c = some dependents ∧ d ∈ dependents) ∧
      needsStop h d = true := by
  unfold stopAfter
  cases g.dependentsOf? c with
  | none => simp
  | some dependents => simp

/-- A container is stopped after those that depend on it and were left running. -/
theorem mem_stopAfter_iff_dependsOn (hg : g.Sound) :
    d ∈ stopAfter g h c ↔ g.DependsOn d c ∧ needsStop h d = true := by
  rw [mem_stopAfter, hg.exists_dependentsOf?_iff]

theorem mem_of_ownNetwork? {network : NetworkReference} (hown : ownNetwork? h = some network) :
    .networkCreated network ∈ h := by
  unfold ownNetwork? at hown
  split at hown
  · cases hown
  · exact History.mem_of_createdNetwork? hown

/-- The rules of the plan, kind by kind. -/
inductive TakesDown (g : Graph) (h : History) : Rule → Prop where
  | stop {c : String} {reference : ContainerReference} (made : .containerCreated c reference ∈ h)
    (running : needsStop h c = true) :
    TakesDown g h (.stopContainer c reference (stopAfter g h c))
  | remove {c : String} {reference : ContainerReference} (made : .containerCreated c reference ∈ h)
    (there : h.isRemoved c = false) :
    TakesDown g h (.removeContainer c reference (needsStop h c))
  | deleteNetwork {network : NetworkReference} (own : ownNetwork? h = some network) :
    TakesDown g h (.deleteNetwork network (h.created.map (·.1)))

theorem mem_takeDown : r ∈ takeDown g h c reference ↔
    (needsStop h c = true ∧ r = .stopContainer c reference (stopAfter g h c)) ∨
      (h.isRemoved c = false ∧ r = .removeContainer c reference (needsStop h c)) := by
  unfold takeDown
  cases needsStop h c <;> cases h.isRemoved c <;> simp

theorem mem_forCleanup : r ∈ forCleanup g h ↔ TakesDown g h r := by
  simp only [forCleanup, List.mem_append, List.mem_flatMap, List.mem_reverse, Prod.exists,
    History.mem_created, mem_takeDown, List.mem_map, Option.mem_toList]
  constructor
  · rintro (⟨c, reference, made, ⟨running, rfl⟩ | ⟨there, rfl⟩⟩ | ⟨network, own, rfl⟩)
    · exact .stop made running
    · exact .remove made there
    · exact .deleteNetwork own
  · rintro (⟨made, running⟩ | ⟨made, there⟩ | own)
    · exact .inl ⟨_, _, made, .inl ⟨running, rfl⟩⟩
    · exact .inl ⟨_, _, made, .inr ⟨there, rfl⟩⟩
    · exact .inr ⟨_, own, rfl⟩

/-- What is taken down is known when the plan is made. -/
theorem TakesDown.exists_step (hr : TakesDown g h r) : ∃ s, ∀ h', r.step? h' = some s := by
  cases hr <;> exact ⟨_, fun _ => rfl⟩

theorem TakesDown.isCleanup_duty (hr : TakesDown g h r) : r.duty.isCleanup = true := by
  cases hr <;> rfl

/-- The plan is about no container that was not made. -/
theorem TakesDown.made_of_container? (hr : TakesDown g h r) (hc : r.duty.container? = some c) :
    ∃ reference, .containerCreated c reference ∈ h := by
  cases hr with
  | stop made | remove made =>
    cases hc
    exact ⟨_, made⟩
  | deleteNetwork => cases hc

/-- What a plan says to somebody who asks of its rules to remove something and of none to stop
something. -/
theorem filterMap_forCleanup {α : Type} {f : Rule → Option α}
    (listed : String × ContainerReference → α)
    (hstop : ∀ c reference after, f (.stopContainer c reference after) = none)
    (hremove : ∀ e wait, f (.removeContainer e.1 e.2 wait) = some (listed e)) :
    (forCleanup g h).filterMap f =
      (h.created.reverse.filter fun e => !h.isRemoved e.1).map listed ++
        ((ownNetwork? h).toList.map (.deleteNetwork · (h.created.map (·.1)))).filterMap f := by
  have hone : ∀ e : String × ContainerReference, (takeDown g h e.1 e.2).filterMap f =
      if h.isRemoved e.1 then [] else [listed e] := by
    intro e
    unfold takeDown
    cases needsStop h e.1 <;> cases h.isRemoved e.1 <;> simp [hstop, hremove e]
  rw [forCleanup, List.filterMap_append, List.filterMap_flatMap]
  simp only [hone]
  refine congrArg (· ++ _) ?_
  induction h.created.reverse with
  | nil => rfl
  | cons e made ih =>
    rw [List.flatMap_cons, ih]
    cases hremoved : h.isRemoved e.1 <;> simp [hremoved]

/-- The plan removes the containers that are there still, newest first. -/
theorem removals_forCleanup : (forCleanup g h).filterMap Rule.removal? =
    h.created.reverse.filter fun e => !h.isRemoved e.1 := by
  have hnetwork : ((ownNetwork? h).toList.map
      (Rule.deleteNetwork · (h.created.map (·.1)))).filterMap Rule.removal? = [] := by
    cases ownNetwork? h <;> rfl
  rw [filterMap_forCleanup id (fun _ _ _ => rfl) (fun _ _ => rfl), hnetwork, List.append_nil,
    List.map_id]

/-- No two rules of the plan have the same duty, unless a name was used twice. -/
theorem nodup_duty_forCleanup (hnames : (h.created.map (·.1)).Nodup) :
    ((forCleanup g h).map Rule.duty).Nodup := by
  have hmem : ∀ c reference d, d ∈ (takeDown g h c reference).map Rule.duty →
      d = .stop c ∨ d = .remove c := by
    intro c reference d hd
    obtain ⟨r, hr, rfl⟩ := List.mem_map.mp hd
    rcases mem_takeDown.mp hr with ⟨-, rfl⟩ | ⟨-, rfl⟩
    · exact .inl rfl
    · exact .inr rfl
  have hcontainers : ∀ made : List (String × ContainerReference), (made.map (·.1)).Nodup →
      ((made.flatMap fun e => takeDown g h e.1 e.2).map Rule.duty).Nodup := by
    intro made hmade
    rw [List.map_flatMap]
    refine List.nodup_flatMap.mpr ⟨fun e _ => ?_, (List.pairwise_map.mp hmade).imp ?_⟩
    · unfold takeDown
      cases needsStop h e.1 <;> cases h.isRemoved e.1 <;> simp [Rule.duty]
    · intro a b hne d ha hb
      rcases hmem _ _ _ ha with rfl | rfl <;> rcases hmem _ _ _ hb with hd | hd
      · exact hne (Duty.stop.inj hd)
      · cases hd
      · cases hd
      · exact hne (Duty.remove.inj hd)
  rw [forCleanup, List.map_append, List.nodup_append]
  refine ⟨hcontainers _ (by simpa using hnames), ?_, ?_⟩
  · cases ownNetwork? h <;> simp
  · rintro d hd _ hd' rfl
    obtain ⟨r, hr, rfl⟩ := List.mem_map.mp hd
    obtain ⟨r', hr', heq⟩ := List.mem_map.mp hd'
    obtain ⟨network, -, rfl⟩ := List.mem_map.mp hr'
    obtain ⟨e, -, hr⟩ := List.mem_flatMap.mp hr
    rcases hmem _ _ _ (List.mem_map_of_mem hr) with hd | hd <;> rw [hd] at heq <;> cases heq

end Plan

end ContainerTasks
