import ContainerTasks.Proofs.Leftovers
import ContainerTasks.Proofs.Operations
import ContainerTasks.Proofs.Successes

/-!
# A task takes down no network but its own

A network is either made for the task or was there before and is only looked up. Nobody keeps a note
of which of the two it is: whoever runs the first step posts one event or another, and what is taken
down or listed for the user is read off the history again. So what has to be shown is that a network
has a *provenance* wherever a deletion is planned, begun or left to the user: the history has the
event that it was made, and so the runtime has said that it has made it, in answer to the one call
that makes a network. Where there was a network before, that call is never made.

## Main definitions

* `Ledger.Made`: the runtime has said that it has made a network
* `Outcome.TellsToDelete`: the user is told to delete a network
* `Execution.SparesNetwork`: a run that has nothing to do with making or deleting a network
* `Execution.DeletesOwn`: a run that deletes at most the one network that it has made

## Main results

* `Machine.Run.mem_of_network_mem_leftovers`, `Machine.Sound.mem_of_deleteNetwork_mem_rules`,
  `Graph.Warrants.mem_of_deleteNetwork`: what is listed, planned or begun goes back to the history
* `Ledger.Traced.made_of_mem`: and the history goes back to an answer
* `Execution.Manages.spares_or_owns_network`
-/

namespace ContainerTasks

/-! ### What goes back to the history -/

variable {existing : Option String} {g : Graph} {policy : CleanupPolicy}
  {network : NetworkReference}

section Histories

variable {m m' : Machine} {handed : List Step} {h : History} {containers : List String}

theorem History.mem_of_network_mem_leftovers (hn : .network network ∈ h.leftovers) :
    .networkCreated network ∈ h :=
  mem_of_createdNetwork? (network_mem_leftovers_iff.mp hn).1

/-- The list stays as it is when a stage is over, or it is made from the history. -/
theorem Machine.AdvancesTo.leftovers_eq_or (ends : m.AdvancesTo m') :
    m'.leftovers = m.leftovers ∨ m'.leftovers = m.history.leftovers := by
  rw [ends.eq, enterNextStage]
  cases m.stage with
  | run =>
    dsimp only
    split
    · exact .inl rfl
    · exact .inr rfl
  | cleanup =>
    by_cases hfailed : m.history.hasCleanupFailures = true
    · exact .inr (if_pos hfailed)
    · exact .inl (if_neg hfailed)
  | finished => exact .inl rfl

/-- A machine lists a network only if its history tells that the network was made. -/
theorem Machine.Run.mem_of_network_mem_leftovers (run : Run existing g policy m handed)
    (hn : .network network ∈ m.leftovers) : .networkCreated network ∈ m.history := by
  induction run with
  | start => cases hn
  | handOut _ _ ih | finishStep _ _ ih => exact ih hn
  | post _ _ ih =>
    rw [leftovers_post] at hn
    rw [history_post]
    exact List.mem_append_left _ (ih hn)
  | advance _ ends ih =>
    rw [ends.history_eq]
    rcases ends.leftovers_eq_or with hlist | hlist
    · exact ih (hlist ▸ hn)
    · exact History.mem_of_network_mem_leftovers (hlist ▸ hn)

/-- A network is planned to be deleted only if the history tells that it was made. -/
theorem Machine.Sound.mem_of_deleteNetwork_mem_rules (hm : m.Sound g policy handed) (hg : g.Sound)
    (hr : .deleteNetwork network containers ∈ m.rules) : .networkCreated network ∈ m.history := by
  cases hs : m.stage with
  | run =>
    have hduty := hm.isCleanup_duty hg hr
    rw [hs] at hduty
    cases hduty
  | cleanup =>
    obtain ⟨first, hfirst, hrules⟩ := hm.rules_cleanup hs
    rw [hrules] at hr
    cases Plan.mem_forCleanup.mp hr with
    | deleteNetwork own => exact hfirst.subset (Plan.mem_of_ownNetwork? own)
  | finished => exact absurd hs (hm.stage_ne_finished hr)

/-- A step that deletes a network is handed out only if the history tells that it was made. -/
theorem Graph.Warrants.mem_of_deleteNetwork (hw : g.Warrants h (.deleteNetwork network))
    (hg : g.Sound) : .networkCreated network ∈ h := by
  obtain ⟨r, first, h', hfirst, htakes, hp, hready⟩ := hw.exists_takesDown hg rfl
  cases Rule.standsFor_of_evaluate hready
  cases htakes with
  | deleteNetwork own => exact (hfirst.trans hp).subset (Plan.mem_of_ownNetwork? own)

end Histories

/-! ### What goes back to an answer -/

namespace Ledger

/-- The runtime has said that it has made the network. -/
def Made (l : Ledger) (network : NetworkReference) : Prop :=
  ∃ k, .answered k ⟨.createNetwork, .ok network⟩ ∈ l.trace

variable {l : Ledger} {i : Nat} {network' : NetworkReference}

/-- The only step that makes a network is the first one, and it does so only if there is none. -/
theorem Traced.of_began_createNetwork (hl : l.Traced existing)
    (hc : .began i .createNetwork ∈ l.trace) :
    existing = none ∧ ∃ j, l.jobs[i]? = some j ∧ j.step = .prepareNetwork := by
  obtain ⟨j, hj, hcalls⟩ := hl.mem_calls hc
  obtain ⟨o, -, hasks⟩ := Step.exists_asks hcalls
  obtain hstep : j.step = .prepareNetwork := by
    generalize j.step = s at hasks
    cases hasks
    rfl
  rw [hstep] at hcalls
  cases existing with
  | none => exact ⟨rfl, j, hj, hstep⟩
  | some identifier => cases List.mem_singleton.mp hcalls

/-- No two networks are made. -/
theorem Traced.made_unique (hl : l.Traced existing) (hsound : l.Sound existing g policy)
    (hmade : l.Made network) (hmade' : l.Made network') : network = network' := by
  obtain ⟨k, hk⟩ := hmade
  obtain ⟨k', hk'⟩ := hmade'
  obtain ⟨-, j, hj, hstep⟩ := hl.of_began_createNetwork (hl.began_of_answered hk)
  obtain ⟨-, j', hj', hstep'⟩ := hl.of_began_createNetwork (hl.began_of_answered hk')
  obtain rfl : k = k' := by
    by_contra hne
    exact hsound.duty_ne hj hj' hne (by rw [hstep, hstep'])
  have hanswer := hl.answer_unique hk hk' rfl
  simpa using hanswer

/-- If the history tells that a network was made, then the runtime has said so. -/
theorem Traced.made_of_mem (hl : l.Traced existing) (hsound : l.Sound existing g policy)
    (hg : g.Sound) (he : .networkCreated network ∈ l.machine.history) : l.Made network := by
  obtain ⟨i, j, -, hduty, hpreamble | ⟨a, ha, hreport⟩⟩ :=
    hl.exists_of_mem_history hsound hg he rfl
  · generalize j.step = s at hpreamble
    cases s <;> simp [Step.preamble] at hpreamble
  · obtain hstep : j.step = .prepareNetwork := by
      generalize j.step = s at hduty
      cases s <;> first | rfl | cases hduty
    rw [hstep] at hreport
    obtain ⟨c, reply⟩ := a
    cases c <;> simp only [Step.report?, reduceCtorEq] at hreport
    · cases reply <;> simp [Reply.event?] at hreport
      exact ⟨i, hreport ▸ ha⟩
    · cases reply <;> simp [Reply.event?] at hreport

end Ledger

/-! ### What the user is told -/

/-- The user is told to delete the network of the identifier. -/
def Outcome.TellsToDelete (o : Outcome) (id : String) : Prop :=
  "docker network rm " ++ id ∈ o.leftovers.map Leftover.command

theorem Leftover.command_container_ne (reference : ContainerReference) (id : String) :
    (Leftover.container reference).command ≠ "docker network rm " ++ id := by
  intro hcommand
  have hchars : ("docker rm --force " ++ reference.id).toList =
      ("docker network rm " ++ id).toList := congrArg String.toList hcommand
  simp at hchars

theorem Leftover.command_network_inj {id : String}
    (hcommand : (Leftover.network network).command = "docker network rm " ++ id) :
    network = ⟨id⟩ := by
  obtain ⟨name⟩ := network
  have hname : name = id := (String.append_right_inj "docker network rm ").mp hcommand
  rw [hname]

/-- The command stands for a network that is left over, and for nothing else. -/
theorem Outcome.tellsToDelete_iff {o : Outcome} {id : String} :
    o.TellsToDelete id ↔ .network ⟨id⟩ ∈ o.leftovers := by
  rw [TellsToDelete, List.mem_map]
  constructor
  · rintro ⟨container | network, hmem, hcommand⟩
    · exact absurd hcommand (Leftover.command_container_ne _ _)
    · exact Leftover.command_network_inj hcommand ▸ hmem
  · intro hmem
    exact ⟨_, hmem, rfl⟩

namespace Execution

/-- The run has nothing to do with making or deleting a network. -/
structure SparesNetwork (x : Execution) : Prop where
  uncalled : ∀ i c, .began i c ∈ x.trace →
    c ≠ .createNetwork ∧ ∀ network, c ≠ .deleteNetwork network
  unplanned : ∀ network containers, .deleteNetwork network containers ∉ x.machine.rules
  unlisted : ∀ id, ¬ x.machine.outcome.TellsToDelete id
  untold : ∀ o, x.outcome? = some o → ∀ id, ¬ o.TellsToDelete id

/-- The run deletes at most the one network that it has made itself. -/
structure DeletesOwn (x : Execution) : Prop where
  unique : ∀ network network', x.ledger.Made network → x.ledger.Made network' → network = network'
  /-- A call that deletes a network begins after the answer that it was made. -/
  called : ∀ i network, .began i (.deleteNetwork network) ∈ x.trace →
    ∃ k, [.answered k ⟨.createNetwork, .ok network⟩, .began i (.deleteNetwork network)].Sublist
      x.trace
  planned : ∀ network containers, .deleteNetwork network containers ∈ x.machine.rules →
    x.ledger.Made network
  listed : ∀ id, x.machine.outcome.TellsToDelete id → x.ledger.Made ⟨id⟩
  told : ∀ o, x.outcome? = some o → ∀ id, o.TellsToDelete id → x.ledger.Made ⟨id⟩

variable {x : Execution} {o : Outcome} {i : Nat} {before after : List Happening}
  (h : x.Manages existing g policy)
include h

theorem Manages.made_of_mem (he : .networkCreated network ∈ x.machine.history) :
    x.ledger.Made network :=
  h.traced.made_of_mem h.sound.ledger h.sound_graph he

/-- What an outcome lists goes back to the history. -/
theorem Manages.mem_of_returned (ho : x.manager = .returned o)
    (hn : .network network ∈ o.leftovers) : .networkCreated network ∈ x.machine.history := by
  refine h.moves_induction (P := fun x => ∀ o, x.manager = .returned o →
    .network network ∈ o.leftovers → .networkCreated network ∈ x.machine.history) ?_ ?_ o ho hn
  · intro limit cancelled first hfirst o ho
    obtain rfl := eq_of_start? hfirst
    cases ho
  · intro x y move hx ih hm o ho hn
    have hgrows := (hx.sound.grows hx.sound_graph hm).1.subset
    rcases (hx.continuesTo hm).returned_or_eq_outcome ho with ho | ⟨-, rfl⟩
    · exact hgrows (ih o ho hn)
    · exact hgrows (hx.sound.ledger.run.mem_of_network_mem_leftovers hn)

/-- When the deletion of a network begins, the runtime has said that it was made. -/
theorem Manages.made_before
    (htrace : x.trace = before ++ .began i (.deleteNetwork network) :: after) :
    ∃ k, .answered k ⟨.createNetwork, .ok network⟩ ∈ before := by
  obtain ⟨l, hl, htraced, -, rfl, -, s, o, next, hj⟩ :=
    h.exists_of_began (P := fun _ => True) trivial (fun _ _ _ _ _ _ => trivial) htrace
  obtain rfl : s = .deleteNetwork network := by
    obtain ⟨_, -, hasks⟩ := Step.exists_asks (htraced.accounts i _ hj).mem_calls
    cases hasks
    rfl
  have hhanded := List.mem_map_of_mem (f := Job.step) (List.mem_of_getElem? hj)
  have hwarrants := (hl.run.sound h.sound_graph).warranted _ hhanded
  exact htraced.made_of_mem hl h.sound_graph (hwarrants.mem_of_deleteNetwork h.sound_graph)

/-- A managed run deletes at most the one network that it has made itself. -/
theorem Manages.deletesOwn : x.DeletesOwn where
  unique _ _ := h.traced.made_unique h.sound.ledger
  called i network hc := by
    obtain ⟨before, after, htrace⟩ := List.append_of_mem hc
    obtain ⟨k, hk⟩ := h.made_before htrace
    refine ⟨k, ?_⟩
    have hbegan : [.began i (.deleteNetwork network)].Sublist
        (.began i (.deleteNetwork network) :: after) :=
      List.singleton_sublist.mpr (List.mem_cons_self ..)
    rw [htrace]
    exact (List.singleton_sublist.mpr hk).append hbegan
  planned _ _ hr := h.made_of_mem
    ((h.sound.ledger.run.sound h.sound_graph).mem_of_deleteNetwork_mem_rules h.sound_graph hr)
  listed _ htells := h.made_of_mem
    (h.sound.ledger.run.mem_of_network_mem_leftovers (Outcome.tellsToDelete_iff.mp htells))
  told _ ho _ htells := h.made_of_mem
    (h.mem_of_returned (Execution.returned_of_outcome? ho) (Outcome.tellsToDelete_iff.mp htells))

omit h in
/-- A run that was given a network has made none. -/
theorem Manages.not_made {identifier : String} (h : x.Manages (some identifier) g policy) :
    ¬ x.ledger.Made network := by
  rintro ⟨k, hk⟩
  cases (h.traced.of_began_createNetwork (h.traced.began_of_answered hk)).1

omit h in
theorem Manages.sparesNetwork {identifier : String} (h : x.Manages (some identifier) g policy) :
    x.SparesNetwork where
  uncalled i c hc := by
    constructor
    · rintro rfl
      cases (h.traced.of_began_createNetwork hc).1
    · rintro network rfl
      obtain ⟨k, hsub⟩ := h.deletesOwn.called i network hc
      exact h.not_made ⟨k, hsub.subset (List.mem_cons_self ..)⟩
  unplanned _ _ hr := h.not_made (h.deletesOwn.planned _ _ hr)
  unlisted _ htells := h.not_made (h.deletesOwn.listed _ htells)
  untold _ ho _ htells := h.not_made (h.deletesOwn.told _ ho _ htells)

/-- **A task takes down no network but its own.** A run that was given a network neither makes nor
deletes one, and never tells the user to delete one. Any other run deletes, or tells the user to
delete, at most the network that the runtime has made for it. -/
theorem Manages.spares_or_owns_network :
    (∀ identifier, existing = some identifier → x.SparesNetwork) ∧
      (existing = none → x.DeletesOwn) := by
  refine ⟨?_, fun _ => h.deletesOwn⟩
  rintro identifier rfl
  exact h.sparesNetwork

end Execution

/-! ### Two runs of the small task -/

namespace Sample

/-- The small task on a network that was there before. -/
def runOn? (identifier : String) (steps : Nat) (moves : List Move) : Option Execution :=
  ((Execution.start? (.start graph ⟨true, true⟩) (some identifier) none false).bind
    (·.inTurn? reply steps)).bind (·.after? moves)

theorem manages_of_runOn? {identifier : String} {steps : Nat} {moves : List Move} {x : Execution}
    (h : runOn? identifier steps moves = some x) :
    x.Manages (some identifier) graph ⟨true, true⟩ := by
  simp only [runOn?, Option.bind_eq_some_iff] at h
  obtain ⟨y, ⟨first, hfirst, hy⟩, h⟩ := h
  have hreach : first.Reachable x := (Execution.Reachable.refl.inTurn? hy).after? h
  exact ⟨⟨task, catalogue, build_eq⟩, none, false, first, hfirst, hreach⟩

end Sample

/-- A run on a network that was there before, and one that cannot get rid of its own. -/
theorem Execution.Manages.spares_or_owns_network_small :
    (∃ x : Execution, x.Manages (some "net") Sample.graph ⟨true, true⟩ ∧
      x.machine.stage = .finished ∧ .networkFound ⟨"network"⟩ ∈ x.machine.history ∧
      x.SparesNetwork) ∧
    ∃ x : Execution, x.Manages none Sample.graph ⟨true, true⟩ ∧
      x.machine.stage = .finished ∧ x.machine.outcome.TellsToDelete "network" ∧ x.DeletesOwn := by
  constructor
  · have hrun : (Sample.runOn? "net" 13 [.dispatch]).map (fun x =>
        decide (x.machine.stage = .finished ∧
          .networkFound ⟨"network"⟩ ∈ x.machine.history)) = some true := by
      decide +kernel
    obtain ⟨x, hx, hp⟩ := Option.map_eq_some_iff.mp hrun
    obtain ⟨hs, hchecked⟩ := of_decide_eq_true hp
    have hmanages := Sample.manages_of_runOn? hx
    exact ⟨x, hmanages, hs, hchecked, hmanages.spares_or_owns_network.1 _ rfl⟩
  · obtain ⟨x, hmanages, hp⟩ := Sample.exists_manages
      (Sample.replyBut (.deleteNetwork ⟨"network"⟩) fun _ => .failed "in use") 14 [.dispatch]
      (p := fun x => decide (x.machine.stage = .finished ∧
        .network ⟨"network"⟩ ∈ x.machine.outcome.leftovers))
      (by decide +kernel)
    obtain ⟨hs, hleft⟩ := of_decide_eq_true hp
    exact ⟨x, hmanages, hs, Outcome.tellsToDelete_iff.mpr hleft,
      hmanages.spares_or_owns_network.2 rfl⟩

end ContainerTasks
