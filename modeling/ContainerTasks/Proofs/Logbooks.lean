import ContainerTasks.Proofs.LogEvents
import ContainerTasks.Proofs.ManagedRuns
import ContainerTasks.Proofs.Moves

/-!
# What is logged and what is recorded

Whoever posts an event does two things: the event is logged, and then the machine records it, unless
it is for the log alone. In between others go on with their work, but nobody else logs or records
anything. So the machine's history is what has been logged, in the same order and without the events
for the log alone; only the event that was logged last may still be on its way. Whatever the machine
decides on has been logged before.

## Main definitions

* `Execution.logbook`: the events that were logged
* `Execution.Posts`: what a move comes to for those who post
* `Execution.Agrees`: the invariant that ties the history to the log
* `Execution.Concurs`: what the history has to do with the log

## Main results

* `Execution.posts_of_next?`: one move
* `Execution.Manages.agrees`: all along a managed run
* `Execution.Manages.concurs`
-/

namespace ContainerTasks

/-- The event that is logged. -/
def Happening.event? : Happening → Option Event
  | logged e => some e
  | began .. | answered .. | abandoned .. | reported .. => none

namespace Execution

/-- The events that were logged, oldest first. -/
def logbook (x : Execution) : List Event := x.trace.filterMap Happening.event?

variable {existing : Option String} {g : Graph} {policy : CleanupPolicy} {x y : Execution}
  {move : Move} {job : Nat} {j : Job}

theorem mem_logbook {e : Event} : e ∈ x.logbook ↔ .logged e ∈ x.trace := by
  refine List.mem_filterMap.trans ⟨?_, fun he => ⟨_, he, rfl⟩⟩
  rintro ⟨happening, hin, hevent⟩
  cases happening <;> simp only [Happening.event?, Option.some.injEq, reduceCtorEq] at hevent
  exact hevent ▸ hin

theorem logbook_append {happening : Happening} (h : y.trace = x.trace ++ [happening]) :
    y.logbook = x.logbook ++ happening.event?.toList := by
  rw [logbook, h, List.filterMap_append]
  cases happening <;> rfl

/-! ### One move -/

/-- What a move comes to for those who post events, and for the watcher. -/
inductive Posts (x y : Execution) : Prop where
  /-- Nobody posts anything, and whoever has logged an event is still about to record it. -/
  | silent (logbook_eq : y.logbook = x.logbook) (history_eq : y.machine.history = x.machine.history)
    (posting_eq : y.posting = x.posting)
    (stays : ∀ poster, x.posting = some poster → y.nextPost? poster = x.nextPost? poster)
    (watcher_eq : y.watcher = x.watcher ∨ x.watcher = .asleep ∧ y.watcher ≠ .done)
  /-- An event for the log alone is logged. -/
  | mention {e : Event} (free : x.posting = none) (forLog : e.isInformational = true)
    (logbook_eq : y.logbook = x.logbook ++ [e]) (history_eq : y.machine.history = x.machine.history)
    (posting_eq : y.posting = none) (watcher_eq : y.watcher = x.watcher)
  | log {poster : Poster} {e : Event} (free : x.posting = none)
    (next : x.nextPost? poster = some e) (forHistory : e.isInformational = false)
    (logbook_eq : y.logbook = x.logbook ++ [e]) (history_eq : y.machine.history = x.machine.history)
    (posting_eq : y.posting = some poster) (stays : y.nextPost? poster = some e)
    (watcher_eq : y.watcher = x.watcher)
  | record {poster : Poster} {e : Event} (posting : x.posting = some poster)
    (next : x.nextPost? poster = some e) (logbook_eq : y.logbook = x.logbook)
    (history_eq : y.machine.history = x.machine.history ++ [e]) (posting_eq : y.posting = none)
    (watcher_eq : y.watcher = if poster = .watcher then .done else x.watcher)

/-- Others than those who post go on with their work. -/
theorem Posts.of_jobs (hx : x.InOrder) (hlogbook : y.logbook = x.logbook)
    (hhistory : y.machine.history = x.machine.history) (hposting : y.posting = x.posting)
    (hwatcher : y.watcher = x.watcher)
    (hjobs : ∀ (i : Nat) (j : Job), x.jobs[i]? = some j → j.nextPost?.isSome = true →
      y.jobs[i]? = some j) : x.Posts y :=
  .silent hlogbook hhistory hposting
    (fun _ => hx.recordable.nextPost?_eq hjobs hwatcher.trans) (.inl hwatcher)

/-- A job that does not post goes on with its work. -/
theorem Posts.of_job (hx : x.InOrder) {f : Job → Job} (hj : x.jobs[job]? = some j)
    (hquiet : j.nextPost? = none) (hjobs : y.jobs = x.jobs.modify job f)
    (hlogbook : y.logbook = x.logbook) (hhistory : y.machine.history = x.machine.history)
    (hposting : y.posting = x.posting) (hwatcher : y.watcher = x.watcher) : x.Posts y :=
  .of_jobs hx hlogbook hhistory hposting hwatcher (stays_of_modify hj hquiet hjobs)

/-- Nothing that counts for those who post is touched. -/
theorem Posts.of_eq (hlogbook : y.logbook = x.logbook)
    (hhistory : y.machine.history = x.machine.history) (hposting : y.posting = x.posting)
    (hjobs : y.jobs = x.jobs) (hwatcher : y.watcher = x.watcher) : x.Posts y :=
  .silent hlogbook hhistory hposting
    (fun poster _ => by cases poster <;> simp only [nextPost?, hjobs, hwatcher]) (.inl hwatcher)

/-- The watcher does something other than to post. -/
theorem Posts.of_watcher (hx : x.InOrder) (hlogbook : y.logbook = x.logbook)
    (hhistory : y.machine.history = x.machine.history) (hposting : y.posting = x.posting)
    (hjobs : y.jobs = x.jobs) (hasleep : x.watcher = .asleep) (hwatcher : y.watcher ≠ .done) :
    x.Posts y := by
  refine .silent hlogbook hhistory hposting (fun _ => ?_) (.inr ⟨hasleep, hwatcher⟩)
  refine hx.recordable.nextPost?_eq (fun _ _ hj _ => hjobs ▸ hj) fun hawake => ?_
  rw [hasleep] at hawake
  cases hawake

/-- What a move comes to for those who post. -/
theorem posts_of_takes (hx : x.InOrder) (h : x.Takes move y) : x.Posts y := by
  have hsaw : ∀ happening, (x.saw happening).logbook = x.logbook ++ happening.event?.toList :=
    fun _ => logbook_append rfl
  have hquiet : ∀ happening : Happening, happening.event? = none →
      (x.saw happening).logbook = x.logbook := by
    intro happening hnone
    rw [hsaw, hnone]
    exact List.append_nil _
  cases h with
  | handOut _ asked =>
    refine .of_jobs hx rfl (Machine.history_of_pop asked) rfl rfl fun i j hj _ => ?_
    exact (List.getElem?_append_left (List.getElem?_eq_some_iff.mp hj).1).trans hj
  | join _ asked => exact .of_eq rfl (Machine.history_of_pop asked) rfl rfl rfl
  | drop on | arrive on | enter on | takePermit on | joinLine on | giveUp on | begin on | check on
  | skip on | release on | giveBack on | finish on =>
    exact .of_job hx on rfl rfl rfl rfl rfl rfl
  | settle on | fail on => exact .of_job hx on rfl (jobs_setPhase_setEnding ..) rfl rfl rfl rfl
  | call on | report on | answer on | abandon on =>
    exact .of_job hx on rfl rfl (hquiet _ rfl) rfl rfl rfl
  | @handOver job head rest s o on needs waiting =>
    -- the job at the head of the line waits, so it does not post either
    obtain ⟨s', o', -, hhead⟩ := hx.exists_head on waiting
    refine .of_jobs hx rfl rfl rfl rfl fun i j hj hpost => ?_
    have hreleased : (x.setPhase job .released).jobs[i]? = some j :=
      stays_of_modify on rfl rfl i j hj hpost
    exact stays_of_modify hhead rfl rfl i j hreleased hpost
  | mention on free forLog =>
    exact .mention free forLog (hsaw _) rfl free rfl
  | progress on free tells =>
    exact .mention free (Call.isInformational_of_progress? tells) (hsaw _) rfl free rfl
  | @log poster e free next forHistory =>
    refine .log free next forHistory (hsaw (.logged e)) rfl rfl ?_ rfl
    cases poster <;> exact next
  | record on posting =>
    exact .record posting (nextPost?_job on rfl) rfl (Machine.history_post ..) rfl rfl
  | recordFailure on posting =>
    exact .record posting (nextPost?_job on rfl) rfl (Machine.history_post ..) rfl rfl
  | recordInterrupt posting awake =>
    exact .record posting (if_pos awake) rfl (Machine.history_post ..) rfl rfl
  | cancel | conclude | heed => exact .of_eq rfl rfl rfl rfl rfl
  | wake asleep => exact .of_watcher hx rfl rfl rfl rfl asleep nofun
  | dismiss =>
    by_cases hasleep : x.watcher = .asleep
    · exact .of_watcher hx rfl rfl rfl rfl hasleep (by simp [hasleep])
    · exact .of_eq rfl rfl rfl rfl (if_neg hasleep)

theorem posts_of_next? (hx : x.InOrder) (h : x.next? move = some y) : x.Posts y :=
  posts_of_takes hx (takes_of_next? h)

/-! ### All moves -/

/-- The history is what was logged, without the events for the log alone and without the event that
somebody is about to record. -/
def Agrees (x : Execution) : Prop :=
  match x.posting with
  | none => History.heard x.logbook = x.machine.history
  | some poster => ∃ earlier e, x.nextPost? poster = some e ∧ e.isInformational = false ∧
    x.logbook = earlier ++ [e] ∧ History.heard earlier = x.machine.history

theorem heard_append_of_forHistory {h : History} {e : Event} (he : e.isInformational = false) :
    History.heard (h ++ [e]) = h.heard ++ [e] := by
  simp [History.heard, he]

theorem Agrees.of_free (hx : x.Agrees) (hfree : x.posting = none) :
    History.heard x.logbook = x.machine.history := by
  rw [Agrees, hfree] at hx
  exact hx

theorem Agrees.of_posting (hx : x.Agrees) {poster : Poster} (hposting : x.posting = some poster) :
    ∃ earlier e, x.nextPost? poster = some e ∧ e.isInformational = false ∧
      x.logbook = earlier ++ [e] ∧ History.heard earlier = x.machine.history := by
  rw [Agrees, hposting] at hx
  exact hx

theorem agrees_of_free (hfree : x.posting = none)
    (h : History.heard x.logbook = x.machine.history) : x.Agrees := by
  rw [Agrees, hfree]
  exact h

theorem agrees_of_posting {poster : Poster} (hposting : x.posting = some poster)
    (h : ∃ earlier e, x.nextPost? poster = some e ∧ e.isInformational = false ∧
      x.logbook = earlier ++ [e] ∧ History.heard earlier = x.machine.history) : x.Agrees := by
  rw [Agrees, hposting]
  exact h

/-- A move keeps the history in agreement with the log. -/
theorem Agrees.posts (hx : x.Agrees) (h : x.Posts y) : y.Agrees := by
  cases h with
  | silent logbook_eq history_eq posting_eq stays =>
    cases hposting : x.posting with
    | none =>
      refine agrees_of_free (posting_eq.trans hposting) ?_
      rw [logbook_eq, history_eq]
      exact hx.of_free hposting
    | some poster =>
      refine agrees_of_posting (posting_eq.trans hposting) ?_
      rw [stays poster hposting, logbook_eq, history_eq]
      exact hx.of_posting hposting
  | mention free forLog logbook_eq history_eq posting_eq =>
    refine agrees_of_free posting_eq ?_
    rw [logbook_eq, history_eq, ← hx.of_free free]
    simp [History.heard, forLog]
  | @log poster e free next forHistory logbook_eq history_eq posting_eq stays =>
    exact agrees_of_posting posting_eq
      ⟨x.logbook, e, stays, forHistory, logbook_eq, (hx.of_free free).trans history_eq.symm⟩
  | record posting next logbook_eq history_eq posting_eq =>
    obtain ⟨earlier, e, hnext, hrecord, hlogbook, hearlier⟩ := hx.of_posting posting
    obtain rfl := Option.some.inj (hnext.symm.trans next)
    refine agrees_of_free posting_eq ?_
    rw [logbook_eq, history_eq, hlogbook, heard_append_of_forHistory hrecord, hearlier]

/-- What is in the history was logged. -/
theorem Agrees.mem_logbook_of_mem_history (hx : x.Agrees) {e : Event}
    (he : e ∈ x.machine.history) : e ∈ x.logbook := by
  cases hposting : x.posting with
  | none =>
    rw [← hx.of_free hposting] at he
    exact List.mem_of_mem_filter he
  | some poster =>
    obtain ⟨earlier, last, -, -, hlogbook, hearlier⟩ := hx.of_posting hposting
    rw [← hearlier] at he
    exact hlogbook ▸ List.mem_append_left _ (List.mem_of_mem_filter he)

/-- What is in the history is not for the log alone. -/
theorem Agrees.not_isInformational (hx : x.Agrees) {e : Event} (he : e ∈ x.machine.history) :
    e.isInformational = false := by
  have hheard : ∃ events, History.heard events = x.machine.history := by
    cases hposting : x.posting with
    | none => exact ⟨_, hx.of_free hposting⟩
    | some poster =>
      obtain ⟨earlier, -, -, -, -, hearlier⟩ := hx.of_posting hposting
      exact ⟨_, hearlier⟩
  obtain ⟨events, hevents⟩ := hheard
  rw [← hevents] at he
  simpa using (List.mem_filter.mp he).2

theorem Manages.agrees (h : x.Manages existing g policy) : x.Agrees := by
  refine h.moves_induction (P := Agrees) ?_ ?_
  · intro limit cancelled first hfirst
    obtain rfl := eq_of_start? hfirst
    exact agrees_of_free rfl rfl
  · exact fun x y move hx ih hm => ih.posts (posts_of_next? hx.sound.inOrder hm)

/-! ### What the machine decides on -/

/-- Some rule of the plan, in this stage or in the next one that is not over, is ready in view of the
history and has the step handed out. -/
def HandsOut (x : Execution) (step : Step) : Prop :=
  ∃ (m : Machine) (index : Nat) (r : Rule), Relation.ReflTransGen Machine.AdvancesTo x.machine m ∧
    m.rules[index]? = some r ∧ index ∉ m.handedOut ∧ r.evaluate x.machine.history = .ready step

theorem handsOut_of_pop {step : Step} {m : Machine} (h : x.machine.pop = (.step step, m)) :
    x.HandsOut step := by
  obtain ⟨m', hadvances, hpop⟩ := x.machine.pop_spec
  rcases hpop with ⟨index, step', hready, heq⟩ | ⟨-, -, heq⟩ | ⟨-, -, -, heq⟩ <;> rw [heq] at h <;>
    cases h
  obtain ⟨hfresh, r, hr, heval⟩ := Machine.of_nextReady? hready
  rw [(Machine.AdvancesTo.keeps hadvances).1] at heval
  exact ⟨m', index, r, hadvances, hr, hfresh, heval⟩

/-- There is one more step only when one was handed out, and nothing is logged then. -/
theorem handsOut_of_next? {step : Step} (h : x.next? move = some y)
    (hjobs : y.jobs = x.jobs ++ [.new step]) : y.trace = x.trace ∧ x.HandsOut step := by
  have hlength := congrArg List.length hjobs
  rw [List.length_append, List.length_singleton] at hlength
  cases takes_of_next? h with
  | handOut _ asked =>
    have hnew : Job.new _ = Job.new step := List.singleton_inj.mp (List.append_cancel_left hjobs)
    obtain rfl := congrArg Job.step hnew
    exact ⟨rfl, handsOut_of_pop asked⟩
  | _ => simp [setPhase, setEnding, saw, handBack] at hlength

/-- The log and the history go together. -/
structure Concurs (x : Execution) : Prop where
  /-- The history is what was logged, in order and without the events for the log alone, or it is
  all of this but for the event that was logged last. -/
  history : History.heard x.logbook = x.machine.history ∨
    ∃ earlier e, x.logbook = earlier ++ [e] ∧ e.isInformational = false ∧
      History.heard earlier = x.machine.history
  recorded : ∀ e ∈ x.machine.history, e.isInformational = false
  /-- A step is handed out in view of the history, and all that is in it was logged before. -/
  handedOut : ∀ move y step, x.next? move = some y → y.jobs = x.jobs ++ [.new step] →
    x.HandsOut step ∧ y.trace = x.trace ∧ ∀ e ∈ x.machine.history, .logged e ∈ x.trace

/-- All along a managed run, the log and the history go together. -/
theorem Manages.concurs (h : x.Manages existing g policy) : x.Concurs where
  history := by
    cases hposting : x.posting with
    | none => exact .inl (h.agrees.of_free hposting)
    | some poster =>
      obtain ⟨earlier, e, -, hrecord, hlogbook, hearlier⟩ := h.agrees.of_posting hposting
      exact .inr ⟨earlier, e, hlogbook, hrecord, hearlier⟩
  recorded _ := h.agrees.not_isInformational
  handedOut move y step hm hjobs := by
    obtain ⟨htrace, hhands⟩ := handsOut_of_next? hm hjobs
    exact ⟨hhands, htrace, fun e he => mem_logbook.mp (h.agrees.mem_logbook_of_mem_history he)⟩

/-- The small task when its network is made. That was logged, and is not recorded yet; meanwhile the
next step is handed out. -/
theorem Manages.concurs_while_posting : ∃ x : Execution,
    x.Manages none Sample.graph ⟨true, true⟩ ∧ x.posting = some (.job 0) ∧
      x.logbook.length = 2 ∧ x.machine.history = [] ∧ (x.next? .dispatch).isSome = true ∧
      x.Concurs := by
  obtain ⟨x, hx, hp⟩ := Sample.exists_manages Sample.reply 0
    [.dispatch, .place 0, .enter 0, .begin 0, .log (.job 0), .work 0, .work 0,
      .reply 0 ⟨.createNetwork, .ok ⟨"network"⟩⟩, .log (.job 0)]
    (p := fun x => decide (x.posting = some (.job 0) ∧ x.logbook.length = 2 ∧
      x.machine.history = [] ∧ (x.next? .dispatch).isSome = true))
    (by decide +kernel)
  obtain ⟨hposting, hlogged, hrecorded, hdispatch⟩ := of_decide_eq_true hp
  exact ⟨x, hx, hposting, hlogged, hrecorded, hdispatch, hx.concurs⟩

end Execution

end ContainerTasks
