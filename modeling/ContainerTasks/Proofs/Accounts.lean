import ContainerTasks.Proofs.ManagedRuns
import ContainerTasks.Proofs.Walks

/-!
# Jobs account for what was seen

The outside sees the calls of all jobs in one trace, and their events are in one history. What in
the two belongs to one job is a walk down the work on its step. So whatever is known of walks is
known of the trace and the history.

A trace also tells about the past: at each happening in it, there was a move that caused it, and the
ledger before that move had just the trace before it. Claims about what was the case when a call
began are claims about that ledger.

## Main definitions

* `Ledger.seen`: what was seen of the calls of a job
* `Job.Accounts`: a job in view of what it has posted and what was seen of it
* `Ledger.Traced`: all jobs account for the trace
* `Ledger.Causes`: the effect behind a happening

## Main results

* `Execution.Manages.accounts`: jobs account for the trace all along
* `Execution.Manages.exists_causes`: a happening goes back to an effect
* `Execution.Manages.exists_of_began`: when a call begins, its job is about to make it
-/

namespace ContainerTasks

/-- What was seen of the calls of a job. -/
def Ledger.seen (l : Ledger) (job : Nat) : List Happening := l.trace.filter (·.caller? = some job)

/-! ### One job -/

namespace Job

/-- How far a job is, in view of the events that it has posted and of what was seen of its calls. -/
def Accounts (existing : Option String) (index : Nat) (posted : List Event)
    (seen : List Happening) (j : Job) : Prop :=
  let walk := (j.step.procedure existing).Walk index posted
  match j.phase with
  | .handed | .arriving | .inLine | .admitted => (posted = [] ∧ seen = []) ∧ j.ending = none
  | .working rest => walk seen rest ∨ (posted = [] ∧ seen = []) ∧
    rest = .post (.stepStarting j.step) (j.step.procedure existing)
  | .calling c next => ∃ earlier, seen = earlier ++ [.began index c] ∧ walk earlier (.call c next)
  | .failing _ | .reporting _ => ∃ ending, j.ending = some ending ∧ walk seen (.ended ending)
  | .leaving | .released | .gone => (∃ ending, j.ending = some ending ∧ walk seen (.ended ending)) ∨
    (posted = [] ∧ seen = []) ∧ j.ending = none ∧ j.step.isCleanup = false

variable {existing : Option String} {cancelled : Bool} {index : Nat} {j j' : Job}
  {seen more : List Happening} {posted : List Event} {c : Call}

theorem Accounts.working {s : Step} {rest : Procedure} {o : Option Ending}
    (hj : Accounts existing index posted seen ⟨s, .working rest, o⟩) :
    (s.procedure existing).Walk index posted seen rest ∨ (posted = [] ∧ seen = []) ∧
      rest = .post (.stepStarting s) (s.procedure existing) :=
  hj

/-- A job that glides accounts for what is seen of it. -/
theorem Glides.accounts (on : j.Glides existing cancelled index j' more)
    (hj : j.Accounts existing index posted seen) :
    j'.Accounts existing index posted (seen ++ more.filter (·.caller? = some index)) := by
  cases on with
  | arrive | joinLine | enter | leaveLine => exact (List.append_nil seen).symm ▸ hj
  | giveUp _ making => exact .inr ⟨⟨hj.1.1, by simp [hj.1.2]⟩, hj.2, making⟩
  | begin => exact .inr ⟨⟨hj.1.1, by simp [hj.1.2]⟩, rfl⟩
  | log forLog =>
    rcases hj.working with hw | ⟨⟨rfl, rfl⟩, h⟩
    · rw [not_isInformational_of_course hw.course] at forLog
      cases forLog
    · -- the note that the step is begun comes before the walk
      cases h
      exact .inl .refl
  | ifCancelled =>
    rw [List.filter_nil, List.append_nil]
    rcases hj with hw | ⟨-, h⟩
    · exact .inl hw.ifCancelled
    · cases h
  | otherwise =>
    rw [List.filter_nil, List.append_nil]
    rcases hj with hw | ⟨-, h⟩
    · exact .inl hw.otherwise
    · cases h
  | skip _ may =>
    rw [List.filter_nil, List.append_nil]
    rcases hj with hw | ⟨-, h⟩
    · exact .inl (hw.skip may)
    · cases h
  | call =>
    rcases hj with hw | ⟨-, h⟩
    · exact ⟨seen, by simp [Happening.caller?], hw⟩
    · cases h
  | answer =>
    obtain ⟨earlier, rfl, hw⟩ := hj
    exact .inl (by simpa [Happening.caller?] using hw.answer)
  | abandon _ may =>
    obtain ⟨earlier, rfl, hw⟩ := hj
    exact .inl (by simpa [Happening.caller?] using hw.abandon may)
  | settle =>
    rw [List.filter_nil, List.append_nil]
    rcases hj with hw | ⟨-, h⟩
    · exact .inl ⟨_, rfl, hw⟩
    · cases h
  | fail =>
    rw [List.filter_nil, List.append_nil]
    rcases hj with hw | ⟨-, h⟩
    · exact ⟨_, rfl, hw⟩
    · cases h
  | report =>
    obtain ⟨ending, hending, hw⟩ := hj
    exact .inl ⟨ending, hending, by simpa [Happening.caller?] using hw⟩
  | release => exact (List.append_nil seen).symm ▸ hj

/-- Another event of the step is posted, or one for the log alone. -/
theorem Accounts.post {s : Step} {o : Option Ending} {e : Event} {rest : Procedure}
    (hj : Accounts existing index posted seen ⟨s, .working (.post e rest), o⟩) :
    Accounts existing index (posted ++ if e.duty? = some s.duty then [e] else []) seen
      ⟨s, .working rest, o⟩ := by
  rcases hj.working with hw | ⟨⟨rfl, rfl⟩, h⟩
  · rw [if_pos (Step.duty_of_canPost (hw.course.canPost (.inl rfl)))]
    exact .inl hw.post
  · cases h
    exact .inl .refl

/-- What the work on the step has told of a walk that the job has gone. -/
theorem Accounts.tells (hj : j.Accounts existing index posted seen) :
    (posted = [] ∧ seen = []) ∨
      (∃ rest, (j.step.procedure existing).Walk index posted seen rest ∧
        j.step.Tells existing index posted seen rest) ∨
      ∃ c next earlier, j.phase = .calling c next ∧ seen = earlier ++ [.began index c] ∧
        (j.step.procedure existing).Walk index posted earlier (.call c next) ∧
        j.step.Tells existing index posted earlier (.call c next) := by
  have htells : ∀ {seen rest}, (j.step.procedure existing).Walk index posted seen rest →
      j.step.Tells existing index posted seen rest :=
    fun hw => (hw.along (j.step.tells existing index)).here
  obtain ⟨s, phase, o⟩ := j
  cases phase with
  | handed | arriving | inLine | admitted => exact .inl hj.1
  | working rest => exact hj.elim (fun hw => .inr (.inl ⟨rest, hw, htells hw⟩)) fun h => .inl h.1
  | calling c next =>
    obtain ⟨earlier, hseen, hw⟩ := hj
    exact .inr (.inr ⟨c, next, earlier, rfl, hseen, hw, htells hw⟩)
  | failing | reporting =>
    obtain ⟨ending, -, hw⟩ := hj
    exact .inr (.inl ⟨_, hw, htells hw⟩)
  | leaving | released | gone =>
    exact hj.elim (fun ⟨ending, _, hw⟩ => .inr (.inl ⟨_, hw, htells hw⟩)) fun h => .inl h.1

/-- A call that is about to be made is one of those of the step. -/
theorem Accounts.mem_calls {s : Step} {o : Option Ending} {next : Reply c.Value → Procedure}
    (hj : Accounts existing index posted seen ⟨s, .working (.call c next), o⟩) :
    c ∈ s.calls existing := by
  rcases hj.working with hw | ⟨-, h⟩
  · exact (hw.along (s.tells existing index)).here.calls.subset
      (List.mem_append_right _ (List.mem_singleton_self c))
  · cases h

/-- The calls are made in order. -/
theorem Accounts.begun_initial (hj : j.Accounts existing index posted seen) :
    seen.filterMap Happening.begun? <+: j.step.calls existing := by
  obtain ⟨-, rfl⟩ | ⟨rest, -, ht⟩ | ⟨c, next, earlier, -, rfl, -, ht⟩ := hj.tells
  · exact List.nil_prefix
  · exact (List.prefix_append _ _).trans ht.calls
  · simpa [Procedure.nextCall?] using ht.calls

/-- A call that began was answered, or it was abandoned, or the job waits for the answer. -/
theorem Accounts.over_of_began (hj : j.Accounts existing index posted seen)
    (hc : .began index c ∈ seen) :
    (∃ a : Answer, a.call = c ∧ [.began index c, .answered index a].Sublist seen) ∨
      (c.isAbandonable = true ∧ [.began index c, .abandoned index c].Sublist seen) ∨
      ∃ next, j.phase = .calling c next := by
  obtain ⟨-, rfl⟩ | ⟨rest, hw, -⟩ | ⟨c', next, earlier, hphase, rfl, hw, -⟩ := hj.tells
  · cases hc
  · exact (hw.over_of_began hc).imp_right .inl
  · rcases List.mem_append.mp hc with hc | hc
    · have hsub := List.sublist_append_left earlier [Happening.began index c']
      exact (hw.over_of_began hc).imp (fun ⟨a, ha, h⟩ => ⟨a, ha, h.trans hsub⟩)
        fun ⟨hmay, h⟩ => .inl ⟨hmay, h.trans hsub⟩
    · obtain rfl : c = c' := by simpa using hc
      exact .inr (.inr ⟨next, hphase⟩)

/-- Only a call that may be given up is abandoned. -/
theorem Accounts.isAbandonable_of_abandoned (hj : j.Accounts existing index posted seen)
    (hc : .abandoned index c ∈ seen) : c.isAbandonable = true := by
  obtain ⟨-, rfl⟩ | ⟨rest, hw, -⟩ | ⟨c', next, earlier, -, rfl, hw, -⟩ := hj.tells
  · cases hc
  · exact hw.isAbandonable_of_abandoned hc
  · exact hw.isAbandonable_of_abandoned (by simpa using hc)

/-- What was posted is about an answer that was seen, if it was not posted before any call. -/
theorem Accounts.exists_answer {e : Event} (hj : j.Accounts existing index posted seen)
    (he : e ∈ posted) :
    e ∈ j.step.preamble ∨ ∃ a ∈ seen.filterMap Happening.answer?, j.step.report? a = some e := by
  have htold : ∀ {told later}, posted ++ later = j.step.preamble ++ j.step.reports told →
      told.Sublist seen → e ∈ j.step.preamble ∨
        ∃ a ∈ seen.filterMap Happening.answer?, j.step.report? a = some e := by
    intro told later hposted hsub
    have hmem : e ∈ j.step.preamble ++ j.step.reports told :=
      hposted ▸ List.mem_append_left later he
    refine (List.mem_append.mp hmem).imp_right fun hreport => ?_
    obtain ⟨happening, hin, hreport⟩ := List.mem_filterMap.mp hreport
    obtain ⟨a, ha, hreport⟩ := Option.bind_eq_some_iff.mp hreport
    exact ⟨a, List.mem_filterMap.mpr ⟨happening, hsub.subset hin, ha⟩, hreport⟩
  obtain ⟨rfl, -⟩ | ⟨rest, -, ht⟩ | ⟨c, next, earlier, -, rfl, -, ht⟩ := hj.tells
  · cases he
  · exact htold ht.posted_eq (List.Sublist.refl seen)
  · exact htold ht.posted_eq (List.sublist_append_left earlier _)

/-- What was answered began before. -/
theorem Accounts.answers_sublist (hj : j.Accounts existing index posted seen) :
    ((seen.filterMap Happening.answer?).map (·.call)).Sublist
      (seen.filterMap Happening.begun?) := by
  obtain ⟨-, rfl⟩ | ⟨rest, hw, -⟩ | ⟨c, next, earlier, -, rfl, hw, -⟩ := hj.tells
  · exact .slnil
  · exact hw.answers_sublist
  · simp only [List.filterMap_append, List.map_append]
    exact hw.answers_sublist.append (List.nil_sublist _)

/-- A call that is waited for was not answered. -/
theorem Accounts.call_ne_of_calling {s : Step} {o : Option Ending}
    {next : Reply c.Value → Procedure} {a : Answer}
    (hj : Accounts existing index posted seen ⟨s, .calling c next, o⟩)
    (ha : a ∈ seen.filterMap Happening.answer?) : a.call ≠ c := by
  obtain ⟨earlier, rfl, hw⟩ := hj
  have hcalls : earlier.filterMap Happening.begun? ++ [c] <+: s.calls existing :=
    (hw.along (s.tells existing index)).here.calls
  have hnodup := (s.nodup_calls existing).sublist hcalls.sublist
  have hmem : a.call ∈ earlier.filterMap Happening.begun? := by
    refine hw.answers_sublist.subset (List.mem_map_of_mem ?_)
    simpa [List.filterMap_cons] using ha
  rintro rfl
  exact (List.nodup_append.mp hnodup).2.2 _ hmem _ (List.mem_singleton_self _) rfl

end Job

/-! ### All jobs -/

theorem getElem?_length_append {α : Type} (front : List α) (a : α) (back : List α) :
    (front ++ a :: back)[front.length]? = some a := by
  rw [List.getElem?_append_right (Nat.le_refl _), Nat.sub_self]
  rfl

/-- The other elements of a list stay when one is replaced. -/
theorem getElem?_append_cons {α : Type} {front back : List α} {a b c : α} {i : Nat}
    (h : (front ++ a :: back)[i]? = some c) :
    (i = front.length ∧ c = a) ∨ (i ≠ front.length ∧ (front ++ b :: back)[i]? = some c) := by
  rcases Nat.lt_trichotomy i front.length with hlt | rfl | hgt
  · rw [List.getElem?_append_left hlt] at h
    exact .inr ⟨Nat.ne_of_lt hlt, by rw [List.getElem?_append_left hlt, h]⟩
  · rw [List.getElem?_append_right (Nat.le_refl _), Nat.sub_self, List.getElem?_cons_zero,
      Option.some.injEq] at h
    exact .inl ⟨rfl, h.symm⟩
  · obtain ⟨k, rfl⟩ := Nat.exists_eq_add_of_lt hgt
    rw [List.getElem?_append_right (by omega)] at h ⊢
    refine .inr ⟨by omega, ?_⟩
    rw [show front.length + k + 1 - front.length = k + 1 by omega] at h ⊢
    exact h

namespace Ledger

/-- All jobs account for the trace. -/
structure Traced (existing : Option String) (l : Ledger) : Prop where
  accounts : ∀ (i : Nat) (j : Job), l.jobs[i]? = some j →
    j.Accounts existing i (l.machine.history.about j.step.duty) (l.seen i)
  /-- Calls are seen of jobs only. -/
  known : ∀ e ∈ l.trace, ∀ i, e.caller? = some i → i < l.jobs.length

variable {existing : Option String} {g : Graph} {policy : CleanupPolicy} {l l' : Ledger}
  {cancelled : Bool} {m : Machine} {jobs front back : List Job} {j j' : Job}
  {trace seen : List Happening} {i k : Nat}

theorem mem_begun_seen {c : Call} :
    c ∈ (l.seen i).filterMap Happening.begun? ↔ .began i c ∈ l.trace := by
  refine List.mem_filterMap.trans ⟨?_, fun hc =>
    ⟨_, List.mem_filter.mpr ⟨hc, decide_eq_true rfl⟩, rfl⟩⟩
  rintro ⟨happening, hseen, hbegun⟩
  obtain ⟨hin, hcaller⟩ := List.mem_filter.mp hseen
  clear hseen
  cases happening <;> simp only [Happening.begun?, Option.some.injEq, reduceCtorEq] at hbegun
  obtain rfl : _ = i := Option.some.inj (of_decide_eq_true hcaller)
  exact hbegun ▸ hin

theorem mem_answers_seen {a : Answer} :
    a ∈ (l.seen i).filterMap Happening.answer? ↔ .answered i a ∈ l.trace := by
  refine List.mem_filterMap.trans ⟨?_, fun ha =>
    ⟨_, List.mem_filter.mpr ⟨ha, decide_eq_true rfl⟩, rfl⟩⟩
  rintro ⟨happening, hseen, hanswer⟩
  obtain ⟨hin, hcaller⟩ := List.mem_filter.mp hseen
  clear hseen
  cases happening <;> simp only [Happening.answer?, Option.some.injEq, reduceCtorEq] at hanswer
  obtain rfl : _ = i := Option.some.inj (of_decide_eq_true hcaller)
  exact hanswer ▸ hin

/-- A call that began is one of those that the work on the step of its job makes. -/
theorem Traced.mem_calls (hl : l.Traced existing) {c : Call} (hc : .began i c ∈ l.trace) :
    ∃ j, l.jobs[i]? = some j ∧ c ∈ j.step.calls existing := by
  have hlt := hl.known _ hc i rfl
  have hj : l.jobs[i]? = some _ := List.getElem?_eq_getElem hlt
  exact ⟨_, hj, (hl.accounts i _ hj).begun_initial.subset (mem_begun_seen.mpr hc)⟩

/-- What was answered began before. -/
theorem Traced.began_of_answered (hl : l.Traced existing) {a : Answer}
    (ha : .answered i a ∈ l.trace) : .began i a.call ∈ l.trace := by
  have hlt := hl.known _ ha i rfl
  have hj : l.jobs[i]? = some _ := List.getElem?_eq_getElem hlt
  exact mem_begun_seen.mp ((hl.accounts i _ hj).answers_sublist.subset
    (List.mem_map_of_mem (mem_answers_seen.mpr ha)))

theorem Traced.isAbandonable_of_abandoned (hl : l.Traced existing) {c : Call}
    (hc : .abandoned i c ∈ l.trace) : c.isAbandonable = true := by
  have hlt := hl.known _ hc i rfl
  have hj : l.jobs[i]? = some _ := List.getElem?_eq_getElem hlt
  exact (hl.accounts i _ hj).isAbandonable_of_abandoned
    (List.mem_filter.mpr ⟨hc, decide_eq_true rfl⟩)

/-- No call is answered twice. -/
theorem Traced.answer_unique (hl : l.Traced existing) {a a' : Answer}
    (ha : .answered i a ∈ l.trace) (ha' : .answered i a' ∈ l.trace) (hcall : a.call = a'.call) :
    a = a' := by
  obtain ⟨j, hj, -⟩ := hl.mem_calls (hl.began_of_answered ha)
  have haccounts := hl.accounts i j hj
  have hnodup : (((l.seen i).filterMap Happening.answer?).map (·.call)).Nodup :=
    ((j.step.nodup_calls existing).sublist haccounts.begun_initial.sublist).sublist
      haccounts.answers_sublist
  exact List.inj_on_of_nodup_map hnodup (mem_answers_seen.mpr ha) (mem_answers_seen.mpr ha') hcall

/-- An event of a duty was posted by the job of the duty, about an answer that it was seen to get,
or before any call. -/
theorem Traced.exists_of_mem_history (hl : l.Traced existing) (hsound : l.Sound existing g policy)
    (hg : g.Sound) {e : Event} {d : Duty} (he : e ∈ l.machine.history) (hd : e.duty? = some d) :
    ∃ i j, l.jobs[i]? = some j ∧ j.step.duty = d ∧
      (e ∈ j.step.preamble ∨ ∃ a, .answered i a ∈ l.trace ∧ j.step.report? a = some e) := by
  obtain ⟨s, hs, rfl⟩ := (hsound.run.sound hg).told ⟨e, he, hd⟩
  obtain ⟨j, hj, rfl⟩ := List.mem_map.mp hs
  obtain ⟨i, hi⟩ := List.getElem?_of_mem hj
  refine ⟨i, j, hi, rfl, ?_⟩
  have hposted : e ∈ l.machine.history.about j.step.duty :=
    List.mem_filter.mpr ⟨he, decide_eq_true hd⟩
  refine ((hl.accounts i j hi).exists_answer hposted).imp_right ?_
  rintro ⟨a, ha, hreport⟩
  exact ⟨a, mem_answers_seen.mp ha, hreport⟩

/-- Two jobs have two duties. -/
theorem Sound.duty_ne (hl : l.Sound existing g policy) (hj : l.jobs[i]? = some j)
    (hk : l.jobs[k]? = some j') (hne : i ≠ k) : j.step.duty ≠ j'.step.duty :=
  fun hduty => hne (index_eq_of_nodup_map hl.nodup_duty hj hk hduty)

/-- A job comes to another phase, and nothing is seen or recorded. -/
theorem Traced.of_job (hl : Traced existing ⟨m, front ++ j :: back, trace⟩)
    {m' : Machine} (hhistory : m'.history = m.history) (hstep : j'.step = j.step)
    (hj : ∀ posted seen, j.Accounts existing front.length posted seen →
      j'.Accounts existing front.length posted seen) :
    Traced existing ⟨m', front ++ j' :: back, trace⟩ := by
  refine ⟨fun i k hk => ?_, by simpa using hl.known⟩
  rw [hhistory]
  rcases getElem?_append_cons (b := j) hk with ⟨rfl, rfl⟩ | ⟨-, hk⟩
  · rw [hstep]
    exact hj _ _ (hl.accounts front.length j (getElem?_length_append ..))
  · exact hl.accounts i k hk

/-- A step is handed out: nothing was seen or heard of its job. -/
theorem Traced.handOut {index : Nat} {step : Step} (hl : Traced existing ⟨m, jobs, trace⟩)
    (hl' : Sound existing g policy ⟨m.handOut index, jobs ++ [.new step], trace⟩) :
    Traced existing ⟨m.handOut index, jobs ++ [.new step], trace⟩ := by
  refine ⟨fun i j hj => ?_, fun e he i hi => ?_⟩
  · rcases Nat.lt_or_ge i jobs.length with hlt | hge
    · rw [List.getElem?_append_left hlt] at hj
      exact hl.accounts i j hj
    · rw [List.getElem?_append_right hge, List.getElem?_singleton] at hj
      split at hj <;> cases hj
      have hposted := (hl'.follows (.new step) (by simp)).1
      have hunseen : trace.filter (·.caller? = some i) = [] := by
        refine List.filter_eq_nil_iff.mpr fun e he hcaller => ?_
        have := hl.known e he i (of_decide_eq_true hcaller)
        exact absurd hge (Nat.not_le_of_lt this)
      exact ⟨⟨hposted, hunseen⟩, rfl⟩
  · have hlt : i < jobs.length := hl.known e he i hi
    simp only [List.length_append]
    omega

/-- One job glides. -/
theorem Traced.glide (hl : Traced existing ⟨m, front ++ j :: back, trace⟩)
    (on : j.Glides existing cancelled front.length j' seen) :
    Traced existing ⟨m, front ++ j' :: back, trace ++ seen⟩ := by
  have hcaller : ∀ e ∈ seen, ∀ i, e.caller? = some i → i = front.length := by
    intro e he i hi
    cases on <;> simp only [List.mem_singleton, List.not_mem_nil] at he <;> subst he <;>
      simp_all [Happening.caller?]
  refine ⟨fun i k hk => ?_, fun e he i hi => ?_⟩
  · show k.Accounts existing i _ ((trace ++ seen).filter (·.caller? = some i))
    rw [List.filter_append]
    rcases getElem?_append_cons (b := j) hk with ⟨rfl, rfl⟩ | ⟨hne, hk⟩
    · rw [on.step_eq]
      exact on.accounts (hl.accounts front.length j (getElem?_length_append ..))
    · have hnone : seen.filter (·.caller? = some i) = [] :=
        List.filter_eq_nil_iff.mpr fun e he hi => hne (hcaller e he i (of_decide_eq_true hi))
      rw [hnone, List.append_nil]
      exact hl.accounts i k hk
  · rcases List.mem_append.mp he with he | he
    · simpa using hl.known e he i hi
    · rw [hcaller e he i hi]
      simp

/-- An event is recorded that is about no other job. -/
theorem Traced.post (hl : Traced existing ⟨m, front ++ j :: back, trace⟩)
    (hsound : Sound existing g policy ⟨m, front ++ j :: back, trace⟩) {e : Event}
    (hduty : e.duty? = none ∨ e.duty? = some j.step.duty) (hstep : j'.step = j.step)
    (hj : ∀ posted seen, j.Accounts existing front.length posted seen →
      j'.Accounts existing front.length
        (posted ++ if e.duty? = some j.step.duty then [e] else []) seen) :
    Traced existing ⟨m.post e, front ++ j' :: back, trace⟩ := by
  refine ⟨fun i k hk => ?_, by simpa using hl.known⟩
  have hmiddle := getElem?_length_append front j back
  rw [Machine.history_post, History.about_append]
  rcases getElem?_append_cons (b := j) hk with ⟨rfl, rfl⟩ | ⟨hne, hk⟩
  · rw [hstep]
    exact hj _ _ (hl.accounts front.length j hmiddle)
  · have hother : e.duty? ≠ some k.step.duty := by
      rcases hduty with hduty | hduty <;> rw [hduty]
      · simp
      · exact fun heq => hsound.duty_ne hmiddle hk (Ne.symm hne) (Option.some.inj heq)
    rw [if_neg hother, List.append_nil]
    exact hl.accounts i k hk

/-- Effects keep the accounts. -/
theorem Traced.effect (hl : l.Traced existing) (hsound : l.Sound existing g policy) (hg : g.Sound)
    (h : l.Effect existing cancelled l') : l'.Traced existing := by
  have hsound' := hsound.effect hg h
  cases h with
  | advance ends => exact ⟨fun i j hj => ends.history_eq ▸ hl.accounts i j hj, hl.known⟩
  | handOut => exact hl.handOut hsound'
  | glide on => exact hl.glide on
  | drop _ making =>
    refine hl.of_job rfl rfl fun posted seen hj => .inr ⟨hj.1, hj.2, making⟩
  | handBack => exact hl.of_job rfl rfl fun _ _ hj => hj
  | record =>
    refine hl.post hsound ?_ rfl fun _ _ hj => hj.post
    rcases (hsound.follows _ (List.mem_append_right _ List.mem_cons_self)).post.1 with hlog | hpost
    · exact .inl (Event.duty?_eq_none_of_isInformational hlog)
    · exact .inr (Step.duty_of_canPost hpost)
  | recordFailure =>
    refine hl.post hsound (.inl rfl) rfl fun posted seen hj => ?_
    rw [if_neg (by simp [Event.duty?_failure]), List.append_nil]
    exact hj
  | interrupt =>
    refine ⟨fun i j hj => ?_, hl.known⟩
    rw [Machine.history_post, History.about_append, if_neg (by simp [Event.duty?]),
      List.append_nil]
    exact hl.accounts i j hj
  | log =>
    refine ⟨fun i j hj => ?_, fun e he i hi => ?_⟩
    · show j.Accounts existing i _ ((_ ++ [_]).filter _)
      rw [List.filter_append]
      exact (List.append_nil _).symm ▸ hl.accounts i j hj
    · rcases List.mem_append.mp he with he | he
      · exact hl.known e he i hi
      · rcases List.mem_singleton.mp he with rfl
        cases hi

theorem traced_start (m : Machine) : Traced existing ⟨m, [], []⟩ :=
  ⟨fun _ _ hj => by simp at hj, fun _ he => by cases he⟩

/-! ### The past of a trace -/

/-- One ledger comes before another one, and nothing was taken back in between. -/
structure Precedes (l l' : Ledger) : Prop where
  history : l.machine.history <+: l'.machine.history
  trace : l.trace <+: l'.trace
  steps : l.jobs.map (·.step) <+: l'.jobs.map (·.step)

theorem Precedes.refl (l : Ledger) : l.Precedes l :=
  ⟨List.prefix_rfl, List.prefix_rfl, List.prefix_rfl⟩

theorem Precedes.trans {l'' : Ledger} (h : l.Precedes l') (h' : l'.Precedes l'') :
    l.Precedes l'' :=
  ⟨h.history.trans h'.history, h.trace.trans h'.trace, h.steps.trans h'.steps⟩

theorem Precedes.step_eq (h : l.Precedes l') (hj : l.jobs[i]? = some j) :
    ∃ j', l'.jobs[i]? = some j' ∧ j'.step = j.step := by
  have hstep : (l.jobs.map (·.step))[i]? = some j.step := by
    rw [List.getElem?_map, hj]
    rfl
  obtain ⟨later, hlater⟩ := h.steps
  have hkept : (l.jobs.map (·.step) ++ later)[i]? = (l.jobs.map (·.step))[i]? :=
    List.getElem?_append_left (List.getElem?_eq_some_iff.mp hstep).1
  rw [hlater, hstep, List.getElem?_map] at hkept
  exact Option.map_eq_some_iff.mp hkept

/-- An effect goes on from the ledger, and adds no more than one happening to the trace. -/
theorem Effect.precedes (h : l.Effect existing cancelled l') : l.Precedes l' ∧
    (l'.trace = l.trace ∨ ∃ e, l'.trace = l.trace ++ [e]) := by
  refine ⟨⟨h.grows.1, h.grows.2, ?_⟩, ?_⟩
  · cases h with
    | advance | interrupt | log => exact List.prefix_rfl
    | handOut =>
      rw [List.map_append]
      exact List.prefix_append _ _
    | glide on => simp [on.step_eq]
    | drop | handBack | record | recordFailure => simp
  · cases h with
    | glide on =>
      cases on <;> simp
    | advance | handOut | drop | handBack | record | recordFailure | interrupt => exact .inl rfl
    | log => exact .inr ⟨_, rfl⟩

/-- When a call begins, its job is about to make it. -/
theorem Effect.of_began {c : Call} (h : l.Effect existing cancelled l')
    (hseen : l'.trace = l.trace ++ [.began i c]) :
    ∃ s o next, l.jobs[i]? = some ⟨s, .working (.call c next), o⟩ ∧
      (cancelled = true → c.isAbandonable = false) := by
  cases h with
  | glide on =>
    obtain rfl := List.append_cancel_left hseen
    cases on with
    | call kept => exact ⟨_, _, _, getElem?_length_append .., kept⟩
  | advance | handOut | drop | handBack | record | recordFailure | interrupt => simp at hseen
  | log => simp at hseen

end Ledger

namespace Execution

variable {existing : Option String} {g : Graph} {policy : CleanupPolicy} {x : Execution}
  (h : x.Manages existing g policy)
include h

theorem Manages.traced : x.ledger.Traced existing :=
  h.induction (Ledger.traced_start _) fun _ _ _ hl hP heffect => hP.effect hl h.sound_graph heffect

/-- A happening in the trace goes back to an effect. What is kept by effects held before it. -/
theorem Manages.exists_effect {P : Ledger → Prop} (hP : P ⟨.start g policy, [], []⟩)
    (heffect : ∀ (l l' : Ledger) (c : Bool), l.Sound existing g policy → P l →
      l.Effect existing c l' → P l')
    {before after : List Happening} {e : Happening} (htrace : x.trace = before ++ e :: after) :
    ∃ l l' cancelled, l.Sound existing g policy ∧ P l ∧ Ledger.Effect existing cancelled l l' ∧
      l.trace = before ∧ l'.trace = before ++ [e] ∧ l'.Precedes x.ledger := by
  have hall := h.induction (P := fun x => P x ∧ ∀ before e after, x.trace = before ++ e :: after →
    ∃ l l' cancelled, l.Sound existing g policy ∧ P l ∧ Ledger.Effect existing cancelled l l' ∧
      l.trace = before ∧ l'.trace = before ++ [e] ∧ l'.Precedes x)
    ⟨hP, fun before e after hnil => by cases before <;> cases hnil⟩
    fun x y cancelled hx ⟨hPx, hpast⟩ hxy => by
      refine ⟨heffect x y cancelled hx hPx hxy, fun before e after hsplit => ?_⟩
      obtain ⟨hprecedes, hsame | ⟨last, hlast⟩⟩ := hxy.precedes
      · obtain ⟨l, l', c, hl, hPl, hll', hbefore, he, hlater⟩ :=
          hpast before e after (hsame.symm.trans hsplit)
        exact ⟨l, l', c, hl, hPl, hll', hbefore, he, hlater.trans hprecedes⟩
      · rcases List.eq_nil_or_concat after with rfl | ⟨after, last', rfl⟩
        · obtain ⟨hbefore, he⟩ := List.append_inj' (hlast.symm.trans hsplit) rfl
          cases he
          exact ⟨x, y, cancelled, hx, hPx, hxy, hbefore, hsplit, .refl y⟩
        · rw [List.concat_eq_append, ← List.cons_append, ← List.append_assoc, hlast] at hsplit
          obtain ⟨hfront, -⟩ := List.append_inj' hsplit rfl
          obtain ⟨l, l', c, hl, hPl, hll', hbefore, he, hlater⟩ := hpast before e after hfront
          exact ⟨l, l', c, hl, hPl, hll', hbefore, he, hlater.trans hprecedes⟩
  exact hall.2 before e after htrace

/-- When a call began, its job was about to make it, and all jobs accounted for the trace before. -/
theorem Manages.exists_of_began {P : Ledger → Prop} (hP : P ⟨.start g policy, [], []⟩)
    (heffect : ∀ (l l' : Ledger) (c : Bool), l.Sound existing g policy → P l →
      l.Effect existing c l' → P l')
    {before after : List Happening} {i : Nat} {c : Call}
    (htrace : x.trace = before ++ .began i c :: after) :
    ∃ l : Ledger, l.Sound existing g policy ∧ l.Traced existing ∧ P l ∧ l.trace = before ∧
      l.Precedes x.ledger ∧ ∃ s o next, l.jobs[i]? = some ⟨s, .working (.call c next), o⟩ := by
  obtain ⟨l, l', cancelled, hl, ⟨htraced, hPl⟩, hll', rfl, hseen, hlater⟩ :=
    h.exists_effect (P := fun l => l.Traced existing ∧ P l) ⟨Ledger.traced_start _, hP⟩
      (fun _ _ _ hl hP hll' => ⟨hP.1.effect hl h.sound_graph hll', heffect _ _ _ hl hP.2 hll'⟩)
      htrace
  obtain ⟨s, o, next, hj, -⟩ := hll'.of_began hseen
  exact ⟨l, hl, htraced, hPl, rfl, hll'.precedes.1.trans hlater, s, o, next, hj⟩

end Execution

end ContainerTasks
