import ContainerTasks.Proofs.Desks

/-!
# Waiting at a desk

A caller that finds nothing to do remembers how many changes there were when it tried, and sleeps
until there are more. It sleeps for good reason: it was turned away because nothing was ready and
some step was held, and every change of that comes with a new count. What does not come with a new
count are events for the log, and they make nothing ready.

A change counts only once those who wait are told of it. So the reason may be gone for a moment
while something is still to be told of, and only then.

## Main definitions

* `Waiter.Informed`, `Desk.Alert`: whoever has seen the last change sleeps for good reason
* `Dispenser.Blocks`: whoever tries would be turned away
* `Desk.NobodyForgotten`: what can be said of those who wait

## Main results

* `Desk.Alert.turn`, `Desk.Reached.alert`
* `Desk.wellFounded_retries`: to try again and again comes to an end
* `Dispenser.settled_settle`: so it does when all callers try in turn
* `Desk.Reached.nobodyForgotten`: no caller that waits misses its turn
-/

namespace ContainerTasks

variable {g : Graph} {policy : CleanupPolicy} {x y : Desk} {m m' : Machine} {w : Waiter}

/-! ### Why a caller sleeps -/

/-- A caller that has seen the last change found nothing to do after it, unless others are still
to be told of. -/
def Waiter.Informed (w : Waiter) (m : Machine) (owed : Nat) : Prop :=
  ∀ n, w.seen = some n → n ≤ m.changes ∧
    (n = m.changes → owed = 0 → m.nextReady? = none ∧ m.inFlight ≠ 0)

namespace Machine

/-- Whenever a stage ends, there is a change, and a stage less to come. -/
theorem AdvancesTo.of_ends (h : Relation.ReflTransGen AdvancesTo m m') :
    m' = m ∨ m.changes < m'.changes ∧ m'.stage.remaining < m.stage.remaining := by
  induction h with
  | refl => exact .inl rfl
  | tail _ hlast ih =>
    have hchanges := hlast.changes_eq
    have hstage := hlast.passes.remaining_lt
    rcases ih with rfl | ih
    · exact .inr (by omega)
    · exact .inr (by omega)

end Machine

namespace Waiter.Informed

variable {owed owed' : Nat}

/-- Any change wakes everybody. -/
theorem of_changes_lt (h : w.Informed m owed) (hlt : m.changes < m'.changes) :
    w.Informed m' owed' := by
  intro n hn
  have hle := (h n hn).1
  exact ⟨by omega, fun heq => by omega⟩

theorem of_owed_pos (h : w.Informed m owed) (hchanges : m'.changes = m.changes) (hpos : owed' ≠ 0) :
    w.Informed m' owed' :=
  fun n hn => ⟨hchanges ▸ (h n hn).1, fun _ hzero => absurd hzero hpos⟩

theorem advance (h : w.Informed m owed) (hm : Relation.ReflTransGen Machine.AdvancesTo m m') :
    w.Informed m' owed := by
  rcases Machine.AdvancesTo.of_ends hm with rfl | ⟨hlt, -⟩
  · exact h
  · exact h.of_changes_lt hlt

/-- Nobody who knows of all changes sleeps while there is something to hand out. -/
theorem handOut {index : Nat} {step : Step} (h : w.Informed m owed)
    (hready : m.nextReady? = some (index, step)) : w.Informed (m.handOut index) owed := by
  intro n hn
  refine ⟨(h n hn).1, fun heq howed => ?_⟩
  rw [((h n hn).2 heq howed).1] at hready
  cases hready

theorem attempt {d : Dispenser} (h : w.Informed d.machine owed) :
    w.Informed d.attempt.2.machine owed := by
  obtain ⟨m, hadvances, hattempt⟩ := d.attempt_spec
  have hm := h.advance hadvances
  rcases hattempt with ⟨index, step, hready, heq⟩ | ⟨-, -, heq⟩ | ⟨-, -, -, heq⟩
  · rw [heq]
    exact hm.handOut hready
  · rw [heq]
    exact hm
  · rw [heq]
    exact hm

/-- Whoever is turned away knows why. -/
theorem of_blocked {d : Dispenser} (h : d.attempt.1 = .blocked) :
    Waiter.Informed { w with seen := some d.attempt.2.machine.changes } d.attempt.2.machine
      owed := by
  obtain ⟨m, -, ⟨index, step, -, heq⟩ | ⟨hstuck, hbusy, heq⟩ | ⟨-, -, -, heq⟩⟩ := d.attempt_spec
  · rw [heq] at h
    cases h
  · rw [heq]
    rintro n ⟨⟩
    exact ⟨Nat.le_refl _, fun _ _ => ⟨hstuck, hbusy⟩⟩
  · rw [heq] at h
    cases h

end Waiter.Informed

namespace Desk

/-- Everybody who waits has a reason to. -/
def Alert (x : Desk) : Prop := ∀ w ∈ x.waiters, w.Informed x.machine x.owed

theorem Alert.retries (hx : x.Alert) (h : x.Retries y) : y.Alert := by
  obtain ⟨hwaits, hwoken⟩ := h
  rw [Dispenser.retryIn_of_woken hwoken]
  have hother : ∀ w ∈ x.waiters, w.Informed x.attempt.2.machine x.owed :=
    fun w hw => (hx w hw).attempt
  rw [hwaits] at hother
  intro w hw
  rcases List.mem_append.mp hw with hw | hw
  · rcases List.mem_append.mp hw with hw | hw
    · exact hother w (List.mem_append_left _ hw)
    · split at hw
      · next hblocked =>
        rw [List.mem_singleton.mp hw]
        exact .of_blocked hblocked
      · cases hw
  · exact hother w (List.mem_append_right _ (List.mem_cons_of_mem _ hw))

theorem Alert.turn (hx : x.Alert) (h : x.Turn y) : y.Alert := by
  cases h with
  | asks asks =>
    cases asks with
    | ask => exact fun w hw => (hx w (x.waiters_attempt ▸ hw)).attempt
    | retry retries => exact hx.retries retries
  | wait =>
    intro w hw
    rcases List.mem_append.mp hw with hw | hw
    · exact hx w hw
    · -- a new caller has seen nothing
      rw [List.mem_singleton.mp hw]
      exact fun n hn => nomatch hn
  | leave waiter => exact fun w hw => hx w (List.mem_of_mem_filter hw)
  | record e =>
    intro w hw
    cases he : e.isInformational with
    | true =>
      intro n hn
      obtain ⟨hle, hsleeps⟩ := hx w hw n hn
      refine ⟨hle, fun heq howed => ?_⟩
      rw [Dispenser.record, Machine.nextReady?_record he]
      exact hsleeps heq howed
    | false => exact (hx w hw).of_owed_pos rfl (by simp)
  | release => exact fun w hw => (hx w hw).of_owed_pos rfl (by simp)
  | notify => exact fun w hw => (hx w hw).of_changes_lt (Nat.lt_succ_self _)

theorem Reached.alert (h : Reached g policy x) : x.Alert := by
  induction h with
  | refl => exact nofun
  | tail _ hturn ih => exact ih.turn hturn

end Desk

/-! ### Everybody tries again -/

namespace Dispenser

variable {d : Dispenser}

/-- Who waits, waits for good reason: it would be turned away, since some step is held and none is
ready that was not handed out. -/
structure Blocks (d : Dispenser) : Prop where
  held : d.held ≠ []
  noneReady : d.machine.NoneReady
  attempt : d.attempt = (.blocked, d)

theorem isSettled_iff :
    d.isSettled = true ↔ ∀ w ∈ d.waiters, w.seen = some d.machine.changes := by
  simp [isSettled]

/-- How many callers have a reason to try again. -/
def woken (d : Dispenser) : Nat := d.waiters.countP (·.seen ≠ some d.machine.changes)

/-- To try once either leaves the stage and the count of changes alone, or a stage is over. -/
theorem stage_attempt (d : Dispenser) :
    (d.attempt.2.machine.stage = d.machine.stage ∧
      d.attempt.2.machine.changes = d.machine.changes) ∨
    d.attempt.2.machine.stage.remaining < d.machine.stage.remaining := by
  obtain ⟨m, hadvances, hattempt⟩ := d.attempt_spec
  have hm : d.attempt.2.machine.stage = m.stage ∧ d.attempt.2.machine.changes = m.changes := by
    rcases hattempt with ⟨_, _, -, heq⟩ | ⟨-, -, heq⟩ | ⟨-, -, -, heq⟩
    · rw [heq]
      exact ⟨rfl, rfl⟩
    · rw [heq]
      exact ⟨rfl, rfl⟩
    · rw [heq]
      exact ⟨rfl, rfl⟩
  rw [hm.1, hm.2]
  exact (Machine.AdvancesTo.of_ends hadvances).imp (fun h => by rw [h]; exact ⟨rfl, rfl⟩) And.right

/-- As long as no stage ends, every try makes one caller less that has a reason to. -/
theorem woken_retryIn {front back : List Waiter} (hwaits : d.waiters = front ++ w :: back)
    (hwoken : w.seen ≠ some d.machine.changes)
    (hchanges : d.attempt.2.machine.changes = d.machine.changes) :
    (d.retryIn front w back).woken < d.woken := by
  rw [retryIn_of_woken hwoken, woken, woken, hwaits]
  simp only [hchanges]
  split <;> simp [hwoken]

end Dispenser

namespace Desk

/-- Every try brings the time nearer when nobody has a reason to try. -/
theorem Retries.decreases (h : x.Retries y) :
    Prod.Lex (· < ·) (· < ·) (y.machine.stage.remaining, y.woken)
      (x.machine.stage.remaining, x.woken) := by
  obtain @⟨front, w, back, hwaits, hwoken⟩ := h
  rcases x.stage_attempt with ⟨hstage, hchanges⟩ | hlt
  · have hmachine : (x.asked (x.retryIn front w back)).machine.stage =
        x.machine.stage := by
      rw [← hstage, Dispenser.retryIn_of_woken hwoken]
      rfl
    rw [hmachine]
    exact .right _ (Dispenser.woken_retryIn hwaits hwoken hchanges)
  · rw [Dispenser.retryIn_of_woken hwoken]
    exact .left _ _ hlt

/-- Nobody can go on trying for ever. -/
theorem wellFounded_retries : WellFounded fun y x : Desk => x.Retries y :=
  Subrelation.wf (fun h => h.decreases)
    (InvImage.wf (fun x : Desk => (x.machine.stage.remaining, x.woken))
      (Prod.lex Nat.lt_wfRel Nat.lt_wfRel).wf)

end Desk

namespace Dispenser

variable {d : Dispenser}

/-- Some callers try in turn, after those of the dispenser have. -/
def tries (d : Dispenser) (callers : List Waiter) : Dispenser :=
  callers.foldl (fun d w => (d.retry w).1) d

theorem retryAll_fst (d : Dispenser) :
    d.retryAll.1 = { d with waiters := [] }.tries d.waiters :=
  (List.foldl_hom Prod.fst fun _ _ => rfl).symm

theorem retry_of_seen (hw : w.seen = some d.machine.changes) :
    (d.retry w).1 = { d with waiters := d.waiters ++ [w] } := by
  rw [retry, if_pos hw]

/-- One after the other, the callers try again. -/
theorem retries_tries (callers : List Waiter) {d : Dispenser}
    (hx : x.toDispenser = { d with waiters := d.waiters ++ callers }) :
    ∃ y, Relation.ReflTransGen Desk.Retries x y ∧ y.toDispenser = d.tries callers := by
  induction callers generalizing d x with
  | nil => exact ⟨x, .refl, by simpa [tries] using hx⟩
  | cons w back ih =>
    by_cases hw : w.seen = some d.machine.changes
    · obtain ⟨y, hretries, hy⟩ := ih (d := (d.retry w).1) (x := x) (by
        rw [hx, retry_of_seen hw]
        simp)
      exact ⟨y, hretries, hy⟩
    · have hretry : x.Retries (x.asked (x.retryIn d.waiters w back)) :=
        .intro (by rw [hx]) (by rw [hx]; exact hw)
      obtain ⟨y, hretries, hy⟩ := ih (d := (d.retry w).1)
        (x := x.asked (x.retryIn d.waiters w back)) (by rw [hx]; rfl)
      exact ⟨y, .head hretry hretries, hy⟩

/-- A caller that tries leaves everybody asleep who was, and goes to sleep, or a stage is over. -/
theorem settled_retry (w : Waiter) (hd : d.isSettled = true) :
    ((d.retry w).1.isSettled = true ∧ (d.retry w).1.machine.stage = d.machine.stage) ∨
      (d.retry w).1.machine.stage.remaining < d.machine.stage.remaining := by
  rw [isSettled_iff] at hd
  by_cases hw : w.seen = some d.machine.changes
  · rw [retry_of_seen hw, isSettled_iff]
    refine .inl ⟨fun w' hw' => ?_, rfl⟩
    rcases List.mem_append.mp hw' with hw' | hw'
    · exact hd w' hw'
    · rw [List.mem_singleton.mp hw', hw]
  · rw [retry_of_woken hw, isSettled_iff]
    refine d.stage_attempt.imp_left fun ⟨hstage, hchanges⟩ => ⟨fun w' hw' => ?_, hstage⟩
    rcases List.mem_append.mp hw' with hw' | hw'
    · exact hchanges ▸ hd w' hw'
    · split at hw'
      · rw [List.mem_singleton.mp hw']
      · cases hw'

theorem remaining_retry_le (d : Dispenser) (w : Waiter) :
    (d.retry w).1.machine.stage.remaining ≤ d.machine.stage.remaining := by
  by_cases hw : w.seen = some d.machine.changes
  · exact Nat.le_of_eq (congrArg (·.machine.stage.remaining) (retry_of_seen hw))
  · rw [retry_of_woken hw]
    rcases d.stage_attempt with ⟨hstage, -⟩ | hlt
    · exact Nat.le_of_eq (congrArg Stage.remaining hstage)
    · exact Nat.le_of_lt hlt

theorem remaining_tries_le (callers : List Waiter) (d : Dispenser) :
    (d.tries callers).machine.stage.remaining ≤ d.machine.stage.remaining := by
  induction callers generalizing d with
  | nil => exact Nat.le_refl _
  | cons w back ih => exact Nat.le_trans (ih (d.retry w).1) (remaining_retry_le d w)

/-- Once all callers have tried, nobody has a reason to try again, or a stage is over. -/
theorem settled_tries (callers : List Waiter) {d : Dispenser} (hd : d.isSettled = true) :
    (d.tries callers).isSettled = true ∨
      (d.tries callers).machine.stage.remaining < d.machine.stage.remaining := by
  induction callers generalizing d with
  | nil => exact .inl hd
  | cons w back ih =>
    rcases settled_retry w hd with ⟨hsettled, hstage⟩ | hlt
    · exact hstage ▸ ih hsettled
    · exact .inr (Nat.lt_of_le_of_lt (remaining_tries_le back _) hlt)

theorem settleWithin_of_isSettled (rounds : Nat) (hd : d.isSettled = true) :
    settleWithin rounds d = (d, []) := by
  cases rounds with
  | zero => rfl
  | succ rounds => rw [settleWithin, if_pos hd]

/-- No more rounds are needed than there are stages to come, and one. -/
theorem settled_settleWithin (rounds : Nat) {d : Dispenser} (hx : x.toDispenser = d)
    (hrounds : d.machine.stage.remaining < rounds) :
    (settleWithin rounds d).1.isSettled = true ∧
      ∃ y, Relation.ReflTransGen Desk.Retries x y ∧ y.toDispenser = (settleWithin rounds d).1 := by
  induction rounds generalizing d x with
  | zero => exact absurd hrounds (Nat.not_lt_zero _)
  | succ rounds ih =>
    by_cases hd : d.isSettled = true
    · rw [settleWithin_of_isSettled _ hd]
      exact ⟨hd, x, .refl, hx⟩
    · have hstep : (settleWithin (rounds + 1) d).1 = (settleWithin rounds d.retryAll.1).1 := by
        rw [settleWithin, if_neg hd]
      rw [hstep, retryAll_fst]
      obtain ⟨y, hretries, hy⟩ :=
        retries_tries d.waiters (d := { d with waiters := [] }) (x := x) (by simpa using hx)
      rcases settled_tries d.waiters (d := { d with waiters := [] }) rfl with hsettled | hlt
      · rw [settleWithin_of_isSettled _ hsettled]
        exact ⟨hsettled, y, hretries, hy⟩
      · obtain ⟨hsettled, z, hz, hzd⟩ := ih hy (Nat.lt_of_lt_of_le hlt (Nat.le_of_lt_succ hrounds))
        exact ⟨hsettled, z, hretries.trans hz, hzd⟩

/-- The dispenser after some operations, if the callers that wait are dealt with after each. -/
def applyAll (d : Dispenser) (ops : List Op) : Dispenser :=
  ops.foldl (fun d op => (d.apply op).2.2) d

/-- Callers are dealt with until nobody has a reason to try again. -/
theorem settled_settle (x : Desk) :
    x.settle.1.isSettled = true ∧
      ∃ y, Relation.ReflTransGen Desk.Retries x y ∧ y.toDispenser = x.settle.1 :=
  settled_settleWithin _ rfl (Nat.lt_succ_self _)

/-- An event for the log makes no difference to who tries. -/
theorem attempt_record {e : Event} (he : e.isInformational = true) (d : Dispenser) :
    (d.record e).attempt = (d.attempt.1, d.attempt.2.record e) := by
  unfold attempt
  rw [record, Machine.pop_record he]
  cases hpop : d.machine.pop with
  | mk answer m => cases answer <;> rfl

/-- An event for the log serves nobody who sleeps. -/
theorem apply_post_of_isInformational {e : Event} (he : e.isInformational = true)
    (hd : d.isSettled = true) : d.apply (.post e) = (.posted, [], d.record e) := by
  have hperform : d.perform (.post e) = (.posted, d.record e) := by
    rw [perform, Machine.post, he]
    rfl
  have hsettled : (d.record e).isSettled = true := hd
  rw [apply, hperform]
  simp only [settle, settleWithin_of_isSettled _ hsettled]

end Dispenser

namespace Desk

/-- In a quiet moment nobody waits who could be served: once those who were told of a change have
tried again, in whatever order, all who wait still wait for good reason. -/
structure NobodyForgotten (x : Desk) : Prop where
  blocks : ∀ y, Relation.ReflTransGen Retries x y → y.isSettled = true →
    ∀ w ∈ y.waiters, y.Blocks
  /-- Once no step is held, nobody waits. -/
  released : ∀ y, Relation.ReflTransGen Retries x y → y.isSettled = true →
    y.held = [] → y.waiters = []
  /-- Trying again comes to an end in whatever order. -/
  ends : Acc (fun z y => y.Retries z) x
  /-- One way to try again is to take the callers in turn. -/
  settles : x.settle.1.isSettled = true ∧
    ∃ y, Relation.ReflTransGen Retries x y ∧ y.toDispenser = x.settle.1
  /-- So it is at any later time as well, if the callers are dealt with after each operation. -/
  apply : ∀ ops op, ∀ w ∈ ((x.applyAll ops).apply op).2.2.waiters,
    ((x.applyAll ops).apply op).2.2.Blocks
  /-- Nobody gets anything else because of an event for the log. -/
  attempt_record : ∀ e : Event, e.isInformational = true →
    (x.record e).attempt = (x.attempt.1, x.attempt.2.record e)
  /-- Nobody is served because of an event for the log. -/
  post : ∀ e : Event, e.isInformational = true →
    ∀ y, Relation.ReflTransGen Retries x y → y.isSettled = true →
      y.apply (.post e) = (.posted, [], y.record e)

theorem Retries.owed_eq (h : x.Retries y) : y.owed = x.owed := by
  cases h
  rfl

theorem blocks_of_isSettled (hx : x.Bookkept g) (halert : x.Alert) (howed : x.owed = 0)
    (hsettled : x.isSettled = true) (hw : w ∈ x.waiters) : x.Blocks := by
  have hseen := Dispenser.isSettled_iff.mp hsettled w hw
  obtain ⟨hstuck, hbusy⟩ := (halert w hw _ hseen).2 rfl howed
  have hpop : x.machine.pop = (.blocked, x.machine) := by
    rw [Machine.pop_eq, hstuck]
    exact if_pos hbusy
  refine ⟨fun hnil => hbusy ?_, Machine.nextReady?_eq_none_iff.mp hstuck, ?_⟩
  · rw [hx.counted, hnil]
    rfl
  · rw [Dispenser.attempt, hpop]

theorem Reached.retries (h : Reached g policy x) (hy : Relation.ReflTransGen Retries x y) :
    Reached g policy y ∧ y.owed = x.owed := by
  induction hy with
  | refl => exact ⟨h, rfl⟩
  | tail _ hlast ih => exact ⟨ih.1.tail (.asks (.retry hlast)), hlast.owed_eq.trans ih.2⟩

/-- An operation, and the callers that are served because of it. -/
theorem Reached.apply (h : Reached g policy x) (op : Dispenser.Op) :
    ∃ y, Reached g policy y ∧ y.toDispenser = (x.apply op).2.2 ∧ y.isSettled = true ∧
      y.owed = x.owed := by
  obtain ⟨hsettled, y, hretries, hy⟩ := Dispenser.settled_settle (x.perform op)
  obtain ⟨hreached, howed⟩ := (h.perform op).retries hretries
  exact ⟨y, hreached, hy, hy ▸ hsettled, howed⟩

theorem Reached.applyAll (h : Reached g policy x) (ops : List Dispenser.Op) :
    ∃ y, Reached g policy y ∧ y.toDispenser = x.applyAll ops ∧ y.owed = x.owed := by
  induction ops generalizing x with
  | nil => exact ⟨x, h, rfl, rfl⟩
  | cons op ops ih =>
    obtain ⟨mid, hmid, happly, -, hkept⟩ := h.apply op
    obtain ⟨y, hy, hall, howed⟩ := ih hmid
    exact ⟨y, hy, by rw [hall, happly]; rfl, howed.trans hkept⟩

/-- No caller that waits misses its turn. -/
theorem Reached.nobodyForgotten (h : Reached g policy x) (howed : x.owed = 0) :
    x.NobodyForgotten := by
  have hblocks : ∀ y, Relation.ReflTransGen Retries x y → y.isSettled = true →
      ∀ w ∈ y.waiters, y.Blocks := by
    intro y hy hsettled w hw
    obtain ⟨hreached, hkept⟩ := h.retries hy
    exact blocks_of_isSettled hreached.bookkept hreached.alert (hkept.trans howed) hsettled hw
  exact {
    blocks := hblocks
    released := fun y hy hsettled hheld =>
      List.eq_nil_iff_forall_not_mem.mpr fun w hw => (hblocks y hy hsettled w hw).held hheld
    ends := wellFounded_retries.apply x
    settles := Dispenser.settled_settle x
    apply := fun ops op w hw => by
      obtain ⟨mid, hmid, hall, hkept⟩ := h.applyAll ops
      obtain ⟨y, hy, happly, hsettled, hsame⟩ := hmid.apply op
      rw [← hall, ← happly] at hw ⊢
      exact blocks_of_isSettled hy.bookkept hy.alert (hsame.trans (hkept.trans howed)) hsettled hw
    attempt_record := fun e he => x.toDispenser.attempt_record he
    post := fun e he y _ hsettled => Dispenser.apply_post_of_isInformational he hsettled }

/-- Of three callers that wait the first two are served, and the third one waits for good reason. -/
theorem Reached.nobodyForgotten_of_three : ∃ x y, Reached Sample.graph ⟨true, true⟩ x ∧
    x.waiters.length = 3 ∧ Relation.ReflTransGen Retries x y ∧
      y.held = [0, 1, 2] ∧ y.waiters = [⟨2, some 0⟩] ∧ y.Blocks := by
  have hreached := reached_after Sample.graph ⟨true, true⟩ [.ask false, .wait, .wait, .wait]
  have hx := hreached.nobodyForgotten rfl
  obtain ⟨hsettled, y, hretries, hy⟩ := hx.settles
  have hwaiters : y.waiters = [⟨2, some 0⟩] := by
    rw [hy]
    decide +kernel
  have hblocks := hx.blocks y hretries (hy ▸ hsettled) ⟨2, some 0⟩ (by rw [hwaiters]; simp)
  exact ⟨_, y, hreached, by decide +kernel, hretries, by rw [hy]; decide +kernel, hwaiters, hblocks⟩

end Desk

end ContainerTasks
