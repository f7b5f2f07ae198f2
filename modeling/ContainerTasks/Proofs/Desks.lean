import ContainerTasks.Dispenser
import ContainerTasks.Proofs.LogEvents
import ContainerTasks.Proofs.Graphs
import ContainerTasks.Proofs.MachineRuns

/-!
# Desks

A desk is a dispenser at work. Callers come and go as they like: they ask for steps or wait for
them, let go of what they hold and post whatever events they please. The history need not
make sense.

The machine is used by one caller at a time, but to change it and to tell others of the change are
two things, and other callers may get in between. So a desk goes on in turns, each of which uses the
machine once, and the account of what is still to be told of belongs to the desk.

## Main definitions

* `Machine.Passes`: a stage comes to its end, and may do so
* `Desk`, `Desk.Turn`, `Desk.Reached`: desks and what happens at them
* `Desk.Bookkept`: what holds at all times
* `Desk.Pops`: what it comes to when somebody asks for a step
* `Desk.InOrder`: what can be said of a desk and of all that may happen at it

## Main results

* `Dispenser.attempt_spec`: to try once, with the stages that end over it
* `Desk.turns_perform`: every operation is made of turns
* `Desk.Bookkept.turn`, `Desk.Reached.bookkept`
* `Desk.Turn.orderly`: what one turn may change
* `Desk.Reached.keepsBooks`: whatever callers do, no step is lost or handed out twice
-/

namespace ContainerTasks

/-! ### The end of a stage -/

namespace Machine

variable {m m' : Machine}

/-- The machine goes on to the next stage, and may do so. -/
structure Passes (m m' : Machine) : Prop where
  noneReady : m.NoneReady
  idle : m.inFlight = 0
  order : m.stage = .run ∧ m'.stage ≠ .run ∨ m.stage = .cleanup ∧ m'.stage = .finished
  eq : m' = m.enterNextStage.notify

theorem AdvancesTo.passes (h : m.AdvancesTo m') : m.Passes m' where
  noneReady := nextReady?_eq_none_iff.mp h.stuck
  idle := h.idle
  order := by
    cases hs : m.stage with
    | run => exact .inl ⟨rfl, h.stage_ne_run⟩
    | cleanup => exact .inr ⟨rfl, h.stage_of_cleanup hs⟩
    | finished => exact absurd hs h.unfinished
  eq := h.eq

/-- There are no more stages to pass than remain. -/
theorem Passes.remaining_lt (h : m.Passes m') : m'.stage.remaining < m.stage.remaining := by
  rcases h.order with ⟨hs, hs'⟩ | ⟨hs, hs'⟩
  · rw [hs]
    cases hs'' : m'.stage with
    | run => exact absurd hs'' hs'
    | cleanup | finished => simp [Stage.remaining]
  · simp [hs, hs', Stage.remaining]

theorem AdvancesTo.graph_eq_of_chain (h : Relation.ReflTransGen AdvancesTo m m') :
    m'.graph = m.graph := by
  induction h with
  | refl => rfl
  | tail _ hlast ih => exact hlast.graph_eq.trans ih

/-- Where stages came to an end, one has, or the task is over. -/
theorem AdvancesTo.of_chain (h : Relation.ReflTransGen AdvancesTo m m') :
    m' = m ∨ m.AdvancesTo m' ∧ m.stage = .run ∧ m'.stage = .cleanup ∨
      m'.stage = .finished ∧ m'.rules = [] ∧ m'.handedOut = [] ∧ ∃ first, m.AdvancesTo first := by
  induction h with
  | refl => exact .inl rfl
  | @tail mid last _ hlast ih =>
    have hfirst : ∃ first, m.AdvancesTo first := by
      rcases ih with rfl | ⟨hfirst, -⟩ | ⟨-, -, -, hfirst⟩
      · exact ⟨_, hlast⟩
      · exact ⟨_, hfirst⟩
      · exact hfirst
    cases hs : last.stage with
    | run => exact absurd hs hlast.stage_ne_run
    | cleanup =>
      have hrun : mid.stage = .run := by
        by_contra hrun
        exact hlast.stage_ne_cleanup hrun hs
      rcases ih with rfl | ⟨hadvances, -⟩ | ⟨hfinished, -⟩
      · exact .inr (.inl ⟨hlast, hrun, rfl⟩)
      · exact absurd hrun hadvances.stage_ne_run
      · rw [hrun] at hfinished
        cases hfinished
    | finished =>
      exact .inr (.inr ⟨rfl, hlast.rules_of_finished hs, hlast.handedOut_eq, hfirst⟩)

end Machine

/-! ### Turns -/

namespace Dispenser

variable {d : Dispenser}

/-- Trying once: some stages may end, and then a step is handed out, or none can be. -/
theorem attempt_spec (d : Dispenser) : ∃ m, Relation.ReflTransGen Machine.AdvancesTo d.machine m ∧
    ((∃ index step, m.nextReady? = some (index, step) ∧
        d.attempt = (.got ⟨d.handed, step⟩, { d with
          machine := m.handOut index, held := d.held ++ [d.handed], handed := d.handed + 1 })) ∨
      (m.nextReady? = none ∧ m.inFlight ≠ 0 ∧ d.attempt = (.blocked, { d with machine := m })) ∨
      (m.nextReady? = none ∧ m.inFlight = 0 ∧ m.stage = .finished ∧
        d.attempt = (.finished, { d with machine := m }))) := by
  obtain ⟨m, hadvances, hpop⟩ := d.machine.pop_spec
  refine ⟨m, hadvances, hpop.imp ?_ (Or.imp ?_ ?_)⟩
  · rintro ⟨index, step, hready, hpop⟩
    exact ⟨index, step, hready, by rw [attempt, hpop]⟩
  · rintro ⟨hstuck, hbusy, hpop⟩
    exact ⟨hstuck, hbusy, by rw [attempt, hpop]⟩
  · rintro ⟨hstuck, hidle, hfinished, hpop⟩
    exact ⟨hstuck, hidle, hfinished, by rw [attempt, hpop]⟩

/-- Who else waits makes no difference. -/
theorem attempt_waiters (d : Dispenser) (waiters : List Waiter) :
    { d with waiters }.attempt = (d.attempt.1, { d.attempt.2 with waiters }) := by
  unfold attempt
  split <;> simp_all

@[simp] theorem waiters_attempt (d : Dispenser) : d.attempt.2.waiters = d.waiters := by
  unfold attempt
  split <;> rfl

/-- An event is posted. Nobody is told yet. -/
def record (d : Dispenser) (e : Event) : Dispenser :=
  { d with machine := d.machine.record e }

/-- A step is let go of. Nobody is told yet. -/
def release (d : Dispenser) (ticket : Nat) : Dispenser :=
  { d with
    held := d.held.erase ticket
    machine := { d.machine with inFlight := d.machine.inFlight - 1 } }

/-- Those who wait are told of a change. -/
def notify (d : Dispenser) : Dispenser := { d with machine := d.machine.notify }

/-- One of the callers that wait tries again, and keeps its place if it has to go on waiting. -/
def retryIn (d : Dispenser) (front : List Waiter) (w : Waiter) (back : List Waiter) : Dispenser :=
  let d := ({ d with waiters := front }.retry w).1
  { d with waiters := d.waiters ++ back }

/-- A caller that tries goes on waiting only if it is turned away. -/
theorem retry_of_woken {w : Waiter} (hw : w.seen ≠ some d.machine.changes) :
    (d.retry w).1 = { d.attempt.2 with
      waiters := d.waiters ++ if d.attempt.1 = .blocked then
        [{ w with seen := some d.attempt.2.machine.changes }] else [] } := by
  have hwaiters := d.waiters_attempt
  rw [retry, if_neg hw]
  rcases hattempt : d.attempt with ⟨answer, d'⟩
  rw [hattempt] at hwaiters
  cases answer <;> simp [← hwaiters]

theorem retryIn_of_woken {front back : List Waiter} {w : Waiter}
    (hw : w.seen ≠ some d.machine.changes) : d.retryIn front w back = { d.attempt.2 with
      waiters := (front ++ if d.attempt.1 = .blocked then
        [{ w with seen := some d.attempt.2.machine.changes }] else []) ++ back } := by
  have hretry := retry_of_woken (d := { d with waiters := front }) hw
  rw [retryIn, hretry, attempt_waiters]

end Dispenser

/-- A dispenser at work, with what an observer keeps account of. -/
structure Desk extends Dispenser where
  /-- The plan of the second stage; empty before that stage, and if it is left out. -/
  planned : List Rule
  /-- How many changes have been made of which those who wait have not been told. -/
  owed : Nat

namespace Desk

/-- A desk where nobody has asked for anything. -/
def start (g : Graph) (policy : CleanupPolicy) : Desk := ⟨.ofMachine (.start g policy), [], 0⟩

variable {g : Graph} {policy : CleanupPolicy} {x y : Desk}

/-- The dispenser after somebody has asked for a step. -/
def asked (x : Desk) (d : Dispenser) : Desk where
  toDispenser := d
  planned :=
    if x.machine.stage = .run ∧ d.machine.stage ≠ .run then x.machine.enterNextStage.rules
    else x.planned
  owed := x.owed

/-- A caller that was told of a change tries again. -/
inductive Retries (x : Desk) : Desk → Prop where
  | intro {front : List Waiter} {w : Waiter} {back : List Waiter}
    (waits : x.waiters = front ++ w :: back)
    (woken : w.seen ≠ some x.machine.changes) :
    Retries x (x.asked (x.retryIn front w back))

/-- Somebody asks for a step. -/
inductive Asks (x : Desk) : Desk → Prop where
  | ask : Asks x (x.asked x.attempt.2)
  | retry {y : Desk} (retries : x.Retries y) : Asks x y

/-- What happens between two moments in which the machine is not in use. A change and the
notification of it are two things, and others may get in between. -/
inductive Turn (x : Desk) : Desk → Prop where
  | asks {y : Desk} (asks : x.Asks y) : Turn x y
  | wait : Turn x { x with toDispenser := (x.toDispenser.perform .wait).2 }
  | leave (waiter : Nat) : Turn x { x with toDispenser := (x.toDispenser.perform (.leave waiter)).2 }
  | record (e : Event) :
    Turn x ⟨x.record e, x.planned, if e.isInformational then x.owed else x.owed + 1⟩
  | release {ticket : Nat} (held : ticket ∈ x.held) :
    Turn x ⟨x.release ticket, x.planned, x.owed + 1⟩
  | notify {owed : Nat} (due : x.owed = owed + 1) : Turn x ⟨x.notify, x.planned, owed⟩

/-- The desk can come about once a task has begun. -/
def Reached (g : Graph) (policy : CleanupPolicy) (x : Desk) : Prop :=
  Relation.ReflTransGen Turn (start g policy) x

/-- However somebody asks, a step is asked for once. -/
theorem Asks.exists_eq (h : x.Asks y) :
    ∃ waiters, y = x.asked { x.attempt.2 with waiters } := by
  cases h with
  | ask => exact ⟨x.attempt.2.waiters, rfl⟩
  | retry retries =>
    obtain ⟨-, hwoken⟩ := retries
    exact ⟨_, by rw [Dispenser.retryIn_of_woken hwoken]⟩

/-! ### What holds at all times -/

/-- What holds of a desk at all times. -/
structure Bookkept (g : Graph) (x : Desk) : Prop where
  graph_eq : x.machine.graph = g
  counted : x.machine.inFlight = x.held.length
  held_nodup : x.held.Nodup
  held_lt : ∀ ticket ∈ x.held, ticket < x.handed
  handedOut_nodup : x.machine.handedOut.Nodup
  handedOut_lt : ∀ index ∈ x.machine.handedOut, index < x.machine.rules.length
  run : x.machine.stage = .run → x.machine.rules = Plan.forRun g ∧ x.planned = [] ∧
    x.handed = x.machine.handedOut.length
  cleanup : x.machine.stage = .cleanup → x.machine.rules = x.planned ∧
    x.handed ≤ (Plan.forRun g).length + x.machine.handedOut.length
  finished : x.machine.stage = .finished → x.machine.rules = [] ∧ x.held = [] ∧
    x.handed ≤ (Plan.forRun g).length + x.planned.length

theorem Bookkept.handedOut_length_le (hx : x.Bookkept g) :
    x.machine.handedOut.length ≤ x.machine.rules.length := by
  have hsub : x.machine.handedOut ⊆ List.range x.machine.rules.length :=
    fun index hindex => List.mem_range.mpr (hx.handedOut_lt index hindex)
  simpa using (hx.handedOut_nodup.subperm hsub).length_le

/-- No more steps are handed out than are planned. -/
theorem Bookkept.handed_le (hx : x.Bookkept g) :
    x.handed ≤ (Plan.forRun g).length + x.planned.length := by
  have hle := hx.handedOut_length_le
  cases hs : x.machine.stage with
  | run =>
    obtain ⟨hrules, -, hhanded⟩ := hx.run hs
    rw [hrules] at hle
    omega
  | cleanup =>
    obtain ⟨hrules, hhanded⟩ := hx.cleanup hs
    rw [hrules] at hle
    omega
  | finished => exact (hx.finished hs).2.2

theorem bookkept_start (g : Graph) (policy : CleanupPolicy) : (start g policy).Bookkept g where
  graph_eq := rfl
  counted := rfl
  held_nodup := .nil
  held_lt := nofun
  handedOut_nodup := .nil
  handedOut_lt := nofun
  run _ := ⟨rfl, rfl, rfl⟩
  cleanup := nofun
  finished := nofun

theorem asked_of_stage_eq {d : Dispenser} (hs : d.machine.stage = x.machine.stage) :
    x.asked d = ⟨d, x.planned, x.owed⟩ := by
  rw [asked, hs, if_neg fun h => h.2 h.1]

/-- Stages come to an end. -/
theorem Bookkept.advance {m : Machine} (hx : x.Bookkept g)
    (h : Relation.ReflTransGen Machine.AdvancesTo x.machine m) :
    (x.asked { x.toDispenser with machine := m }).Bookkept g := by
  have hflight := (Machine.AdvancesTo.keeps h).2
  have hle := hx.handed_le
  rcases Machine.AdvancesTo.of_chain h with
    rfl | ⟨hends, hrun, hs⟩ | ⟨hs, hrules, hout, first, hends⟩
  · rw [asked_of_stage_eq rfl]
    exact hx
  · -- the second stage begins with a plan of its own
    rw [(hx.run hrun).2.1, List.length_nil] at hle
    exact { hx with
      graph_eq := hends.graph_eq.trans hx.graph_eq
      counted := hflight.trans hx.counted
      handedOut_nodup := by simp [asked, hends.handedOut_eq]
      handedOut_lt := by simp [asked, hends.handedOut_eq]
      run := fun hs' => absurd hs' hends.stage_ne_run
      cleanup := fun _ => by
        constructor
        · rw [asked, if_pos ⟨hrun, hends.stage_ne_run⟩, hends.eq]
          rfl
        · exact Nat.le_trans hle (Nat.le_add_right _ _)
      finished := fun hs' => by
        rw [show m.stage = .finished from hs'] at hs
        cases hs }
  · -- the task is over, with the second stage or without it
    have hheld : x.held = [] := List.length_eq_zero_iff.mp (hx.counted.symm.trans hends.idle)
    exact { hx with
      graph_eq := (Machine.AdvancesTo.graph_eq_of_chain h).trans hx.graph_eq
      counted := hflight.trans hx.counted
      handedOut_nodup := by simp [asked, hout]
      handedOut_lt := by simp [asked, hout]
      run := fun hs' => by
        rw [show m.stage = .run from hs'] at hs
        cases hs
      cleanup := fun hs' => by
        rw [show m.stage = .cleanup from hs'] at hs
        cases hs
      finished := fun _ => by
        refine ⟨hrules, hheld, ?_⟩
        show x.handed ≤ _
        unfold asked
        dsimp only
        split
        · next hrun =>
          rw [(hx.run hrun.1).2.1, List.length_nil] at hle
          exact Nat.le_trans hle (Nat.le_add_right _ _)
        · exact hle }

/-- A step is handed out. -/
theorem Bookkept.handOut {index : Nat} {step : Step} (hx : x.Bookkept g)
    (hready : x.machine.nextReady? = some (index, step)) :
    Bookkept g { x with toDispenser := { x.toDispenser with
      machine := x.machine.handOut index
      held := x.held ++ [x.handed]
      handed := x.handed + 1 } } := by
  obtain ⟨hfresh, r, hr, -⟩ := Machine.of_nextReady? hready
  have hlt := (List.getElem?_eq_some_iff.mp hr).1
  exact { hx with
    counted := by simp [Machine.handOut, hx.counted]
    held_nodup := List.nodup_append.mpr ⟨hx.held_nodup, List.nodup_singleton _, by
      rintro ticket hticket _ hlast rfl
      exact absurd (hx.held_lt _ hticket) (by simp [List.mem_singleton.mp hlast])⟩
    held_lt := by
      intro ticket hticket
      rcases List.mem_append.mp hticket with hticket | hticket
      · exact Nat.lt_succ_of_lt (hx.held_lt ticket hticket)
      · exact Nat.lt_succ_of_le (Nat.le_of_eq (List.mem_singleton.mp hticket))
    handedOut_nodup := List.nodup_cons.mpr ⟨hfresh, hx.handedOut_nodup⟩
    handedOut_lt := by
      intro i hi
      rcases List.mem_cons.mp hi with rfl | hi
      · exact hlt
      · exact hx.handedOut_lt i hi
    run := fun hs => by
      obtain ⟨hrules, hplanned, hhanded⟩ := hx.run hs
      exact ⟨hrules, hplanned, by simp [Machine.handOut, hhanded]⟩
    cleanup := fun hs => by
      obtain ⟨hrules, hhanded⟩ := hx.cleanup hs
      refine ⟨hrules, ?_⟩
      simp only [Machine.handOut, List.length_cons]
      omega
    finished := fun hs => by
      rw [(hx.finished hs).1] at hr
      simp at hr }

/-- Trying once. -/
theorem Bookkept.attempt (hx : x.Bookkept g) : (x.asked x.attempt.2).Bookkept g := by
  obtain ⟨m, hadvances, hattempt⟩ := x.attempt_spec
  have hm := hx.advance hadvances
  rcases hattempt with ⟨index, step, hready, heq⟩ | ⟨-, -, heq⟩ | ⟨-, -, -, heq⟩
  · rw [heq]
    exact @Bookkept.handOut _ _ index step hm hready
  · rw [heq]
    exact hm
  · rw [heq]
    exact hm

theorem Bookkept.release {ticket : Nat} (hx : x.Bookkept g) (hheld : ticket ∈ x.held) :
    Bookkept g ⟨x.release ticket, x.planned, x.owed + 1⟩ :=
  { hx with
    counted := by
      simp [Dispenser.release, List.length_erase_of_mem hheld, hx.counted]
    held_nodup := hx.held_nodup.erase ticket
    held_lt := fun t ht => hx.held_lt t (List.mem_of_mem_erase ht)
    finished := fun hs => by
      rw [(hx.finished hs).2.1] at hheld
      cases hheld }

theorem Bookkept.turn (hx : x.Bookkept g) (h : x.Turn y) : y.Bookkept g := by
  cases h with
  | asks asks =>
    obtain ⟨waiters, rfl⟩ := asks.exists_eq
    exact { hx.attempt with }
  | wait | leave | record | notify => exact { hx with }
  | release hheld => exact hx.release hheld

theorem Reached.bookkept (h : Reached g policy x) : x.Bookkept g := by
  induction h with
  | refl => exact bookkept_start g policy
  | tail _ hturn ih => exact ih.turn hturn

/-! ### One turn -/

/-- What asking for a step comes to. Some stages may end first. Then a rule hands out its step
that is ready and had not done so, or there is no such rule, and some step is held or the task is
over. -/
def Pops (x y : Desk) : Prop :=
  ∃ m, Relation.ReflTransGen Machine.Passes x.machine m ∧
    ((∃ index r step, m.rules[index]? = some r ∧ index ∉ m.handedOut ∧
        r.evaluate m.history = .ready step ∧ y.machine = m.handOut index ∧
        y.held = x.held ++ [x.handed] ∧ y.handed = x.handed + 1) ∨
      m.NoneReady ∧ (x.held ≠ [] ∨ m.stage = .finished) ∧ y.machine = m ∧
        y.held = x.held ∧ y.handed = x.handed)

theorem Asks.pops (h : x.Asks y) (hx : x.Bookkept g) : x.Pops y := by
  obtain ⟨waiters, rfl⟩ := h.exists_eq
  obtain ⟨m, hadvances, hattempt⟩ := x.attempt_spec
  refine ⟨m, Relation.ReflTransGen.mono (fun _ _ h => h.passes) _ _ hadvances, ?_⟩
  rcases hattempt with ⟨index, step, hready, heq⟩ | ⟨hstuck, hbusy, heq⟩ | ⟨hstuck, -, hs, heq⟩
  · obtain ⟨hfresh, r, hr, heval⟩ := Machine.of_nextReady? hready
    rw [heq]
    exact .inl ⟨index, r, step, hr, hfresh, heval, rfl, rfl, rfl⟩
  · rw [heq]
    refine .inr ⟨Machine.nextReady?_eq_none_iff.mp hstuck, .inl fun hnil => hbusy ?_, rfl, rfl, rfl⟩
    rw [(Machine.AdvancesTo.keeps hadvances).2, hx.counted, hnil]
    rfl
  · rw [heq]
    exact .inr ⟨Machine.nextReady?_eq_none_iff.mp hstuck, .inr hs, rfl, rfl, rfl⟩

/-- What one turn may change. -/
structure Orderly (x y : Desk) : Prop where
  /-- A stage ends only when somebody asks for a step while none is held and none is ready. -/
  stage : y.machine.stage = x.machine.stage ∨
    x.Asks y ∧ x.held = [] ∧ x.machine.NoneReady ∧
      (x.machine.stage = .run ∧ y.machine.stage ≠ .run ∨
        x.machine.stage = .cleanup ∧ y.machine.stage = .finished)
  /-- Until then the plan stays, and no rule of it hands out its step again. -/
  plan : y.machine.stage = x.machine.stage → y.machine.rules = x.machine.rules ∧
    (y.handed = x.handed ∧ y.machine.handedOut = x.machine.handedOut ∨
      y.handed = x.handed + 1 ∧ ∃ index ∉ x.machine.handedOut,
        y.machine.handedOut = index :: x.machine.handedOut)

/-- Once a stage has ended over it, asking for a step has led to a later stage. -/
theorem Orderly.of_advance {first m : Machine} (hx : x.Bookkept g) (h : x.Asks y)
    (hfirst : x.machine.AdvancesTo first) (hy : y.machine.stage = m.stage)
    (hm : x.machine.stage = .run ∧ m.stage ≠ .run ∨ m.stage = .finished) :
    x.Orderly y := by
  have hheld : x.held = [] := List.length_eq_zero_iff.mp (hx.counted.symm.trans hfirst.idle)
  have horder : x.machine.stage = .run ∧ y.machine.stage ≠ .run ∨
      x.machine.stage = .cleanup ∧ y.machine.stage = .finished := by
    rw [hy]
    cases hs : x.machine.stage with
    | run => exact .inl ⟨rfl, hm.elim And.right fun hm => by rw [hm]; exact nofun⟩
    | cleanup => exact .inr ⟨rfl, hm.resolve_left fun hm => by rw [hs] at hm; cases hm.1⟩
    | finished => exact absurd hs hfirst.unfinished
  refine ⟨.inr ⟨h, hheld, Machine.nextReady?_eq_none_iff.mp hfirst.stuck, horder⟩, fun hsame => ?_⟩
  rcases horder with ⟨hs, hs'⟩ | ⟨hs, hs'⟩
  · exact absurd (hsame.trans hs) hs'
  · rw [hs, hs'] at hsame
    cases hsame

theorem Asks.orderly (h : x.Asks y) (hx : x.Bookkept g) : x.Orderly y := by
  obtain ⟨waiters, rfl⟩ := h.exists_eq
  obtain ⟨m, hadvances, hattempt⟩ := x.attempt_spec
  have hstage : x.attempt.2.machine.stage = m.stage := by
    rcases hattempt with ⟨_, _, -, heq⟩ | ⟨-, -, heq⟩ | ⟨-, -, -, heq⟩
    · rw [heq]
      rfl
    · rw [heq]
    · rw [heq]
  rcases Machine.AdvancesTo.of_chain hadvances with
    rfl | ⟨hends, hrun, -⟩ | ⟨hs, -, -, first, hends⟩
  · refine ⟨.inl hstage, fun _ => ?_⟩
    rcases hattempt with ⟨index, step, hready, heq⟩ | ⟨-, -, heq⟩ | ⟨-, -, -, heq⟩
    · rw [heq]
      exact ⟨rfl, .inr ⟨rfl, index, (Machine.of_nextReady? hready).1, rfl⟩⟩
    · rw [heq]
      exact ⟨rfl, .inl ⟨rfl, rfl⟩⟩
    · rw [heq]
      exact ⟨rfl, .inl ⟨rfl, rfl⟩⟩
  · exact .of_advance hx h hends hstage (.inl ⟨hrun, hends.stage_ne_run⟩)
  · exact .of_advance hx h hends hstage (.inr hs)

theorem Turn.orderly (h : x.Turn y) (hx : x.Bookkept g) : x.Orderly y := by
  cases h with
  | asks asks => exact asks.orderly hx
  | wait | leave | record | release | notify => exact ⟨.inl rfl, fun _ => ⟨rfl, .inl ⟨rfl, rfl⟩⟩⟩

/-- Nothing is handed out any more once the task is over. -/
theorem Bookkept.attempt_of_finished (hx : x.Bookkept g) (hs : x.machine.stage = .finished) :
    x.attempt = (.finished, x.toDispenser) := by
  obtain ⟨hrules, hheld, -⟩ := hx.finished hs
  have hready : x.machine.nextReady? = none := by
    rw [Machine.nextReady?, hrules]
    rfl
  have hidle : x.machine.inFlight = 0 := by
    rw [hx.counted, hheld]
    rfl
  have hpop : x.machine.pop = (.finished, x.machine) := by
    rw [Machine.pop_eq, hready]
    simp [hidle, hs]
  rw [Dispenser.attempt, hpop]

theorem Bookkept.finished_of_turns (hx : x.Bookkept g) (hs : x.machine.stage = .finished)
    (h : Relation.ReflTransGen Turn x y) : y.Bookkept g ∧ y.machine.stage = .finished := by
  induction h with
  | refl => exact ⟨hx, hs⟩
  | tail _ hturn ih =>
    obtain ⟨hmid, hsmid⟩ := ih
    refine ⟨hmid.turn hturn, ?_⟩
    rcases (hturn.orderly hmid).stage with hsame | ⟨-, -, -, ⟨hrun, -⟩ | ⟨hcleanup, -⟩⟩
    · rw [hsame, hsmid]
    · rw [hsmid] at hrun
      cases hrun
    · rw [hsmid] at hcleanup
      cases hcleanup

/-! ### Whole operations -/

/-- One operation, before any caller that waits has taken notice. -/
def perform (x : Desk) (op : Dispenser.Op) : Desk := x.asked (x.toDispenser.perform op).2

theorem perform_of_stage_eq {op : Dispenser.Op}
    (hs : (x.toDispenser.perform op).2.machine.stage = x.machine.stage) :
    x.perform op = ⟨(x.toDispenser.perform op).2, x.planned, x.owed⟩ :=
  asked_of_stage_eq hs

theorem turns_perform (x : Desk) (op : Dispenser.Op) :
    Relation.ReflTransGen Turn x (x.perform op) := by
  cases op with
  | ask => exact .single (.asks .ask)
  | wait =>
    rw [perform_of_stage_eq rfl]
    exact .single .wait
  | leave waiter =>
    rw [perform_of_stage_eq rfl]
    exact .single (.leave waiter)
  | finish ticket =>
    by_cases hheld : ticket ∈ x.held
    · have hperform : (x.toDispenser.perform (.finish ticket)).2 =
          (x.release ticket).notify := by
        rw [Dispenser.perform, if_pos hheld]
        rfl
      rw [perform_of_stage_eq (by rw [hperform]; rfl), hperform]
      exact .tail (.single (.release hheld)) (.notify rfl)
    · have hperform : (x.toDispenser.perform (.finish ticket)).2 = x.toDispenser := by
        rw [Dispenser.perform, if_neg hheld]
      rw [perform_of_stage_eq (by rw [hperform]), hperform]
  | post e =>
    have hstage : (x.toDispenser.perform (.post e)).2.machine.stage = x.machine.stage :=
      Machine.stage_post _ _
    rw [perform_of_stage_eq hstage, Dispenser.perform, Machine.post]
    have hrecord := Turn.record (x := x) e
    cases he : e.isInformational with
    | true =>
      simp only [he, if_true] at hrecord ⊢
      exact .single hrecord
    | false =>
      simp only [he, Bool.false_eq_true, if_false] at hrecord ⊢
      exact .tail (.single hrecord) (.notify rfl)

theorem Reached.perform (h : Reached g policy x) (op : Dispenser.Op) :
    Reached g policy (x.perform op) :=
  h.trans (turns_perform x op)

/-- The desk after some operations. -/
def after (g : Graph) (policy : CleanupPolicy) (ops : List Dispenser.Op) : Desk :=
  ops.foldl perform (start g policy)

theorem reached_after (g : Graph) (policy : CleanupPolicy) (ops : List Dispenser.Op) :
    Reached g policy (after g policy ops) := by
  suffices ∀ x, Reached g policy x → Reached g policy (ops.foldl Desk.perform x) from
    this _ .refl
  induction ops with
  | nil => exact fun _ => id
  | cons op ops ih => exact fun x hx => ih _ (hx.perform op)

/-! ### Order -/

/-- The books of a desk are in order, and stay so. -/
structure InOrder (g : Graph) (x : Desk) : Prop where
  /-- The steps in flight are those that are held. -/
  counted : x.machine.inFlight = x.held.length
  /-- A step is held once, and only if it was handed out. -/
  held : x.held.Nodup ∧ ∀ ticket ∈ x.held, ticket < x.handed
  /-- Whoever lets go of a step makes one less of them. -/
  release : ∀ ticket ∈ x.held, (x.release ticket).machine.inFlight + 1 = x.machine.inFlight
  /-- No rule of the stage has handed out its step twice. -/
  once : x.machine.handedOut.Nodup
  plan_run : x.machine.stage = .run → x.machine.rules = Plan.forRun g ∧ x.planned = []
  plan_cleanup : x.machine.stage = .cleanup → x.machine.rules = x.planned
  /-- No more steps are handed out in all than are planned. -/
  total : x.handed ≤ (Plan.forRun g).length + x.planned.length
  turn : ∀ y, x.Turn y → x.Orderly y
  /-- Asking for a step comes to an end. -/
  pops : ∀ y, x.Asks y → x.Pops y
  /-- Once the task is over, everybody is told so at once, whatever happens. -/
  ended : x.machine.stage = .finished → ∀ y, Relation.ReflTransGen Turn x y →
    y.attempt = (.finished, y.toDispenser)

/-- Whatever callers do, and whatever they post, the books are in order. -/
theorem Reached.keepsBooks (h : Reached g policy x) : x.InOrder g :=
  have hx := h.bookkept
  { counted := hx.counted
    held := ⟨hx.held_nodup, hx.held_lt⟩
    release := fun ticket hticket => by
      have hpos := List.length_pos_of_mem hticket
      have hcounted := hx.counted
      show x.machine.inFlight - 1 + 1 = _
      omega
    once := hx.handedOut_nodup
    plan_run := fun hs => ⟨(hx.run hs).1, (hx.run hs).2.1⟩
    plan_cleanup := fun hs => (hx.cleanup hs).1
    total := hx.handed_le
    turn := fun _ hturn => hturn.orderly hx
    pops := fun _ hasks => hasks.pops hx
    ended := fun hs _ hturns =>
      have hy := hx.finished_of_turns hs hturns
      hy.1.attempt_of_finished hy.2 }

end Desk

namespace Sample

/-- Callers that post events too late or for steps that were never taken, and let go of a step
twice. -/
def upset : List Dispenser.Op :=
  [.ask false, .ask false, .ask false, .post (.networkCreated ⟨"id-net"⟩),
    .post (.imagePulled "db" ⟨"id-image"⟩), .finish 1, .ask false,
    .post (.containerCreated "db" ⟨"id-db", "db"⟩), .post (.containerRunFailed "db" "no such file"),
    .finish 0, .finish 0, .finish 2, .finish 3, .ask false, .post (.containerReady "db")]

end Sample

/-- Five steps are handed out, the last of them by the clean-up. -/
theorem Desk.Reached.keepsBooks_upset : ∃ x, Reached Sample.graph ⟨true, true⟩ x ∧
    x.machine.stage = .cleanup ∧ x.held = [4] ∧ x.handed = 5 ∧
      x.planned.length = 2 ∧ x.InOrder Sample.graph :=
  have hreached := reached_after Sample.graph ⟨true, true⟩ Sample.upset
  ⟨_, hreached, by decide +kernel, by decide +kernel, by decide +kernel, by decide +kernel,
    hreached.keepsBooks⟩

end ContainerTasks
