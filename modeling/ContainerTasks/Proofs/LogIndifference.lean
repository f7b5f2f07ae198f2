import ContainerTasks.Proofs.Waiting

/-!
# Events for the log make no difference

Two runs of a task are compared: one in which events for the log are posted, and the same one
without them. Everybody gets the same answers in both, those who wait are served at the same moments,
and the machine goes through the same stages, plans and outcomes. Only the histories differ, and they
differ in nothing but the events for the log.

What carries this is that to leave the events for the log out of a history commutes with whatever a
machine can do. It is so for one question to a history, hence for a rule, a plan and the end of a
stage, hence for a caller that tries, and so on up to whole operations.

## Main definitions

* `Machine.heard`, `Dispenser.heard`, `Desk.heard`: without the events for the log
* `Dispenser.Op.isForLog`, `Dispenser.reports`: what operations come to
* `Dispenser.IgnoresLog`: what it means that events for the log make no difference

## Main results

* `Machine.pop_heard`, `Dispenser.attempt_heard`, `Dispenser.settle_heard`, `Dispenser.apply_heard`
* `Dispenser.reports_heard`: a run with events for the log against the run without them
* `Desk.Turn.heard`: the same for what happens while the machine is not in use
* `Dispenser.ignoresLog`
-/

namespace ContainerTasks

/-! ### The machine -/

namespace History

theorem failures_heard (h : History) : h.heard.failures = h.failures := by
  rw [failures, heard, List.filter_filter]
  refine List.filter_congr fun e _ => ?_
  cases he : e.isInformational with
  | true => simp [Event.not_isFailure_of_isInformational he]
  | false => simp

theorem exitCode?_heard (h : History) : h.heard.exitCode? = h.exitCode? := by
  funext c
  simp [exitCode?, findSome?_heard]

end History

namespace Machine

variable (m : Machine) {e : Event}

/-- The machine without its events for the log. -/
def heard : Machine := { m with history := m.history.heard }

theorem pop_heard : m.heard.pop = (m.pop.1, m.pop.2.heard) := by
  have hkept : m.pop.2.history = m.history := history_of_pop rfl
  rw [show m.pop.2.heard = { m.pop.2 with history := m.history.heard } by rw [heard, hkept]]
  exact pop_of_heard_eq m (History.heard_heard _)

theorem rules_enterNextStage_heard :
    m.heard.enterNextStage.rules = m.enterNextStage.rules := by
  rw [heard, enterNextStage_of_heard_eq m (History.heard_heard _)]

theorem outcome_heard : m.heard.outcome = m.outcome := by
  simp [outcome, heard, History.failures_heard, History.exitCode?_heard]

theorem heard_record_of_not_informational (he : e.isInformational = false) :
    (m.record e).heard = m.heard.record e := by
  simp [heard, record, History.heard, he]

theorem heard_record_of_informational (he : e.isInformational = true) :
    (m.record e).heard = m.heard := by
  rw [heard, heard_record he, heard, record]

end Machine

/-! ### Callers -/

namespace Dispenser

variable (d : Dispenser)

/-- The dispenser without the events for the log. -/
def heard : Dispenser := { d with machine := d.machine.heard }

theorem attempt_heard : d.heard.attempt = (d.attempt.1, d.attempt.2.heard) := by
  unfold attempt
  rw [heard, Machine.pop_heard]
  cases hpop : d.machine.pop with
  | mk answer m => cases answer <;> rfl

theorem retry_heard (w : Waiter) : d.heard.retry w = ((d.retry w).1.heard, (d.retry w).2) := by
  unfold retry
  by_cases hw : w.seen = some d.machine.changes
  · rw [if_pos hw, if_pos (show w.seen = some d.heard.machine.changes from hw)]
    rfl
  · rw [if_neg hw, if_neg (show ¬ w.seen = some d.heard.machine.changes from hw), attempt_heard]
    cases hattempt : d.attempt with
    | mk answer d' => cases answer <;> rfl

theorem retryAll_heard : d.heard.retryAll = (d.retryAll.1.heard, d.retryAll.2) := by
  suffices ∀ (callers : List Waiter) (d : Dispenser) (served : List Served),
      callers.foldl (fun s w => ((retry s.1 w).1, s.2 ++ (retry s.1 w).2)) (d.heard, served) =
        Prod.map heard id (callers.foldl
          (fun s w => ((retry s.1 w).1, s.2 ++ (retry s.1 w).2)) (d, served)) from
    this d.waiters { d with waiters := [] } []
  intro callers
  induction callers with
  | nil => exact fun _ _ => rfl
  | cons w callers ih =>
    intro d served
    simp only [List.foldl_cons, retry_heard]
    exact ih _ _

theorem settleWithin_heard (rounds : Nat) :
    settleWithin rounds d.heard = ((settleWithin rounds d).1.heard, (settleWithin rounds d).2) := by
  induction rounds generalizing d with
  | zero => rfl
  | succ rounds ih =>
    rw [settleWithin, settleWithin]
    by_cases hd : d.isSettled = true
    · rw [if_pos hd, if_pos (show d.heard.isSettled = true from hd)]
    · rw [if_neg hd, if_neg (show ¬ d.heard.isSettled = true from hd), retryAll_heard]
      dsimp only
      rw [ih]

theorem settle_heard : d.heard.settle = (d.settle.1.heard, d.settle.2) :=
  d.settleWithin_heard _

/-- Whether an operation does no more than to post an event for the log. -/
def Op.isForLog : Op → Bool
  | post e => e.isInformational
  | _ => false

variable {op : Op} {ops : List Op}

theorem perform_heard (hop : op.isForLog = false) :
    d.heard.perform op = ((d.perform op).1, (d.perform op).2.heard) := by
  cases op with
  | ask patient => rw [perform, attempt_heard, perform]
  | wait | leave => rfl
  | finish ticket =>
    simp only [perform]
    by_cases hheld : ticket ∈ d.held
    · rw [if_pos hheld, if_pos (show ticket ∈ d.heard.held from hheld)]
      rfl
    · rw [if_neg hheld, if_neg (show ticket ∉ d.heard.held from hheld)]
  | post e =>
    have he : e.isInformational = false := hop
    have hpost : ∀ m : Machine, m.post e = (m.record e).notify := by
      intro m
      rw [Machine.post, he]
      rfl
    have hrecord := d.machine.heard_record_of_not_informational he
    simp only [perform, hpost, heard, ← hrecord]
    rfl

theorem apply_heard (hop : op.isForLog = false) :
    d.heard.apply op = ((d.apply op).1, (d.apply op).2.1, (d.apply op).2.2.heard) := by
  rw [apply, perform_heard d hop]
  dsimp only
  rw [settle_heard]
  rfl

/-- What an operation comes to, and where the machine stands after it. -/
structure Report where
  op : Op
  answer : Answer
  /-- The callers that are served because of the operation, in order. -/
  served : List Served
  stage : Stage
  rules : List Rule
  outcome : Outcome

/-- What operations come to, one after the other. -/
def reports : Dispenser → List Op → List Report
  | _, [] => []
  | d, op :: ops =>
    let (answer, served, d) := d.apply op
    ⟨op, answer, served, d.machine.stage, d.machine.rules, d.machine.outcome⟩ :: reports d ops

variable {d}

theorem settled_apply (op : Op) : (d.apply op).2.2.isSettled = true :=
  (settled_settle ⟨(d.perform op).2, [], 0⟩).1

theorem apply_of_isForLog (hop : op.isForLog = true) (hd : d.isSettled = true) :
    (d.apply op).1 = .posted ∧ (d.apply op).2.1 = [] ∧ (d.apply op).2.2.heard = d.heard := by
  cases op with
  | post e =>
    rw [apply_post_of_isInformational hop hd]
    refine ⟨rfl, rfl, ?_⟩
    rw [heard, heard, record, d.machine.heard_record_of_informational hop]
  | _ => cases hop

/-- An event for the log is posted, and that is all. -/
theorem of_mem_reports {r : Report} (hd : d.isSettled = true) (hr : r ∈ d.reports ops)
    (hop : r.op.isForLog = true) : r.answer = .posted ∧ r.served = [] := by
  induction ops generalizing d with
  | nil => cases hr
  | cons op ops ih =>
    rcases List.mem_cons.mp hr with rfl | hr
    · obtain ⟨hanswer, hserved, -⟩ := apply_of_isForLog hop hd
      exact ⟨hanswer, hserved⟩
    · exact ih (settled_apply op) hr

/-- **A run without events for the log.** What the other operations come to is the same as with
them, and so is where the run ends. -/
theorem reports_heard (hd : d.isSettled = true) (ops : List Op) :
    d.heard.reports (ops.filter (!·.isForLog)) = (d.reports ops).filter (!·.op.isForLog) ∧
      d.heard.applyAll (ops.filter (!·.isForLog)) = (d.applyAll ops).heard := by
  induction ops generalizing d with
  | nil => exact ⟨rfl, rfl⟩
  | cons op ops ih =>
    obtain ⟨hreports, hall⟩ := ih (settled_apply (d := d) op)
    rw [show d.applyAll (op :: ops) = (d.apply op).2.2.applyAll ops from rfl, ← hall]
    cases hop : op.isForLog with
    | true =>
      obtain ⟨-, -, hsame⟩ := apply_of_isForLog hop hd
      rw [hsame] at hreports ⊢
      simp [reports, hop, hreports]
    | false =>
      have happly := d.apply_heard hop
      have houtcome : (d.apply op).2.2.heard.machine.outcome = (d.apply op).2.2.machine.outcome :=
        Machine.outcome_heard _
      rw [List.filter_cons_of_pos (by simp [hop])]
      constructor
      · simp only [reports, hop, happly, Bool.not_false, List.filter_cons_of_pos, hreports, houtcome]
        rfl
      · rw [applyAll, List.foldl_cons, happly]
        rfl

end Dispenser

/-! ### Turns -/

namespace Desk

variable {g : Graph} {policy : CleanupPolicy} {x y : Desk}

/-- The desk without the events for the log. -/
def heard (x : Desk) : Desk := { x with toDispenser := x.toDispenser.heard }

theorem asked_heard (x : Desk) (d : Dispenser) : x.heard.asked d.heard = (x.asked d).heard := by
  unfold asked
  rw [show x.heard.machine.enterNextStage.rules = x.machine.enterNextStage.rules from
    x.machine.rules_enterNextStage_heard]
  rfl

theorem Asks.heard (h : x.Asks y) : x.heard.Asks y.heard := by
  cases h with
  | ask =>
    have hattempt : x.heard.attempt.2 = x.attempt.2.heard :=
      congrArg Prod.snd x.toDispenser.attempt_heard
    rw [← asked_heard, ← hattempt]
    exact .ask
  | retry retries =>
    obtain @⟨front, w, back, waits, woken⟩ := retries
    have hretry : x.heard.retryIn front w back = (x.retryIn front w back).heard := by
      rw [Dispenser.retryIn_of_woken (d := x.heard.toDispenser) woken,
        Dispenser.retryIn_of_woken woken, show x.heard.toDispenser = x.toDispenser.heard from rfl,
        Dispenser.attempt_heard]
      rfl
    rw [← asked_heard, ← hretry]
    exact .retry (.intro waits woken)

/-- Whatever happens at a desk happens at the desk without the events for the log as well, unless
it is that such an event is recorded. -/
theorem Turn.heard (h : x.Turn y) : x.heard.Turn y.heard ∨
    (∃ e, e.isInformational = true ∧ y.toDispenser = x.record e) ∧ y.heard = x.heard := by
  cases h with
  | asks asks => exact .inl (.asks asks.heard)
  | wait => exact .inl .wait
  | leave waiter => exact .inl (.leave waiter)
  | record e =>
    cases he : e.isInformational with
    | true =>
      refine .inr ⟨⟨e, he, rfl⟩, ?_⟩
      simp [Desk.heard, Dispenser.heard, Dispenser.record,
        x.machine.heard_record_of_informational he]
    | false =>
      have hrecord := Turn.record (x := x.heard) e
      simp only [he, Bool.false_eq_true, if_false] at hrecord ⊢
      simp only [Desk.heard, Dispenser.heard, Dispenser.record,
        x.machine.heard_record_of_not_informational he] at hrecord ⊢
      exact .inl hrecord
  | release hheld => exact .inl (.release (x := x.heard) hheld)
  | notify due => exact .inl (.notify (x := x.heard) due)

theorem Reached.heard (h : Reached g policy x) : Reached g policy x.heard := by
  induction h with
  | refl => exact .refl
  | tail _ hturn ih =>
    rcases hturn.heard with hturn | ⟨-, hsame⟩
    · exact ih.tail hturn
    · exact hsame ▸ ih

end Desk

/-! ### Indifference -/

namespace Dispenser

/-- Events for the log make no difference to a task. -/
structure IgnoresLog (g : Graph) (policy : CleanupPolicy) : Prop where
  /-- Without them, all other operations come to what they come to with them. -/
  reports : ∀ ops, (ofMachine (.start g policy)).reports (ops.filter (!·.isForLog)) =
    ((ofMachine (.start g policy)).reports ops).filter (!·.op.isForLog)
  /-- Nobody is served because of them. -/
  served : ∀ ops, ∀ r ∈ (ofMachine (.start g policy)).reports ops, r.op.isForLog = true →
    r.answer = .posted ∧ r.served = []
  /-- In the end, the histories differ in them and nothing else does. -/
  applyAll : ∀ ops, (ofMachine (.start g policy)).applyAll (ops.filter (!·.isForLog)) =
    ((ofMachine (.start g policy)).applyAll ops).heard
  outcome : ∀ ops,
    ((ofMachine (.start g policy)).applyAll (ops.filter (!·.isForLog))).machine.outcome =
      ((ofMachine (.start g policy)).applyAll ops).machine.outcome
  /-- A desk can come about without them, and whoever tries there gets the same answer. -/
  reached : ∀ x, Desk.Reached g policy x → Desk.Reached g policy x.heard ∧
    x.heard.attempt = (x.attempt.1, x.attempt.2.heard)
  /-- What else happens at the desk happens without them as well. -/
  turn : ∀ x y : Desk, x.Turn y → x.heard.Turn y.heard ∨
    (∃ e, e.isInformational = true ∧ y.toDispenser = x.record e) ∧ y.heard = x.heard
  /-- No decision is taken on them. -/
  evaluate : ∀ (r : Rule) (h : History), r.evaluate h.heard = r.evaluate h
  /-- The plan of the first stage is made from the graph alone. -/
  forRun : ∀ x, Desk.Reached g policy x → x.machine.stage = .run →
    x.machine.rules = Plan.forRun g
  forCleanup : ∀ h : History, Plan.forCleanup g h.heard = Plan.forCleanup g h
  leftovers : ∀ h : History, h.heard.leftovers = h.leftovers

/-- **Events for the log make no difference.** -/
theorem ignoresLog (g : Graph) (policy : CleanupPolicy) : IgnoresLog g policy := by
  have hstart : (ofMachine (.start g policy)).isSettled = true := rfl
  have hheard : (ofMachine (.start g policy)).heard = ofMachine (.start g policy) := rfl
  have hrun : ∀ ops, _ := fun ops => hheard ▸ reports_heard hstart ops
  exact {
    reports := fun ops => (hrun ops).1
    served := fun ops r hr hop => of_mem_reports hstart hr hop
    applyAll := fun ops => (hrun ops).2
    outcome := fun ops => by rw [(hrun ops).2, heard, Machine.outcome_heard]
    reached := fun x hx => ⟨hx.heard, x.toDispenser.attempt_heard⟩
    turn := fun _ _ hturn => hturn.heard
    evaluate := Rule.evaluate_heard
    forRun := fun _ hx hs => (hx.bookkept.run hs).1
    forCleanup := Plan.forCleanup_heard g
    leftovers := History.leftovers_heard }

end Dispenser

/-- Who waits is served when the image has been pulled, and not because of what was told about the
pull before. -/
example : ((Dispenser.ofMachine (.start Sample.graph ⟨true, true⟩)).reports
      [.ask false, .ask false, .ask false, .wait, .post (.networkCreated ⟨"net"⟩),
        .post (.imagePullProgress "db" "half of it"), .post (.imagePulled "db" ⟨"image"⟩)]).map
      (fun r => (r.op.isForLog, r.served.map (·.waiter))) =
    [(false, []), (false, []), (false, []), (false, []), (false, []), (true, []), (false, [0])] := by
  decide +kernel

end ContainerTasks
