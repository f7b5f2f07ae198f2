import ContainerTasks.Proofs.LineLogs

/-!
# A log that cannot be written

When nothing more can be written, each further line is lost as a whole, and nothing else is lost. The
loggers are told the events one after the other and share the writer; wherever among them the writer
has had enough, what was written is the lines up to there. Whoever remembers events remembers all of
them, and the log records are the same, apart from those about lost lines.

It does not matter in how many pieces a line is written: there is no line feed in them but the last
one, so the writer has not had enough before the line is complete.

## Main definitions

* `Writer.writePieces`: a text that is written in pieces
* `firstLines`: the first lines of a text
* `EventLog.Curtailed`: a log with a limit, against one without

## Main results

* `Writer.writePieces_eq_writeLine`
* `EventLog.Curtailed.tell`, `EventLog.Curtailed.post`
* `EventLog.loggers_postAll`: what is remembered
* `EventLog.limit_only_curtails`
-/

namespace ContainerTasks

/-! ### Writing -/

namespace Writer

variable {w : Writer} {text : String}

/-- Writes pieces of text one after the other, up to the first that is refused. -/
def writePieces (w : Writer) : List String → Except String Unit × Writer
  | [] => (.ok (), w)
  | piece :: rest =>
    match w.write piece with
    | (.ok (), w) => w.writePieces rest
    | (.error error, w) => (.error error, w)

theorem write_of_isFull (h : w.isFull = true) (text : String) :
    w.write text = (.error w.refusal, w) :=
  if_pos h

theorem write_of_not_isFull (h : w.isFull = false) (text : String) :
    w.write text = (.ok (), { w with written := w.written ++ text }) :=
  if_neg (by simp [h])

theorem lines_append (w : Writer) (text : String) :
    lines { w with written := w.written ++ text } = w.lines + text.toList.count '\n' := by
  simp [lines]

/-- Text without a line feed does not bring the limit nearer. -/
theorem isFull_append (hplain : '\n' ∉ text.toList) :
    isFull { w with written := w.written ++ text } = w.isFull := by
  rw [isFull, lines_append, List.count_eq_zero_of_not_mem hplain, Nat.add_zero, isFull]

theorem writeLine_of_isFull (h : w.isFull = true) (text : String) :
    w.writeLine text = (.error w.refusal, w) := by
  rw [writeLine, write_of_isFull h]

theorem writeLine_of_not_isFull (h : w.isFull = false) (hplain : '\n' ∉ text.toList) :
    w.writeLine text = (.ok (), { w with written := w.written ++ (text ++ "\n") }) := by
  rw [writeLine, write_of_not_isFull h]
  dsimp only
  rw [write_of_not_isFull ((isFull_append hplain).trans h), String.append_assoc]

/-- A line is written in pieces as it is written at once. -/
theorem writePieces_eq_writeLine (w : Writer) {pieces : List String}
    (hplain : '\n' ∉ (String.join pieces).toList) :
    w.writePieces (pieces ++ ["\n"]) = w.writeLine (String.join pieces) := by
  cases hfull : w.isFull with
  | true =>
    rw [writeLine_of_isFull hfull]
    cases pieces <;> simp [writePieces, write_of_isFull hfull]
  | false =>
    rw [writeLine_of_not_isFull hfull hplain]
    induction pieces generalizing w with
    | nil => simp [writePieces, write_of_not_isFull hfull]
    | cons piece rest ih =>
      rw [String.join_cons, String.toList_append, List.mem_append, not_or] at hplain
      rw [List.cons_append, writePieces, write_of_not_isFull hfull]
      dsimp only
      rw [ih _ hplain.2 ((isFull_append hplain.1).trans hfull)]
      simp [String.append_assoc]

end Writer

/-! ### The first lines of a text -/

/-- The first lines of a text, with their line feeds. -/
def firstLines : Nat → List Char → List Char
  | 0, _ => []
  | _ + 1, [] => []
  | n + 1, c :: rest => c :: firstLines (if c = '\n' then n else n + 1) rest

theorem firstLines_line {line : List Char} (hplain : '\n' ∉ line) (n : Nat) (rest : List Char) :
    firstLines (n + 1) (line ++ '\n' :: rest) = line ++ '\n' :: firstLines n rest := by
  induction line with
  | nil => simp [firstLines]
  | cons c line ih =>
    rw [List.mem_cons, not_or] at hplain
    rw [List.cons_append, firstLines, if_neg (Ne.symm hplain.1), ih hplain.2, List.cons_append]

theorem eventLines_cons (e : Event) (rest : List Event) :
    eventLines (e :: rest) = e.line ++ "\n" ++ eventLines rest := by
  simp [eventLines]

theorem eventLines_concat (entries : List Event) (e : Event) :
    eventLines (entries ++ [e]) = eventLines entries ++ (e.line ++ "\n") := by
  simp [eventLines]

/-- The first lines of a log are the lines of the first events. -/
theorem firstLines_eventLines (k : Nat) (entries : List Event) :
    firstLines k (eventLines entries).toList = (eventLines (entries.take k)).toList := by
  induction entries generalizing k with
  | nil => cases k <;> rfl
  | cons e rest ih =>
    cases k with
    | zero => simp [firstLines, eventLines]
    | succ k =>
      have line : (e.line ++ "\n" ++ eventLines rest).toList =
          e.line.toList ++ '\n' :: (eventLines rest).toList := by simp
      rw [eventLines_cons, line, firstLines_line e.newline_notMem_line, ih, List.take_succ_cons,
        eventLines_cons]
      simp

theorem count_newline_eventLines (entries : List Event) :
    (eventLines entries).toList.count '\n' = entries.length := by
  induction entries with
  | nil => rfl
  | cons e rest ih =>
    rw [eventLines_cons]
    simp [ih, List.count_eq_zero_of_not_mem e.newline_notMem_line]

/-! ### Telling loggers -/

namespace Logger

/-- A logger that has been told events. -/
def told (events : List Event) : Logger → Logger
  | .memory remembered => .memory (remembered ++ events)
  | l => l

/-- The events whose lines a logger writes when it is told one. -/
def entries (e : Event) : Logger → List Event
  | .lines => [e]
  | .records | .memory _ => []

@[simp]
theorem told_nil (l : Logger) : l.told [] = l := by
  cases l <;> simp [told]

theorem told_told (l : Logger) (events rest : List Event) :
    (l.told events).told rest = l.told (events ++ rest) := by
  cases l <;> simp [told]

@[simp]
theorem entries_told (l : Logger) (events : List Event) (e : Event) :
    (l.told events).entries e = l.entries e := by
  cases l <;> rfl

end Logger

/-- Whether a log record is about a line that could not be written. -/
def LogRecord.isLoss (record : LogRecord) : Bool := record.fields.any (·.1 = "error")

theorem Event.isLoss_record (e : Event) : e.record.isLoss = false := by
  simp [LogRecord.isLoss, Event.record]

theorem Event.isLoss_lostRecord (e : Event) (error : String) :
    (e.lostRecord error).isLoss = true := by
  simp [LogRecord.isLoss, Event.lostRecord]

namespace EventLog

variable {k : Nat} {refusal : String} {entries : List Event} {log x y : EventLog}

theorem tell_lines_of_isFull (h : log.writer.isFull = true) (e : Event) :
    tell e log .lines =
      { log with loggers := log.loggers ++ [Logger.lines] }.addRecord
        (e.lostRecord log.writer.refusal) := by
  simp only [tell, Writer.writeLine_of_isFull h]

theorem tell_lines_of_not_isFull (h : log.writer.isFull = false) (e : Event) :
    tell e log .lines =
      { log with
        writer := { log.writer with written := log.writer.written ++ (e.line ++ "\n") }
        loggers := log.loggers ++ [Logger.lines] } := by
  simp only [tell, Writer.writeLine_of_not_isFull h e.newline_notMem_line]

theorem loggers_tell (e : Event) (log : EventLog) (l : Logger) :
    (tell e log l).loggers = log.loggers ++ [l.told [e]] := by
  cases l with
  | lines =>
    cases h : log.writer.isFull with
    | true => rw [tell_lines_of_isFull h]; rfl
    | false => rw [tell_lines_of_not_isFull h]; rfl
  | records => rfl
  | memory remembered => rfl

theorem loggers_post (log : EventLog) (e : Event) :
    (log.post e).loggers = log.loggers.map (·.told [e]) := by
  have all (loggers : List Logger) (log : EventLog) :
      (loggers.foldl (tell e) log).loggers = log.loggers ++ loggers.map (·.told [e]) := by
    induction loggers generalizing log with
    | nil => simp
    | cons l rest ih => rw [List.foldl_cons, ih, loggers_tell]; simp
  exact all log.loggers _

/-- Whoever remembers events remembers all of them, whatever can be written. -/
theorem loggers_postAll (log : EventLog) (events : List Event) :
    (log.postAll events).loggers = log.loggers.map (·.told events) := by
  induction events generalizing log with
  | nil => simp [postAll]
  | cons e rest ih =>
    rw [postAll, List.foldl_cons, ← postAll, ih, loggers_post]
    simp [Logger.told_told]

/-! ### A log with a limit -/

/-- A log with a limit has got as far as one without a limit. -/
structure Curtailed (k : Nat) (refusal : String) (entries : List Event) (x y : EventLog) :
    Prop where
  limit_eq : x.writer.limit = some k
  refusal_eq : x.writer.refusal = refusal
  limit_eq_none : y.writer.limit = none
  /-- Only the first lines are there. -/
  written_eq : x.writer.written = eventLines (entries.take k)
  written_eq_all : y.writer.written = eventLines entries
  loggers_eq : x.loggers = y.loggers
  /-- What is reported besides is about lost lines. -/
  records_eq : x.records.filter (!·.isLoss) = y.records
  /-- Each line that is not there is reported, with the error of the writer. -/
  losses_eq : x.records.filter (·.isLoss) = (entries.drop k).map (·.lostRecord refusal)

namespace Curtailed

theorem on (k : Nat) (refusal : String) (loggers : List Logger) :
    Curtailed k refusal [] (EventLog.on ⟨"", some k, refusal⟩ loggers)
      (EventLog.new none loggers) where
  limit_eq := rfl
  refusal_eq := rfl
  limit_eq_none := rfl
  written_eq := by simp [EventLog.on, eventLines]
  written_eq_all := rfl
  loggers_eq := rfl
  records_eq := rfl
  losses_eq := by simp [EventLog.on]

/-- The limit is met as soon as there is an entry that does not belong to the first ones. -/
theorem isFull_iff (h : Curtailed k refusal entries x y) :
    x.writer.isFull = true ↔ k ≤ entries.length := by
  simp [Writer.isFull, Writer.lines, h.limit_eq, h.written_eq, count_newline_eventLines]

theorem isFull_eq_false (h : Curtailed k refusal entries x y) : y.writer.isFull = false := by
  simp [Writer.isFull, h.limit_eq_none]

theorem tell (h : Curtailed k refusal entries x y) (e : Event) (l : Logger) :
    Curtailed k refusal (entries ++ l.entries e) (EventLog.tell e x l) (EventLog.tell e y l) := by
  cases l with
  | lines =>
    rw [tell_lines_of_not_isFull h.isFull_eq_false, Logger.entries]
    cases hfull : x.writer.isFull with
    | true =>
      have hk : k ≤ entries.length := h.isFull_iff.mp hfull
      rw [tell_lines_of_isFull hfull, h.refusal_eq]
      constructor
      case limit_eq => exact h.limit_eq
      case refusal_eq => exact h.refusal_eq
      case limit_eq_none => exact h.limit_eq_none
      case written_eq =>
        exact h.written_eq.trans (by rw [List.take_append_of_le_length hk])
      case written_eq_all =>
        exact (congrArg (· ++ _) h.written_eq_all).trans (eventLines_concat entries e).symm
      case loggers_eq => exact congrArg (· ++ [Logger.lines]) h.loggers_eq
      case records_eq => simp [addRecord, e.isLoss_lostRecord, h.records_eq]
      case losses_eq =>
        simp [addRecord, e.isLoss_lostRecord, h.losses_eq, List.drop_append_of_le_length hk]
    | false =>
      have room : entries.length < k :=
        Nat.lt_of_not_le fun hk => by simp [h.isFull_iff.2 hk] at hfull
      have before : entries.take k = entries := List.take_of_length_le (Nat.le_of_lt room)
      have hall : (entries ++ [e]).length ≤ k := by simpa using Nat.succ_le_of_lt room
      rw [tell_lines_of_not_isFull hfull]
      constructor
      case limit_eq => exact h.limit_eq
      case refusal_eq => exact h.refusal_eq
      case limit_eq_none => exact h.limit_eq_none
      case written_eq =>
        dsimp only
        rw [h.written_eq, before, List.take_of_length_le hall, eventLines_concat]
      case written_eq_all =>
        exact (congrArg (· ++ _) h.written_eq_all).trans (eventLines_concat entries e).symm
      case loggers_eq => exact congrArg (· ++ [Logger.lines]) h.loggers_eq
      case records_eq => exact h.records_eq
      case losses_eq =>
        dsimp only
        rw [h.losses_eq, List.drop_of_length_le hall, List.drop_of_length_le (Nat.le_of_lt room)]
  | records =>
    rw [Logger.entries, List.append_nil]
    exact { h with
      loggers_eq := congrArg (· ++ [Logger.records]) h.loggers_eq
      records_eq := by simp [EventLog.tell, addRecord, e.isLoss_record, h.records_eq]
      losses_eq := by simp [EventLog.tell, addRecord, e.isLoss_record, h.losses_eq] }
  | memory remembered =>
    rw [Logger.entries, List.append_nil]
    exact { h with
      loggers_eq := congrArg (· ++ [Logger.memory (remembered ++ [e])]) h.loggers_eq }

theorem tellAll (h : Curtailed k refusal entries x y) (e : Event) (loggers : List Logger) :
    Curtailed k refusal (entries ++ loggers.flatMap (·.entries e)) (loggers.foldl (EventLog.tell e) x)
      (loggers.foldl (EventLog.tell e) y) := by
  induction loggers generalizing entries x y with
  | nil => simpa using h
  | cons l rest ih => simpa using ih (h.tell e l)

theorem post (h : Curtailed k refusal entries x y) (e : Event) :
    Curtailed k refusal (entries ++ x.loggers.flatMap (·.entries e)) (x.post e) (y.post e) := by
  have start : Curtailed k refusal entries { x with loggers := [] } { y with loggers := [] } :=
    { h with loggers_eq := rfl }
  rw [EventLog.post, EventLog.post, ← h.loggers_eq]
  exact start.tellAll e x.loggers

theorem postAll (h : Curtailed k refusal entries x y) (events : List Event) :
    Curtailed k refusal (entries ++ events.flatMap fun e => x.loggers.flatMap (·.entries e))
      (x.postAll events) (y.postAll events) := by
  induction events generalizing entries x y with
  | nil => simpa [EventLog.postAll] using h
  | cons e rest ih =>
    have next := ih (h.post e)
    simp only [loggers_post, List.flatMap_map, Logger.entries_told] at next
    simpa [EventLog.postAll] using next

end Curtailed

/-- Every event is told to all loggers in turn, and the lines that this makes are written one after
the other as long as the writer takes them. What a limited writer gets is then the first lines of
what another gets, whole lines only, in however many pieces a line is written. Everybody who
remembers events remembers all of them in order, and the log records are those of a log without a
limit, but for the ones about lost lines: there is one for each, with the error of the writer. -/
theorem limit_only_curtails (k : Nat) (refusal : String) (loggers : List Logger)
    (events : List Event) :
    let limited := (on ⟨"", some k, refusal⟩ loggers).postAll events
    let unlimited := (new none loggers).postAll events
    let entries := events.flatMap fun e => loggers.flatMap (·.entries e)
    limited.writer.written.toList = firstLines k unlimited.writer.written.toList ∧
    unlimited.writer.written = eventLines entries ∧
    limited.writer.written = eventLines (entries.take k) ∧
    (∀ e : Event, '\n' ∉ e.line.toList) ∧
    (∀ (w : Writer) (e : Event) (pieces : List String), String.join pieces = e.line →
      w.writePieces (pieces ++ ["\n"]) = w.writeLine e.line) ∧
    limited.loggers = loggers.map (·.told events) ∧
    limited.records.filter (!·.isLoss) = unlimited.records ∧
    limited.records.filter (·.isLoss) = (entries.drop k).map fun e =>
      ⟨.warn, [("error", refusal), ("event", e.kind)], "failed to write event log entry"⟩ := by
  intro limited unlimited entries
  have h := (Curtailed.on k refusal loggers).postAll events
  refine ⟨?_, h.written_eq_all, h.written_eq, fun e => e.newline_notMem_line, ?_,
    loggers_postAll _ _, h.records_eq, h.losses_eq⟩
  · rw [h.written_eq, h.written_eq_all, firstLines_eventLines]
  · rintro w e pieces hpieces
    rw [← hpieces]
    exact w.writePieces_eq_writeLine (hpieces ▸ e.newline_notMem_line)

-- Between two loggers that are told the same event, the writer has had enough.
example :
    let log := (new (some 1) [.lines, .memory [], .lines]).postAll [.interrupted]
    log.writer.written = Event.interrupted.line ++ "\n" ∧
      log.records = [Event.interrupted.lostRecord "disk full"] ∧
      log.loggers = [.lines, .memory [.interrupted], .lines] := by
  decide +kernel

end EventLog

end ContainerTasks
