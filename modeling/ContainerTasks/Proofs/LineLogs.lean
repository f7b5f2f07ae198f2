import ContainerTasks.EventLog
import ContainerTasks.Proofs.Decodings
import Mathlib.Tactic.SplitIfs

/-!
# Lines of a log and the events they were written for

A log of lines is a list of bytes. A line feed stands after every line and nowhere else, since the
characters of a line are no control characters and a byte of a longer character is at least 128. So
the lines are what lies between the line feeds, and each of them can be read as its event.

## Main definitions

* `utf8`: the bytes of a text
* `Event.ofLine?`: the event of a line
* `EventLog.written`: the bytes written for events
* `EventLog.events?`: the events of the bytes of a log

## Main results

* `Event.ofLine?_line`: the line of an event is read as the event
* `lineFeed_mem_utf8`: where the byte of a line feed comes from
* `EventLog.written_eq_flatMap`, `EventLog.splitOn_written`, `EventLog.events?_written`
* `EventLog.written_determines_events`: the bytes determine the events
-/

namespace ContainerTasks

/-! ### Bytes -/

/-- The bytes of a text. -/
def utf8 (text : String) : List UInt8 := text.toUTF8.data.toList

/-- The byte that ends a line. -/
def lineFeed : UInt8 := 10

theorem utf8_eq_flatMap (text : String) :
    utf8 text = text.toList.flatMap String.utf8EncodeChar := by
  rw [utf8, String.toUTF8_eq_toByteArray, ← String.utf8Encode_toList]
  simp [List.utf8Encode]

theorem utf8_append (s t : String) : utf8 (s ++ t) = utf8 s ++ utf8 t := by
  simp [utf8_eq_flatMap]

theorem fromUTF8?_utf8 (text : String) : String.fromUTF8? (utf8 text).toByteArray = some text := by
  have bytes : (utf8 text).toByteArray = text.toByteArray := ByteArray.ext (by simp [utf8])
  rw [bytes, String.fromUTF8?, dif_pos text.isValidUTF8]
  rfl

/-- The bytes of a character from 128 on are at least 128 themselves. -/
theorem lineFeed_mem_utf8EncodeChar {c : Char} (h : lineFeed ∈ String.utf8EncodeChar c) :
    c = '\n' := by
  simp only [String.utf8EncodeChar, lineFeed] at h
  split_ifs at h with one two three <;> simp [← UInt8.toNat_inj] at h
  · have : c.toNat ≤ 127 := one
    exact Char.toNat_inj.1 (show c.toNat = 10 by omega)
  all_goals omega

theorem lineFeed_mem_utf8 {text : String} (h : lineFeed ∈ utf8 text) : '\n' ∈ text.toList := by
  rw [utf8_eq_flatMap, List.mem_flatMap] at h
  obtain ⟨c, hc, h⟩ := h
  exact lineFeed_mem_utf8EncodeChar h ▸ hc

/-! ### Lines -/

namespace Event

/-- The event of a line. -/
def ofLine? (line : String) : Option Event := do ofText? (← JsonText.read? line)

/-- The line of an event is read as the event. -/
theorem ofLine?_line (e : Event) : ofLine? e.line = some e := by
  simp [ofLine?, line, JsonText.read?_render, ofText?_toJson]

/-- A line is a single line. -/
theorem newline_notMem_line (e : Event) : '\n' ∉ e.line.toList := by
  intro h
  rw [line, Json.render, String.toList_ofList] at h
  exact absurd (e.toJson.le_toNat_of_mem_chars _ h) (by decide)

theorem lineFeed_notMem_line (e : Event) : lineFeed ∉ utf8 e.line := fun h =>
  e.newline_notMem_line (lineFeed_mem_utf8 h)

end Event

/-! ### Logs -/

namespace EventLog

/-- The bytes that a log of lines writes for events, when nothing is refused. -/
def written (events : List Event) : List UInt8 :=
  utf8 ((new none [.lines]).postAll events).writer.written

/-- The events of the bytes of a log: those of the lines before the line feeds. -/
def events? (bytes : List UInt8) : Option (List Event) :=
  (bytes.splitOn lineFeed).dropLast.mapM fun line => do
    Event.ofLine? (← String.fromUTF8? line.toByteArray)

theorem post_lines (text refusal : String) (e : Event) :
    (on ⟨text, none, refusal⟩ [.lines]).post e =
      on ⟨text ++ (e.line ++ "\n"), none, refusal⟩ [.lines] := by
  simp [on, post, tell, Writer.writeLine, Writer.write, Writer.isFull, String.append_assoc]

theorem written_postAll (text refusal : String) (events : List Event) :
    ((on ⟨text, none, refusal⟩ [.lines]).postAll events).writer.written =
      text ++ eventLines events := by
  induction events generalizing text with
  | nil => simp [postAll, eventLines, on]
  | cons e rest ih =>
    rw [postAll, List.foldl_cons, post_lines, ← postAll, ih]
    simp [eventLines, String.append_assoc]

/-- Each event adds its line and a line feed. -/
theorem written_eq_flatMap (events : List Event) :
    written events = events.flatMap fun e => utf8 e.line ++ [lineFeed] := by
  have lines : utf8 (eventLines events) = events.flatMap fun e => utf8 e.line ++ [lineFeed] := by
    induction events with
    | nil => rfl
    | cons e rest ih =>
      have feed : utf8 "\n" = [lineFeed] := rfl
      rw [List.flatMap_cons, ← ih]
      simp [eventLines, utf8_append, feed]
  rw [written, new, Writer.disk, written_postAll, String.empty_append, lines]

theorem count_written (events : List Event) :
    (written events).count lineFeed = events.length := by
  rw [written_eq_flatMap]
  induction events with
  | nil => rfl
  | cons e rest ih =>
    simp [List.count_eq_zero_of_not_mem e.lineFeed_notMem_line, ih]

/-- Between the line feeds are the lines, and there is nothing after the last one. -/
theorem splitOn_written (events : List Event) :
    (written events).splitOn lineFeed = events.map (utf8 ·.line) ++ [[]] := by
  rw [written_eq_flatMap]
  induction events with
  | nil => rfl
  | cons e rest ih =>
    have plain : ∀ b ∈ utf8 e.line, (b == lineFeed) = false := fun b hb =>
      beq_false_of_ne fun h => e.lineFeed_notMem_line (h ▸ hb)
    rw [List.splitOn_eq_splitOnP] at ih ⊢
    rw [List.flatMap_cons, List.append_assoc, List.singleton_append,
      List.splitOnP_append_cons_of_forall_mem plain lineFeed (beq_self_eq_true _), ih]
    rfl

/-- The events of a log can be read from its bytes. -/
theorem events?_written (events : List Event) : events? (written events) = some events := by
  rw [events?, splitOn_written, List.dropLast_concat]
  induction events with
  | nil => rfl
  | cons e rest ih =>
    rw [List.map_cons, List.mapM_cons, ih]
    simp [fromUTF8?_utf8, Event.ofLine?_line]

/-- Two lists of events for which the same bytes are written are equal, and what is written for
events is their lines with a line feed as the last byte of each: as many line feeds as events, none
of them inside a line. Splitting at the line feeds gives back the lines, and reading those gives
back the events. -/
theorem written_determines_events :
    (∀ events events', written events = written events' → events = events') ∧
    ∀ events,
      (written events = events.flatMap fun e => utf8 e.line ++ [lineFeed]) ∧
      (∀ e ∈ events, lineFeed ∉ utf8 e.line) ∧
      (written events).count lineFeed = events.length ∧
      (written events).splitOn lineFeed = events.map (utf8 ·.line) ++ [[]] ∧
      events? (written events) = some events := by
  refine ⟨fun events events' same => ?_, fun events => ⟨written_eq_flatMap events,
    fun e _ => e.lineFeed_notMem_line, count_written events, splitOn_written events,
    events?_written events⟩⟩
  have read := events?_written events
  rw [same, events?_written] at read
  exact (Option.some.inj read).symm

-- The line feed of a message is escaped.
example : (written [.executionFailed "a\nb", .interrupted]).count lineFeed = 2 := by
  decide +kernel

end EventLog

end ContainerTasks
