import ContainerTasks.Json
import ContainerTasks.Json.Reading
import ContainerTasks.Proofs.Numerals

/-!
# Written values can be read back

The compact text of a value is read as that value, whatever follows it inside a larger text. The
reader asks for fuel, and twice the length of the text is enough. The text has no control
characters, so it fits on one line.

## Main definitions

* `Json.asRead`: a value as the reader gives it
* `Json.EndsValue`: what may follow a value

## Main results

* `JsonText.string?_quoted`, `JsonText.number?_decimal`, `JsonText.value?_chars`
* `JsonText.read?_render`: the text of a value is read as the value
* `Json.le_toNat_of_mem_chars`: no character of a text is a control character
-/

namespace ContainerTasks

/-! ### Values as they are read -/

namespace Json

mutual
/-- A value as the reader gives it. -/
def asRead : Json → JsonText
  | null => .null
  | bool b => .bool b
  | int n => .whole n
  | str s => .string (some s)
  | arr items => .array (itemsAsRead items)
  | obj fields => .object (fieldsAsRead fields)

/-- The items of an array as the reader gives them. -/
def itemsAsRead : List Json → List JsonText
  | [] => []
  | item :: rest => item.asRead :: itemsAsRead rest

/-- The fields of an object as the reader gives them. -/
def fieldsAsRead : List (String × Json) → List (Option String × JsonText)
  | [] => []
  | (name, value) :: rest => (some name, value.asRead) :: fieldsAsRead rest
end

theorem itemsAsRead_eq_map (items : List Json) : itemsAsRead items = items.map asRead := by
  induction items with
  | nil => rfl
  | cons item rest ih => simp [itemsAsRead, ih]

/-- What follows a value inside a larger text: nothing, or a mark that ends the value. -/
def EndsValue (rest : List Char) : Prop := ∀ c ∈ rest.head?, c = ',' ∨ c = ']' ∨ c = '\x7d'

theorem EndsValue.nil : EndsValue [] := by simp [EndsValue]

theorem EndsValue.cons {c : Char} {rest : List Char} (h : c = ',' ∨ c = ']' ∨ c = '\x7d') :
    EndsValue (c :: rest) := by
  simpa [EndsValue] using h

theorem decimal_ofNat (m : Nat) : decimal m = Nat.toDigits 10 m := by
  simp [decimal, Int.toString_eq_repr, Int.repr_eq_if]

theorem decimal_negSucc (m : Nat) : decimal (.negSucc m) = '-' :: Nat.toDigits 10 (m + 1) := by
  simp [decimal, Int.toString_eq_repr, Int.repr]

/-- A number begins with a digit or a minus sign. -/
theorem decimal_eq_cons (n : Int) :
    ∃ c cs, decimal n = c :: cs ∧ (c = '-' ∨ c.isDigit = true) := by
  cases n with
  | ofNat m =>
    cases h : Nat.toDigits 10 m with
    | nil => exact absurd h Nat.toDigits_ne_nil
    | cons c cs =>
      have : c ∈ Nat.toDigits 10 m := by simp [h]
      exact ⟨c, cs, (decimal_ofNat m).trans h,
        .inr (Nat.isDigit_of_mem_toDigits (by decide) (by decide) this)⟩
  | negSucc m => exact ⟨'-', _, decimal_negSucc m, .inl rfl⟩

end Json

namespace JsonText

open Json

/-! ### Numbers -/

theorem digits_append {front rest : List Char} (digit : ∀ c ∈ front, c.isDigit = true)
    (ends : EndsValue rest) : digits (front ++ rest) = (front, rest) := by
  have stop : ∀ c ∈ rest.head?, isDecimal c = false := by
    intro c hc
    rcases ends c hc with rfl | rfl | rfl <;> rfl
  induction front with
  | nil =>
    cases rest with
    | nil => rfl
    | cons c rest => simp [digits, stop c rfl]
  | cons c front ih =>
    rw [List.forall_mem_cons] at digit
    simpa [digits, isDecimal_eq_isDigit, digit.1] using ih digit.2

theorem skipFraction?_of_endsValue {rest : List Char} (ends : EndsValue rest) :
    skipFraction? rest = some (false, rest) := by
  cases rest with
  | nil => rfl
  | cons c rest => rcases ends c rfl with rfl | rfl | rfl <;> rfl

theorem skipExponent?_of_endsValue {rest : List Char} (ends : EndsValue rest) :
    skipExponent? rest = some (false, rest) := by
  cases rest with
  | nil => rfl
  | cons c rest => rcases ends c rfl with rfl | rfl | rfl <;> rfl

/-- The reader takes exactly the digits of a number and finds no fault with them. -/
theorem digits_toDigits (m : Nat) {rest : List Char} (ends : EndsValue rest) :
    digits (Nat.toDigits 10 m ++ rest) = (Nat.toDigits 10 m, rest) ∧
      ofDigits? 10 (Nat.toDigits 10 m) = some m ∧
      ((Nat.toDigits 10 m).isEmpty || ((Nat.toDigits 10 m).head? = some '0' &&
        (Nat.toDigits 10 m).length > 1)) = false := by
  have isDigit : ∀ c ∈ Nat.toDigits 10 m, c.isDigit = true := fun _ =>
    Nat.isDigit_of_mem_toDigits (by decide) (by decide)
  refine ⟨digits_append isDigit ends, ?_, ?_⟩
  · rw [ofDigits?_of_isDigit isDigit, Nat.ofDigitChars_ten_toDigits]
  · by_cases hm : m = 0
    · subst m; rfl
    · simp [head?_toDigits_ne_zero hm]

/-- A number is read up to the mark that ends it. -/
theorem number?_decimal (n : Int) {rest : List Char} (ends : EndsValue rest) :
    number? (decimal n ++ rest) = some (.whole n, rest) := by
  cases n with
  | ofNat m =>
    obtain ⟨front, value, plain⟩ := digits_toDigits m ends
    rw [Int.ofNat_eq_natCast, decimal_ofNat, number?]
    · simp [front, value, plain, skipFraction?_of_endsValue ends, skipExponent?_of_endsValue ends]
    · intro cs h
      rcases List.append_eq_cons_iff.1 h with ⟨empty, -⟩ | ⟨digits, first, -⟩
      · exact Nat.toDigits_ne_nil empty
      · have : '-' ∈ Nat.toDigits 10 m := by simp [first]
        simpa using Nat.isDigit_of_mem_toDigits (by decide) (by decide) this
  | negSucc m =>
    obtain ⟨front, value, plain⟩ := digits_toDigits (m + 1) ends
    rw [decimal_negSucc, List.cons_append, number?]
    simp [front, value, plain, skipFraction?_of_endsValue ends, skipExponent?_of_endsValue ends,
      Int.negSucc_eq]

/-! ### Strings -/

/-- An escaped character is read as the character. -/
theorem pieces?_escape (c : Char) (fuel : Nat) (rest : List Char) :
    pieces? (fuel + 1) (escape c ++ rest) =
      (pieces? fuel rest).map fun (pieces, rest) => (c.toNat :: pieces, rest) := by
  have done (piece : Nat) : (pieces? fuel rest).bind
      (fun (pieces, rest) => some (piece :: pieces, rest)) =
      (pieces? fuel rest).map fun (pieces, rest) => (piece :: pieces, rest) := by
    cases pieces? fuel rest <;> rfl
  unfold escape
  split_ifs with quote slash feed ret tab back form control
  · subst c; exact done _
  · subst c; exact done _
  · subst c; exact done _
  · subst c; exact done _
  · subst c; exact done _
  · rw [back]; exact done _
  · rw [form]; exact done _
  · simp only [List.cons_append, List.nil_append, pieces?, hex4?, ofDigits?_sixteen _ control]
    exact done _
  · simp only [List.cons_append, List.nil_append]
    rw [pieces?]
    · simp [control, slash, done]
    · simpa using quote
    · simp [slash]
    · simp [slash]

/-- No character is half of a surrogate pair, so there is nothing to join. -/
theorem join?_toNat (cs : List Char) : join? (cs.map Char.toNat) = some cs := by
  have valid (c : Char) : ¬(0xd800 ≤ c.toNat ∧ c.toNat ≤ 0xdfff) := by
    have := c.valid
    simp only [UInt32.isValidChar, Nat.isValidChar, Char.toNat_val] at this
    omega
  induction cs with
  | nil => rfl
  | cons c rest ih =>
    cases rest with
    | nil =>
      have := valid c
      simp [join?, this]
    | cons d rest =>
      have noPair : ¬(0xd800 ≤ c.toNat ∧ c.toNat ≤ 0xdbff ∧
          0xdc00 ≤ d.toNat ∧ d.toNat ≤ 0xdfff) := by
        have := valid c
        omega
      simp only [List.map_cons] at ih ⊢
      rw [join?, if_neg noPair, if_neg (valid c), ih]
      simp

/-- What follows the opening mark of a string is read as the string. -/
theorem string?_quoted (s : String) (rest : List Char) :
    string? (s.toList.flatMap escape ++ '"' :: rest) = some (some s, rest) := by
  have enough (cs : List Char) : cs.length ≤ (cs.flatMap escape).length := by
    induction cs with
    | nil => simp
    | cons c cs ih =>
      have : 0 < (escape c).length := by unfold escape; split_ifs <;> simp
      simp only [List.flatMap_cons, List.length_append, List.length_cons]
      omega
  have read (cs : List Char) : ∀ fuel, cs.length < fuel →
      pieces? fuel (cs.flatMap escape ++ '"' :: rest) = some (cs.map Char.toNat, rest) := by
    induction cs with
    | nil =>
      intro fuel h
      cases fuel with
      | zero => simp at h
      | succ fuel => rfl
    | cons c cs ih =>
      intro fuel h
      cases fuel with
      | zero => simp at h
      | succ fuel =>
        rw [List.flatMap_cons, List.append_assoc, pieces?_escape, ih _ (by simpa using h)]
        rfl
  have := enough s.toList
  rw [string?, read _ _ (by simp only [List.length_append, List.length_cons]; omega)]
  simp [join?_toNat]

end JsonText

/-! ### Values -/

namespace Json

/-- A text begins with neither a blank nor the end of an array. -/
theorem chars_eq_cons (j : Json) :
    ∃ c cs, chars j = c :: cs ∧ JsonText.isGap c = false ∧ c ≠ ']' := by
  cases j with
  | null | str | arr | obj => simp [chars, quoted, JsonText.isGap]
  | bool b => cases b <;> simp [chars, JsonText.isGap]
  | int n =>
    obtain ⟨c, cs, h, front⟩ := decimal_eq_cons n
    refine ⟨c, cs, h, ?_, ?_⟩
    · cases gap : JsonText.isGap c with
      | false => rfl
      | true =>
        simp only [JsonText.isGap, Bool.or_eq_true, decide_eq_true_eq] at gap
        rcases gap with ((rfl | rfl) | rfl) | rfl <;> simp at front
    · rintro rfl; simp at front

end Json

namespace JsonText

open Json

theorem skipGap_chars (j : Json) (rest : List Char) :
    skipGap (j.chars ++ rest) = j.chars ++ rest := by
  obtain ⟨c, cs, h, gap, -⟩ := j.chars_eq_cons
  simp [skipGap, h, gap]

theorem value?_decimal (fuel : Nat) (n : Int) {rest : List Char} (ends : EndsValue rest) :
    value? (fuel + 1) (decimal n ++ rest) = some (.whole n, rest) := by
  obtain ⟨c, cs, h, front⟩ := decimal_eq_cons n
  rw [value?, show skipGap (decimal n ++ rest) = _ from skipGap_chars (.int n) rest, chars]
  split
  case h_7 => exact number?_decimal n ends
  all_goals
    next heq =>
      rw [h, List.cons_append, List.cons.injEq] at heq
      simp [heq.1] at front

theorem word?_append (word : String) (value : JsonText) (rest : List Char) :
    word? word value (word.toList ++ rest) = some (value, rest) := by
  simp [word?, ← String.length_toList]

theorem value?_array {fuel : Nat} {c : Char} {cs rest : List Char} {items : List JsonText}
    (gap : isGap c = false) (more : c ≠ ']') (read : items? fuel (c :: cs) = some (items, rest)) :
    value? (fuel + 1) ('[' :: c :: cs) = some (.array items, rest) := by
  have keep : skipGap (c :: cs) = c :: cs := by simp [skipGap, gap]
  have mark : skipGap ('[' :: c :: cs) = '[' :: c :: cs := rfl
  rw [value?, mark]
  simp only [keep]
  split
  · next h => exact absurd (List.cons.inj h).1 more
  · rw [read]; rfl

theorem value?_object {fuel : Nat} {cs rest : List Char} {fields : List (Option String × JsonText)}
    (read : fields? fuel ('"' :: cs) = some (fields, rest)) :
    value? (fuel + 1) ('\x7b' :: '"' :: cs) = some (.object fields, rest) := by
  simp [value?, skipGap, isGap, read]

-- The induction is on the value. Each item takes one unit of fuel more than its own text needs,
-- and a comma or a bracket stands before or after it: so two units a character are enough, with one
-- more for a list of items.
mutual
/-- The text of a value is read as the value, up to what ends it. -/
theorem value?_chars : ∀ (j : Json) (fuel : Nat) (rest : List Char),
    2 * j.chars.length ≤ fuel → EndsValue rest →
    value? fuel (j.chars ++ rest) = some (j.asRead, rest)
  | j, 0, _, enough, _ => by
    obtain ⟨c, cs, h, -⟩ := j.chars_eq_cons
    simp [h] at enough
  | .null, fuel + 1, rest, _, _ => word?_append "null" .null rest
  | .bool true, fuel + 1, rest, _, _ => word?_append "true" (.bool true) rest
  | .bool false, fuel + 1, rest, _, _ => word?_append "false" (.bool false) rest
  | .int n, fuel + 1, rest, _, ends => by rw [chars, value?_decimal fuel n ends, asRead]
  | .str s, fuel + 1, rest, _, _ => by
    simp [chars, quoted, value?, skipGap, isGap, string?_quoted, asRead]
  | .arr [], fuel + 1, rest, _, _ => by
    simp [chars, itemChars, value?, skipGap, isGap, asRead, itemsAsRead]
  | .arr (item :: items), fuel + 1, rest, enough, ends => by
    simp only [chars, List.length_append, List.length_cons] at enough
    have read := items?_itemChars item items fuel rest (by omega)
    obtain ⟨c, cs, first, gap, more⟩ : ∃ c cs,
        itemChars (item :: items) ++ ']' :: rest = c :: cs ∧ isGap c = false ∧ c ≠ ']' := by
      obtain ⟨c, cs, h⟩ := item.chars_eq_cons
      cases items <;> simp [itemChars, h]
    rw [first] at read
    simpa [chars, asRead, first] using value?_array gap more read
  | .obj [], fuel + 1, rest, _, _ => by
    simp [chars, fieldChars, value?, skipGap, isGap, asRead, fieldsAsRead]
  | .obj (field :: fields), fuel + 1, rest, enough, _ => by
    simp only [chars, List.length_append, List.length_cons] at enough
    have read := fields?_fieldChars field fields fuel rest (by omega)
    obtain ⟨cs, first⟩ : ∃ cs, fieldChars (field :: fields) ++ '\x7d' :: rest = '"' :: cs := by
      cases fields <;> simp [fieldChars, quoted]
    rw [first] at read
    simpa [chars, asRead, first] using value?_object read

theorem items?_itemChars : ∀ (item : Json) (items : List Json) (fuel : Nat) (rest : List Char),
    2 * (itemChars (item :: items)).length + 1 ≤ fuel →
    items? fuel (itemChars (item :: items) ++ ']' :: rest) =
      some (itemsAsRead (item :: items), rest)
  | _, _, 0, _, enough => by simp at enough
  | item, [], fuel + 1, rest, enough => by
    rw [itemChars] at enough
    have read := value?_chars item fuel (']' :: rest) (by omega) (.cons (by simp))
    simp [itemChars, items?, read, skipGap, isGap, itemsAsRead]
  | item, next :: items, fuel + 1, rest, enough => by
    simp only [itemChars, List.length_append, List.length_cons] at enough
    have read := value?_chars item fuel (',' :: (itemChars (next :: items) ++ ']' :: rest))
      (by omega) (.cons (by simp))
    have readRest := items?_itemChars next items fuel rest (by omega)
    simp [itemChars, items?, read, readRest, skipGap, isGap, itemsAsRead]

theorem fields?_fieldChars : ∀ (field : String × Json) (fields : List (String × Json))
    (fuel : Nat) (rest : List Char), 2 * (fieldChars (field :: fields)).length + 1 ≤ fuel →
    fields? fuel (fieldChars (field :: fields) ++ '\x7d' :: rest) =
      some (fieldsAsRead (field :: fields), rest)
  | _, _, 0, _, enough => by simp at enough
  | (name, value), [], fuel + 1, rest, enough => by
    simp only [fieldChars, List.length_append, List.length_cons] at enough
    have read := value?_chars value fuel ('\x7d' :: rest) (by omega) (.cons (by simp))
    simp [fieldChars, quoted, fields?, string?_quoted, read, skipGap, isGap, fieldsAsRead]
  | (name, value), next :: fields, fuel + 1, rest, enough => by
    simp only [fieldChars, List.length_append, List.length_cons] at enough
    have read := value?_chars value fuel (',' :: (fieldChars (next :: fields) ++ '\x7d' :: rest))
      (by omega) (.cons (by simp))
    have readRest := fields?_fieldChars next fields fuel rest (by omega)
    simp [fieldChars, quoted, fields?, string?_quoted, read, readRest, skipGap, isGap,
      fieldsAsRead]
end

/-- The text of a value is read as the value. -/
theorem read?_render (j : Json) : read? j.render = some j.asRead := by
  have read := value?_chars j (2 * j.chars.length + 2) [] (by omega) .nil
  rw [List.append_nil] at read
  simp only [read?, render, String.toList_ofList]
  rw [read]
  rfl

end JsonText

/-! ### The characters of a text -/

namespace Json

theorem le_toNat_of_mem_escape (c : Char) : ∀ d ∈ escape c, 32 ≤ d.toNat := by
  have hex : ∀ n < 16, 32 ≤ (Nat.digitChar n).toNat := by decide
  unfold escape
  split_ifs with quote slash feed ret tab back form control
  iterate 7 simp
  · simp [hex (c.toNat / 16) (by omega), hex (c.toNat % 16) (by omega)]
  · simpa using control

theorem le_toNat_of_mem_quoted (s : String) : ∀ c ∈ quoted s, 32 ≤ c.toNat := by
  intro c hc
  simp only [quoted, List.mem_append, List.mem_cons, List.mem_flatMap, List.not_mem_nil,
    or_false] at hc
  rcases hc with (rfl | ⟨d, -, hd⟩) | rfl
  · decide
  · exact le_toNat_of_mem_escape d c hd
  · decide

theorem le_toNat_of_mem_decimal (n : Int) : ∀ c ∈ decimal n, 32 ≤ c.toNat := by
  have digits (m : Nat) : ∀ c ∈ Nat.toDigits 10 m, 32 ≤ c.toNat := by
    intro c hc
    have digit := Nat.isDigit_of_mem_toDigits (by decide) (by decide) hc
    have : 48 ≤ c.toNat := by
      simp only [Char.isDigit, ge_iff_le, Bool.and_eq_true, decide_eq_true_eq] at digit
      exact digit.1
    omega
  cases n with
  | ofNat m => rw [Int.ofNat_eq_natCast, decimal_ofNat]; exact digits m
  | negSucc m =>
    rw [decimal_negSucc, List.forall_mem_cons]
    exact ⟨by decide, digits (m + 1)⟩

mutual
/-- No character of a text is a control character. -/
theorem le_toNat_of_mem_chars : ∀ (j : Json), ∀ c ∈ j.chars, 32 ≤ c.toNat
  | .null | .bool true | .bool false => by simp [chars]
  | .int n => le_toNat_of_mem_decimal n
  | .str s => le_toNat_of_mem_quoted s
  | .arr items => by
    simpa [chars, or_imp, forall_and] using le_toNat_of_mem_itemChars items
  | .obj fields => by
    simpa [chars, or_imp, forall_and] using le_toNat_of_mem_fieldChars fields

theorem le_toNat_of_mem_itemChars : ∀ (items : List Json), ∀ c ∈ itemChars items, 32 ≤ c.toNat
  | [] => by simp [itemChars]
  | [item] => le_toNat_of_mem_chars item
  | item :: next :: rest => by
    have := le_toNat_of_mem_chars item
    have := le_toNat_of_mem_itemChars (next :: rest)
    simp_all [itemChars, or_imp]

theorem le_toNat_of_mem_fieldChars :
    ∀ (fields : List (String × Json)), ∀ c ∈ fieldChars fields, 32 ≤ c.toNat
  | [] => by simp [fieldChars]
  | [(name, value)] => by
    have := le_toNat_of_mem_quoted name
    have := le_toNat_of_mem_chars value
    simp_all [fieldChars, or_imp]
  | (name, value) :: next :: rest => by
    have := le_toNat_of_mem_quoted name
    have := le_toNat_of_mem_chars value
    have := le_toNat_of_mem_fieldChars (next :: rest)
    simp_all [fieldChars, or_imp]
end

end Json

end ContainerTasks
