/-!
# UTF-8

Reading bytes as characters. A part that is no character is the longest run of bytes with which a
character could begin, or a single byte if none could.

## Main definitions

* `Utf8.step`: the first character or invalid part of bytes
* `Utf8.decode?`: the text of bytes that are valid throughout
* `Utf8.decodeLossy`: the text of any bytes, with a replacement character for each invalid part

## Main results

* `Utf8.length_step_lt`: each step leaves fewer bytes
-/

namespace ContainerTasks

/-- What the first byte of a character longer than one byte says. -/
structure Utf8.Lead where
  /-- How many bytes follow. -/
  following : Nat
  /-- The bits of the character that the first byte holds. -/
  bits : Nat
  /-- The least and the greatest byte that can come second. -/
  least : UInt8
  greatest : UInt8

namespace Utf8

/-- What a byte of at least 128 says as the first of a character. -/
def lead? (b : UInt8) : Option Lead :=
  let n := b.toNat
  if 0xc2 ≤ n ∧ n ≤ 0xdf then some ⟨1, n % 32, 0x80, 0xbf⟩
  else if n = 0xe0 then some ⟨2, n % 16, 0xa0, 0xbf⟩
  else if n = 0xed then some ⟨2, n % 16, 0x80, 0x9f⟩
  else if 0xe1 ≤ n ∧ n ≤ 0xef then some ⟨2, n % 16, 0x80, 0xbf⟩
  else if n = 0xf0 then some ⟨3, n % 8, 0x90, 0xbf⟩
  else if 0xf1 ≤ n ∧ n ≤ 0xf3 then some ⟨3, n % 8, 0x80, 0xbf⟩
  else if n = 0xf4 then some ⟨3, n % 8, 0x80, 0x8f⟩
  else none

/-- Reads the bytes that follow the first of a character. The first of them lies between bounds. -/
def follow (least greatest : UInt8) : Nat → Nat → List UInt8 → Option Char × List UInt8
  | 0, bits, rest => (some (Char.ofNat bits), rest)
  | _ + 1, _, [] => (none, [])
  | following + 1, bits, b :: rest =>
    if least ≤ b ∧ b ≤ greatest then
      follow 0x80 0xbf following (bits * 64 + b.toNat % 64) rest
    else (none, b :: rest)

/-- The first character of bytes, or nothing for an invalid part, and the bytes after it. -/
def step (b : UInt8) (rest : List UInt8) : Option Char × List UInt8 :=
  if b.toNat < 0x80 then (some (Char.ofNat b.toNat), rest)
  else
    match lead? b with
    | some lead => follow lead.least lead.greatest lead.following lead.bits rest
    | none => (none, rest)

theorem length_follow_le {least greatest : UInt8} {following bits : Nat} {rest : List UInt8} :
    (follow least greatest following bits rest).2.length ≤ rest.length := by
  induction rest generalizing least greatest following bits with
  | nil => cases following <;> simp [follow]
  | cons b rest ih =>
    cases following with
    | zero => simp [follow]
    | succ following =>
      unfold follow
      split
      · exact Nat.le_succ_of_le ih
      · simp

theorem length_step_le {b : UInt8} {rest : List UInt8} :
    (step b rest).2.length ≤ rest.length := by
  unfold step
  split
  · simp
  · split
    · exact length_follow_le
    · simp

/-- Each step leaves fewer bytes. -/
theorem length_step_lt {b : UInt8} {rest : List UInt8} :
    (step b rest).2.length < (b :: rest).length :=
  Nat.lt_succ_of_le length_step_le

/-- The characters and invalid parts of bytes. -/
def parts : List UInt8 → List (Option Char)
  | [] => []
  | b :: rest => (step b rest).1 :: parts (step b rest).2
termination_by bytes => bytes.length
decreasing_by exact length_step_lt

/-- The text of bytes that are valid throughout. -/
def decode? (bytes : List UInt8) : Option String := (parts bytes).mapM id |>.map String.ofList

/-- The text of any bytes, with a replacement character for each invalid part. -/
def decodeLossy (bytes : List UInt8) : String :=
  String.ofList ((parts bytes).map (·.getD '\ufffd'))

end Utf8

end ContainerTasks
