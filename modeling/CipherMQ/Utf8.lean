import Mathlib.Algebra.Order.Ring.Nat
import CipherMQ.Text

/-!
# Lossy UTF-8 decoding

Bytes are decoded one at a time.  Between two bytes the decoder is either at a
character boundary or inside a character that still owes continuation bytes.
An ill-formed sequence is replaced as soon as it cannot be completed, and so
is a character the input leaves unfinished.

Decoding does not commute with cutting the input, but it nearly does.  A cut
either leaves the decoded text as it is or, when it falls inside a character,
only adds replacement characters.
-/

namespace CipherMQ

namespace Utf8

open Text (toNat_byte)

def replacement : Char := Char.ofNat 0xFFFD

/-- A character whose next byte has to lie between `low` and `high` and that
owes `owed` further continuation bytes after it. -/
structure Pending where
  owed : Nat
  low : Nat
  high : Nat
  value : Nat
  low_continues : 0x80 ≤ low
  high_continues : high ≤ 0xBF

/-- A character with an unrestricted next continuation byte. -/
def Pending.continued (owed value : Nat) : Pending :=
  ⟨owed, 0x80, 0xBF, value, Nat.le_refl _, Nat.le_refl _⟩

/-- A byte at a character boundary: what it adds to the text, and the
character it opens. -/
def lead (byte : Nat) : List Char × Option Pending :=
  if byte < 0x80 then
    ([Char.ofNat byte], none)
  else if 0xC2 ≤ byte ∧ byte ≤ 0xDF then
    ([], some (.continued 0 (byte - 0xC0)))
  else if byte = 0xE0 then
    ([], some ⟨1, 0xA0, 0xBF, byte - 0xE0, by decide, Nat.le_refl _⟩)
  else if byte = 0xED then
    ([], some ⟨1, 0x80, 0x9F, byte - 0xE0, Nat.le_refl _, by decide⟩)
  else if 0xE1 ≤ byte ∧ byte ≤ 0xEF then
    ([], some (.continued 1 (byte - 0xE0)))
  else if byte = 0xF0 then
    ([], some ⟨2, 0x90, 0xBF, byte - 0xF0, by decide, Nat.le_refl _⟩)
  else if 0xF1 ≤ byte ∧ byte ≤ 0xF3 then
    ([], some (.continued 2 (byte - 0xF0)))
  else if byte = 0xF4 then
    ([], some ⟨2, 0x80, 0x8F, byte - 0xF0, Nat.le_refl _, by decide⟩)
  else
    ([replacement], none)

/-- A byte inside a character.  One that cannot continue it is looked at again
at the boundary the replacement leaves. -/
def extend (pending : Pending) (byte : Nat) : List Char × Option Pending :=
  if pending.low ≤ byte ∧ byte ≤ pending.high then
    let value := pending.value * 64 + (byte - 0x80)
    match pending.owed with
    | 0 => ([Char.ofNat value], none)
    | owed + 1 => ([], some (.continued owed value))
  else
    (replacement :: (lead byte).1, (lead byte).2)

def step : Option Pending → Nat → List Char × Option Pending
  | none, byte => lead byte
  | some pending, byte => extend pending byte

/-- What an unfinished character adds at the end of the input. -/
def finish : Option Pending → List Char
  | none => []
  | some _ => [replacement]

def decodeFrom : Option Pending → List UInt8 → List Char
  | pending, [] => finish pending
  | pending, byte :: bytes =>
      (step pending byte.toNat).1 ++
        decodeFrom (step pending byte.toNat).2 bytes

def pendingAfter : Option Pending → List UInt8 → Option Pending
  | pending, [] => pending
  | pending, byte :: bytes => pendingAfter (step pending byte.toNat).2 bytes

/-- The text of a byte sequence, with ill-formed sequences replaced. -/
def decodeLossy (bytes : List UInt8) : List Char :=
  decodeFrom none bytes

def encode (text : String) : List UInt8 :=
  text.toByteArray.data.toList

-- The euro sign, whole and cut after its second byte.
example : decodeLossy (encode "€") = ['€'] := by decide

example : decodeLossy [0xE2, 0x82] ++ decodeLossy [0xAC] =
    [replacement, replacement] := by decide

/-! ## Cutting the input -/

/-- The text of the first part of an input is settled up to the character the
cut may fall into. -/
theorem decodeFrom_cut (pending : Option Pending) (first : List UInt8) :
    ∃ settled,
      decodeFrom pending first =
          settled ++ finish (pendingAfter pending first) ∧
        ∀ second, decodeFrom pending (first ++ second) =
          settled ++ decodeFrom (pendingAfter pending first) second := by
  induction first generalizing pending with
  | nil => exact ⟨[], rfl, fun _ => rfl⟩
  | cons byte first ih =>
      obtain ⟨settled, alone, continued⟩ := ih (step pending byte.toNat).2
      refine ⟨(step pending byte.toNat).1 ++ settled, ?_, ?_⟩
      · rw [decodeFrom, alone, List.append_assoc]
        rfl
      · intro second
        rw [List.cons_append, decodeFrom, continued, List.append_assoc]
        rfl

/-- A cut at a character boundary does not change the text. -/
theorem decodeLossy_append_of_boundary {first : List UInt8}
    (boundary : pendingAfter none first = none) (second : List UInt8) :
    decodeLossy (first ++ second) =
      decodeLossy first ++ decodeLossy second := by
  obtain ⟨settled, alone, continued⟩ := decodeFrom_cut none first
  rw [boundary] at alone continued
  unfold decodeLossy
  rw [continued, alone]
  simp [finish]

theorem pendingAfter_append (pending : Option Pending)
    (first second : List UInt8) :
    pendingAfter pending (first ++ second) =
      pendingAfter (pendingAfter pending first) second := by
  induction first generalizing pending with
  | nil => rfl
  | cons byte first ih => exact ih _

/-- An ASCII byte ends at a character boundary wherever it is read. -/
theorem step_ascii (pending : Option Pending) {byte : Nat}
    (isAscii : byte < 0x80) : (step pending byte).2 = none := by
  have boundary : (lead byte).2 = none := by simp [lead, isAscii]
  cases pending with
  | none => exact boundary
  | some pending =>
      have outside : ¬ (pending.low ≤ byte ∧ byte ≤ pending.high) := by
        have := pending.low_continues
        omega
      simp [step, extend, outside, boundary]

theorem lead_continuation {byte : Nat} (low : 0x80 ≤ byte)
    (high : byte ≤ 0xBF) : lead byte = ([replacement], none) := by
  unfold lead
  rw [if_neg (by omega), if_neg (by omega), if_neg (by omega),
    if_neg (by omega), if_neg (by omega), if_neg (by omega),
    if_neg (by omega), if_neg (by omega)]

section Visible

/-! Text is measured by its visible characters, of which the replacement
character is one. -/

variable (visible : Char → Bool) (replaced : visible replacement = true)
include replaced

/-- Bytes read inside a character either do not continue it, or make fewer
visible characters than they make on their own with the broken character
before them; in that case they do not begin with a character. -/
theorem decodeFrom_pending (pending : Pending) (bytes : List UInt8) :
    decodeFrom (some pending) bytes = replacement :: decodeLossy bytes ∨
      ((decodeFrom (some pending) bytes).countP visible ≤
          (decodeLossy bytes).countP visible ∧
        0 < (decodeLossy bytes).countP visible) := by
  induction bytes generalizing pending with
  | nil => exact Or.inl rfl
  | cons byte bytes ih =>
      by_cases inRange :
          pending.low ≤ byte.toNat ∧ byte.toNat ≤ pending.high
      · right
        have low := pending.low_continues
        have high := pending.high_continues
        -- on its own the byte is replaced
        have alone : decodeLossy (byte :: bytes) =
            replacement :: decodeLossy bytes := by
          have isLead : lead byte.toNat = ([replacement], none) :=
            lead_continuation (by omega) (by omega)
          simp [decodeLossy, decodeFrom, step, isLead]
        rw [alone, List.countP_cons_of_pos replaced]
        refine ⟨?_, Nat.succ_pos _⟩
        cases owed : pending.owed with
        | zero =>
            simp only [decodeFrom, step, extend, inRange, and_self, if_true,
              owed, List.cons_append, List.nil_append, List.countP_cons]
            change _ + _ ≤ (decodeFrom none bytes).countP visible + 1
            split <;> omega
        | succ owed' =>
            simp only [decodeFrom, step, extend, inRange, and_self, if_true,
              owed, List.nil_append]
            rcases ih (.continued owed' _) with unchanged | ⟨fewer, -⟩
            · apply Nat.le_of_eq
              rw [unchanged, List.countP_cons_of_pos replaced]
            · exact Nat.le_succ_of_le fewer
      · left
        simp [decodeFrom, decodeLossy, step, extend, inRange]

/-- A cut leaves the text as it is or adds visible characters; in that case
the second part has some. -/
theorem decodeLossy_append (first second : List UInt8) :
    decodeLossy (first ++ second) =
        decodeLossy first ++ decodeLossy second ∨
      ((decodeLossy (first ++ second)).countP visible <
          (decodeLossy first).countP visible +
            (decodeLossy second).countP visible ∧
        0 < (decodeLossy second).countP visible) := by
  cases boundary : pendingAfter none first with
  | none => exact Or.inl (decodeLossy_append_of_boundary boundary second)
  | some pending =>
      obtain ⟨settled, alone, continued⟩ := decodeFrom_cut none first
      rw [boundary] at alone continued
      unfold decodeLossy
      rw [continued, alone]
      rcases decodeFrom_pending visible replaced pending second with
        unchanged | ⟨fewer, some⟩
      · left
        rw [unchanged]
        simp [finish, decodeLossy]
      · right
        refine ⟨?_, some⟩
        simp only [List.countP_append, finish,
          List.countP_cons_of_pos replaced, List.countP_nil]
        unfold decodeLossy at fewer
        omega

theorem countP_decodeLossy_append_le (first second : List UInt8) :
    (decodeLossy (first ++ second)).countP visible ≤
      (decodeLossy first).countP visible +
        (decodeLossy second).countP visible := by
  rcases decodeLossy_append visible replaced first second with
    unchanged | ⟨fewer, -⟩
  · apply Nat.le_of_eq
    rw [unchanged, List.countP_append]
  · exact Nat.le_of_lt fewer

theorem decodeLossy_append_invisible (first : List UInt8)
    {second : List UInt8}
    (invisible : (decodeLossy second).countP visible = 0) :
    decodeLossy (first ++ second) =
      decodeLossy first ++ decodeLossy second := by
  rcases decodeLossy_append visible replaced first second with
    unchanged | ⟨-, some⟩
  · exact unchanged
  · omega

/-- Bytes without visible characters can be cut off at the beginning: a
character they left unfinished would have been replaced. -/
theorem decodeLossy_invisible_append {first : List UInt8}
    (invisible : (decodeLossy first).countP visible = 0)
    (second : List UInt8) :
    decodeLossy (first ++ second) =
      decodeLossy first ++ decodeLossy second := by
  apply decodeLossy_append_of_boundary
  obtain ⟨settled, alone, -⟩ := decodeFrom_cut none first
  cases boundary : pendingAfter none first with
  | none => rfl
  | some pending =>
      rw [boundary] at alone
      unfold decodeLossy at invisible
      rw [alone, List.countP_append, finish,
        List.countP_cons_of_pos replaced] at invisible
      omega

end Visible

/-! ## Encoded texts -/

theorem encode_eq_flatMap (text : String) :
    encode text = text.toList.flatMap String.utf8EncodeChar := by
  unfold encode
  rw [← String.utf8Encode_toList, List.utf8Encode]
  simp

theorem extend_last {pending : Pending} {byte : Nat}
    (low : pending.low ≤ byte) (high : byte ≤ pending.high)
    (last : pending.owed = 0) :
    extend pending byte =
      ([Char.ofNat (pending.value * 64 + (byte - 0x80))], none) := by
  simp only [extend, low, high, and_self, if_true, last]

theorem extend_more {pending : Pending} {byte owed : Nat}
    (low : pending.low ≤ byte) (high : byte ≤ pending.high)
    (more : pending.owed = owed + 1) :
    extend pending byte =
      ([], some (.continued owed (pending.value * 64 + (byte - 0x80)))) := by
  simp only [extend, low, high, and_self, if_true, more]

/-- The first byte of a three-byte character opens it, and its second byte
fits. -/
theorem lead_three {code : Nat} (low : 0x800 ≤ code) (high : code ≤ 0xFFFF)
    (scalar : code < 0xD800 ∨ 0xDFFF < code) :
    ∃ pending, lead (code / 4096 + 0xE0) = ([], some pending) ∧
      pending.owed = 1 ∧ pending.value = code / 4096 ∧
      pending.low ≤ code / 64 % 64 + 0x80 ∧
      code / 64 % 64 + 0x80 ≤ pending.high := by
  by_cases first : code / 4096 = 0
  · refine ⟨⟨1, 0xA0, 0xBF, 0, by decide, Nat.le_refl _⟩, ?_, rfl, ?_, ?_, ?_⟩
    · rw [first]
      rfl
    · exact first.symm
    · change 0xA0 ≤ _
      omega
    · change _ ≤ 0xBF
      omega
  · by_cases last : code / 4096 = 13
    · refine ⟨⟨1, 0x80, 0x9F, 13, Nat.le_refl _, by decide⟩, ?_, rfl, ?_, ?_,
        ?_⟩
      · rw [last]
        rfl
      · exact last.symm
      · change 0x80 ≤ _
        omega
      · change _ ≤ 0x9F
        omega
    · refine ⟨.continued 1 (code / 4096), ?_, rfl, rfl, ?_, ?_⟩
      · unfold lead
        rw [if_neg (by omega), if_neg (by omega), if_neg (by omega),
          if_neg (by omega), if_pos (by omega), Nat.add_sub_cancel]
      · change 0x80 ≤ _
        omega
      · change _ ≤ 0xBF
        omega

theorem lead_four {code : Nat} (low : 0x10000 ≤ code)
    (high : code < 0x110000) :
    ∃ pending, lead (code / 262144 + 0xF0) = ([], some pending) ∧
      pending.owed = 2 ∧ pending.value = code / 262144 ∧
      pending.low ≤ code / 4096 % 64 + 0x80 ∧
      code / 4096 % 64 + 0x80 ≤ pending.high := by
  by_cases first : code / 262144 = 0
  · refine ⟨⟨2, 0x90, 0xBF, 0, by decide, Nat.le_refl _⟩, ?_, rfl, ?_, ?_, ?_⟩
    · rw [first]
      rfl
    · exact first.symm
    · change 0x90 ≤ _
      omega
    · change _ ≤ 0xBF
      omega
  · by_cases last : code / 262144 = 4
    · refine ⟨⟨2, 0x80, 0x8F, 4, Nat.le_refl _, by decide⟩, ?_, rfl, ?_, ?_,
        ?_⟩
      · rw [last]
        rfl
      · exact last.symm
      · change 0x80 ≤ _
        omega
      · change _ ≤ 0x8F
        omega
    · refine ⟨.continued 2 (code / 262144), ?_, rfl, rfl, ?_, ?_⟩
      · unfold lead
        rw [if_neg (by omega), if_neg (by omega), if_neg (by omega),
          if_neg (by omega), if_neg (by omega), if_neg (by omega),
          if_pos (by omega), Nat.add_sub_cancel]
      · change 0x80 ≤ _
        omega
      · change _ ≤ 0xBF
        omega

theorem continued_accepts (owed value bits : Nat) (isBits : bits < 64) :
    (Pending.continued owed value).low ≤ bits + 0x80 ∧
      bits + 0x80 ≤ (Pending.continued owed value).high := by
  change 0x80 ≤ _ ∧ _ ≤ 0xBF
  omega

theorem extend_completes (code : Nat) :
    extend (.continued 0 (code / 64)) (code % 64 + 0x80) =
      ([Char.ofNat code], none) := by
  obtain ⟨low, high⟩ := continued_accepts 0 (code / 64) (code % 64)
    (Nat.mod_lt _ (by decide))
  have whole : code / 64 * 64 + (code % 64 + 0x80 - 0x80) = code := by omega
  rw [extend_last low high rfl]
  change ([Char.ofNat (code / 64 * 64 + _)], none) = _
  rw [whole]

section Character

variable {code : Nat} (bytes : List UInt8)

theorem decodeFrom_one (short : code ≤ 0x7F) :
    decodeFrom none (UInt8.ofNat code :: bytes) =
      Char.ofNat code :: decodeFrom none bytes := by
  have byte := toNat_byte (show code < 256 by omega)
  have opens : lead code = ([Char.ofNat code], none) := if_pos (by omega)
  simp only [decodeFrom, byte, step, opens, List.cons_append,
    List.nil_append]

theorem decodeFrom_two (low : 0x80 ≤ code) (high : code ≤ 0x7FF) :
    decodeFrom none (UInt8.ofNat (code / 64 % 32 + 0xC0) ::
        UInt8.ofNat (code % 64 + 0x80) :: bytes) =
      Char.ofNat code :: decodeFrom none bytes := by
  have first := toNat_byte (show code / 64 % 32 + 0xC0 < 256 by omega)
  have second := toNat_byte (show code % 64 + 0x80 < 256 by omega)
  have bits : code / 64 % 32 + 0xC0 - 0xC0 = code / 64 := by omega
  have opens : lead (code / 64 % 32 + 0xC0) =
      ([], some (.continued 0 (code / 64))) := by
    unfold lead
    rw [if_neg (by omega), if_pos (by omega), bits]
  simp only [decodeFrom, first, second, step, opens, extend_completes,
    List.cons_append, List.nil_append]

theorem decodeFrom_three (low : 0x800 ≤ code) (high : code ≤ 0xFFFF)
    (scalar : code < 0xD800 ∨ 0xDFFF < code) :
    decodeFrom none (UInt8.ofNat (code / 4096 % 16 + 0xE0) ::
        UInt8.ofNat (code / 64 % 64 + 0x80) ::
        UInt8.ofNat (code % 64 + 0x80) :: bytes) =
      Char.ofNat code :: decodeFrom none bytes := by
  have first := toNat_byte
    (show code / 4096 % 16 + 0xE0 < 256 by omega)
  have second := toNat_byte
    (show code / 64 % 64 + 0x80 < 256 by omega)
  have third := toNat_byte (show code % 64 + 0x80 < 256 by omega)
  have bits : code / 4096 % 16 = code / 4096 := by omega
  rw [bits] at first
  obtain ⟨pending, opens, owed, value, fits, fitsToo⟩ :=
    lead_three low high scalar
  have goesOn := extend_more fits fitsToo owed
  have whole : pending.value * 64 + (code / 64 % 64 + 0x80 - 0x80) =
      code / 64 := by
    omega
  rw [whole] at goesOn
  simp only [decodeFrom, first, second, third, step, bits, opens, goesOn,
    extend_completes, List.cons_append, List.nil_append]

theorem decodeFrom_four (low : 0x10000 ≤ code) (high : code < 0x110000) :
    decodeFrom none (UInt8.ofNat (code / 262144 % 8 + 0xF0) ::
        UInt8.ofNat (code / 4096 % 64 + 0x80) ::
        UInt8.ofNat (code / 64 % 64 + 0x80) ::
        UInt8.ofNat (code % 64 + 0x80) :: bytes) =
      Char.ofNat code :: decodeFrom none bytes := by
  have first := toNat_byte
    (show code / 262144 % 8 + 0xF0 < 256 by omega)
  have second := toNat_byte
    (show code / 4096 % 64 + 0x80 < 256 by omega)
  have third := toNat_byte (show code / 64 % 64 + 0x80 < 256 by omega)
  have fourth := toNat_byte (show code % 64 + 0x80 < 256 by omega)
  have bits : code / 262144 % 8 = code / 262144 := by omega
  rw [bits] at first
  obtain ⟨pending, opens, owed, value, fits, fitsToo⟩ := lead_four low high
  have goesOn := extend_more fits fitsToo owed
  have upper : pending.value * 64 + (code / 4096 % 64 + 0x80 - 0x80) =
      code / 4096 := by
    omega
  rw [upper] at goesOn
  obtain ⟨accepts, acceptsToo⟩ := continued_accepts 1 (code / 4096)
    (code / 64 % 64) (Nat.mod_lt _ (by decide))
  have continues := extend_more accepts acceptsToo rfl
  have whole : (Pending.continued 1 (code / 4096)).value * 64 +
      (code / 64 % 64 + 0x80 - 0x80) = code / 64 := by
    change code / 4096 * 64 + _ = _
    omega
  rw [whole] at continues
  simp only [decodeFrom, first, second, third, fourth, step, bits, opens,
    goesOn, continues, extend_completes, List.cons_append, List.nil_append]

end Character

/-- Decoding reads an encoded character back and stands at a boundary. -/
theorem decodeFrom_encodeChar (character : Char) (bytes : List UInt8) :
    decodeFrom none (String.utf8EncodeChar character ++ bytes) =
      character :: decodeFrom none bytes := by
  have scalar : character.val.toNat < 0xD800 ∨
      0xDFFF < character.val.toNat ∧ character.val.toNat < 0x110000 :=
    character.valid
  have same : Char.ofNat character.val.toNat = character :=
    Char.ofNat_toNat character
  unfold String.utf8EncodeChar
  dsimp only
  split
  · rename_i short
    exact (decodeFrom_one bytes short).trans (by rw [same])
  · split
    · exact (decodeFrom_two bytes (by omega) (by omega)).trans (by rw [same])
    · split
      · exact (decodeFrom_three bytes (by omega) (by omega)
          (by omega)).trans (by rw [same])
      · exact (decodeFrom_four bytes (by omega) (by omega)).trans
          (by rw [same])

theorem decodeLossy_encode (text : String) :
    decodeLossy (encode text) = text.toList := by
  rw [encode_eq_flatMap, decodeLossy]
  induction text.toList with
  | nil => rfl
  | cons character characters ih =>
      rw [List.flatMap_cons, decodeFrom_encodeChar, ih]

/-- Strict decoding: bytes are well formed exactly if lossy decoding loses
nothing. -/
def decode (bytes : List UInt8) : Option String :=
  let text := String.ofList (decodeLossy bytes)
  if encode text = bytes then some text else none

@[simp]
theorem decode_encode (text : String) : decode (encode text) = some text := by
  rw [decode, decodeLossy_encode, String.ofList_toList]
  exact if_pos rfl

/-- A byte of a single character is decoded wherever it stands. -/
theorem mem_step_of_short {byte : Nat} (short : byte < 0x80)
    (pending : Option Pending) :
    Char.ofNat byte ∈ (step pending byte).1 := by
  have leads : lead byte = ([Char.ofNat byte], none) := if_pos short
  cases pending with
  | none => simp [step, leads]
  | some pending =>
      have notContinued : ¬ (pending.low ≤ byte ∧ byte ≤ pending.high) := by
        have low := pending.low_continues
        omega
      simp [step, extend, notContinued, leads]

theorem mem_decodeFrom_of_short {bytes : List UInt8} {byte : UInt8}
    (short : byte.toNat < 0x80) (member : byte ∈ bytes)
    (pending : Option Pending) :
    Char.ofNat byte.toNat ∈ decodeFrom pending bytes := by
  induction bytes generalizing pending with
  | nil => cases member
  | cons first bytes ih =>
      rw [decodeFrom, List.mem_append]
      rcases List.mem_cons.mp member with rfl | member
      · exact Or.inl (mem_step_of_short short pending)
      · exact Or.inr (ih member _)

/-- Only an encoded newline puts its byte into the encoding of a text. -/
theorem newline_mem_of_mem_encode {text : String}
    (member : (0x0A : UInt8) ∈ encode text) : '\n' ∈ text.toList := by
  have decoded := mem_decodeFrom_of_short (by decide) member none
  rwa [← decodeLossy, decodeLossy_encode] at decoded

/-! ## The fewest bytes of a text -/

/-- A replacement character takes one ill-formed byte, any other character its
encoding. -/
def shortChar (character : Char) : List UInt8 :=
  if character = replacement then [0xFF] else String.utf8EncodeChar character

theorem shortChar_replacement : shortChar replacement = [0xFF] :=
  if_pos rfl

/-- The shortest bytes that are decoded to a text. -/
def encodeShort (text : List Char) : List UInt8 :=
  text.flatMap shortChar

def size (text : List Char) : Nat :=
  (encodeShort text).length

@[simp]
theorem size_cons (character : Char) (text : List Char) :
    size (character :: text) = (shortChar character).length + size text := by
  simp [size, encodeShort]

@[simp]
theorem size_append (first second : List Char) :
    size (first ++ second) = size first + size second := by
  simp [size, encodeShort]

theorem size_le_of_sublist {short long : List Char}
    (sublist : short.Sublist long) : size short ≤ size long := by
  induction sublist with
  | slnil => exact Nat.le_refl _
  | cons character _ ih =>
      rw [size_cons]
      omega
  | cons_cons character _ ih =>
      rw [size_cons, size_cons]
      omega

theorem decodeLossy_encodeShort (text : List Char) :
    decodeLossy (encodeShort text) = text := by
  unfold decodeLossy encodeShort
  induction text with
  | nil => rfl
  | cons character text ih =>
      rw [List.flatMap_cons, shortChar]
      split
      · rename_i isReplacement
        have replaced : lead 0xFF = ([replacement], none) := rfl
        rw [List.singleton_append, decodeFrom,
          show (0xFF : UInt8).toNat = 0xFF from rfl, step, replaced,
          isReplacement, ih]
        rfl
      · rw [decodeFrom_encodeChar, ih]

theorem shortChar_length_le (character : Char) :
    (shortChar character).length ≤ character.utf8Size := by
  unfold shortChar
  split
  · exact character.utf8Size_pos
  · rw [String.length_utf8EncodeChar]

theorem val_ofNat_le (code : Nat) : (Char.ofNat code).val.toNat ≤ code := by
  unfold Char.ofNat
  by_cases valid : code.isValidChar
  · rw [dif_pos valid]
    exact Nat.le_of_eq rfl
  · rw [dif_neg valid]
    exact Nat.zero_le _

theorem utf8Size_ofNat_le (code : Nat) :
    (Char.ofNat code).utf8Size ≤
      if code < 0x80 then 1 else if code < 0x800 then 2
      else if code < 0x10000 then 3 else 4 := by
  have small := val_ofNat_le code
  simp only [Char.utf8Size, UInt32.le_iff_toNat_le, UInt32.toNat_ofNatLT]
  split_ifs <;> omega

/-- However the character goes on, it takes no more bytes than the `read` ones
and those to come. -/
def Pending.Within (pending : Pending) (read : Nat) : Prop :=
  ∀ bits < 64 ^ (pending.owed + 1),
    (Char.ofNat (pending.value * 64 ^ (pending.owed + 1) + bits)).utf8Size ≤
      read + pending.owed + 1

theorem Pending.within_one {pending : Pending}
    (shape : pending.owed = 0 ∧ pending.value < 32 ∨
      pending.owed = 1 ∧ pending.value < 16 ∨ pending.owed = 2) :
    pending.Within 1 := by
  intro bits isBits
  have size := utf8Size_ofNat_le
    (pending.value * 64 ^ (pending.owed + 1) + bits)
  rcases shape with ⟨owed, small⟩ | ⟨owed, small⟩ | owed <;>
    rw [owed] at isBits size ⊢ <;> split_ifs at size <;> omega

/-- A byte at a boundary adds a character of one byte or opens one. -/
theorem lead_cases (byte : Nat) :
    (∃ character, lead byte = ([character], none) ∧
        (shortChar character).length ≤ 1) ∨
      ∃ pending, lead byte = ([], some pending) ∧ pending.Within 1 := by
  unfold lead
  split_ifs
  · refine .inl ⟨_, rfl, (shortChar_length_le _).trans ?_⟩
    have size := utf8Size_ofNat_le byte
    split_ifs at size
    exact size
  · exact .inr ⟨_, rfl,
      Pending.within_one (.inl ⟨rfl, show byte - 0xC0 < 32 by omega⟩)⟩
  · exact .inr ⟨_, rfl, Pending.within_one
      (.inr (.inl ⟨rfl, show byte - 0xE0 < 16 by omega⟩))⟩
  · exact .inr ⟨_, rfl, Pending.within_one
      (.inr (.inl ⟨rfl, show byte - 0xE0 < 16 by omega⟩))⟩
  · exact .inr ⟨_, rfl, Pending.within_one
      (.inr (.inl ⟨rfl, show byte - 0xE0 < 16 by omega⟩))⟩
  · exact .inr ⟨_, rfl, Pending.within_one (.inr (.inr rfl))⟩
  · exact .inr ⟨_, rfl, Pending.within_one (.inr (.inr rfl))⟩
  · exact .inr ⟨_, rfl, Pending.within_one (.inr (.inr rfl))⟩
  · exact .inl ⟨_, rfl, by simp [shortChar_replacement]⟩

theorem Pending.Within.next {pending : Pending} {read owed bits : Nat}
    (within : pending.Within read) (more : pending.owed = owed + 1)
    (isBits : bits < 64) :
    (Pending.continued owed (pending.value * 64 + bits)).Within
      (read + 1) := by
  intro rest isRest
  change rest < 64 ^ (owed + 1) at isRest
  change (Char.ofNat ((pending.value * 64 + bits) * 64 ^ (owed + 1) +
    rest)).utf8Size ≤ read + 1 + owed + 1
  unfold Pending.Within at within
  rw [more, Nat.pow_succ] at within
  generalize 64 ^ (owed + 1) = power at within isRest ⊢
  have fits : (bits + 1) * power ≤ 64 * power :=
    Nat.mul_le_mul_right power isBits
  rw [Nat.add_mul, Nat.one_mul] at fits
  have size := within (bits * power + rest) (by omega)
  have code : pending.value * (power * 64) + (bits * power + rest) =
      (pending.value * 64 + bits) * power + rest := by
    rw [Nat.add_mul, Nat.mul_assoc, Nat.mul_comm 64, Nat.add_assoc]
  rw [code] at size
  omega

/-- Bytes are decoded to a text that takes no more bytes. -/
theorem size_decodeFrom_le (bytes : List UInt8) :
    size (decodeFrom none bytes) ≤ bytes.length ∧
      ∀ pending read, pending.Within read → 0 < read →
        size (decodeFrom (some pending) bytes) ≤ read + bytes.length := by
  -- A byte at a boundary may open a character, so both halves go together.
  induction bytes with
  | nil =>
      refine ⟨Nat.le_refl _, fun pending read _ positive => ?_⟩
      rw [decodeFrom, finish, size_cons, shortChar_replacement]
      exact positive
  | cons byte bytes ih =>
      obtain ⟨boundary, inside⟩ := ih
      have led : size ((lead byte.toNat).1 ++
          decodeFrom (lead byte.toNat).2 bytes) ≤ bytes.length + 1 := by
        rcases lead_cases byte.toNat with
          ⟨character, isLead, one⟩ | ⟨pending, isLead, within⟩
        · rw [isLead]
          dsimp only
          rw [List.singleton_append, size_cons]
          omega
        · have opened := inside pending 1 within Nat.one_pos
          rw [isLead]
          dsimp only
          rw [List.nil_append]
          omega
      refine ⟨led, fun pending read within positive => ?_⟩
      rw [decodeFrom, List.length_cons, step, extend]
      split
      · rename_i inRange
        have low := pending.low_continues
        have high := pending.high_continues
        have isBits : byte.toNat - 0x80 < 64 := by omega
        cases owed : pending.owed with
        | zero =>
            have size := within (byte.toNat - 0x80) (by
              rw [owed]
              exact isBits)
            have short := shortChar_length_le
              (Char.ofNat (pending.value * 64 + (byte.toNat - 0x80)))
            rw [owed, Nat.zero_add, Nat.pow_one] at size
            dsimp only
            rw [List.singleton_append, size_cons]
            omega
        | succ later =>
            have further := inside _ _ (within.next owed isBits)
              (Nat.succ_pos read)
            dsimp only
            rw [List.nil_append]
            omega
      · dsimp only
        rw [List.cons_append, size_cons, shortChar_replacement]
        change 1 + _ ≤ _
        omega

end Utf8

end CipherMQ
