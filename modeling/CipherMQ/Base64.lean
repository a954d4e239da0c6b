import CipherMQ.Text

/-!
# Base64 with the standard alphabet

Three bytes are written as four characters of six bits each, and the last
group is filled up with `=`.  Decoding accepts canonical encodings only: every
group is complete, `=` stands at the end and nowhere else, and the bits it
leaves unused are zero.  So decoding and encoding are inverse to each other.
-/

namespace CipherMQ

namespace Base64

open Text (toNat_byte)

def symbol (group : Nat) : Char :=
  if group < 26 then Char.ofNat (65 + group)
  else if group < 52 then Char.ofNat (71 + group)
  else if group < 62 then Char.ofNat (group - 4)
  else if group = 62 then '+'
  else '/'

def value (character : Char) : Option Nat :=
  let code := character.toNat
  if 65 ≤ code ∧ code ≤ 90 then some (code - 65)
  else if 97 ≤ code ∧ code ≤ 122 then some (code - 71)
  else if 48 ≤ code ∧ code ≤ 57 then some (code + 4)
  else if code = 43 then some 62
  else if code = 47 then some 63
  else none

def encodeChars : List UInt8 → List Char
  | first :: second :: third :: bytes =>
      symbol (first.toNat / 4) ::
      symbol (first.toNat % 4 * 16 + second.toNat / 16) ::
      symbol (second.toNat % 16 * 4 + third.toNat / 64) ::
      symbol (third.toNat % 64) :: encodeChars bytes
  | [first, second] =>
      [symbol (first.toNat / 4),
        symbol (first.toNat % 4 * 16 + second.toNat / 16),
        symbol (second.toNat % 16 * 4), '=']
  | [first] =>
      [symbol (first.toNat / 4), symbol (first.toNat % 4 * 16), '=', '=']
  | [] => []

def decodeGroup (first second third fourth : Char) : Option (List UInt8) := do
  let first ← value first
  let second ← value second
  let third ← value third
  let fourth ← value fourth
  some [UInt8.ofNat (first * 4 + second / 16),
    UInt8.ofNat (second % 16 * 16 + third / 4),
    UInt8.ofNat (third % 4 * 64 + fourth)]

/-- The last group may be padded. -/
def decodeLast (first second third fourth : Char) : Option (List UInt8) :=
  if fourth = '=' then
    if third = '=' then do
      let first ← value first
      let second ← value second
      if second % 16 = 0 then
        some [UInt8.ofNat (first * 4 + second / 16)]
      else
        none
    else do
      let first ← value first
      let second ← value second
      let third ← value third
      if third % 4 = 0 then
        some [UInt8.ofNat (first * 4 + second / 16),
          UInt8.ofNat (second % 16 * 16 + third / 4)]
      else
        none
  else
    decodeGroup first second third fourth

def decodeChars : List Char → Option (List UInt8)
  | [] => some []
  | first :: second :: third :: fourth :: rest =>
      if rest = [] then
        decodeLast first second third fourth
      else do
        let bytes ← decodeGroup first second third fourth
        let more ← decodeChars rest
        some (bytes ++ more)
  | _ => none

/-! ## The alphabet -/

theorem value_symbol {group : Nat} (isGroup : group < 64) :
    value (symbol group) = some group := by
  have all : ∀ group : Fin 64, value (symbol group) = some group.val := by
    decide
  exact all ⟨group, isGroup⟩

/-- Every character of the alphabet is visible ASCII other than `=`. -/
theorem symbol_visible {group : Nat} (isGroup : group < 64) :
    33 ≤ (symbol group).toNat ∧ (symbol group).toNat ≤ 126 ∧
      symbol group ≠ '=' := by
  have all : ∀ group : Fin 64, 33 ≤ (symbol group).toNat ∧
      (symbol group).toNat ≤ 126 ∧ symbol group ≠ '=' := by
    decide
  exact all ⟨group, isGroup⟩

theorem symbol_of_value {character : Char} {group : Nat}
    (isGroup : value character = some group) :
    group < 64 ∧ symbol group = character := by
  have same := Char.ofNat_toNat character
  unfold value at isGroup
  dsimp only at isGroup
  split at isGroup
  · rename_i range
    cases isGroup
    refine ⟨by omega, ?_⟩
    have code : 65 + (character.toNat - 65) = character.toNat := by omega
    rw [symbol, if_pos (by omega), code, same]
  · split at isGroup
    · rename_i range
      cases isGroup
      refine ⟨by omega, ?_⟩
      have code : 71 + (character.toNat - 71) = character.toNat := by omega
      rw [symbol, if_neg (by omega), if_pos (by omega), code, same]
    · split at isGroup
      · rename_i range
        cases isGroup
        refine ⟨by omega, ?_⟩
        have code : character.toNat + 4 - 4 = character.toNat := by omega
        rw [symbol, if_neg (by omega), if_neg (by omega), if_pos (by omega),
          code, same]
      · split at isGroup
        · rename_i isPlus
          cases isGroup
          refine ⟨by decide, ?_⟩
          rw [← same, isPlus]
          rfl
        · split at isGroup
          · rename_i isSlash
            cases isGroup
            refine ⟨by decide, ?_⟩
            rw [← same, isSlash]
            rfl
          · cases isGroup

/-! ## Decoding inverts encoding -/

theorem decodeGroup_symbols (first second third : UInt8) :
    decodeGroup (symbol (first.toNat / 4))
        (symbol (first.toNat % 4 * 16 + second.toNat / 16))
        (symbol (second.toNat % 16 * 4 + third.toNat / 64))
        (symbol (third.toNat % 64)) = some [first, second, third] := by
  have firstLt := first.toNat_lt
  have secondLt := second.toNat_lt
  have thirdLt := third.toNat_lt
  unfold decodeGroup
  rw [value_symbol (by omega), value_symbol (by omega),
    value_symbol (by omega), value_symbol (by omega)]
  have firstEq : first.toNat / 4 * 4 +
      (first.toNat % 4 * 16 + second.toNat / 16) / 16 = first.toNat := by
    omega
  have secondEq : (first.toNat % 4 * 16 + second.toNat / 16) % 16 * 16 +
      (second.toNat % 16 * 4 + third.toNat / 64) / 4 = second.toNat := by
    omega
  have thirdEq : (second.toNat % 16 * 4 + third.toNat / 64) % 4 * 64 +
      third.toNat % 64 = third.toNat := by
    omega
  simp only [Option.bind_eq_bind, Option.bind_some, firstEq, secondEq,
    thirdEq, UInt8.ofNat_toNat]

theorem decodeChars_of_unpadded {first second third fourth : Char}
    (unpadded : fourth ≠ '=') (rest : List Char) :
    decodeChars (first :: second :: third :: fourth :: rest) =
      (decodeGroup first second third fourth).bind fun bytes =>
        (decodeChars rest).map (bytes ++ ·) := by
  cases rest with
  | nil =>
      simp only [decodeChars, if_true, decodeLast, unpadded, if_false]
      cases decodeGroup first second third fourth <;> simp
  | cons next rest =>
      simp only [decodeChars, reduceCtorEq, if_false]
      cases decodeGroup first second third fourth with
      | none => rfl
      | some bytes =>
          cases decodeChars (next :: rest) <;> rfl

theorem decodeChars_encodeChars (bytes : List UInt8) :
    decodeChars (encodeChars bytes) = some bytes := by
  induction bytes using encodeChars.induct with
  | case1 first second third bytes ih =>
      have visible := symbol_visible
        (Nat.mod_lt third.toNat (show 0 < 64 by decide))
      rw [encodeChars, decodeChars_of_unpadded visible.2.2,
        decodeGroup_symbols, ih]
      rfl
  | case2 first second =>
      have firstLt := first.toNat_lt
      have secondLt := second.toNat_lt
      have visible := symbol_visible
        (show second.toNat % 16 * 4 < 64 by omega)
      simp only [encodeChars, decodeChars, if_true, decodeLast,
        if_neg visible.2.2]
      rw [value_symbol (by omega), value_symbol (by omega),
        value_symbol (by omega)]
      have unused : second.toNat % 16 * 4 % 4 = 0 := by omega
      have firstEq : first.toNat / 4 * 4 +
          (first.toNat % 4 * 16 + second.toNat / 16) / 16 = first.toNat := by
        omega
      have secondEq : (first.toNat % 4 * 16 + second.toNat / 16) % 16 * 16 +
          second.toNat % 16 * 4 / 4 = second.toNat := by
        omega
      simp only [Option.bind_eq_bind, Option.bind_some, unused, if_true,
        firstEq, secondEq, UInt8.ofNat_toNat]
  | case3 first =>
      have firstLt := first.toNat_lt
      simp only [encodeChars, decodeChars, if_true, decodeLast]
      rw [value_symbol (by omega), value_symbol (by omega)]
      have unused : first.toNat % 4 * 16 % 16 = 0 := by omega
      have firstEq : first.toNat / 4 * 4 + first.toNat % 4 * 16 / 16 =
          first.toNat := by
        omega
      simp only [Option.bind_eq_bind, Option.bind_some, unused, if_true,
        firstEq, UInt8.ofNat_toNat]
  | case4 => rfl

/-! ## Encoding inverts decoding -/

theorem encodeChars_of_decodeGroup {first second third fourth : Char}
    {bytes : List UInt8}
    (decoded : decodeGroup first second third fourth = some bytes)
    (more : List UInt8) :
    encodeChars (bytes ++ more) =
      first :: second :: third :: fourth :: encodeChars more := by
  simp only [decodeGroup, Option.bind_eq_bind, Option.bind_eq_some_iff]
    at decoded
  obtain ⟨a, isA, b, isB, c, isC, d, isD, rest⟩ := decoded
  cases rest
  obtain ⟨aLt, rfl⟩ := symbol_of_value isA
  obtain ⟨bLt, rfl⟩ := symbol_of_value isB
  obtain ⟨cLt, rfl⟩ := symbol_of_value isC
  obtain ⟨dLt, rfl⟩ := symbol_of_value isD
  have firstByte : (UInt8.ofNat (a * 4 + b / 16)).toNat = a * 4 + b / 16 :=
    toNat_byte (by omega)
  have secondByte : (UInt8.ofNat (b % 16 * 16 + c / 4)).toNat =
      b % 16 * 16 + c / 4 :=
    toNat_byte (by omega)
  have thirdByte : (UInt8.ofNat (c % 4 * 64 + d)).toNat = c % 4 * 64 + d :=
    toNat_byte (by omega)
  have firstEq : (a * 4 + b / 16) / 4 = a := by omega
  have secondEq : (a * 4 + b / 16) % 4 * 16 + (b % 16 * 16 + c / 4) / 16 =
      b := by
    omega
  have thirdEq : (b % 16 * 16 + c / 4) % 16 * 4 + (c % 4 * 64 + d) / 64 =
      c := by
    omega
  have fourthEq : (c % 4 * 64 + d) % 64 = d := by omega
  simp only [List.cons_append, List.nil_append, encodeChars, firstByte,
    secondByte, thirdByte, firstEq, secondEq, thirdEq, fourthEq]

theorem encodeChars_of_decodeLast {first second third fourth : Char}
    {bytes : List UInt8}
    (decoded : decodeLast first second third fourth = some bytes) :
    encodeChars bytes = [first, second, third, fourth] := by
  unfold decodeLast at decoded
  split at decoded
  · rename_i isPadded
    subst isPadded
    split at decoded
    · rename_i isPadded
      subst isPadded
      simp only [Option.bind_eq_bind, Option.bind_eq_some_iff] at decoded
      obtain ⟨a, isA, b, isB, rest⟩ := decoded
      obtain ⟨aLt, rfl⟩ := symbol_of_value isA
      obtain ⟨bLt, rfl⟩ := symbol_of_value isB
      split at rest
      · rename_i unused
        cases rest
        have byte : (UInt8.ofNat (a * 4 + b / 16)).toNat = a * 4 + b / 16 :=
          toNat_byte (by omega)
        have firstEq : (a * 4 + b / 16) / 4 = a := by omega
        have secondEq : (a * 4 + b / 16) % 4 * 16 = b := by omega
        simp only [encodeChars, byte, firstEq, secondEq]
      · cases rest
    · simp only [Option.bind_eq_bind, Option.bind_eq_some_iff] at decoded
      obtain ⟨a, isA, b, isB, c, isC, rest⟩ := decoded
      obtain ⟨aLt, rfl⟩ := symbol_of_value isA
      obtain ⟨bLt, rfl⟩ := symbol_of_value isB
      obtain ⟨cLt, rfl⟩ := symbol_of_value isC
      split at rest
      · rename_i unused
        cases rest
        have firstByte : (UInt8.ofNat (a * 4 + b / 16)).toNat =
            a * 4 + b / 16 :=
          toNat_byte (by omega)
        have secondByte : (UInt8.ofNat (b % 16 * 16 + c / 4)).toNat =
            b % 16 * 16 + c / 4 :=
          toNat_byte (by omega)
        have firstEq : (a * 4 + b / 16) / 4 = a := by omega
        have secondEq : (a * 4 + b / 16) % 4 * 16 +
            (b % 16 * 16 + c / 4) / 16 = b := by
          omega
        have thirdEq : (b % 16 * 16 + c / 4) % 16 * 4 = c := by omega
        simp only [encodeChars, firstByte, secondByte, firstEq, secondEq,
          thirdEq]
      · cases rest
  · have encoded := encodeChars_of_decodeGroup decoded []
    simpa [encodeChars] using encoded

theorem encodeChars_of_decodeChars {text : List Char} {bytes : List UInt8}
    (decoded : decodeChars text = some bytes) : encodeChars bytes = text := by
  induction text using decodeChars.induct generalizing bytes with
  | case1 =>
      cases decoded
      rfl
  | case2 first second third fourth =>
      rw [decodeChars, if_pos rfl] at decoded
      exact encodeChars_of_decodeLast decoded
  | case3 first second third fourth rest notLast ih =>
      rw [decodeChars, if_neg notLast] at decoded
      simp only [Option.bind_eq_bind, Option.bind_eq_some_iff] at decoded
      obtain ⟨group, isGroup, more, isMore, joined⟩ := decoded
      cases joined
      rw [encodeChars_of_decodeGroup isGroup, ih isMore]
  | case4 text notNil notGroup =>
      rw [decodeChars.eq_3 text notNil notGroup] at decoded
      cases decoded

/-! ## Texts -/

def encode (bytes : List UInt8) : String :=
  String.ofList (encodeChars bytes)

def decode (text : String) : Option (List UInt8) :=
  decodeChars text.toList

@[simp]
theorem toList_encode (bytes : List UInt8) :
    (encode bytes).toList = encodeChars bytes := by
  rw [encode, String.toList_ofList]

@[simp]
theorem decode_encode (bytes : List UInt8) :
    decode (encode bytes) = some bytes := by
  rw [decode, toList_encode]
  exact decodeChars_encodeChars bytes

/-- Only canonical encodings are accepted. -/
theorem encode_of_decode {text : String} {bytes : List UInt8}
    (decoded : decode text = some bytes) : encode bytes = text := by
  rw [encode, encodeChars_of_decodeChars decoded, String.ofList_toList]

/-- An encoding is visible ASCII. -/
theorem visible_of_mem_encodeChars {bytes : List UInt8} {character : Char}
    (member : character ∈ encodeChars bytes) :
    33 ≤ character.toNat ∧ character.toNat ≤ 126 := by
  have visible : ∀ {group : Nat}, group < 64 →
      33 ≤ (symbol group).toNat ∧ (symbol group).toNat ≤ 126 := by
    intro group isGroup
    obtain ⟨low, high, -⟩ := symbol_visible isGroup
    exact ⟨low, high⟩
  induction bytes using encodeChars.induct with
  | case1 first second third bytes ih =>
      have firstLt := first.toNat_lt
      have secondLt := second.toNat_lt
      have thirdLt := third.toNat_lt
      simp only [encodeChars, List.mem_cons] at member
      rcases member with rfl | rfl | rfl | rfl | later
      · exact visible (by omega)
      · exact visible (by omega)
      · exact visible (by omega)
      · exact visible (by omega)
      · exact ih later
  | case2 first second =>
      have firstLt := first.toNat_lt
      have secondLt := second.toNat_lt
      simp only [encodeChars, List.mem_cons, List.not_mem_nil, or_false]
        at member
      rcases member with rfl | rfl | rfl | rfl
      · exact visible (by omega)
      · exact visible (by omega)
      · exact visible (by omega)
      · decide
  | case3 first =>
      have firstLt := first.toNat_lt
      simp only [encodeChars, List.mem_cons, List.not_mem_nil, or_false]
        at member
      rcases member with rfl | rfl | rfl | rfl
      · exact visible (by omega)
      · exact visible (by omega)
      · decide
      · decide
  | case4 => simp [encodeChars] at member

theorem not_whitespace_of_mem_encodeChars {bytes : List UInt8} :
    ∀ character ∈ encodeChars bytes,
      Text.isWhitespace character = false := by
  intro character member
  obtain ⟨low, high⟩ := visible_of_mem_encodeChars member
  exact Text.not_whitespace_of_visible low high

/-- An encoding has nothing to trim. -/
theorem trim_encodeChars (bytes : List UInt8) :
    Text.trim (encodeChars bytes) = encodeChars bytes :=
  Text.trim_of_visible not_whitespace_of_mem_encodeChars

end Base64

end CipherMQ
