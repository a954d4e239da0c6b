import CipherMQ.KeyMap
import CipherMQ.Text
import Mathlib.Tactic.IntervalCases

/-!
# JSON texts

Values are printed in one line without blanks, and what is printed is read
back.  The members of an object stand in the order of their names, as in a
sorted map; a program that reads them by name does not see the order.
-/

namespace CipherMQ

/-- A JSON value whose numbers are unsigned 64 bit integers. -/
inductive Json where
  | null
  | bool (value : Bool)
  | number (value : UInt64)
  | string (value : String)
  | array (items : List Json)
  | object (members : List (String × Json))

namespace Json

/-! ## Printing -/

def hexDigit (value : Nat) : Char :=
  if value < 10 then Char.ofNat (48 + value) else Char.ofNat (87 + value)

/-- A character inside quotes.  Control characters are escaped, with a letter
of their own where there is one. -/
def escape (character : Char) : List Char :=
  if character = '"' then ['\\', '"']
  else if character = '\\' then ['\\', '\\']
  else if character = Char.ofNat 0x08 then ['\\', 'b']
  else if character = Char.ofNat 0x0C then ['\\', 'f']
  else if character = '\n' then ['\\', 'n']
  else if character = '\r' then ['\\', 'r']
  else if character = '\t' then ['\\', 't']
  else if character.toNat < 0x20 then
    ['\\', 'u', '0', '0', hexDigit (character.toNat / 16),
      hexDigit (character.toNat % 16)]
  else [character]

def printText (text : String) : List Char :=
  '"' :: text.toList.flatMap escape ++ ['"']

mutual

def print : Json → List Char
  | .null => "null".toList
  | .bool true => "true".toList
  | .bool false => "false".toList
  | .number value => Nat.toDigits 10 value.toNat
  | .string text => printText text
  | .array [] => "[]".toList
  | .array (item :: items) => '[' :: print item ++ printItems items
  | .object [] => ['{', '}']
  | .object ((name, value) :: members) =>
      '{' :: printText name ++ ':' :: print value ++ printMembers members

/-- The items after the first one, and the end of the array. -/
def printItems : List Json → List Char
  | [] => [']']
  | item :: items => ',' :: print item ++ printItems items

/-- The members after the first one, and the end of the object. -/
def printMembers : List (String × Json) → List Char
  | [] => ['}']
  | (name, value) :: members =>
      ',' :: printText name ++ ':' :: print value ++ printMembers members

end

/-! ## Reading -/

/-- Where the reader stands inside quotes: between two characters, after a
backslash, or inside a code of which `owed + 1` digits are still to come. -/
inductive Position where
  | plain
  | escaped
  | code (owed value : Nat)

/-- The character a letter stands for after a backslash. -/
def unescape (letter : Char) : Option Char :=
  if letter = '"' ∨ letter = '\\' ∨ letter = '/' then some letter
  else if letter = 'b' then some (Char.ofNat 0x08)
  else if letter = 'f' then some (Char.ofNat 0x0C)
  else if letter = 'n' then some '\n'
  else if letter = 'r' then some '\r'
  else if letter = 't' then some '\t'
  else none

def hexValue (digit : Char) : Option Nat :=
  let code := digit.toNat
  if 48 ≤ code ∧ code ≤ 57 then some (code - 48)
  else if 97 ≤ code ∧ code ≤ 102 then some (code - 87)
  else if 65 ≤ code ∧ code ≤ 70 then some (code - 55)
  else none

def push (character : Char) :
    Option (List Char × List Char) → Option (List Char × List Char) :=
  Option.map fun (text, rest) => (character :: text, rest)

def readText : Position → List Char → Option (List Char × List Char)
  | _, [] => none
  | .plain, character :: text =>
      if character = '"' then some ([], text)
      else if character = '\\' then readText .escaped text
      else if character.toNat < 0x20 then none
      else push character (readText .plain text)
  | .escaped, letter :: text =>
      if letter = 'u' then
        readText (.code 3 0) text
      else
        match unescape letter with
        | none => none
        | some character => push character (readText .plain text)
  | .code owed value, digit :: text =>
      match hexValue digit, owed with
      | none, _ => none
      | some bits, 0 =>
          push (Char.ofNat (value * 16 + bits)) (readText .plain text)
      | some bits, owed + 1 => readText (.code owed (value * 16 + bits)) text

/-- Read the name of a member and the colon after it. -/
def readName : List Char → Option (String × List Char)
  | '"' :: text =>
      match readText .plain text with
      | some (name, ':' :: rest) => some (String.ofList name, rest)
      | _ => none
  | _ => none

def readNumber (text : List Char) : Option (Json × List Char) :=
  let digits := text.takeWhile Char.isDigit
  let value := Nat.ofDigitChars 10 digits 0
  if digits = Nat.toDigits 10 value ∧ value < 2 ^ 64 then
    some (.number (UInt64.ofNat value), text.dropWhile Char.isDigit)
  else
    none

def readWord (word : List Char) (value : Json) (text : List Char) :
    Option (Json × List Char) :=
  if text.take word.length = word then
    some (value, text.drop word.length)
  else
    none

mutual

/-- Read a value.  The fuel bounds the number of values and separators one
inside or after another. -/
def readValue : Nat → List Char → Option (Json × List Char)
  | 0, _ => none
  | _, [] => none
  | fuel + 1, character :: text =>
      if character = '"' then
        (readText .plain text).map fun (value, rest) =>
          (.string (String.ofList value), rest)
      else if character = '[' then
        if text.head? = some ']' then some (.array [], text.tail)
        else do
          let (item, rest) ← readValue fuel text
          let (items, rest) ← readItems fuel rest
          some (.array (item :: items), rest)
      else if character = '{' then
        if text.head? = some '}' then some (.object [], text.tail)
        else do
          let (name, rest) ← readName text
          let (value, rest) ← readValue fuel rest
          let (members, rest) ← readMembers fuel rest
          some (.object ((name, value) :: members), rest)
      else if character = 'n' then readWord "ull".toList .null text
      else if character = 't' then readWord "rue".toList (.bool true) text
      else if character = 'f' then readWord "alse".toList (.bool false) text
      else readNumber (character :: text)

def readItems : Nat → List Char → Option (List Json × List Char)
  | 0, _ => none
  | _, [] => none
  | fuel + 1, character :: text =>
      if character = ']' then some ([], text)
      else if character = ',' then do
        let (item, rest) ← readValue fuel text
        let (items, rest) ← readItems fuel rest
        some (item :: items, rest)
      else none

def readMembers : Nat → List Char → Option (List (String × Json) × List Char)
  | 0, _ => none
  | _, [] => none
  | fuel + 1, character :: text =>
      if character = '}' then some ([], text)
      else if character = ',' then do
        let (name, rest) ← readName text
        let (value, rest) ← readValue fuel rest
        let (members, rest) ← readMembers fuel rest
        some ((name, value) :: members, rest)
      else none

end

def parse (text : List Char) : Option Json :=
  match readValue text.length text with
  | some (value, []) => some value
  | _ => none

/-! ## Reading inverts printing -/

/-- A character that is neither a control character nor a delimiter stands for
itself. -/
theorem escape_eq_self {character : Char} (visible : 0x20 ≤ character.toNat)
    (notQuote : character ≠ '"') (notBackslash : character ≠ '\\') :
    escape character = [character] := by
  have different : ∀ other : Char, other.toNat < 0x20 → character ≠ other := by
    rintro other control rfl
    omega
  unfold escape
  rw [if_neg notQuote, if_neg notBackslash,
    if_neg (different _ (by decide)), if_neg (different _ (by decide)),
    if_neg (different _ (by decide)), if_neg (different _ (by decide)),
    if_neg (different _ (by decide)), if_neg (by omega)]

/-- The ways a character is printed inside quotes. -/
theorem escape_cases {motive : Char → Prop} (character : Char)
    (control : ∀ code < 0x20, motive (Char.ofNat code))
    (quote : motive '"') (backslash : motive '\\')
    (itself : 0x20 ≤ character.toNat → character ≠ '"' → character ≠ '\\' →
      escape character = [character] → motive character) :
    motive character := by
  by_cases isControl : character.toNat < 0x20
  · have holds := control character.toNat isControl
    rwa [Char.ofNat_toNat] at holds
  · by_cases isQuote : character = '"'
    · exact isQuote ▸ quote
    · by_cases isBackslash : character = '\\'
      · exact isBackslash ▸ backslash
      · exact itself (by omega) isQuote isBackslash
          (escape_eq_self (by omega) isQuote isBackslash)

theorem readText_escape (character : Char) (text : List Char) :
    readText .plain (escape character ++ text) =
      push character (readText .plain text) := by
  cases character using escape_cases with
  | control code isControl => interval_cases code <;> rfl
  | quote => rfl
  | backslash => rfl
  | itself visible notQuote notBackslash printed =>
      have notControl : ¬ character.toNat < 0x20 := by omega
      rw [printed]
      simp [readText, notQuote, notBackslash, notControl]

theorem readText_flatMap_escape (characters rest : List Char) :
    readText .plain (characters.flatMap escape ++ '"' :: rest) =
      some (characters, rest) := by
  induction characters with
  | nil => rfl
  | cons character characters ih =>
      rw [List.flatMap_cons, List.append_assoc, readText_escape, ih]
      rfl

theorem readName_printText (name : String) (rest : List Char) :
    readName (printText name ++ ':' :: rest) = some (name, rest) := by
  have read := readText_flatMap_escape name.toList (':' :: rest)
  simp [readName, printText, read]

/-- What may follow a value: nothing that a number could go on with. -/
def Ends (rest : List Char) : Prop :=
  rest.takeWhile Char.isDigit = []

theorem readNumber_toDigits (value : UInt64) {rest : List Char}
    (ends : Ends rest) :
    readNumber (Nat.toDigits 10 value.toNat ++ rest) =
      some (.number value, rest) := by
  have areDigits : ∀ digit ∈ Nat.toDigits 10 value.toNat,
      digit.isDigit = true := fun digit member =>
    Nat.isDigit_of_mem_toDigits (by decide) (by decide) member
  have taken : (Nat.toDigits 10 value.toNat ++ rest).takeWhile Char.isDigit =
      Nat.toDigits 10 value.toNat := by
    rw [List.takeWhile_append_of_pos areDigits, ends, List.append_nil]
  have left : (Nat.toDigits 10 value.toNat ++ rest).dropWhile Char.isDigit =
      rest := by
    rw [List.dropWhile_append_of_pos areDigits]
    have parts : rest.takeWhile Char.isDigit ++ rest.dropWhile Char.isDigit =
        rest := List.takeWhile_append_dropWhile
    rwa [ends, List.nil_append] at parts
  have same : Nat.ofDigitChars 10 (Nat.toDigits 10 value.toNat) 0 =
      value.toNat := Nat.ofDigitChars_toDigits (by decide) (by decide)
  have fits : value.toNat < 2 ^ 64 := value.toNat_lt
  simp only [readNumber, taken, left, same, fits, and_self, if_true,
    UInt64.ofNat_toNat]

theorem ends_printItems (items : List Json) (rest : List Char) :
    Ends (printItems items ++ rest) := by
  cases items <;> rfl

theorem ends_printMembers (members : List (String × Json)) (rest : List Char) :
    Ends (printMembers members ++ rest) := by
  cases members <;> rfl

theorem ne_of_isDigit {digit other : Char} (isDigit : digit.isDigit = true)
    (notDigit : other.isDigit = false) : digit ≠ other := by
  rintro rfl
  rw [isDigit] at notDigit
  cases notDigit

theorem not_whitespace_of_isDigit {digit : Char}
    (isDigit : digit.isDigit = true) : Text.isWhitespace digit = false := by
  have range : 48 ≤ digit.toNat ∧ digit.toNat ≤ 57 := by
    simpa [Char.isDigit, UInt32.le_iff_toNat_le] using isDigit
  exact Text.not_whitespace_of_visible (by omega) (by omega)

theorem exists_digit_toDigits (value : Nat) : ∃ digit digits,
    Nat.toDigits 10 value = digit :: digits ∧ digit.isDigit = true := by
  cases printed : Nat.toDigits 10 value with
  | nil => exact absurd printed Nat.toDigits_ne_nil
  | cons digit digits =>
      refine ⟨digit, digits, rfl, ?_⟩
      have member : digit ∈ Nat.toDigits 10 value := by simp [printed]
      exact Nat.isDigit_of_mem_toDigits (by decide) (by decide) member

/-- A printed value begins with a visible character, which does not close an
array. -/
theorem exists_cons_print (value : Json) : ∃ first text,
    print value = first :: text ∧ first ≠ ']' ∧
      Text.isWhitespace first = false := by
  cases value with
  | null => exact ⟨_, _, rfl, by decide, by decide⟩
  | bool value => cases value <;> exact ⟨_, _, rfl, by decide, by decide⟩
  | number value =>
      obtain ⟨digit, digits, printed, isDigit⟩ :=
        exists_digit_toDigits value.toNat
      exact ⟨digit, digits, printed, ne_of_isDigit isDigit rfl,
        not_whitespace_of_isDigit isDigit⟩
  | string text => exact ⟨_, _, rfl, by decide, by decide⟩
  | array items => cases items <;> exact ⟨_, _, rfl, by decide, by decide⟩
  | object members =>
      cases members <;> exact ⟨_, _, rfl, by decide, by decide⟩

theorem print_ne_nil (value : Json) : print value ≠ [] := by
  obtain ⟨first, text, printed, -⟩ := exists_cons_print value
  simp [printed]

theorem head?_print (value : Json) (rest : List Char) :
    (print value ++ rest).head? ≠ some ']' := by
  obtain ⟨first, text, printed, different, -⟩ := exists_cons_print value
  simpa [printed] using different

theorem readValue_number (fuel : Nat) (value : UInt64) {rest : List Char}
    (ends : Ends rest) :
    readValue (fuel + 1) (print (.number value) ++ rest) =
      some (.number value, rest) := by
  have read := readNumber_toDigits value ends
  obtain ⟨digit, digits, printed, isDigit⟩ :=
    exists_digit_toDigits value.toNat
  have different : ∀ other : Char, other.isDigit = false → digit ≠ other :=
    fun other => ne_of_isDigit isDigit
  rw [print, printed, List.cons_append]
  rw [printed, List.cons_append] at read
  rw [readValue, if_neg (different _ rfl), if_neg (different _ rfl),
    if_neg (different _ rfl), if_neg (different _ rfl),
    if_neg (different _ rfl), if_neg (different _ rfl), read]

section Steps

variable {fuel : Nat} {text afterName middle rest : List Char}
  {name : String} {value item : Json} {items : List Json}
  {members : List (String × Json)}

theorem readValue_array (notEmpty : text.head? ≠ some ']')
    (first : readValue fuel text = some (item, middle))
    (others : readItems fuel middle = some (items, rest)) :
    readValue (fuel + 1) ('[' :: text) = some (.array (item :: items), rest) := by
  simp [readValue, notEmpty, first, others]

theorem readItems_cons (first : readValue fuel text = some (item, middle))
    (others : readItems fuel middle = some (items, rest)) :
    readItems (fuel + 1) (',' :: text) = some (item :: items, rest) := by
  simp [readItems, first, others]

theorem readValue_object (notEmpty : text.head? ≠ some '}')
    (named : readName text = some (name, afterName))
    (first : readValue fuel afterName = some (value, middle))
    (others : readMembers fuel middle = some (members, rest)) :
    readValue (fuel + 1) ('{' :: text) =
      some (.object ((name, value) :: members), rest) := by
  simp [readValue, notEmpty, named, first, others]

theorem readMembers_cons (named : readName text = some (name, afterName))
    (first : readValue fuel afterName = some (value, middle))
    (others : readMembers fuel middle = some (members, rest)) :
    readMembers (fuel + 1) (',' :: text) =
      some ((name, value) :: members, rest) := by
  simp [readMembers, named, first, others]

end Steps

/-- With as much fuel as characters, reading gives back what was printed and
leaves what follows it. -/
theorem read_print (fuel : Nat) :
    (∀ value rest, (print value).length ≤ fuel → Ends rest →
      readValue fuel (print value ++ rest) = some (value, rest)) ∧
    (∀ items rest, (printItems items).length ≤ fuel →
      readItems fuel (printItems items ++ rest) = some (items, rest)) ∧
    (∀ members rest, (printMembers members).length ≤ fuel →
      readMembers fuel (printMembers members ++ rest) = some (members, rest)) := by
  -- The opening bracket or the comma pays for the parts behind it, which are
  -- read with one less fuel.
  induction fuel with
  | zero =>
      refine ⟨?_, ?_, ?_⟩
      · intro value rest enough
        exact absurd (List.length_eq_zero_iff.mp (Nat.le_zero.mp enough)) (print_ne_nil value)
      · intro items rest enough
        cases items <;> simp [printItems] at enough
      · intro members rest enough
        cases members <;> simp [printMembers] at enough
  | succ fuel ih =>
      obtain ⟨values, allItems, allMembers⟩ := ih
      refine ⟨?_, ?_, ?_⟩
      · intro value rest enough ends
        cases value with
        | null => rfl
        | bool value => cases value <;> rfl
        | number value => exact readValue_number fuel value ends
        | string text =>
            have read := readText_flatMap_escape text.toList rest
            simp [print, printText, readValue, read]
        | array items =>
            cases items with
            | nil => rfl
            | cons item items =>
                simp only [print, List.cons_append, List.length_cons,
                  List.length_append, List.append_assoc] at enough ⊢
                exact readValue_array (head?_print _ _)
                  (values item _ (by omega) (ends_printItems items rest))
                  (allItems items rest (by omega))
        | object members =>
            cases members with
            | nil => rfl
            | cons member members =>
                obtain ⟨name, value⟩ := member
                simp only [print, List.cons_append, List.length_cons,
                  List.length_append, List.append_assoc] at enough ⊢
                exact readValue_object (by simp [printText])
                  (readName_printText name _)
                  (values value _ (by omega) (ends_printMembers members rest))
                  (allMembers members rest (by omega))
      · intro items rest enough
        cases items with
        | nil => rfl
        | cons item items =>
            simp only [printItems, List.cons_append, List.length_cons,
              List.length_append, List.append_assoc] at enough ⊢
            exact readItems_cons
              (values item _ (by omega) (ends_printItems items rest))
              (allItems items rest (by omega))
      · intro members rest enough
        cases members with
        | nil => rfl
        | cons member members =>
            obtain ⟨name, value⟩ := member
            simp only [printMembers, List.cons_append, List.length_cons,
              List.length_append, List.append_assoc] at enough ⊢
            exact readMembers_cons (readName_printText name _)
              (values value _ (by omega) (ends_printMembers members rest))
              (allMembers members rest (by omega))

@[simp]
theorem parse_print (value : Json) : parse (print value) = some value := by
  have read := (read_print (print value).length).1 value [] (Nat.le_refl _) rfl
  rw [List.append_nil] at read
  rw [parse, read]

/-! ## Printed texts are single lines -/

theorem newline_not_mem_escape (character : Char) : '\n' ∉ escape character := by
  cases character using escape_cases with
  | control code isControl => interval_cases code <;> decide
  | quote => decide
  | backslash => decide
  | itself visible notQuote notBackslash printed =>
      rw [printed, List.mem_singleton]
      rintro rfl
      exact absurd visible (by decide)

theorem newline_not_mem_printText (text : String) : '\n' ∉ printText text := by
  simp [printText, newline_not_mem_escape]

theorem newline_not_mem_toDigits (value : Nat) : '\n' ∉ Nat.toDigits 10 value := by
  intro member
  have isDigit := Nat.isDigit_of_mem_toDigits (by decide) (by decide) member
  exact absurd isDigit (by decide)

mutual

theorem newline_not_mem_print : ∀ value, '\n' ∉ print value
  | .null => by decide
  | .bool true => by decide
  | .bool false => by decide
  | .number value => newline_not_mem_toDigits value.toNat
  | .string text => newline_not_mem_printText text
  | .array [] => by decide
  | .array (item :: items) => by
      simp [print, newline_not_mem_print item, newline_not_mem_printItems items]
  | .object [] => by decide
  | .object ((name, value) :: members) => by
      simp [print, newline_not_mem_printText, newline_not_mem_print value,
        newline_not_mem_printMembers members]

theorem newline_not_mem_printItems : ∀ items, '\n' ∉ printItems items
  | [] => by decide
  | item :: items => by
      simp [printItems, newline_not_mem_print item,
        newline_not_mem_printItems items]

theorem newline_not_mem_printMembers : ∀ members, '\n' ∉ printMembers members
  | [] => by decide
  | (name, value) :: members => by
      simp [printMembers, newline_not_mem_printText,
        newline_not_mem_print value, newline_not_mem_printMembers members]

end

theorem getLast?_printItems (items : List Json) :
    (printItems items).getLast? = some ']' := by
  induction items with
  | nil => rfl
  | cons item items ih =>
      rw [printItems, List.getLast?_append, ih]
      rfl

theorem getLast?_printMembers (members : List (String × Json)) :
    (printMembers members).getLast? = some '}' := by
  induction members with
  | nil => rfl
  | cons member members ih =>
      rw [printMembers, List.getLast?_append, ih]
      rfl

/-- A printed value ends with a visible character. -/
theorem exists_getLast?_print (value : Json) : ∃ last,
    (print value).getLast? = some last ∧ Text.isWhitespace last = false := by
  cases value with
  | null => exact ⟨_, rfl, by decide⟩
  | bool value => cases value <;> exact ⟨_, rfl, by decide⟩
  | number value =>
      have nonempty : Nat.toDigits 10 value.toNat ≠ [] := Nat.toDigits_ne_nil
      refine ⟨_, List.getLast?_eq_some_getLast nonempty, ?_⟩
      exact not_whitespace_of_isDigit (Nat.isDigit_of_mem_toDigits (by decide)
        (by decide) (List.getLast_mem nonempty))
  | string text =>
      exact ⟨'"', List.getLast?_concat, by decide⟩
  | array items =>
      refine ⟨']', ?_, by decide⟩
      cases items with
      | nil => rfl
      | cons item items =>
          rw [print, List.getLast?_append, getLast?_printItems]
          rfl
  | object members =>
      refine ⟨'}', ?_, by decide⟩
      cases members with
      | nil => rfl
      | cons member members =>
          rw [print, List.getLast?_append, getLast?_printMembers]
          rfl

theorem trim_print (value : Json) : Text.trim (print value) = print value := by
  obtain ⟨first, text, printed, -, visible⟩ := exists_cons_print value
  obtain ⟨last, isLast, lastVisible⟩ := exists_getLast?_print value
  rw [Text.trim_eq_self_iff]
  constructor
  · rw [printed]
    exact Text.trimStart_cons_of_visible visible text
  · apply List.rdropWhile_eq_self_iff.mpr
    intro nonempty
    rw [List.getLast?_eq_some_getLast nonempty, Option.some.injEq] at isLast
    simp [isLast, lastVisible]

/-- A program that prints values in one line and reads them back. -/
structure Codec where
  print : Json → List Char
  parse : List Char → Option Json
  newline_not_mem : ∀ value, '\n' ∉ print value
  trim_print : ∀ value, Text.trim (print value) = print value
  parse_print : ∀ value, parse (print value) = some value

def compact : Codec :=
  ⟨print, parse, newline_not_mem_print, trim_print, parse_print⟩

/-! ## Objects -/

section Sorting

variable {Value Other : Type*}

/-- Put a member at its place among members sorted by name. -/
def insertMember (name : String) (value : Value) :
    List (String × Value) → List (String × Value)
  | [] => [(name, value)]
  | (other, old) :: members =>
      if name = other then (name, value) :: members
      else if name < other then (name, value) :: (other, old) :: members
      else (other, old) :: insertMember name value members

/-- The members sorted by name.  A later member replaces an earlier one of the
same name. -/
def sortMembers (members : List (String × Value)) : List (String × Value) :=
  members.foldl (fun sorted member => insertMember member.1 member.2 sorted) []

theorem insertMember_perm {name : String} {members : List (String × Value)}
    (absent : name ∉ members.map Prod.fst) (value : Value) :
    (insertMember name value members).Perm ((name, value) :: members) := by
  induction members with
  | nil => exact List.Perm.refl _
  | cons member members ih =>
      rw [List.map_cons, List.mem_cons, not_or] at absent
      rw [insertMember, if_neg absent.1]
      split
      · exact List.Perm.refl _
      · exact ((ih absent.2).cons member).trans (List.Perm.swap _ _ _)

/-- Sorting members with distinct names changes their order only. -/
theorem sortMembers_perm {members : List (String × Value)}
    (distinct : (members.map Prod.fst).Nodup) :
    (sortMembers members).Perm members := by
  have fromSorted : ∀ sorted : List (String × Value),
      ((sorted ++ members).map Prod.fst).Nodup →
        (members.foldl (fun sorted member =>
          insertMember member.1 member.2 sorted) sorted).Perm
            (sorted ++ members) := by
    clear distinct
    induction members with
    | nil => simp
    | cons member members ih =>
        intro sorted distinct
        have moved : (sorted ++ member :: members).Perm
            (member :: sorted ++ members) := List.perm_middle
        have distinctMoved := (moved.map Prod.fst).nodup_iff.mp distinct
        have absent : member.1 ∉ sorted.map Prod.fst := by
          simp only [List.cons_append, List.map_cons, List.nodup_cons,
            List.map_append, List.mem_append, not_or] at distinctMoved
          exact distinctMoved.1.1
        have inserted := (insertMember_perm absent member.2).append_right members
        rw [List.foldl_cons]
        exact (ih _ ((inserted.map Prod.fst).nodup_iff.mpr
          distinctMoved)).trans (inserted.trans moved.symm)
  exact fromSorted [] distinct

theorem insertMember_map (change : Value → Other) (name : String)
    (value : Value) (members : List (String × Value)) :
    insertMember name (change value) (members.map (Prod.map id change)) =
      (insertMember name value members).map (Prod.map id change) := by
  induction members with
  | nil => rfl
  | cons member members ih =>
      obtain ⟨other, old⟩ := member
      simp only [List.map_cons, Prod.map, id_eq, insertMember] at ih ⊢
      rw [ih]
      split
      · rfl
      · split <;> rfl

theorem sortMembers_map (change : Value → Other)
    (members : List (String × Value)) :
    sortMembers (members.map (Prod.map id change)) =
      (sortMembers members).map (Prod.map id change) := by
  have fromSorted : ∀ sorted : List (String × Value),
      (members.map (Prod.map id change)).foldl
          (fun sorted member => insertMember member.1 member.2 sorted)
          (sorted.map (Prod.map id change)) =
        (members.foldl (fun sorted member =>
          insertMember member.1 member.2 sorted) sorted).map
            (Prod.map id change) := by
    induction members with
    | nil => exact fun _ => rfl
    | cons member members ih =>
        intro sorted
        rw [List.map_cons, List.foldl_cons, List.foldl_cons, ← ih,
          ← insertMember_map]
        rfl
  exact fromSorted []

end Sorting

def objectOf (members : List (String × Json)) : Json :=
  .object (sortMembers members)

/-! ## Reading values into data -/

def valuesOf (name : String) (members : List (String × Json)) : List Json :=
  (members.filter (·.1 = name)).map Prod.snd

theorem valuesOf_eq {members : List (String × Json)}
    (distinct : (members.map Prod.fst).Nodup) (name : String) :
    valuesOf name members = (members.lookup name).toList := by
  induction members with
  | nil => rfl
  | cons member members ih =>
      rw [List.map_cons, List.nodup_cons] at distinct
      have others := ih distinct.2
      unfold valuesOf at others ⊢
      by_cases same : member.1 = name
      · have absent : members.filter (·.1 = name) = [] := by
          rw [List.filter_eq_nil_iff]
          intro other isMember
          have different : other.1 ≠ name := by
            intro named
            exact distinct.1 (same ▸ named ▸ List.mem_map_of_mem isMember)
          simpa using different
        rw [List.lookup_cons, List.filter_cons_of_pos (by simpa using same),
          absent, same, beq_self_eq_true]
        rfl
      · have different : (name == member.1) = false :=
          beq_false_of_ne (Ne.symm same)
        rw [List.lookup_cons, List.filter_cons_of_neg (by simpa using same),
          different, others]

section Fields

variable {Value : Type*}

/-- Read a field that has to be given exactly once. -/
def required (read : Json → Option Value) (name : String)
    (members : List (String × Json)) : Option Value :=
  match valuesOf name members with
  | [value] => read value
  | _ => none

/-- Read a field that may be left out. -/
def withDefault (default : Value) (read : Json → Option Value) (name : String)
    (members : List (String × Json)) : Option Value :=
  match valuesOf name members with
  | [] => some default
  | [value] => read value
  | _ => none

theorem valuesOf_sortMembers {members : List (String × Json)}
    (distinct : (members.map Prod.fst).Nodup) (name : String) :
    valuesOf name (sortMembers members) = (members.lookup name).toList := by
  have sorted := sortMembers_perm distinct
  have distinctSorted := (sorted.map Prod.fst).nodup_iff.mpr distinct
  rw [valuesOf_eq distinctSorted, KeyMap.lookup_perm sorted distinctSorted]

theorem required_sortMembers {members : List (String × Json)}
    (distinct : (members.map Prod.fst).Nodup) (read : Json → Option Value)
    (name : String) :
    required read name (sortMembers members) =
      (members.lookup name).bind read := by
  rw [required, valuesOf_sortMembers distinct]
  cases members.lookup name <;> rfl

theorem withDefault_sortMembers {members : List (String × Json)}
    (distinct : (members.map Prod.fst).Nodup) (default : Value)
    (read : Json → Option Value) (name : String) :
    withDefault default read name (sortMembers members) =
      (members.lookup name).elim (some default) read := by
  rw [withDefault, valuesOf_sortMembers distinct]
  cases members.lookup name <;> rfl

def asBool : Json → Option Bool
  | .bool value => some value
  | _ => none

def asNumber : Json → Option UInt64
  | .number value => some value
  | _ => none

def asString : Json → Option String
  | .string text => some text
  | _ => none

def asList (read : Json → Option Value) : Json → Option (List Value)
  | .array items => items.mapM read
  | _ => none

def asMap (read : Json → Option Value) : Json → Option (KeyMap String Value)
  | .object members =>
      (members.mapM fun member => (read member.2).map (member.1, ·)).map
        KeyMap.ofEntries
  | _ => none

theorem mapM_map_of_reads {Source Target Result : Type*}
    {write : Source → Target} {read : Target → Option Result}
    {result : Source → Result}
    (reads : ∀ source, read (write source) = some (result source))
    (sources : List Source) :
    (sources.map write).mapM read = some (sources.map result) := by
  induction sources with
  | nil => rfl
  | cons source sources ih => simp [List.mapM_cons, reads, ih]

theorem asList_map {Source : Type*} {write : Source → Json}
    {read : Json → Option Value} {result : Source → Value}
    (reads : ∀ source, read (write source) = some (result source))
    (sources : List Source) :
    asList read (.array (sources.map write)) = some (sources.map result) :=
  mapM_map_of_reads reads sources

/-- A map is read back from the listing of its entries. -/
theorem asMap_objectOf {write : Value → Json} {read : Json → Option Value}
    (inverse : ∀ value, read (write value) = some value)
    {entries : List (String × Value)}
    (distinct : (entries.map Prod.fst).Nodup) :
    asMap read (objectOf (entries.map (Prod.map id write))) =
      some fun name => entries.lookup name := by
  have sorted := sortMembers_perm distinct
  have distinctSorted := (sorted.map Prod.fst).nodup_iff.mpr distinct
  have reads : ∀ entry : String × Value,
      (read (Prod.map id write entry).2).map
        ((Prod.map id write entry).1, ·) = some entry := by
    intro entry
    simp [inverse]
  rw [objectOf, sortMembers_map, asMap, mapM_map_of_reads reads,
    List.map_id', Option.map_some, Option.some.injEq]
  funext name
  rw [KeyMap.ofEntries_apply distinctSorted,
    KeyMap.lookup_perm sorted distinctSorted]

end Fields

end Json

end CipherMQ
