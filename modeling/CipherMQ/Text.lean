import Mathlib.Data.List.DropRight

/-!
# Splitting and trimming text

Text is a list of characters here, so that the functions below can be
evaluated and reasoned about by recursion on the list.
-/

namespace CipherMQ

namespace Text

/-- The characters with the Unicode property `White_Space`. -/
def isWhitespace (character : Char) : Bool :=
  let code := character.toNat
  (9 ≤ code && code ≤ 13) || code == 0x20 || code == 0x85 || code == 0xA0 ||
    code == 0x1680 || (0x2000 ≤ code && code ≤ 0x200A) || code == 0x2028 ||
    code == 0x2029 || code == 0x202F || code == 0x205F || code == 0x3000

def trim (text : List Char) : List Char :=
  (text.dropWhile isWhitespace).rdropWhile isWhitespace

/-- Cut a text at the first separator, which belongs to neither part. -/
def splitOnce (separator : Char) : List Char → Option (List Char × List Char)
  | [] => none
  | character :: text =>
      if character = separator then
        some ([], text)
      else
        (splitOnce separator text).map fun parts =>
          (character :: parts.1, parts.2)

/-- Cut a text into at most `count` parts; the last part keeps any further
separators. -/
def splitn (separator : Char) : Nat → List Char → List (List Char)
  | 0, _ => []
  | 1, text => [text]
  | count + 2, text =>
      match splitOnce separator text with
      | some (first, rest) => first :: splitn separator (count + 1) rest
      | none => [text]

def startsWith (text start : String) : Bool :=
  start.toList.isPrefixOf text.toList

def Blank (text : List Char) : Prop :=
  ∀ character ∈ text, isWhitespace character = true

instance (text : List Char) : Decidable (Blank text) :=
  List.decidableBAll (fun character => isWhitespace character = true) text

variable {blank : List Char}

theorem trim_append_left (isBlank : Blank blank) (text : List Char) :
    trim (blank ++ text) = trim text := by
  have dropped : blank.dropWhile isWhitespace = [] :=
    List.dropWhile_eq_nil_iff.mpr isBlank
  simp [trim, List.dropWhile_append, dropped]

theorem rdropWhile_append_right (isBlank : Blank blank) (text : List Char) :
    (text ++ blank).rdropWhile isWhitespace =
      text.rdropWhile isWhitespace := by
  have dropped : blank.reverse.dropWhile isWhitespace = [] := by
    apply List.dropWhile_eq_nil_iff.mpr
    intro character isMember
    exact isBlank character (List.mem_reverse.mp isMember)
  simp [List.rdropWhile, List.dropWhile_append, dropped]

theorem trim_append_right (isBlank : Blank blank) (text : List Char) :
    trim (text ++ blank) = trim text := by
  unfold trim
  rw [List.dropWhile_append]
  split
  · rename_i textDropped
    have textEmpty := List.isEmpty_iff.mp textDropped
    have blankEmpty : blank.dropWhile isWhitespace = [] :=
      List.dropWhile_eq_nil_iff.mpr isBlank
    rw [textEmpty, blankEmpty]
  · exact rdropWhile_append_right isBlank _

/-- Trimming loses no character that is not white space. -/
theorem countP_trim (text : List Char) :
    (trim text).countP (fun character => !isWhitespace character) =
      text.countP (fun character => !isWhitespace character) := by
  have dropLeft : ∀ list : List Char,
      (list.dropWhile isWhitespace).countP
          (fun character => !isWhitespace character) =
        list.countP (fun character => !isWhitespace character) := by
    intro list
    induction list with
    | nil => rfl
    | cons character list ih =>
        by_cases isBlank : isWhitespace character
        · simp [isBlank, ih]
        · simp [isBlank]
  unfold trim List.rdropWhile
  rw [List.countP_reverse, dropLeft, List.countP_reverse, dropLeft]

theorem toNat_byte {byte : Nat} (isByte : byte < 256) :
    (UInt8.ofNat byte).toNat = byte :=
  UInt8.toNat_ofNat_of_lt' isByte

theorem not_whitespace_of_visible {character : Char}
    (low : 33 ≤ character.toNat) (high : character.toNat ≤ 126) :
    isWhitespace character = false := by
  simp only [isWhitespace, Bool.or_eq_false_iff, Bool.and_eq_false_iff,
    decide_eq_false_iff_not, beq_eq_false_iff_ne]
  omega

theorem visible_of_all {text : List Char}
    (visible : text.all (fun character => !isWhitespace character) = true) :
    ∀ character ∈ text, isWhitespace character = false := by
  simpa using visible

/-- A text without white space has nothing to trim. -/
theorem trim_of_visible {text : List Char}
    (visible : ∀ character ∈ text, isWhitespace character = false) :
    trim text = text := by
  have keepsAll : ∀ list : List Char,
      (∀ character ∈ list, isWhitespace character = false) →
        list.dropWhile isWhitespace = list := by
    intro list visible
    cases list with
    | nil => rfl
    | cons character list =>
        have isVisible := visible character List.mem_cons_self
        rw [List.dropWhile_cons_of_neg (by simp [isVisible])]
  unfold trim List.rdropWhile
  rw [keepsAll text visible, keepsAll text.reverse, List.reverse_reverse]
  intro character member
  exact visible character (List.mem_reverse.mp member)

def trimEnd (text : List Char) : List Char :=
  text.rdropWhile isWhitespace

theorem trimEnd_append (first second : List Char) :
    trimEnd (first ++ second) =
      if trimEnd second = [] then trimEnd first
      else first ++ trimEnd second := by
  unfold trimEnd List.rdropWhile
  rw [List.reverse_append, List.dropWhile_append]
  simp only [List.isEmpty_iff, List.reverse_eq_nil_iff]
  split
  · rfl
  · simp

/-- A visible character is not trimmed away. -/
theorem trimEnd_ne_nil {text : List Char} {character : Char}
    (member : character ∈ text)
    (visible : isWhitespace character = false) : trimEnd text ≠ [] := by
  intro isEmpty
  have isBlank := List.rdropWhile_eq_nil_iff.mp isEmpty character member
  rw [visible] at isBlank
  cases isBlank

def trimStart (text : List Char) : List Char :=
  text.dropWhile isWhitespace

theorem trim_eq (text : List Char) : trim text = trimEnd (trimStart text) :=
  rfl

theorem trimStart_cons_of_visible {character : Char}
    (visible : isWhitespace character = false) (text : List Char) :
    trimStart (character :: text) = character :: text :=
  List.dropWhile_cons_of_neg (by simp [visible])

theorem trimStart_suffix (text : List Char) : trimStart text <:+ text :=
  List.dropWhile_suffix _

theorem trimEnd_sublist (text : List Char) :
    (trimEnd text).Sublist text := by
  have reversed : text.reverse.dropWhile isWhitespace <:+ text.reverse :=
    List.dropWhile_suffix _
  exact List.reverse_sublist.mp (by
    simpa [trimEnd, List.rdropWhile] using reversed.sublist)

theorem trim_sublist (text : List Char) : (trim text).Sublist text :=
  (trimEnd_sublist _).trans (trimStart_suffix text).sublist

/-- A text that has a visible end keeps it when its beginning is trimmed. -/
theorem trim_eq_trimStart {text : List Char} (kept : trimEnd text = text) :
    trim text = trimStart text := by
  obtain ⟨dropped, joined⟩ := trimStart_suffix text
  rw [trim_eq]
  rw [← joined, trimEnd_append] at kept
  split at kept
  · rename_i allBlank
    have shortened := (trimEnd_sublist dropped).length_le
    rw [kept, List.length_append] at shortened
    have isEmpty : trimStart text = [] :=
      List.length_eq_zero_iff.mp (by omega)
    rw [isEmpty]
    rfl
  · exact List.append_cancel_left kept

/-- Nothing is trimmed exactly if nothing is trimmed at either end. -/
theorem trim_eq_self_iff (text : List Char) :
    trim text = text ↔ trimStart text = text ∧ trimEnd text = text := by
  constructor
  · intro kept
    have notShorter : text.length ≤ (trimStart text).length := by
      have shortened := (trimEnd_sublist (trimStart text)).length_le
      rw [← trim_eq, kept] at shortened
      exact shortened
    have keptStart := (trimStart_suffix text).eq_of_length_le notShorter
    rw [trim_eq, keptStart] at kept
    exact ⟨keptStart, kept⟩
  · rintro ⟨keptStart, keptEnd⟩
    rw [trim_eq, keptStart, keptEnd]

/-- Trimming the beginning stops at the first visible character. -/
theorem trimStart_eq_self_of_append {first rest text : List Char}
    (nonempty : first ≠ []) (trimmed : trimStart text = first ++ rest) :
    trimStart first = first := by
  cases first with
  | nil => exact (nonempty rfl).elim
  | cons character first =>
      apply trimStart_cons_of_visible
      have stops := List.head?_dropWhile_not isWhitespace text
      rw [← trimStart, trimmed] at stops
      simpa using stops

theorem trimStart_append_of_self {first : List Char} (nonempty : first ≠ [])
    (kept : trimStart first = first) (rest : List Char) :
    trimStart (first ++ rest) = first ++ rest := by
  unfold trimStart at kept ⊢
  rw [List.dropWhile_append, kept]
  simp [nonempty]

/-- Once a visible character has come, only the end is trimmed. -/
theorem trim_cons_of_visible {character : Char}
    (visible : isWhitespace character = false) (text : List Char) :
    trim (character :: text) = trimEnd (character :: text) := by
  rw [trim, List.dropWhile_cons_of_neg (by simp [visible])]
  rfl

theorem trimEnd_of_visible {text : List Char}
    (visible : ∀ character ∈ text, isWhitespace character = false) :
    trimEnd text = text := by
  cases text with
  | nil => rfl
  | cons character text =>
      rw [← trim_cons_of_visible (visible character List.mem_cons_self)]
      exact trim_of_visible visible

theorem trimEnd_append_newline (text : List Char) :
    trimEnd (text ++ ['\n']) = trimEnd text := by
  rw [trimEnd_append]
  rfl

/-- A text that does not end in white space has something after its last
space, which does not end in white space either. -/
theorem trimEnd_after_space {first rest : List Char}
    (kept : trimEnd (first ++ ' ' :: rest) = first ++ ' ' :: rest) :
    rest ≠ [] ∧ trimEnd rest = rest := by
  rw [List.append_cons, trimEnd_append] at kept
  split at kept
  · have shortened := (trimEnd_sublist first).length_le
    have blank : trimEnd [' '] = [] := rfl
    have isLength := congrArg List.length kept
    rw [trimEnd_append, if_pos blank] at isLength
    simp only [List.length_append, List.length_singleton] at isLength
    omega
  · rename_i visible
    have ends := List.append_cancel_left kept
    exact ⟨fun isEmpty => visible (by rw [isEmpty]; rfl), ends⟩

/-- A word, a space and more text: trimming reaches the word only if nothing
visible follows it. -/
theorem trim_word_append {word : List Char} (nonempty : word ≠ [])
    (visible : ∀ character ∈ word, isWhitespace character = false)
    (text : List Char) :
    trim (word ++ ' ' :: text ++ ['\n']) =
      if trimEnd text = [] then word else word ++ ' ' :: trimEnd text := by
  cases word with
  | nil => exact (nonempty rfl).elim
  | cons character word =>
      have wordKept := trimEnd_of_visible visible
      have afterSpace : trimEnd (' ' :: text) =
          if trimEnd text = [] then [] else ' ' :: trimEnd text := by
        have blank : trimEnd [' '] = [] := rfl
        have parts := trimEnd_append [' '] text
        simpa [blank] using parts
      rw [List.cons_append, List.cons_append,
        trim_cons_of_visible (visible character List.mem_cons_self),
        ← List.cons_append, trimEnd_append_newline, ← List.cons_append,
        trimEnd_append, afterSpace]
      split
      · simp [wordKept]
      · simp

theorem splitOnce_word {separator : Char} {word : List Char}
    (absent : separator ∉ word) (text : List Char) :
    splitOnce separator (word ++ separator :: text) = some (word, text) := by
  induction word with
  | nil => simp [splitOnce]
  | cons character word ih =>
      have different : character ≠ separator := by
        rintro rfl
        exact absent List.mem_cons_self
      have rest := ih fun member => absent (List.mem_cons_of_mem _ member)
      simp [splitOnce, different, rest]

/-- The parts of a text that is cut. -/
theorem splitOnce_eq_some {separator : Char} {text first rest : List Char}
    (cut : splitOnce separator text = some (first, rest)) :
    text = first ++ separator :: rest ∧ separator ∉ first := by
  induction text generalizing first with
  | nil => cases cut
  | cons character text ih =>
      unfold splitOnce at cut
      split at cut
      · rename_i isSeparator
        cases cut
        exact ⟨by rw [isSeparator]; rfl, List.not_mem_nil⟩
      · rename_i different
        obtain ⟨⟨shorter, others⟩, cutLater, parts⟩ :=
          Option.map_eq_some_iff.mp cut
        cases parts
        obtain ⟨joined, absent⟩ := ih cutLater
        refine ⟨by rw [joined]; rfl, ?_⟩
        intro member
        rcases List.mem_cons.mp member with isFirst | later
        · exact different isFirst.symm
        · exact absent later

theorem splitOnce_eq_none {separator : Char} {text : List Char}
    (absent : separator ∉ text) : splitOnce separator text = none := by
  induction text with
  | nil => rfl
  | cons character text ih =>
      have different : character ≠ separator := by
        rintro rfl
        exact absent List.mem_cons_self
      have rest := ih fun member => absent (List.mem_cons_of_mem _ member)
      simp [splitOnce, different, rest]

/-- What reading a line takes from a text, without the line's end. -/
def firstLine (text : List Char) : List Char :=
  text.takeWhile (· ≠ '\n')

theorem newline_not_mem_firstLine (text : List Char) :
    '\n' ∉ firstLine text := by
  intro member
  have different := List.mem_takeWhile_imp member
  simp at different

theorem firstLine_append {line : List Char} (oneLine : '\n' ∉ line)
    (rest : List Char) : firstLine (line ++ '\n' :: rest) = line := by
  unfold firstLine
  rw [List.takeWhile_append_of_pos]
  · simp
  · intro character member
    have different : character ≠ '\n' := by
      rintro rfl
      exact oneLine member
    simpa using different

end Text

end CipherMQ
