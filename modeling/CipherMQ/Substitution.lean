import CipherMQ.KeyMap
import Mathlib.Data.List.Perm.Basic
import Mathlib.Data.List.Sublists

/-!
# Replacing marked fields in a text

A text in which braces mark fields is changed by replacing the occurrences of
one marked field after the other.  The text is cut into single characters and
marked fields.  If, whichever fields have been filled in, the further ones are
marked only where the text was cut, then the replacements do not meet: the
result is that of filling in all fields at once, so it does not depend on the
order.
-/

namespace CipherMQ

namespace Text

/-- Replace the occurrences of `first :: more` from left to right, after
passing over some characters. -/
def replaceFrom (first : Char) (more value : List Char) :
    Nat → List Char → List Char
  | _, [] => []
  | skip + 1, _ :: text => replaceFrom first more value skip text
  | 0, character :: text =>
      if (first :: more).isPrefixOf (character :: text) then
        value ++ replaceFrom first more value more.length text
      else
        character :: replaceFrom first more value 0 text

/-- Replace all occurrences that do not overlap.  The empty text occurs before
and behind every character. -/
def replace (text pattern value : List Char) : List Char :=
  match pattern with
  | [] => value ++ text.flatMap fun character => character :: value
  | first :: more => replaceFrom first more value 0 text

def marked (name : List Char) : List Char :=
  '{' :: (name ++ ['}'])

/-- Replace one marked name after the other. -/
def replaceFields (text : List Char)
    (fields : List (List Char × List Char)) : List Char :=
  fields.foldl (fun text field => replace text (marked field.1) field.2) text

/-- Whether an occurrence of the pattern begins within the first `count`
characters. -/
def beginsWithin (pattern : List Char) : Nat → List Char → Bool
  | 0, _ => false
  | count + 1, text =>
      pattern.isPrefixOf text || beginsWithin pattern count text.tail

section Walk

variable {first : Char} (more value : List Char)

theorem replaceFrom_append (passed text : List Char) :
    replaceFrom first more value passed.length (passed ++ text) =
      replaceFrom first more value 0 text := by
  induction passed with
  | nil => rfl
  | cons character passed ih => exact ih

/-- Characters in which no occurrence begins are kept. -/
theorem replaceFrom_of_not_begins {kept text : List Char}
    (unmatched :
      beginsWithin (first :: more) kept.length (kept ++ text) = false) :
    replaceFrom first more value 0 (kept ++ text) =
      kept ++ replaceFrom first more value 0 text := by
  induction kept with
  | nil => rfl
  | cons character kept ih =>
      simp only [List.length_cons, List.cons_append, beginsWithin,
        List.tail_cons, Bool.or_eq_false_iff] at unmatched
      rw [List.cons_append, replaceFrom, unmatched.1, ih unmatched.2]
      rfl

end Walk

/-! ## Texts cut into pieces -/

inductive Piece where
  | char (character : Char)
  | field (name : List Char)
  deriving DecidableEq, Repr

namespace Piece

def text : Piece → List Char
  | char character => [character]
  | field name => marked name

def textOf (pieces : List Piece) : List Char :=
  pieces.flatMap text

@[simp]
theorem textOf_cons (piece : Piece) (pieces : List Piece) :
    textOf (piece :: pieces) = piece.text ++ textOf pieces :=
  rfl

@[simp]
theorem textOf_append (first second : List Piece) :
    textOf (first ++ second) = textOf first ++ textOf second :=
  List.flatMap_append

@[simp]
theorem textOf_map_char (characters : List Char) :
    textOf (characters.map char) = characters := by
  induction characters with
  | nil => rfl
  | cons character characters ih => simp [text, ih]

/-- The piece with a field filled in that has a value. -/
def fill (filled : List (List Char × List Char)) : Piece → List Piece
  | char character => [char character]
  | field name =>
      match filled.lookup name with
      | some value => value.map char
      | none => [field name]

/-- A marked name begins only where a piece is the field of that name. -/
def marksOnly (name : List Char) : List Piece → Bool
  | [] => true
  | piece :: pieces =>
      (piece = field name ||
          !beginsWithin (marked name) piece.text.length
            (piece.text ++ textOf pieces)) &&
        marksOnly name pieces

/-- Whichever fields have been filled in, the further ones are marked only
where the text was cut. -/
def Apart (fields : List (List Char × List Char)) (pieces : List Piece) :
    Prop :=
  ∀ filled ∈ fields.sublists, ∀ field ∈ fields,
    field.1 ∉ filled.map Prod.fst →
      marksOnly field.1 (pieces.flatMap (fill filled)) = true

instance (fields : List (List Char × List Char)) (pieces : List Piece) :
    Decidable (Apart fields pieces) :=
  inferInstanceAs (Decidable (∀ filled ∈ fields.sublists, _))

end Piece

/-! ## The replacements -/

open Piece

theorem replaceFrom_marked (name value text : List Char) :
    replaceFrom '{' (name ++ ['}']) value 0 (marked name ++ text) =
      value ++ replaceFrom '{' (name ++ ['}']) value 0 text := by
  have found : ('{' :: (name ++ ['}'])).isPrefixOf
      ('{' :: ((name ++ ['}']) ++ text)) = true := by
    rw [List.isPrefixOf_iff_prefix]
    exact List.prefix_append (marked name) text
  rw [marked, List.cons_append, replaceFrom, if_pos found, replaceFrom_append]

/-- Replacing a marked name fills in the pieces with that name. -/
theorem replace_textOf {name : List Char} (value : List Char)
    {pieces : List Piece} (only : marksOnly name pieces = true) :
    replace (textOf pieces) (marked name) value =
      textOf (pieces.flatMap (fill [(name, value)])) := by
  change replaceFrom '{' (name ++ ['}']) value 0 _ = _
  induction pieces with
  | nil => rfl
  | cons piece pieces ih =>
      simp only [marksOnly, Bool.and_eq_true, Bool.or_eq_true,
        decide_eq_true_eq, Bool.not_eq_true'] at only
      rw [textOf_cons, List.flatMap_cons, textOf_append, ← ih only.2]
      by_cases same : piece = field name
      · subst same
        have filled : fill [(name, value)] (field name) = value.map char := by
          simp [fill]
        rw [filled, textOf_map_char]
        exact replaceFrom_marked name value _
      · have kept : fill [(name, value)] piece = [piece] := by
          cases piece with
          | char character => rfl
          | field other =>
              have different : other ≠ name := fun isName =>
                same (congrArg field isName)
              simp [fill, List.lookup_cons, beq_false_of_ne different]
        have unmatched := only.1.resolve_left same
        rw [kept, textOf_cons]
        rw [show textOf [] = [] from rfl, List.append_nil]
        exact replaceFrom_of_not_begins _ _ unmatched

theorem flatMap_fill_append (filled : List (List Char × List Char))
    (field : List Char × List Char) (pieces : List Piece) :
    (pieces.flatMap (fill filled)).flatMap (fill [field]) =
      pieces.flatMap (fill (filled ++ [field])) := by
  rw [List.flatMap_assoc]
  congr 1
  funext piece
  cases piece with
  | char character => rfl
  | field name =>
      have characters : ∀ value : List Char,
          (value.map char).flatMap (fill [field]) = value.map char := by
        intro value
        induction value with
        | nil => rfl
        | cons character value ih => simp [fill, ih]
      simp only [fill, List.lookup_append]
      cases filled.lookup name with
      | some value => simp [characters]
      | none => simp [fill]

theorem flatMap_fill_nil (pieces : List Piece) :
    pieces.flatMap (fill []) = pieces := by
  induction pieces with
  | nil => rfl
  | cons piece pieces ih => cases piece <;> simp [fill, ih]

theorem fill_congr {first second : List (List Char × List Char)}
    (same : ∀ name, first.lookup name = second.lookup name) :
    fill first = fill second := by
  funext piece
  cases piece with
  | char character => rfl
  | field name => simp only [fill, same]

/-- What has been filled in first is as good as a part of the fields in their
own order. -/
theorem lookup_filter_mem {fields filled : List (List Char × List Char)}
    (distinct : (fields.map Prod.fst).Nodup)
    (distinctFilled : (filled.map Prod.fst).Nodup) (listed : filled ⊆ fields)
    (name : List Char) :
    (fields.filter (· ∈ filled)).lookup name = filled.lookup name := by
  have distinctPart : ((fields.filter (· ∈ filled)).map Prod.fst).Nodup :=
    distinct.sublist (List.filter_sublist.map Prod.fst)
  apply Option.ext
  intro value
  rw [KeyMap.lookup_eq_some_iff distinctPart,
    KeyMap.lookup_eq_some_iff distinctFilled, List.mem_filter]
  constructor
  · intro isPart
    simpa using isPart.2
  · intro isFilled
    exact ⟨listed isFilled, by simpa using isFilled⟩

theorem marksOnly_of_apart {fields filled : List (List Char × List Char)}
    {pieces : List Piece} (apart : Apart fields pieces)
    (distinct : (fields.map Prod.fst).Nodup)
    (distinctFilled : (filled.map Prod.fst).Nodup) (listed : filled ⊆ fields)
    {field : List Char × List Char} (isField : field ∈ fields)
    (unfilled : field.1 ∉ filled.map Prod.fst) :
    marksOnly field.1 (pieces.flatMap (fill filled)) = true := by
  have isPart : fields.filter (· ∈ filled) ∈ fields.sublists :=
    List.mem_sublists.mpr List.filter_sublist
  have stillUnfilled :
      field.1 ∉ (fields.filter (· ∈ filled)).map Prod.fst := by
    intro isMember
    obtain ⟨other, isOther, named⟩ := List.mem_map.mp isMember
    have isFilled : other ∈ filled := by
      simpa using (List.mem_filter.mp isOther).2
    exact unfilled (named ▸ List.mem_map_of_mem isFilled)
  have only := apart _ isPart field isField stillUnfilled
  rwa [fill_congr (lookup_filter_mem distinct distinctFilled listed)] at only

/-- Replacing the fields one after the other fills them all in. -/
theorem replaceFields_textOf {fields order : List (List Char × List Char)}
    {pieces : List Piece} (apart : Apart fields pieces)
    (distinct : (fields.map Prod.fst).Nodup) (isOrder : order.Perm fields) :
    replaceFields (textOf pieces) order =
      textOf (pieces.flatMap (fill fields)) := by
  have distinctOrder : (order.map Prod.fst).Nodup :=
    (isOrder.map Prod.fst).nodup_iff.mpr distinct
  -- The fields behind some that have already been filled in.
  have onwards : ∀ rest done, order = done ++ rest →
      replaceFields (textOf (pieces.flatMap (fill done))) rest =
        textOf (pieces.flatMap (fill order)) := by
    intro rest
    induction rest with
    | nil =>
        intro done isOrder
        rw [isOrder, List.append_nil]
        rfl
    | cons field rest ih =>
        intro done split
        rw [split, List.map_append, List.map_cons] at distinctOrder
        have distinctDone := (List.nodup_append.mp distinctOrder).1
        have unfilled : field.1 ∉ done.map Prod.fst := by
          intro isDone
          exact (List.nodup_append.mp distinctOrder).2.2 _ isDone _
            List.mem_cons_self rfl
        have listed : done ⊆ fields := fun other isDone =>
          isOrder.mem_iff.mp (split ▸ List.mem_append_left _ isDone)
        have isField : field ∈ fields :=
          isOrder.mem_iff.mp (split ▸ by simp)
        have only := marksOnly_of_apart apart distinct distinctDone listed
          isField unfilled
        have replaced := replace_textOf field.2 only
        rw [flatMap_fill_append] at replaced
        rw [replaceFields, List.foldl_cons, replaced, ← replaceFields]
        exact ih (done ++ [field]) (by simp [split])
  have whole := onwards order [] rfl
  rw [flatMap_fill_nil] at whole
  rw [whole,
    fill_congr fun name => KeyMap.lookup_perm isOrder distinctOrder name]

end Text

end CipherMQ
