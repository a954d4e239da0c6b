import CipherMQ.Substitution
import Mathlib.Data.List.Nodup

/-!
# The content of a message

The content of a message is made from a template, in which names in braces
stand for the sender, the correlation identifier, the time, the sequence
number and further fields of the configuration.  They are replaced one after
the other, each in the text that the replacements before it have left.

The further fields are kept in a hash map, whose order of iteration changes
from run to run.  A value that brings in a name in braces is replaced in some
orders and not in others.
-/

namespace CipherMQ

namespace Sender

/-- The template of the messages, and the further fields in the order in which
the map is iterated. -/
structure MessageConfig where
  contentTemplate : String
  extraFields : List (String × String)
  deriving DecidableEq, Repr

/-- What a message is made for.  `timestamp` is the time in seconds, written
with three decimals. -/
structure MessageValues where
  senderId : String
  correlationId : String
  timestamp : String
  seq : Nat
  deriving DecidableEq, Repr

namespace MessageConfig

def defaultTemplate : String :=
  "\x7bsender_id\x7d-CipherMQ Sample message with ID: \x7bcorrelation_id\x7d"

def standardFields (contentTemplate : String) (values : MessageValues) :
    List Char :=
  let out := contentTemplate.toList
  let out := Text.replace out (Text.marked "sender_id".toList)
    values.senderId.toList
  let out := Text.replace out (Text.marked "correlation_id".toList)
    values.correlationId.toList
  let out := Text.replace out (Text.marked "timestamp".toList)
    values.timestamp.toList
  Text.replace out (Text.marked "seq".toList) (toString values.seq).toList

/-- The further fields as characters, in the order in which they are
visited. -/
def fields (config : MessageConfig) : List (List Char × List Char) :=
  config.extraFields.map fun field => (field.1.toList, field.2.toList)

def render (config : MessageConfig) (values : MessageValues) : String :=
  String.ofList (Text.replaceFields
    (standardFields config.contentTemplate values) config.fields)

/-- The further fields do not meet: the text they are filled into can be cut
into characters and names in braces so that, whichever fields have been filled
in, no further one is to be found anywhere but at its own pieces. -/
def FieldsApart (config : MessageConfig) (values : MessageValues) : Prop :=
  ∃ pieces, Text.Piece.textOf pieces =
      standardFields config.contentTemplate values ∧
    Text.Piece.Apart config.fields pieces

/-- The content of a message does not depend on the order of the further
fields, if they do not meet. -/
theorem render_order_independent {contentTemplate : String}
    {first second : List (String × String)} (same : first.Perm second)
    (distinct : (first.map Prod.fst).Nodup) (values : MessageValues)
    (apart : FieldsApart ⟨contentTemplate, first⟩ values) :
    render ⟨contentTemplate, first⟩ values =
      render ⟨contentTemplate, second⟩ values := by
  obtain ⟨pieces, isText, apart⟩ := apart
  have distinctNames :
      ((fields ⟨contentTemplate, first⟩).map Prod.fst).Nodup := by
    have names := List.Nodup.map
      (fun _ _ same => String.toList_injective same) distinct
    unfold fields
    rw [List.map_map] at names ⊢
    exact names
  have filled : ∀ order : List (String × String), order.Perm first →
      render ⟨contentTemplate, order⟩ values =
        String.ofList (Text.Piece.textOf (pieces.flatMap
          (Text.Piece.fill (fields ⟨contentTemplate, first⟩)))) := by
    intro order isOrder
    unfold render
    rw [← isText]
    exact congrArg String.ofList
      (Text.replaceFields_textOf apart distinctNames (isOrder.map _))
  rw [filled first (List.Perm.refl _), filled second same.symm]

def sampleValues : MessageValues :=
  ⟨"sender_1", "deadbeef", "1700000000.000", 1⟩

/-- A template in the form of an object, with two further fields. -/
def objectTemplate : String :=
  "\x7b\"from\": \"\x7bsender_id\x7d\", \"at\": \"\x7bregion\x7d/\x7bhost\x7d\"\x7d"

/-- The template with its sender filled in, cut at the further fields. -/
def objectPieces : List Text.Piece :=
  "\x7b\"from\": \"sender_1\", \"at\": \"".toList.map .char ++
    .field "region".toList :: .char '/' :: .field "host".toList ::
      "\"\x7d".toList.map .char

theorem render_order_independent_sample :
    render ⟨objectTemplate, [("region", "eu"), ("host", "h1")]⟩
        sampleValues =
      render ⟨objectTemplate, [("host", "h1"), ("region", "eu")]⟩
        sampleValues :=
  render_order_independent (List.Perm.swap _ _ []) (by decide) sampleValues
    ⟨objectPieces, by decide +kernel, by decide +kernel⟩

example : render ⟨defaultTemplate, []⟩ sampleValues =
    "sender_1-CipherMQ Sample message with ID: deadbeef" := by
  decide +kernel

/-- A value with a name in braces: the order decides what becomes of it. -/
theorem render_order_dependent :
    render ⟨"\x7ba\x7d", [("a", "\x7bb\x7d"), ("b", "x")]⟩ sampleValues =
        "x" ∧
      render ⟨"\x7ba\x7d", [("b", "x"), ("a", "\x7bb\x7d")]⟩ sampleValues =
        "\x7bb\x7d" := by
  decide

end MessageConfig

end Sender

end CipherMQ
