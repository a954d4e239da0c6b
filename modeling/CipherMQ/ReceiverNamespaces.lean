import CipherMQ.AccessControl

/-!
# The names that belong to a receiver

A queue belongs to the receiver whose common name and an underscore it begins
with, and a routing key to the receiver whose common name it begins with.
Common names may themselves begin with one another, so two receivers can own
the same name.  They share one exactly if one of the two beginnings begins the
other.
-/

namespace CipherMQ

namespace Text

/-- Two texts begin a common text exactly if one of them begins the other. -/
theorem exists_common_extension_iff (first second : List Char) :
    (∃ name : String, first <+: name.toList ∧ second <+: name.toList) ↔
      first <+: second ∨ second <+: first := by
  constructor
  · rintro ⟨name, firstBegins, secondBegins⟩
    exact List.prefix_or_prefix_of_prefix firstBegins secondBegins
  · rintro (begins | begins)
    · refine ⟨String.ofList second, ?_⟩
      rw [String.toList_ofList]
      exact ⟨begins, List.prefix_rfl⟩
    · refine ⟨String.ofList first, ?_⟩
      rw [String.toList_ofList]
      exact ⟨List.prefix_rfl, begins⟩

/-- With the same character behind both, one text can only begin the other if
it does so with that character. -/
theorem append_singleton_prefix_iff {first second : List Char}
    (different : first ≠ second) (separator : Char) :
    first ++ [separator] <+: second ++ [separator] ↔
      first ++ [separator] <+: second := by
  rw [List.prefix_concat_iff]
  constructor
  · rintro (same | begins)
    · exact absurd (List.append_cancel_right same) different
    · exact begins
  · exact Or.inr

theorem startsWith_iff (name start : String) :
    startsWith name start = true ↔ start.toList <+: name.toList :=
  List.isPrefixOf_iff_prefix

theorem startsWith_underscore_iff (name cn : String) :
    startsWith name (cn ++ "_") = true ↔
      cn.toList ++ ['_'] <+: name.toList := by
  rw [startsWith_iff, String.toList_append]
  rfl

end Text

namespace AclManager

variable {first second : String}

theorem startsWith_ownQueue (cn : String) :
    Text.startsWith (cn ++ "_queue") (cn ++ "_") = true := by
  have split : (cn ++ "_queue").toList =
      cn.toList ++ ['_'] ++ "queue".toList := by
    rw [String.toList_append, List.append_assoc]
    rfl
  rw [Text.startsWith_underscore_iff, split]
  exact List.prefix_append _ _

theorem checkResource_queue_iff (cn name : String) :
    checkResource .receiver cn "queue" name = .allowed ↔
      Text.startsWith name (cn ++ "_") = true := by
  by_cases begins : Text.startsWith name (cn ++ "_") = true
  · simp [checkResource, begins]
  · have unnamed : name ≠ cn ++ "_queue" := by
      rintro rfl
      exact begins (startsWith_ownQueue cn)
    simp [checkResource, begins, unnamed]

theorem checkResource_routingKey_iff (cn name : String) :
    checkResource .receiver cn "routing_key" name = .allowed ↔
      Text.startsWith name cn = true := by
  by_cases begins : Text.startsWith name cn = true
  · simp [checkResource, begins]
  · simp [checkResource, begins]

/-- Two receivers own a common queue name exactly if one common name begins
with the other and an underscore, and a common routing key exactly if one
common name begins with the other. -/
theorem receiver_names_disjoint_iff (different : first ≠ second) :
    ((∀ name,
        ¬ (checkResource .receiver first "queue" name = .allowed ∧
          checkResource .receiver second "queue" name = .allowed)) ↔
      ¬ (Text.startsWith second (first ++ "_") = true ∨
        Text.startsWith first (second ++ "_") = true)) ∧
    ((∀ name,
        ¬ (checkResource .receiver first "routing_key" name = .allowed ∧
          checkResource .receiver second "routing_key" name = .allowed)) ↔
      ¬ (Text.startsWith second first = true ∨
        Text.startsWith first second = true)) := by
  have differentCharacters : first.toList ≠ second.toList := fun same =>
    different (String.toList_injective same)
  constructor
  · simp only [checkResource_queue_iff, Text.startsWith_underscore_iff]
    rw [← not_exists, Text.exists_common_extension_iff,
      Text.append_singleton_prefix_iff differentCharacters,
      Text.append_singleton_prefix_iff differentCharacters.symm]
  · simp only [checkResource_routingKey_iff, Text.startsWith_iff]
    rw [← not_exists, Text.exists_common_extension_iff]

theorem receiver_names_disjoint_iff_numbered :
    (∀ name,
      ¬ (checkResource .receiver "receiver_1" "queue" name = .allowed ∧
        checkResource .receiver "receiver_2" "queue" name = .allowed)) ∧
    (∀ name,
      ¬ (checkResource .receiver "receiver_1" "routing_key" name = .allowed ∧
        checkResource .receiver "receiver_2" "routing_key" name =
          .allowed)) := by
  have disjoint := receiver_names_disjoint_iff
    (show "receiver_1" ≠ "receiver_2" by decide)
  exact ⟨disjoint.1.mpr (by decide), disjoint.2.mpr (by decide)⟩

def nestedReceivers : AclManager :=
  ⟨["sender_1"], ["receiver_1", "receiver_10", "receiver_1_backup"], []⟩

theorem shared_names_nestedReceivers :
    nestedReceivers.resolveRole "receiver_1" = .receiver ∧
    nestedReceivers.resolveRole "receiver_10" = .receiver ∧
    nestedReceivers.resolveRole "receiver_1_backup" = .receiver ∧
    checkResource .receiver "receiver_1" "queue" "receiver_1_backup_queue" =
      .allowed ∧
    checkResource .receiver "receiver_1_backup" "queue"
      "receiver_1_backup_queue" = .allowed ∧
    checkResource .receiver "receiver_1" "routing_key" "receiver_10_key" =
      .allowed ∧
    checkResource .receiver "receiver_10" "routing_key" "receiver_10_key" =
      .allowed := by
  decide

end AclManager

end CipherMQ
