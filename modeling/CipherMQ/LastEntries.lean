import Mathlib.Data.List.DropRight

/-!
# The last entries of a history

A bounded queue that drops its front entry when it is full holds the last
entries of everything that was ever pushed onto it.
-/

namespace CipherMQ

namespace LastEntries

variable {Entry : Type*}

/-- Pushing onto the last entries of a history gives the last entries of the
longer history. -/
theorem push_rtake (limit : Nat) (history : List Entry) (entry : Entry) :
    (if limit ≤ (history.rtake (max 1 limit)).length then
        (history.rtake (max 1 limit)).tail
      else history.rtake (max 1 limit)) ++ [entry] =
      (history ++ [entry]).rtake (max 1 limit) := by
  have positive : 1 ≤ max 1 limit := le_max_left 1 limit
  have shifted : (history ++ [entry]).rtake (max 1 limit) =
      history.drop (history.length + 1 - max 1 limit) ++ [entry] := by
    unfold List.rtake
    rw [List.length_append, List.length_singleton,
      List.drop_append_of_le_length (by omega)]
  rw [shifted]
  congr 1
  unfold List.rtake
  rw [List.length_drop, List.tail_drop]
  split
  · by_cases isEmpty : history.length = 0
    · rw [List.length_eq_zero_iff.mp isEmpty, List.drop_nil, List.drop_nil]
    · congr 1
      omega
  · congr 1
    omega

theorem rtake_append_of_le {count : Nat} (older : List Entry)
    {recent : List Entry} (long : count ≤ recent.length) :
    (older ++ recent).rtake count = recent.rtake count := by
  unfold List.rtake
  rw [List.length_append, Nat.add_sub_assoc long,
    List.drop_length_add_append]

theorem rtake_append_of_ge {count : Nat} (older : List Entry)
    {recent : List Entry} (short : recent.length ≤ count) :
    ∃ kept, (older ++ recent).rtake count = kept ++ recent := by
  refine ⟨older.drop (older.length + recent.length - count), ?_⟩
  unfold List.rtake
  rw [List.length_append, List.drop_append_of_le_length (by omega)]

theorem rtake_of_length_le {count : Nat} {entries : List Entry}
    (short : entries.length ≤ count) :
    entries.rtake count = entries := by
  unfold List.rtake
  rw [Nat.sub_eq_zero_of_le short, List.drop_zero]

/-- New entries are all among the last ones exactly if they would be without
the older ones. -/
theorem mem_rtake_append_iff {count : Nat} (older : List Entry)
    {recent : List Entry} {entry : Entry} (isRecent : entry ∈ recent) :
    entry ∈ (older ++ recent).rtake count ↔ entry ∈ recent.rtake count := by
  rcases Nat.le_total count recent.length with long | short
  · rw [rtake_append_of_le older long]
  · obtain ⟨kept, whole⟩ := rtake_append_of_ge older short
    rw [whole, rtake_of_length_le short]
    exact iff_of_true (List.mem_append_right kept isRecent) isRecent

end LastEntries

end CipherMQ
