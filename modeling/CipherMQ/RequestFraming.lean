import CipherMQ.ClientRequest

/-!
# Framing of requests

A client writes newline-terminated lines; the transport cuts the byte stream
into reads.  The handler takes each read for one request, so the requests it
handles are the client's lines only if every read ends where a line ends.  The
exact condition leaves some slack, because requests are trimmed: read and line
may end at different places when only white space lies between.
-/

namespace CipherMQ

def newline : UInt8 := 0x0A

def streamOf (lines : List (List UInt8)) : List UInt8 :=
  (lines.map fun line => line ++ [newline]).flatten

def requestsOfReads (reads : List (List UInt8)) : List (List Char) :=
  (reads.foldl Intake.receive Intake.new).requests

/-- Two beginnings of a stream that differ by white space at most. -/
def BlankGap (first second : List UInt8) : Prop :=
  ∃ gap, (first = second ++ gap ∨ second = first ++ gap) ∧
    Text.Blank (Utf8.decodeLossy gap)

theorem requestsOfReads_eq (reads : List (List UInt8)) :
    requestsOfReads reads = reads.map requestOf := by
  have fromEmptyBuffer : ∀ requests,
      reads.foldl Intake.receive ⟨[], requests⟩ =
        ⟨[], requests ++ reads.map requestOf⟩ := by
    induction reads with
    | nil => simp
    | cons bytes reads ih =>
        intro requests
        simp only [List.foldl_cons, Intake.receive, Intake.readBuf,
          Intake.takeRequest, List.nil_append, ih, List.map_cons,
          List.append_assoc, List.cons_append]
  simp [requestsOfReads, Intake.new, fromEmptyBuffer]

/-! ## White space around a request -/

def isVisible (character : Char) : Bool :=
  !Text.isWhitespace character

def visibleCount (bytes : List UInt8) : Nat :=
  (Utf8.decodeLossy bytes).countP isVisible

theorem replacement_isVisible : isVisible Utf8.replacement = true := by
  decide

theorem visibleCount_eq_zero_iff (bytes : List UInt8) :
    visibleCount bytes = 0 ↔ Text.Blank (Utf8.decodeLossy bytes) := by
  simp [visibleCount, isVisible, Text.Blank]

theorem visibleCount_append_le (first second : List UInt8) :
    visibleCount (first ++ second) ≤
      visibleCount first + visibleCount second :=
  Utf8.countP_decodeLossy_append_le isVisible replacement_isVisible first
    second

theorem countP_requestOf (bytes : List UInt8) :
    (requestOf bytes).countP isVisible = visibleCount bytes :=
  Text.countP_trim _

theorem requestOf_append_blank (bytes : List UInt8) {gap : List UInt8}
    (isBlank : Text.Blank (Utf8.decodeLossy gap)) :
    requestOf (bytes ++ gap) = requestOf bytes := by
  have decoded := Utf8.decodeLossy_append_invisible isVisible
    replacement_isVisible bytes ((visibleCount_eq_zero_iff gap).mpr isBlank)
  unfold requestOf
  rw [decoded, Text.trim_append_right isBlank]

theorem requestOf_blank_append {gap : List UInt8}
    (isBlank : Text.Blank (Utf8.decodeLossy gap)) (bytes : List UInt8) :
    requestOf (gap ++ bytes) = requestOf bytes := by
  have decoded := Utf8.decodeLossy_invisible_append isVisible
    replacement_isVisible ((visibleCount_eq_zero_iff gap).mpr isBlank) bytes
  unfold requestOf
  rw [decoded, Text.trim_append_left isBlank]

theorem requestOf_terminated (line : List UInt8) :
    requestOf (line ++ [newline]) = requestOf line := by
  apply requestOf_append_blank
  decide

/-- A read and a line that begin and end at the same places, white space
aside, are the same request. -/
theorem requestOf_eq_of_gaps {readsBefore linesBefore read line : List UInt8}
    (before : BlankGap readsBefore linesBefore)
    (after : BlankGap (readsBefore ++ read) (linesBefore ++ line)) :
    requestOf read = requestOf line := by
  obtain ⟨gap, gapBefore, gapBlank⟩ := before
  obtain ⟨rest, gapAfter, restBlank⟩ := after
  -- in each case the two begin or end with the gaps
  rcases gapBefore with readsLonger | linesLonger
  · subst readsLonger
    rcases gapAfter with readsLonger | linesLonger
    · simp only [List.append_assoc, List.append_cancel_left_eq]
        at readsLonger
      rw [← requestOf_blank_append gapBlank read, readsLonger,
        requestOf_append_blank line restBlank]
    · simp only [List.append_assoc, List.append_cancel_left_eq]
        at linesLonger
      rw [linesLonger, requestOf_blank_append gapBlank,
        requestOf_append_blank read restBlank]
  · subst linesLonger
    rcases gapAfter with readsLonger | linesLonger
    · simp only [List.append_assoc, List.append_cancel_left_eq]
        at readsLonger
      rw [readsLonger, requestOf_blank_append gapBlank,
        requestOf_append_blank line restBlank]
    · simp only [List.append_assoc, List.append_cancel_left_eq]
        at linesLonger
      rw [← requestOf_blank_append gapBlank line, linesLonger,
        requestOf_append_blank read restBlank]

/-! ## Cutting the stream -/

theorem pendingAfter_streamOf (lines : List (List UInt8)) :
    Utf8.pendingAfter none (streamOf lines) = none := by
  induction lines using List.reverseRecOn with
  | nil => rfl
  | append_singleton lines line _ =>
      simp only [streamOf, List.map_append, List.map_cons, List.map_nil,
        List.flatten_append, List.flatten_cons, List.flatten_nil,
        List.append_nil]
      rw [← List.append_assoc, Utf8.pendingAfter_append]
      exact Utf8.step_ascii _ (by decide)

theorem visibleCount_streamOf_append (lines : List (List UInt8))
    (bytes : List UInt8) :
    visibleCount (streamOf lines ++ bytes) =
      visibleCount (streamOf lines) + visibleCount bytes := by
  unfold visibleCount
  rw [Utf8.decodeLossy_append_of_boundary (pendingAfter_streamOf lines),
    List.countP_append]

theorem streamOf_append (first second : List (List UInt8)) :
    streamOf (first ++ second) = streamOf first ++ streamOf second := by
  simp [streamOf]

/-- Cutting a stream at its lines keeps every visible character. -/
theorem visibleCount_streamOf (lines : List (List UInt8)) :
    visibleCount (streamOf lines) = (lines.map visibleCount).sum := by
  induction lines with
  | nil => rfl
  | cons line lines ih =>
      have lineCount :
          visibleCount (streamOf [line]) = visibleCount line := by
        rw [← countP_requestOf, ← countP_requestOf,
          ← requestOf_terminated line]
        simp [streamOf]
      rw [← List.singleton_append, streamOf_append,
        visibleCount_streamOf_append, lineCount, ih]
      simp

theorem visibleCount_flatten_le (reads : List (List UInt8)) :
    visibleCount reads.flatten ≤ (reads.map visibleCount).sum := by
  induction reads with
  | nil => exact Nat.le_refl _
  | cons bytes reads ih =>
      rw [List.flatten_cons, List.map_cons, List.sum_cons]
      have cut := visibleCount_append_le bytes reads.flatten
      omega

theorem boundary_of_suffix {lines : List (List UInt8)}
    {start gap : List UInt8} (ends : streamOf lines = start ++ gap) :
    Utf8.pendingAfter none gap = none := by
  rcases List.eq_nil_or_concat gap with isEmpty | ⟨gap, last, isConcat⟩
  · rw [isEmpty]
    rfl
  · subst isConcat
    have lastByte : last = newline := by
      cases lines using List.reverseRecOn with
      | nil => simp [streamOf] at ends
      | append_singleton lines line =>
          have lastOf := congrArg List.getLast? ends
          simpa [streamOf_append, streamOf, List.getLast?_append]
            using lastOf.symm
    rw [lastByte, List.concat_eq_append, Utf8.pendingAfter_append]
    exact Utf8.step_ascii _ (by decide)

theorem sum_visibleCount_of_requests {first second : List (List UInt8)}
    (sameRequests : first.map requestOf = second.map requestOf) :
    (first.map visibleCount).sum = (second.map visibleCount).sum := by
  have counted : ∀ parts : List (List UInt8),
      parts.map visibleCount =
        (parts.map requestOf).map (List.countP isVisible) := by
    intro parts
    rw [List.map_map]
    exact List.map_congr_left fun bytes _ => (countP_requestOf bytes).symm
  rw [counted, counted, sameRequests]

/-- If the requests are the lines, then as many reads as lines end at the same
place, white space aside: a cut elsewhere moves a visible character from one
request to another, or breaks one in two. -/
theorem blankGap_of_requests {lines reads : List (List UInt8)}
    (sameStream : reads.flatten = streamOf lines)
    (sameRequests : reads.map requestOf = lines.map requestOf)
    (count : Nat) :
    BlankGap (reads.take count).flatten (streamOf (lines.take count)) := by
  have sumBefore : ((reads.take count).map visibleCount).sum =
      ((lines.take count).map visibleCount).sum := by
    apply sum_visibleCount_of_requests
    rw [List.map_take, List.map_take, sameRequests]
  have sumAfter : ((reads.drop count).map visibleCount).sum =
      ((lines.drop count).map visibleCount).sum := by
    apply sum_visibleCount_of_requests
    rw [List.map_drop, List.map_drop, sameRequests]
  have cut : (reads.take count).flatten ++ (reads.drop count).flatten =
      streamOf (lines.take count) ++ streamOf (lines.drop count) := by
    rw [← List.flatten_append, ← streamOf_append, List.take_append_drop,
      List.take_append_drop, sameStream]
  have total := congrArg visibleCount cut
  rw [visibleCount_streamOf_append] at total
  have readsBefore := visibleCount_flatten_le (reads.take count)
  have readsAfter := visibleCount_flatten_le (reads.drop count)
  have linesBefore := visibleCount_streamOf (lines.take count)
  have linesAfter := visibleCount_streamOf (lines.drop count)
  have cutLoss := visibleCount_append_le (reads.take count).flatten
    (reads.drop count).flatten
  rcases List.append_eq_append_iff.mp cut with
    ⟨gap, linesLonger, afterGap⟩ | ⟨gap, readsLonger, -⟩
  · refine ⟨gap, Or.inr linesLonger, ?_⟩
    have gapCount : visibleCount (reads.drop count).flatten =
        visibleCount gap + visibleCount (streamOf (lines.drop count)) := by
      rw [afterGap]
      unfold visibleCount
      rw [Utf8.decodeLossy_append_of_boundary
        (boundary_of_suffix linesLonger), List.countP_append]
    apply (visibleCount_eq_zero_iff gap).mp
    omega
  · refine ⟨gap, Or.inl readsLonger, ?_⟩
    have gapCount := visibleCount_streamOf_append (lines.take count) gap
    rw [← readsLonger] at gapCount
    apply (visibleCount_eq_zero_iff gap).mp
    omega

/-- Reads and lines that end at the same places, white space aside, are the
same requests. -/
theorem requests_of_blankGap {lines reads : List (List UInt8)}
    (sameLength : reads.length = lines.length)
    (aligned : ∀ count,
      BlankGap (reads.take count).flatten (streamOf (lines.take count))) :
    reads.map requestOf = lines.map requestOf := by
  apply List.ext_getElem (by simpa using sameLength)
  intro index readInRange lineInRange
  rw [List.length_map] at readInRange lineInRange
  have before := aligned index
  have after := aligned (index + 1)
  rw [List.take_succ_eq_append_getElem readInRange,
    List.take_succ_eq_append_getElem lineInRange, List.flatten_append,
    streamOf_append] at after
  have sameRequest := requestOf_eq_of_gaps before after
  rw [List.getElem_map, List.getElem_map, ← requestOf_terminated lines[index]]
  simpa [streamOf] using sameRequest

/-- The requests handled on a connection are the lines its client wrote, in
order and each once, exactly if there are as many reads as lines and the ends
of the reads are the ends of the lines, white space aside. -/
theorem requestsOfReads_eq_lines_iff {lines reads : List (List UInt8)}
    (sameStream : reads.flatten = streamOf lines) :
    requestsOfReads reads = lines.map requestOf ↔
      reads.length = lines.length ∧
        ∀ count, BlankGap (reads.take count).flatten
          (streamOf (lines.take count)) := by
  rw [requestsOfReads_eq]
  constructor
  · intro sameRequests
    have sameLength := congrArg List.length sameRequests
    rw [List.length_map, List.length_map] at sameLength
    exact ⟨sameLength, blankGap_of_requests sameStream sameRequests⟩
  · rintro ⟨sameLength, aligned⟩
    exact requests_of_blankGap sameLength aligned

def twoAcks : List (List UInt8) :=
  [Utf8.encode "ack a", Utf8.encode "ack b"]

/-- The newline of the first line arrives with the second line. -/
theorem requestsOfReads_lateNewline :
    [Utf8.encode "ack a", Utf8.encode "\nack b\n"].flatten =
        streamOf twoAcks ∧
      ∀ count, BlankGap
        ([Utf8.encode "ack a",
          Utf8.encode "\nack b\n"].take count).flatten
        (streamOf (twoAcks.take count)) := by
  have sameStream :
      [Utf8.encode "ack a", Utf8.encode "\nack b\n"].flatten =
        streamOf twoAcks := by decide
  exact ⟨sameStream,
    ((requestsOfReads_eq_lines_iff sameStream).mp (by decide)).2⟩

/-- Two acknowledgements written in a row and returned by one read are handled
as a single request. -/
theorem requestsOfReads_coalesced :
    [Utf8.encode "ack a\nack b\n"].flatten = streamOf twoAcks ∧
      (∀ line ∈ twoAcks, newline ∉ line) ∧
      requestsOfReads [Utf8.encode "ack a\nack b\n"] =
        ["ack a\nack b".toList] ∧
      requestsOfReads [Utf8.encode "ack a\nack b\n"] ≠
        twoAcks.map requestOf := by
  decide

end CipherMQ
