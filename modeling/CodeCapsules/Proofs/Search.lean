import CodeCapsules.Store.Lookup
import CodeCapsules.Proofs.Walk

/-!
Contract: a lookup answers by the items of the walk.

Owns:
- `searched`, the answer that items of a walk give to a lookup;
- the lookup of a capsule among those that a container contains.

Main statement: looking a capsule up answers the first item that decides it, so
that lookups and listings never disagree.
-/

namespace CodeCapsules.Store

open Flash (Archive)

/-- The answer of items to a lookup, when the walk ends at `last`: the first
record with the header, or the error if that comes first. -/
def searched (length : UInt16) (hash : Hash) (last : Offset) : List Item → Outcome Error Slot
  | [] => .ok (.free last)
  | .error stop :: _ => .error stop
  | .ok record :: rest =>
      if record.header.describes length hash then .ok (.found record.offset)
      else searched length hash last rest

/-- A search from any point on answers by the rest of the walk. -/
theorem findFrom_outcome (archive : Archive) (length : UInt16) (hash : Hash) (scan : Scan) :
    (findFrom archive length hash scan).outcome =
      searched length hash (scan.collect archive).2.offset (scan.collect archive).1 := by
  fun_induction findFrom archive length hash scan with
  | case1 scan after stepped =>
      rw [collect_of_next_none stepped]
      rfl
  | case2 scan stop after stepped =>
      rw [collect_of_next_some stepped]
      rfl
  | case3 scan record after stepped describes =>
      rw [collect_of_next_some stepped]
      simp only [searched]
      rw [if_pos describes]
  | case4 scan record after stepped differs rest inductionHypothesis =>
      rw [collect_of_next_some stepped]
      simp only [searched]
      rw [if_neg differs]
      exact inductionHypothesis

theorem find_outcome (archive : Archive) (container : Container) (length : UInt16) (hash : Hash) :
    (find archive container length hash).outcome =
      searched length hash ((Scan.start container).collect archive).2.offset
        ((Scan.start container).collect archive).1 := by
  unfold find
  rw [Logged.outcome_bind, Logged.outcome_report, Outcome.bind_ok, findFrom_outcome]

/-- Records decide a lookup by the first of them with the header. -/
theorem searched_map_ok (length : UInt16) (hash : Hash) (last : Offset) (listed : List Record)
    (items : List Item) :
    searched length hash last (listed.map .ok ++ items) =
      match listed.find? fun record => record.header.describes length hash with
      | some record => .ok (.found record.offset)
      | none => searched length hash last items := by
  induction listed with
  | nil => rfl
  | cons record rest inductionHypothesis =>
      simp only [List.map_cons, List.cons_append, searched]
      by_cases describes : record.header.describes length hash
      · rw [if_pos describes, List.find?_cons_of_pos (by exact describes)]
      · rw [if_neg describes, List.find?_cons_of_neg (by exact describes), inductionHypothesis]

/-- The answer of a lookup among capsules from `start` on. -/
def slotAmong (start : Nat) (capsules : List Capsule) (length : UInt16) (hash : Hash) : Slot :=
  match (recordsAt start capsules).find? fun record => record.header.describes length hash with
  | some record => .found record.offset
  | none => .free ⟨(start + totalSize capsules).toUInt16⟩

/-- Two headers with the same length and hash are one. -/
theorem Header.describes_iff {header : Header} {length : UInt16} {hash : Hash} :
    header.describes length hash = true ↔ header = ⟨length, hash⟩ := by
  unfold Header.describes
  cases header
  simp

theorem map_header_recordsAt (start : Nat) (capsules : List Capsule) :
    (recordsAt start capsules).map Record.header = capsules.map Capsule.header := by
  induction capsules generalizing start with
  | nil => rfl
  | cons capsule rest inductionHypothesis =>
      rw [recordsAt, List.map_cons, List.map_cons, inductionHypothesis]

/-- Free space starts behind all capsules. -/
theorem offset_of_slotAmong_free {start : Nat} {capsules : List Capsule} {length : UInt16}
    {hash : Hash} {offset : Offset}
    (answered : slotAmong start capsules length hash = .free offset) :
    offset = ⟨(start + totalSize capsules).toUInt16⟩ := by
  unfold slotAmong at answered
  split at answered
  · contradiction
  · exact (Slot.free.inj answered).symm

/-- A lookup that finds free space has met no capsule with the header. -/
theorem header_ne_of_slotAmong_free {start : Nat} {capsules : List Capsule} {header : Header}
    {offset : Offset}
    (answered : slotAmong start capsules header.length header.hash = .free offset) :
    ∀ capsule ∈ capsules, capsule.header ≠ header := by
  intro capsule member same
  have listed : header ∈ (recordsAt start capsules).map Record.header := by
    rw [map_header_recordsAt, ← same]
    exact List.mem_map_of_mem member
  obtain ⟨record, present, headerEq⟩ := List.mem_map.mp listed
  unfold slotAmong at answered
  split at answered
  · contradiction
  · rename_i absent
    exact List.find?_eq_none.mp absent record present (Header.describes_iff.mpr headerEq)

/-- A lookup in a container that contains capsules finds the first of them
with the header, or else the place behind them. -/
theorem find_of_contains {archive : Archive} {container : Container} {bytes : Bytes}
    {capsules : List Capsule} (shows : Shows archive container bytes)
    (contained : Contains bytes container.firstPlace capsules) (length : UInt16) (hash : Hash) :
    (find archive container length hash).outcome =
      .ok (slotAmong container.firstPlace capsules length hash) := by
  have answer := searched_map_ok length hash
    ⟨(container.firstPlace + totalSize capsules).toUInt16⟩
    (recordsAt container.firstPlace capsules) []
  rw [List.append_nil] at answer
  rw [find_outcome, collect_of_contains shows contained]
  show searched length hash ⟨(container.firstPlace + totalSize capsules).toUInt16⟩ _ = _
  rw [answer, slotAmong]
  split
  · rfl
  · rfl

/-- A capsule with a header that no capsule before it has is found, whatever
stands behind it. -/
theorem find_of_spells_fresh {archive : Archive} {container : Container} {bytes : Bytes}
    {capsules : List Capsule} {capsule : Capsule} (shows : Shows archive container bytes)
    (spelled : Spells bytes container.firstPlace (capsules ++ [capsule]))
    (fresh : ∀ other ∈ capsules, other.header ≠ capsule.header) :
    (find archive container capsule.header.length capsule.header.hash).outcome =
      .ok (.found ⟨(container.firstPlace + totalSize capsules).toUInt16⟩) := by
  have skipped : (recordsAt container.firstPlace capsules).find? (fun record =>
      record.header.describes capsule.header.length capsule.header.hash) = none := by
    rw [List.find?_eq_none]
    intro record present describes
    have listed : record.header ∈ capsules.map Capsule.header := by
      rw [← map_header_recordsAt container.firstPlace]
      exact List.mem_map_of_mem present
    obtain ⟨other, member, headerEq⟩ := List.mem_map.mp listed
    exact fresh other member (headerEq.trans (Header.describes_iff.mp describes))
  have described : capsule.header.describes capsule.header.length capsule.header.hash = true :=
    Header.describes_iff.mpr rfl
  rw [find_outcome]
  change searched _ _ _ ((walkAt container container.firstPlace).collect archive).1 = _
  rw [collect_of_spells shows spelled, searched_map_ok, recordsAt_append, List.find?_append,
    skipped, Option.none_or, recordsAt, List.find?_cons_of_pos (by exact described)]

/-- A lookup finds free space only where the list of capsules ends. -/
theorem contains_of_find_free {archive : Archive} {container : Container} {bytes : Bytes}
    {length : UInt16} {hash : Hash} {offset : Offset} (shows : Shows archive container bytes)
    (answered : (find archive container length hash).outcome = .ok (.free offset)) :
    ∃ capsules, Contains bytes container.firstPlace capsules ∧
      slotAmong container.firstPlace capsules length hash = .free offset := by
  obtain ⟨capsules, spelled, ended | ⟨broken, breaks⟩⟩ :=
    exists_spelled bytes container.firstPlace
  · have contained : Contains bytes container.firstPlace capsules := ⟨spelled, ended⟩
    rw [find_of_contains shows contained] at answered
    exact ⟨capsules, contained, Except.ok.inj answered⟩
  · rw [find_outcome] at answered
    change searched length hash
      ((walkAt container container.firstPlace).collect archive).2.offset
      ((walkAt container container.firstPlace).collect archive).1 = _ at answered
    rw [collect_of_spells shows spelled, collect_of_breaks shows breaks, searched_map_ok]
      at answered
    split at answered
    · exact absurd (Except.ok.inj answered) (by simp)
    · contradiction

/-- A lookup finds the first capsule with the header, whatever stands behind
it. -/
theorem spells_of_find_found {archive : Archive} {container : Container} {bytes : Bytes}
    {length : UInt16} {hash : Hash} {offset : Offset} (shows : Shows archive container bytes)
    (answered : (find archive container length hash).outcome = .ok (.found offset)) :
    ∃ capsules capsule, Spells bytes container.firstPlace (capsules ++ [capsule]) ∧
      capsule.header = ⟨length, hash⟩ ∧ (∀ other ∈ capsules, other.header ≠ capsule.header) ∧
      offset = ⟨(container.firstPlace + totalSize capsules).toUInt16⟩ := by
  obtain ⟨all, spelled, stopped⟩ := exists_spelled bytes container.firstPlace
  rw [find_outcome] at answered
  change searched length hash
    ((walkAt container container.firstPlace).collect archive).2.offset
    ((walkAt container container.firstPlace).collect archive).1 = _ at answered
  rw [collect_of_spells shows spelled, searched_map_ok] at answered
  cases found : (recordsAt container.firstPlace all).find? fun record =>
      record.header.describes length hash with
  | none =>
      -- Behind the last capsule the walk yields at most an error.
      rw [found] at answered
      rcases stopped with ended | ⟨broken, breaks⟩
      · rw [collect_of_ends shows ended] at answered
        exact absurd (Except.ok.inj answered) (by simp)
      · rw [collect_of_breaks shows breaks] at answered
        contradiction
  | some record =>
      rw [found] at answered
      obtain ⟨describes, before, behind, listed, skipped⟩ :=
        List.find?_eq_some_iff_append.mp found
      obtain ⟨capsules, capsule, later, allEq, beforeEq, recordEq⟩ :=
        exists_split_of_recordsAt listed
      have headed : capsule.header = ⟨length, hash⟩ := by
        rw [recordEq] at describes
        exact Header.describes_iff.mp describes
      refine ⟨capsules, capsule, spelled.of_begins ⟨later, by simp [allEq]⟩, headed, ?_, ?_⟩
      · intro other member same
        have listedOther : other.header ∈ before.map Record.header := by
          rw [beforeEq, map_header_recordsAt]
          exact List.mem_map_of_mem member
        obtain ⟨skippedRecord, present, headerEq⟩ := List.mem_map.mp listedOther
        have missed := skipped skippedRecord present
        rw [Header.describes_iff.mpr (headerEq.trans (same.trans headed))] at missed
        contradiction
      · rw [← Slot.found.inj (Except.ok.inj answered), recordEq]

end CodeCapsules.Store
