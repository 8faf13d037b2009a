import CodeCapsules.Proofs.Halting

/-!
Contract: lookups, listings and counts of a container agree, whatever is in it.

Owns:
- `Stepped`, what one step of the walk can do on any archive;
- the shape of what a walk yields there: records, then at most one error;
- the answers of a lookup, of a listing and of a count, each by that shape.

Main statement: a lookup answers the first record with the header that comes
before any error, the free space where there is neither, and the error
otherwise.
-/

namespace CodeCapsules.Store

open Flash (Archive Device)

/-! ## What a walk yields -/

/-- What a step of the walk can do: it ends the walk, with or without an error,
or it passes a record that has a whole header and ends in the container. -/
inductive Stepped (scan : Scan) : Option Item × Scan → Prop where
  | ended : Stepped scan (none, { scan with finished := true })
  | failed (stop : Stop Error) : Stepped scan (some (.error stop), { scan with finished := true })
  | passed (header : Header) (running : scan.finished = false)
      (covers : headerSize ≤ header.length.toNat)
      (fits : scan.position + header.length.toNat ≤ scan.container.capacity) :
      Stepped scan (some (.ok ⟨scan.offset, header⟩),
        { scan with position := scan.position + header.length.toNat })

section Yields

variable {archive : Archive}

theorem stepped_next (scan : Scan) (archive : Archive) : Stepped scan (scan.next archive) := by
  unfold Scan.next
  simp only
  split
  · exact .ended
  · rename_i goesOn
    split
    · exact .failed _
    · rename_i length read
      split
      · exact .ended
      split
      · exact .failed _
      split
      · exact .failed _
      · rename_i covers fits
        split
        · exact .failed _
        · rename_i hash hashRead
          have running : scan.finished = false :=
            Bool.eq_false_iff.mpr fun finished => goesOn (.inl finished)
          exact .passed ⟨length, hash⟩ running (Nat.not_lt.mp covers) (Nat.not_lt.mp fits)

theorem next_of_finished {scan : Scan} (finished : scan.finished = true) :
    scan.next archive = (none, scan) := by
  unfold Scan.next
  rw [if_pos (.inl finished), ← finished]

/-- A walk yields records, and behind them at most one error. -/
theorem exists_yields (scan : Scan) (archive : Archive) :
    ∃ (listed : List Record) (failure : Option (Stop Error)),
      (scan.collect archive).1 = listed.map .ok ++ failure.toList.map .error := by
  fun_induction Scan.collect scan archive with
  | case1 scan after stepped => exact ⟨[], none, rfl⟩
  | case2 scan item after stepped items last collected inductionHypothesis =>
      have shape := stepped_next scan archive
      rw [stepped] at shape
      cases shape with
      | failed stop =>
          rw [collect_of_next_none (next_of_finished rfl)] at collected
          exact ⟨[], some stop, congrArg (Except.error stop :: ·) (Prod.mk.inj collected).1.symm⟩
      | passed header running covers fits =>
          obtain ⟨listed, failure, behind⟩ := inductionHypothesis
          rw [collected] at behind
          exact ⟨⟨scan.offset, header⟩ :: listed, failure, congrArg (Except.ok _ :: ·) behind⟩

/-- Records can be listed exactly if the walk yields them and no error. -/
theorem records_eq_ok {container : Container} {listed : List Record} :
    (records archive container).outcome = .ok listed ↔
      ((Scan.start container).collect archive).1 = listed.map .ok := by
  obtain ⟨yielded, failure, shape⟩ := exists_yields (Scan.start container) archive
  unfold records
  rw [shape, recordsOf_map_ok_append]
  cases failure with
  | none =>
      show Except.ok (yielded ++ []) = _ ↔ yielded.map Except.ok ++ [] = _
      rw [List.append_nil, List.append_nil, Except.ok.injEq]
      exact ⟨congrArg _, fun same => List.map_injective_iff.mpr (fun _ _ => Except.ok.inj) same⟩
  | some stop =>
      refine ⟨nofun, fun same => ?_⟩
      have present : Except.error stop ∈ listed.map Except.ok := by
        rw [← same]
        simp
      simp at present

end Yields

/-! ## The answers -/

section Answers

variable {archive : Archive} {container : Container} {length : UInt16} {hash : Hash}

/-- No record among these has the header. -/
def Lacks (listed : List Record) (length : UInt16) (hash : Hash) : Prop :=
  ∀ record ∈ listed, record.header ≠ ⟨length, hash⟩

theorem lacks_iff {listed : List Record} :
    Lacks listed length hash ↔
      listed.find? (fun record => record.header.describes length hash) = none := by
  rw [List.find?_eq_none]
  exact forall₂_congr fun record _ => not_congr Header.describes_iff.symm

/-- Records without the header leave a lookup to what follows them. -/
theorem searched_of_lacks {listed : List Record} (lacks : Lacks listed length hash)
    (last : Offset) (items : List Item) :
    searched length hash last (listed.map .ok ++ items) = searched length hash last items := by
  rw [searched_map_ok, lacks_iff.mp lacks]

theorem find_eq_found {offset : Offset} :
    (find archive container length hash).outcome = .ok (.found offset) ↔
      ∃ (earlier : List Record) (record : Record) (later : List Item),
        ((Scan.start container).collect archive).1 = earlier.map .ok ++ .ok record :: later ∧
        Lacks earlier length hash ∧ record.header = ⟨length, hash⟩ ∧ record.offset = offset := by
  rw [find_outcome]
  constructor
  · intro answered
    obtain ⟨listed, failure, shape⟩ := exists_yields (Scan.start container) archive
    rw [shape, searched_map_ok] at answered
    cases found : listed.find? fun record => record.header.describes length hash with
    | none =>
        rw [found] at answered
        cases failure with
        | none => exact absurd (Except.ok.inj answered) (by simp)
        | some stop => contradiction
    | some record =>
        rw [found] at answered
        obtain ⟨describes, earlier, later, listedEq, skipped⟩ :=
          List.find?_eq_some_iff_append.mp found
        refine ⟨earlier, record, later.map .ok ++ failure.toList.map .error, ?_, ?_,
          Header.describes_iff.mp describes, Slot.found.inj (Except.ok.inj answered)⟩
        · rw [shape, listedEq]
          simp
        · intro other member same
          have missed := skipped other member
          rw [Header.describes_iff.mpr same] at missed
          contradiction
  · rintro ⟨earlier, record, later, shape, lacks, headed, rfl⟩
    rw [shape, searched_of_lacks lacks, searched, if_pos (Header.describes_iff.mpr headed)]

theorem find_eq_error {stop : Stop Error} :
    (find archive container length hash).outcome = .error stop ↔
      ∃ earlier : List Record,
        ((Scan.start container).collect archive).1 = earlier.map .ok ++ [.error stop] ∧
        Lacks earlier length hash := by
  rw [find_outcome]
  constructor
  · intro answered
    obtain ⟨listed, failure, shape⟩ := exists_yields (Scan.start container) archive
    rw [shape, searched_map_ok] at answered
    cases found : listed.find? fun record => record.header.describes length hash with
    | some record =>
        rw [found] at answered
        contradiction
    | none =>
        rw [found] at answered
        cases failure with
        | none => contradiction
        | some other =>
            rw [← Except.error.inj answered]
            exact ⟨listed, shape, lacks_iff.mpr found⟩
  · rintro ⟨earlier, shape, lacks⟩
    rw [shape, searched_of_lacks lacks]
    rfl

theorem find_eq_free {offset : Offset} :
    (find archive container length hash).outcome = .ok (.free offset) ↔
      ∃ listed, (records archive container).outcome = .ok listed ∧ Lacks listed length hash ∧
        (usedBytes archive container).outcome = .ok offset.value.toNat := by
  rw [find_outcome]
  constructor
  · intro answered
    obtain ⟨listed, failure, shape⟩ := exists_yields (Scan.start container) archive
    have offsetEq := searched_eq_free answered
    rw [shape, searched_map_ok] at answered
    cases found : listed.find? fun record => record.header.describes length hash with
    | some record =>
        rw [found] at answered
        exact absurd (Except.ok.inj answered) (by simp)
    | none =>
        rw [found] at answered
        cases failure with
        | some stop => contradiction
        | none =>
            have listable : (records archive container).outcome = .ok listed :=
              records_eq_ok.mpr (by rw [shape]; exact List.append_nil _)
            refine ⟨listed, listable, lacks_iff.mpr found, ?_⟩
            rw [usedBytes_outcome, listable, offsetEq]
            rfl
  · rintro ⟨listed, listable, lacks, used⟩
    have shape := searched_of_lacks lacks ((Scan.start container).collect archive).2.offset []
    rw [List.append_nil, ← records_eq_ok.mp listable] at shape
    rw [usedBytes_outcome, listable] at used
    rw [shape]
    have offsetEq : ((Scan.start container).collect archive).2.offset = offset :=
      Offset.ext (UInt16.toNat_inj.mp (Except.ok.inj used))
    rw [offsetEq]
    rfl

/-- A lookup in a store has the answer of a lookup in its container, with the
generation of the store behind a hit. -/
theorem lookup_eq {δ : Type} [Device δ] (store : Store δ) (length : UInt16) (hash : Hash) :
    (store.lookup length hash).outcome =
      (find store.archive store.container length hash).outcome.map
        (Lookup.ofSlot store.generation) := by
  unfold Store.lookup Store.findSlot
  rw [Logged.outcome_bind]
  cases (find store.archive store.container length hash).outcome with
  | ok slot => rfl
  | error stop => rfl

/-- Lookups, listings and counts agree on every container, also on a corrupt
one or one that cannot be read everywhere. A lookup finds the first record with
the header that the walk yields before any error, finds the occupied bytes as
free space exactly if all records can be listed and none has the header, and
fails exactly with the error that ends the walk when no record before it has the
header. -/
theorem lookup_agrees_with_walk (archive : Archive) (container : Container) (length : UInt16)
    (hash : Hash)
    (addressable : container.base.value.toNat + container.capacity < UInt32.size) :
    (find archive container length hash).outcome.Answered ∧
    (∀ offset, (find archive container length hash).outcome = .ok (.found offset) ↔
      ∃ (earlier : List Record) (record : Record) (later : List Item),
        ((Scan.start container).collect archive).1 = earlier.map .ok ++ .ok record :: later ∧
        Lacks earlier length hash ∧ record.header = ⟨length, hash⟩ ∧ record.offset = offset) ∧
    (∀ offset, (find archive container length hash).outcome = .ok (.free offset) ↔
      ∃ listed, (records archive container).outcome = .ok listed ∧ Lacks listed length hash ∧
        (usedBytes archive container).outcome = .ok offset.value.toNat) ∧
    (∀ cause, (find archive container length hash).outcome = Outcome.refuse cause ↔
      ∃ earlier : List Record,
        ((Scan.start container).collect archive).1 =
          earlier.map .ok ++ [Outcome.refuse cause] ∧
        Lacks earlier length hash) ∧
    (∀ {δ : Type} [Device δ] (store : Store δ), store.archive = archive →
      store.container = container →
        (∀ handle, (store.lookup length hash).outcome = .ok (.found handle) ↔
          handle.generation = store.generation ∧
            (find archive container length hash).outcome = .ok (.found handle.offset)) ∧
        (∀ offset, (store.lookup length hash).outcome = .ok (.free offset) ↔
          (find archive container length hash).outcome = .ok (.free offset)) ∧
        (∀ stop, (store.lookup length hash).outcome = .error stop ↔
          (find archive container length hash).outcome = .error stop)) ∧
    (∀ used, (usedBytes archive container).outcome = .ok used → used ≤ container.capacity →
      ∃ free, (freeBytes archive container).outcome = .ok free ∧
        used + free = container.capacity) := by
  refine ⟨answered_find archive addressable length hash, fun _ => find_eq_found,
    fun _ => find_eq_free, fun _ => find_eq_error, ?_, ?_⟩
  · rintro δ _ store rfl rfl
    rw [lookup_eq]
    cases (find store.archive store.container length hash).outcome with
    | error stop => simp [Except.map]
    | ok slot =>
        cases slot with
        | free offset => simp [Except.map, Lookup.ofSlot]
        | found offset =>
            refine ⟨fun handle => ?_, by simp [Except.map, Lookup.ofSlot],
              by simp [Except.map]⟩
            obtain ⟨place, generation⟩ := handle
            simp [Except.map, Lookup.ofSlot, and_comm, eq_comm]
  · intro used counted inside
    refine ⟨container.capacity - used, ?_, by omega⟩
    unfold freeBytes
    rw [Logged.outcome_bind, counted]
    rfl

/-- Two records with one header, and behind them a length that is no record's. -/
def tornImage : Flash.Image :=
  ⟨0x300, #[8, 0, 1, 2, 3, 4, 0x08, 0x95, 8, 0, 1, 2, 3, 4, 0, 0, 3, 0, 0],
    [⟨⟨0x300⟩, 19, .capsuleBuffer⟩], none⟩

def tornContainer : Container := ⟨0, ⟨⟨0x300⟩, 19, .capsuleBuffer⟩, by decide⟩

theorem lookup_before_corruption :
    tornContainer.base.value.toNat + tornContainer.capacity < UInt32.size ∧
      (find tornImage.archive tornContainer 8 ⟨1, 2, 3, 4⟩).outcome = .ok (.found ⟨0⟩) ∧
      (find tornImage.archive tornContainer 9 ⟨1, 2, 3, 4⟩).outcome =
        Outcome.refuse (.corruptRecord ⟨16⟩ 3 (.shorterThanHeader 3)) := by
  have addressable : tornContainer.base.value.toNat + tornContainer.capacity < UInt32.size := by
    decide
  have yields : ((Scan.start tornContainer).collect tornImage.archive).1 =
      [.ok ⟨⟨0⟩, ⟨8, ⟨1, 2, 3, 4⟩⟩⟩, .ok ⟨⟨8⟩, ⟨8, ⟨1, 2, 3, 4⟩⟩⟩,
        Outcome.refuse (.corruptRecord ⟨16⟩ 3 (.shorterThanHeader 3))] := by
    decide +kernel
  obtain ⟨-, found, -⟩ :=
    lookup_agrees_with_walk tornImage.archive tornContainer 8 ⟨1, 2, 3, 4⟩ addressable
  obtain ⟨-, -, -, refused, -⟩ :=
    lookup_agrees_with_walk tornImage.archive tornContainer 9 ⟨1, 2, 3, 4⟩ addressable
  refine ⟨addressable, (found ⟨0⟩).mpr ⟨[], _, _, yields, List.forall_mem_nil _, rfl, rfl⟩,
    (refused _).mpr ⟨[⟨⟨0⟩, ⟨8, ⟨1, 2, 3, 4⟩⟩⟩, ⟨⟨8⟩, ⟨8, ⟨1, 2, 3, 4⟩⟩⟩], yields, ?_⟩⟩
  unfold Lacks
  decide

end Answers

end CodeCapsules.Store
