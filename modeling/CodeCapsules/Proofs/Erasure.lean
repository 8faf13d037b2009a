import CodeCapsules.Proofs.Refinement

/-!
Contract: nothing that was in a container before an erase can be told from the
answers of the store afterwards.

Owns:
- two images with one table of files, and the container that is found in both;
- a container of zero bytes, which contains no capsule;
- the comparison of two stores that stand for one log.

Main statement: a store on an erased container and a store on a blank one give
the same answers to every list of calls, although an erase writes three bytes
only.
-/

namespace CodeCapsules.Store

open Flash (Device Image)

/-- Two stores that stand for one log answer alike to every list of calls. -/
theorem replies_eq_of_represents {container : Container} {memoryEnd : Nat}
    {left right : Store Image} {log : Log} (room : eraseMark.length ≤ container.capacity)
    (leftRepresents : Represents container memoryEnd left log)
    (rightRepresents : Represents container memoryEnd right log) (calls : List Call) :
    (trace (fun call => call.perform.result) calls left).map Prod.fst =
      (trace (fun call => call.perform.result) calls right).map Prod.fst := by
  have asLog : ∀ store, Represents container memoryEnd store log →
      (trace (fun call => call.perform.result) calls store).map Prod.fst =
        (trace (Log.stepOn container memoryEnd) calls log).map Prod.fst := by
    intro store represents
    have related := trace_related (Represents container memoryEnd)
      (fun call _ _ (_ : True) related => related.step room call) calls (fun _ _ => trivial)
      store log represents
    exact replies_eq related fun _ _ same => same.1
  rw [asLog left leftRepresents, asLog right rightRepresents]

/-- Finding the container depends on the table of files only. -/
theorem locate_congr {left right : Image} (files : left.files = right.files) (type : FileType) :
    Container.locate left.archive type = Container.locate right.archive type := by
  have file : left.archive.file = right.archive.file := by
    show left.file = right.file
    unfold Flash.Image.file
    rw [files]
  have fileCount : left.archive.fileCount = right.archive.fileCount :=
    congrArg List.length files
  have searching : ∀ count index,
      locateFrom left.archive type index count = locateFrom right.archive type index count := by
    intro count
    induction count with
    | zero => exact fun _ => rfl
    | succ count inductionHypothesis =>
        intro index
        simp only [locateFrom, file, inductionHypothesis]
  unfold Container.locate locate
  rw [fileCount, file, searching]

/-- A store opens on every device in which its container is found. -/
theorem start_of_locate {δ : Type} [Device δ] {device : δ} {config : Config}
    {container : Container}
    (located : (Container.locate (Device.archive device) config.containerType).outcome =
      .ok container) :
    (start device config).outcome = .ok ⟨device, config, container, .initial⟩ := by
  unfold start
  rw [Logged.outcome_bind, located]
  rfl

/-- Zero bytes contain no capsule. -/
theorem contains_zeros {bytes : Bytes} {start : Nat} (zeros : ∀ byte ∈ bytes, byte = 0) :
    Contains bytes start [] := by
  refine ⟨spells_nil, ?_⟩
  rw [totalSize_nil, Nat.add_zero]
  by_cases room : start + terminatorSize ≤ bytes.length
  · unfold terminatorSize at room
    have zeroAt : ∀ place, place < bytes.length → bytes[place]? = some 0 := by
      intro place inside
      rw [List.getElem?_eq_getElem inside, zeros _ (List.getElem_mem inside)]
    exact .inl ⟨room, zeroAt start (by omega), zeroAt (start + 1) (by omega)⟩
  · exact .inr (by omega)

section TwoImages

variable {dirty blank : Image}

theorem memoryEnd_congr (origin : dirty.origin = blank.origin)
    (size : dirty.memory.size = blank.memory.size) : dirty.memoryEnd = blank.memoryEnd := by
  unfold Flash.Image.memoryEnd
  rw [origin, size]

/-- A file that lies inside one image lies inside the other. -/
theorem mounts_congr {index : Nat} {entry : Flash.Entry} (origin : dirty.origin = blank.origin)
    (files : dirty.files = blank.files) (size : dirty.memory.size = blank.memory.size)
    (mounted : dirty.Mounts index entry) : blank.Mounts index entry := by
  obtain ⟨filed, holds, addressable⟩ := mounted
  have endEq := memoryEnd_congr origin size
  unfold Flash.Image.file at filed
  unfold Flash.Image.Holds at holds
  rw [files] at filed
  rw [origin, endEq] at holds
  rw [endEq] at addressable
  exact ⟨filed, holds, addressable⟩

/-- Erased data never resurfaces. Take two images that differ in their bytes
only, one with anything in its container and one with zeros there. Once the
first is erased, the stores on both answer every list of calls alike. So do a
store that was opened before it was cleared and a store of the same generation
on the blank image. -/
theorem erased_data_never_resurfaces (dirty blank : Image) (config : Config)
    (container : Container) (origin : dirty.origin = blank.origin)
    (files : dirty.files = blank.files) (size : dirty.memory.size = blank.memory.size)
    (valid : dirty.validate = .ok ()) (addressable : dirty.memoryEnd < UInt32.size)
    (dirtyIdle : dirty.cursor = none) (blankIdle : blank.cursor = none)
    (located : (Container.locate dirty.archive config.containerType).outcome = .ok container)
    (room : 3 ≤ container.capacity) (zeros : ∀ byte ∈ blank.region container.entry, byte = 0) :
    ∃ (erased : Image) (erasedStore dirtyStore clearedStore blankStore : Store Image),
      (erase container).result dirty = (.ok (), erased) ∧
      (start erased config).outcome = .ok erasedStore ∧
      (start blank config).outcome = .ok blankStore ∧
      (∀ calls, (trace (fun call => call.perform.result) calls erasedStore).map Prod.fst =
        (trace (fun call => call.perform.result) calls blankStore).map Prod.fst) ∧
      (start dirty config).outcome = .ok dirtyStore ∧
      clear.result dirtyStore = (.ok (), clearedStore) ∧
      ∀ calls, (trace (fun call => call.perform.result) calls clearedStore).map Prod.fst =
        (trace (fun call => call.perform.result) calls
          { blankStore with generation := clearedStore.generation }).map Prod.fst := by
  have mounted := mounts_of_locate valid addressable located
  have blankLocated :
      (Container.locate blank.archive config.containerType).outcome = .ok container := by
    rw [← locate_congr files]
    exact located
  have dirtyRests : Rests container dirty.memoryEnd ⟨dirty, config, container, .initial⟩ :=
    ⟨rfl, rfl, mounted, dirtyIdle⟩
  have blankRepresents : ∀ generation, Represents container dirty.memoryEnd
      ⟨blank, config, container, generation⟩ ⟨[], generation⟩ := fun generation =>
    ⟨⟨rfl, (memoryEnd_congr origin size).symm, mounts_congr origin files size mounted, blankIdle⟩,
      contains_zeros zeros, rfl⟩
  obtain ⟨eraseOk, erasedRepresents⟩ := dirtyRests.erase room .initial
  obtain ⟨clearOk, clearedRepresents⟩ := dirtyRests.clear room
  have erasedLocated : (Container.locate ((erase container).result dirty).2.archive
      config.containerType).outcome = .ok container := by
    have files : ((erase container).result dirty).2.files = dirty.files := by
      rw [result_erase_of_room mounted dirtyIdle room]
      rfl
    rw [locate_congr files]
    exact located
  refine ⟨((erase container).result dirty).2, _, _, _, _, Prod.ext eraseOk rfl,
    start_of_locate erasedLocated, start_of_locate blankLocated, ?_, start_of_locate located,
    Prod.ext clearOk rfl, ?_⟩
  · exact replies_eq_of_represents room erasedRepresents (blankRepresents .initial)
  · have generationEq := clearedRepresents.generation
    rw [generationEq]
    exact replies_eq_of_represents room clearedRepresents (blankRepresents _)

/-- An image with the files of `oddImage`, but zeros in them. -/
def zeroImage : Image := { oddImage with memory := Array.replicate 11 0 }

theorem erased_data_never_resurfaces_at_odd_base :
    oddImage.origin = zeroImage.origin ∧ oddImage.files = zeroImage.files ∧
      oddImage.memory.size = zeroImage.memory.size ∧ oddImage.validate = .ok () ∧
      oddImage.memoryEnd < UInt32.size ∧ oddImage.cursor = none ∧ zeroImage.cursor = none ∧
      (Container.locate oddImage.archive Config.standard.containerType).outcome =
        .ok oddContainer ∧
      3 ≤ oddContainer.capacity ∧ (∀ byte ∈ zeroImage.region oddContainer.entry, byte = 0) ∧
      ∃ (erased : Image) (erasedStore blankStore : Store Image),
        (erase oddContainer).result oddImage = (.ok (), erased) ∧
        erased.memory ≠ zeroImage.memory ∧
        (start erased .standard).outcome = .ok erasedStore ∧
        (start zeroImage .standard).outcome = .ok blankStore ∧
        ∀ calls, (trace (fun call => call.perform.result) calls erasedStore).map Prod.fst =
          (trace (fun call => call.perform.result) calls blankStore).map Prod.fst := by
  have valid : oddImage.validate = .ok () := by decide
  have addressable : oddImage.memoryEnd < UInt32.size := by decide
  have located : (Container.locate oddImage.archive Config.standard.containerType).outcome =
      .ok oddContainer := rfl
  have room : 3 ≤ oddContainer.capacity := by decide
  have zeros : ∀ byte ∈ zeroImage.region oddContainer.entry, byte = 0 := by
    intro byte member
    have region : zeroImage.region oddContainer.entry = List.replicate 11 0 := rfl
    rw [region] at member
    exact List.eq_of_mem_replicate member
  obtain ⟨erased, erasedStore, -, -, blankStore, erases, opened, openedBlank, alike, -⟩ :=
    erased_data_never_resurfaces oddImage zeroImage .standard oddContainer rfl rfl rfl valid
      addressable rfl rfl located room zeros
  have remains : erased.memory ≠ zeroImage.memory := by
    have written :=
      result_erase_of_room (mounts_of_locate valid addressable located) rfl room
    rw [erases] at written
    rw [(Prod.mk.inj written).2]
    decide
  exact ⟨rfl, rfl, rfl, valid, addressable, rfl, rfl, located, room, zeros, erased, erasedStore,
    blankStore, erases, remains, opened, openedBlank, alike⟩

end TwoImages

end CodeCapsules.Store
