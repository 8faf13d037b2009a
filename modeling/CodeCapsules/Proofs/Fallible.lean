import CodeCapsules.Proofs.Erasure
import CodeCapsules.Proofs.Invariance

/-!
Contract: stores on devices that may refuse any call, reads included.

Owns:
- `Veils`, an archive that answers as another or refuses, and what is read,
  looked up and located through it;
- `Fallible`, devices whose archive veils the image behind them;
- `Action`, a call of a store or an invocation, and `Runs`, stores that follow
  one another by actions while the device changes its refusals at will.

Main statement: what a lookup or a search for the container answers through a
veil, it answers without the veil.
-/

namespace CodeCapsules.Flash

/-- The archive answers as the other does, or it refuses. -/
structure Archive.Veils (veiled plain : Archive) : Prop where
  fileCount : veiled.fileCount = plain.fileCount
  file : ∀ (index : Nat) (entry : Entry),
    veiled.file index = .ok entry → plain.file index = .ok entry
  readByte : ∀ (address : CodeAddress) (byte : UInt8),
    veiled.readByte address = .ok byte → plain.readByte address = .ok byte

namespace Archive.Veils

variable {veiled plain : Archive}

theorem refl (archive : Archive) : archive.Veils archive :=
  ⟨rfl, fun _ _ => id, fun _ _ => id⟩

theorem readWord (veils : veiled.Veils plain) {address : CodeAddress} {word : UInt16}
    (read : veiled.readWord address = .ok word) : plain.readWord address = .ok word := by
  obtain ⟨low, lowRead, read⟩ := Outcome.bind_eq_ok.mp read
  obtain ⟨sum, summed, read⟩ := Outcome.bind_eq_ok.mp read
  obtain ⟨high, highRead, read⟩ := Outcome.bind_eq_ok.mp read
  have plainLow := veils.readByte _ _ (Outcome.ofExcept_eq_ok.mp lowRead)
  have plainHigh := veils.readByte _ _ (Outcome.ofExcept_eq_ok.mp highRead)
  unfold Archive.readWord
  simp only [plainLow, summed, plainHigh, Outcome.ofExcept_ok, Outcome.bind_ok]
  exact read

theorem readFrom (veils : veiled.Veils plain) {address : CodeAddress} {index count : Nat}
    (read : (veiled.readFrom address index count).2 = .ok ()) :
    plain.readFrom address index count = veiled.readFrom address index count := by
  induction count generalizing index with
  | zero => rfl
  | succ count inductionHypothesis =>
      rw [Store.readFrom_succ] at read
      rw [Store.readFrom_succ, Store.readFrom_succ]
      cases first : (sum32 address.value index.toUInt32 >>= fun sum =>
          Outcome.ofExcept (veiled.readByte ⟨sum⟩) : Outcome Error UInt8) with
      | error stop =>
          rw [first] at read
          contradiction
      | ok byte =>
          rw [first] at read
          obtain ⟨sum, summed, readByte⟩ := Outcome.bind_eq_ok.mp first
          have plainByte := veils.readByte _ _ (Outcome.ofExcept_eq_ok.mp readByte)
          rw [inductionHypothesis read]
          simp only [summed, Outcome.bind_ok, plainByte, Outcome.ofExcept_ok]

theorem readBytes (veils : veiled.Veils plain) {address : CodeAddress} {count : Nat}
    {bytes : Bytes} (read : veiled.readBytes address count = .ok bytes) :
    plain.readBytes address count = .ok bytes := by
  have complete : (veiled.readFrom address 0 count).2 = .ok () := by
    unfold Archive.readBytes at read
    cases outcome : (veiled.readFrom address 0 count).2 with
    | ok done => rfl
    | error stop =>
        simp only [outcome] at read
        contradiction
  unfold Archive.readBytes
  rw [veils.readFrom complete]
  exact read

end Archive.Veils

/-- A device that passes each call on to the image behind it or refuses it,
reads included. -/
class Fallible (δ : Type) [Device δ] extends Backed δ where
  veils : ∀ device : δ, (Device.archive device).Veils (image device).archive

instance : Fallible Image where
  veils image := .refl image.archive

instance : Fallible FaultyDevice where
  veils device := by
    refine ⟨rfl, ?_, ?_⟩
    · intro index entry filed
      change (if index ∈ device.plan.files then _ else _) = _ at filed
      split at filed
      · contradiction
      · exact filed
    · intro address byte read
      change (if address.value ∈ device.plan.reads then _ else _) = _ at read
      split at read
      · contradiction
      · exact read

end CodeCapsules.Flash

namespace CodeCapsules.Store

open Flash (Archive Backed Device Fallible Image)

section Veiled

variable {veiled plain : Archive}

/-- A step of the walk is the one that the plain archive gives, or it ends the
walk with an error. -/
theorem next_of_veils (veils : veiled.Veils plain) (scan : Scan) :
    scan.next veiled = scan.next plain ∨
      ∃ stop, scan.next veiled = (some (.error stop), { scan with finished := true }) := by
  have readLength : ∀ length, scan.readLength veiled = .ok length →
      scan.readLength plain = .ok length := by
    intro length read
    obtain ⟨address, addressed, read⟩ := Outcome.bind_eq_ok.mp read
    unfold Scan.readLength
    rw [addressed, Outcome.bind_ok, veils.readWord (Outcome.mapCause_eq_ok.mp read)]
    rfl
  have readHash : ∀ hash, scan.readHash veiled = .ok hash → scan.readHash plain = .ok hash := by
    intro hash read
    obtain ⟨address, addressed, read⟩ := Outcome.bind_eq_ok.mp read
    obtain ⟨bytes, bytesRead, read⟩ := Outcome.bind_eq_ok.mp read
    unfold Scan.readHash
    rw [addressed, Outcome.bind_ok, veils.readBytes (Outcome.mapCause_eq_ok.mp bytesRead)]
    exact read
  unfold Scan.next
  simp only
  split
  · exact .inl rfl
  · cases length : scan.readLength veiled with
    | error stop => exact .inr ⟨stop, rfl⟩
    | ok length =>
        rw [readLength _ ‹_›]
        simp only
        split
        · exact .inl rfl
        · split
          · exact .inl rfl
          · split
            · exact .inl rfl
            · cases hash : scan.readHash veiled with
              | error stop => exact .inr ⟨stop, rfl⟩
              | ok hash =>
                  rw [readHash _ ‹_›]
                  exact .inl rfl

theorem next_of_veils_some {scan after : Scan} {record : Record} (veils : veiled.Veils plain)
    (stepped : scan.next veiled = (some (.ok record), after)) :
    scan.next plain = (some (.ok record), after) := by
  rcases next_of_veils veils scan with same | ⟨stop, failed⟩
  · rw [← same, stepped]
  · rw [failed] at stepped
    simp at stepped

theorem next_of_veils_none {scan after : Scan} (veils : veiled.Veils plain)
    (stepped : scan.next veiled = (none, after)) : scan.next plain = (none, after) := by
  rcases next_of_veils veils scan with same | ⟨stop, failed⟩
  · rw [← same, stepped]
  · rw [failed] at stepped
    simp at stepped

/-- What a lookup finds through a veil is there. -/
theorem find_of_veils (veils : veiled.Veils plain) {container : Container} {length : UInt16}
    {hash : Hash} {slot : Slot}
    (answered : (find veiled container length hash).outcome = .ok slot) :
    (find plain container length hash).outcome = .ok slot := by
  have searching : ∀ scan, (findFrom veiled length hash scan).outcome = .ok slot →
      (findFrom plain length hash scan).outcome = .ok slot := by
    intro scan
    fun_induction findFrom veiled length hash scan with
    | case1 scan after stepped =>
        intro found
        rw [findFrom_outcome, collect_of_next_none (next_of_veils_none veils stepped)]
        exact found
    | case2 scan stop after stepped =>
        intro found
        contradiction
    | case3 scan record after stepped describes =>
        intro found
        rw [findFrom_outcome, collect_of_next_some (next_of_veils_some veils stepped), searched,
          if_pos describes]
        exact found
    | case4 scan record after stepped differs rest inductionHypothesis =>
        intro found
        rw [findFrom_outcome, collect_of_next_some (next_of_veils_some veils stepped), searched,
          if_neg differs, ← findFrom_outcome]
        exact inductionHypothesis found
  exact searching _ answered

theorem locateFrom_of_veils (veils : veiled.Veils plain) {type : FileType} {index count : Nat}
    {found : Nat} (located : (locateFrom veiled type index count).outcome = .ok found) :
    (locateFrom plain type index count).outcome = .ok found := by
  induction count generalizing index with
  | zero => contradiction
  | succ count inductionHypothesis =>
      unfold locateFrom at located ⊢
      cases filed : veiled.file index with
      | error cause =>
          rw [filed] at located
          contradiction
      | ok entry =>
          rw [filed] at located
          rw [veils.file index entry filed]
          simp only at located ⊢
          split at located
          · rename_i matching
            rw [if_pos matching]
            exact located
          · rename_i other
            rw [if_neg other]
            exact inductionHypothesis located

/-- A container that is located through a veil is located without it. -/
theorem container_locate_of_veils (veils : veiled.Veils plain) {type : FileType}
    {container : Container}
    (located : (Container.locate veiled type).outcome = .ok container) :
    (Container.locate plain type).outcome = .ok container := by
  obtain ⟨found, filed⟩ := container_locate_eq_ok.mp located
  refine container_locate_eq_ok.mpr ⟨?_, veils.file _ _ filed⟩
  unfold locate at found ⊢
  rw [← veils.fileCount]
  exact locateFrom_of_veils veils found

end Veiled

/-! ## Runs -/

section Runs

variable {δ : Type} [Device δ]

/-- What can be done with an open store: a call, or an invocation on behalf of
any caller. -/
inductive Action where
  | perform (call : Call)
  | invoke (caller : Machine.Caller) (offset : Offset) (width : ReturnWidth)

namespace Action

/-- How an action ends, and the store it leaves. -/
def result (store : Store δ) : Action → Outcome Error Unit × Store δ
  | .perform call => ((call.perform.result store).1.map fun _ => (), (call.perform.result store).2)
  | .invoke caller offset width => (((store.invokeWidth offset width).result caller).1, store)

/-- Whether the action is an append. -/
def Appends : Action → Prop
  | .perform call => call.code?.isSome
  | .invoke _ _ _ => False

/-- An action leaves the store, appends to its device, or erases its
container. -/
theorem result_cases (action : Action) (store : Store δ) :
    (action.result store).2 = store ∨
      (∃ header code, (action.result store).2 =
        { store with device := ((append store.container header code).result store.device).2 }) ∨
      (¬ action.Appends ∧ ∃ generation, (action.result store).2 =
        { store with device := ((erase store.container).result store.device).2, generation }) := by
  cases action with
  | invoke caller offset width => exact .inl rfl
  | perform call =>
      rcases perform_cases call store with
        ⟨-, same | appended⟩ | ⟨rfl, -, erased⟩ | ⟨stop, rfl, -, refused⟩
      · exact .inl same
      · exact .inr (.inl appended)
      · exact .inr (.inr ⟨nofun, _, congrArg Prod.snd erased⟩)
      · exact .inr (.inr ⟨nofun, store.generation, congrArg Prod.snd refused⟩)

end Action

variable [Fallible δ] {admitted : Action → Prop} {store last : Store δ}

/-- A run of admitted actions from one store to another. Between two actions the
device may become another one before the same image, which refuses other
calls. -/
inductive Runs (admitted : Action → Prop) : Store δ → Store δ → Prop where
  | done (store : Store δ) : Runs admitted store store
  | act {store last : Store δ} (action : Action) (isAdmitted : admitted action)
      (rest : Runs admitted (action.result store).2 last) : Runs admitted store last
  | drift {store last : Store δ} (device : δ)
      (same : Backed.image device = Backed.image store.device)
      (rest : Runs admitted { store with device } last) : Runs admitted store last

/-- What every admitted action keeps of the container and the image behind the
device holds at the end of a run. -/
theorem Runs.keeps (kept : Container → Image → Prop) (ran : Runs admitted store last)
    (step : ∀ (store : Store δ) (action : Action), admitted action →
      kept store.container (Backed.image store.device) →
      kept (action.result store).2.container (Backed.image (action.result store).2.device))
    (initially : kept store.container (Backed.image store.device)) :
    kept last.container (Backed.image last.device) := by
  induction ran with
  | done store => exact initially
  | act action isAdmitted rest inductionHypothesis =>
      exact inductionHypothesis (step _ action isAdmitted initially)
  | drift device same rest inductionHypothesis =>
      apply inductionHypothesis
      rw [same]
      exact initially

end Runs

end CodeCapsules.Store
