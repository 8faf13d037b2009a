import CodeCapsules.Proofs.Clearing
import Mathlib.Algebra.Group.Nat.Defs

/-!
Contract: a handle that a store accepts still stands for the record that it was
issued for.

Owns:
- `Stands`, a store whose device can be read, and which holds its container;
- `erasures`, how many erases of a run succeed, and the generation after it;
- `Untorn`, a run without an erase that is refused after its mark is written;
- the step lemma: a call that does not erase keeps every capsule where it is.

Main statements: on an image, a handle is accepted exactly until the next erase
succeeds, and its record is untouched until then. On a device that refuses
calls, an accepted handle designates its record unless an erase was torn.
-/

namespace CodeCapsules.Store

open Flash (Backed Device FaultPlan FaultyDevice Image Keeps Legible WriteSession)

/-! ## Handles -/

theorem checkHandle_eq_ok {δ : Type} {store : Store δ} {handle : Handle} {offset : Offset} :
    store.checkHandle handle = .ok offset ↔
      handle.generation = store.generation ∧ offset = handle.offset := by
  unfold checkHandle
  by_cases current : handle.generation = store.generation
  · simp [current, eq_comm]
  · simp [current, Outcome.refuse]

theorem lookup_eq_found {δ : Type} [Device δ] {store : Store δ} {length : UInt16} {hash : Hash}
    {handle : Handle} :
    (store.lookup length hash).outcome = .ok (.found handle) ↔
      (find store.archive store.container length hash).outcome = .ok (.found handle.offset) ∧
        handle.generation = store.generation := by
  unfold Store.lookup Store.findSlot
  rw [Logged.outcome_bind]
  cases (find store.archive store.container length hash).outcome with
  | error stop => simp
  | ok slot =>
      rw [Outcome.bind_ok]
      show Except.ok (Lookup.ofSlot store.generation slot) = _ ↔ _
      cases slot with
      | free offset => simp [Lookup.ofSlot]
      | found offset =>
          obtain ⟨handleOffset, handleGeneration⟩ := handle
          simp [Lookup.ofSlot, eq_comm]

/-! ## Erases of a run -/

section Erasures

variable {δ : Type} [Device δ]

theorem perform_erase (store : Store δ) :
    (Call.erase.perform.result store).2 = (clear.result store).2 := by
  simp only [Call.perform, Operation.result_map]

/-- How many erases of a run succeed. -/
def erasures (calls : List Call) (store : Store δ) : Nat :=
  (trace (fun call => call.perform.result) calls store).countP fun entry =>
    entry.1 = .ok .erased

theorem erasures_cons (call : Call) (rest : List Call) (store : Store δ) :
    erasures (call :: rest) store =
      erasures rest (call.perform.result store).2 +
        if (call.perform.result store).1 = .ok .erased then 1 else 0 := by
  simp [erasures, trace, List.countP_cons]

/-- Each erase that succeeds advances the generation by one, and nothing else
changes it. -/
theorem generation_perform (call : Call) (store : Store δ) :
    (call.perform.result store).2.generation.value = store.generation.value +
      if (call.perform.result store).1 = .ok .erased then 1 else 0 := by
  rcases perform_cases call store with
    ⟨unlike, same | ⟨header, code, appended⟩⟩ | ⟨-, -, erased⟩ | ⟨stop, -, -, refused⟩
  · rw [if_neg unlike, same, UInt32.add_zero]
  · rw [if_neg unlike, appended, UInt32.add_zero]
  · rw [erased, if_pos rfl]
    rfl
  · rw [refused, if_neg (by simp), UInt32.add_zero]

theorem add_toUInt32_succ (value : UInt32) (count : Nat) :
    value + 1 + count.toUInt32 = value + (count + 1).toUInt32 := by
  show _ = value + UInt32.ofNat (count + 1)
  rw [UInt32.ofNat_add, UInt32.add_assoc, UInt32.add_comm 1]
  rfl

theorem generation_after (calls : List Call) (store : Store δ) :
    (after calls store).generation.value =
      store.generation.value + (erasures calls store).toUInt32 := by
  induction calls generalizing store with
  | nil => exact (UInt32.add_zero _).symm
  | cons call rest inductionHypothesis =>
      rw [after_cons, inductionHypothesis, generation_perform, erasures_cons]
      by_cases erased : (call.perform.result store).1 = .ok .erased
      · rw [if_pos erased, if_pos erased]
        exact add_toUInt32_succ _ _
      · rw [if_neg erased, if_neg erased, UInt32.add_zero, Nat.add_zero]

/-- With fewer erases than there are generations, a handle of the first
generation is accepted exactly if there was none. -/
theorem accepted_iff_no_erasure {calls : List Call} {store : Store δ} {handle : Handle}
    (issued : handle.generation = store.generation) (few : erasures calls store < 2 ^ 32) :
    (∃ offset, (after calls store).checkHandle handle = .ok offset) ↔
      erasures calls store = 0 := by
  have generation := generation_after calls store
  constructor
  · rintro ⟨offset, accepted⟩
    have current := congrArg Generation.value (checkHandle_eq_ok.mp accepted).1
    rw [issued, generation] at current
    -- The generation is back at the first, and too few erases succeeded for a round.
    have zero : (erasures calls store).toUInt32 = 0 :=
      (UInt32.add_right_inj _).mp (current.symm.trans (UInt32.add_zero _).symm)
    have zeroNat := congrArg UInt32.toNat zero
    rw [UInt32.toNat_ofNat', Nat.mod_eq_of_lt few] at zeroNat
    exact zeroNat
  · intro none
    rw [none] at generation
    refine ⟨handle.offset, checkHandle_eq_ok.mpr ⟨?_, rfl⟩⟩
    rw [issued]
    exact (congrArg Generation.mk (generation.trans (UInt32.add_zero _))).symm

/-- No erase of the run is torn. -/
def Untorn : List Call → Store δ → Prop
  | [], _ => True
  | call :: rest, store =>
      (call = .erase → ¬ Torn store) ∧ Untorn rest (call.perform.result store).2

end Erasures

/-- What is left behind an append lists all capsules from before, and at most
one more. -/
theorem spells_of_leaves {δ : Type} [Device δ] [Backed δ] {container : Container}
    {header : Header} {code : Bytes} {device : δ} {accepted : List Bytes}
    {capsules : List Capsule}
    (leaves : Leaves container header code device
      ((append container header code).result device).2 accepted)
    (spelled : Spells ((Backed.image device).region container.entry) container.firstPlace
      capsules) :
    Spells ((Backed.image ((append container header code).result device).2).region
      container.entry) container.firstPlace capsules := by
  rcases leaves with ⟨-, memory, -⟩ | ⟨all, capsule, sent, -, leftover⟩
  · have origin : (Backed.image ((append container header code).result device).2).origin =
        (Backed.image device).origin := by
      have keeps : Keeps fun image : Image => image.origin = (Backed.image device).origin :=
        Flash.Image.keeps_of_layout fun _ _ _ _ same => same
      exact keeps_append keeps.behind container header code device rfl
    unfold Flash.Image.region Flash.Image.regionStart at spelled ⊢
    rw [memory, origin]
    exact spelled
  · have begins := leftover.contained.begins spelled
    exact leftover.spelled.of_begins (begins.trans (List.prefix_append all [capsule]))

/-! ## Stores that keep standing -/

section Standing

variable {δ : Type} [Device δ] [Legible δ]

/-- The device of the store can be read, and the image behind it holds the
container. -/
structure Stands (container : Container) (store : Store δ) : Prop where
  located : store.container = container
  mounted : (Backed.image store.device).Mounts container.index container.entry
  readable : Legible.Readable store.device

variable {container : Container} {store : Store δ}

theorem stands_of_start {device : δ} {config : Config}
    (valid : (Backed.image device).validate = .ok ())
    (addressable : (Backed.image device).memoryEnd < UInt32.size)
    (readable : Legible.Readable device) (opened : (start device config).outcome = .ok store) :
    Stands store.container store := by
  obtain ⟨located, storeEq⟩ := eq_of_start opened
  rw [Legible.archive_eq device readable] at located
  refine ⟨rfl, ?_, ?_⟩
  · rw [storeEq]
    exact mounts_of_locate valid addressable located
  · rw [storeEq]
    exact readable

theorem Stands.after (stands : Stands container store) (calls : List Call) :
    Stands container (after calls store) := by
  have keeps : Keeps fun device : δ =>
      (Backed.image device).Mounts container.index container.entry ∧ Legible.Readable device :=
    (Flash.Image.keeps_mounts _ _).behind.and Legible.keeps_readable
  obtain ⟨containerEq, mounted, readable⟩ :=
    keeps_after keeps calls store ⟨stands.mounted, stands.readable⟩
  exact ⟨containerEq.trans stands.located, mounted, readable⟩

theorem Stands.perform (stands : Stands container store) (call : Call) :
    Stands container (call.perform.result store).2 :=
  stands.after [call]

/-- The bytes of the container. -/
abbrev heldBytes (container : Container) (store : Store δ) : Bytes :=
  (Backed.image store.device).region container.entry

theorem Stands.shows (stands : Stands container store) :
    Shows store.archive container (heldBytes container store) := by
  unfold Store.archive
  rw [Legible.archive_eq store.device stands.readable]
  exact shows_region stands.mounted.holds stands.mounted.addressable

/-- An append leaves every capsule of the container where it is. -/
theorem Stands.spells_appended (stands : Stands container store) (header : Header) (code : Bytes)
    {capsules : List Capsule}
    (spelled : Spells (heldBytes container store) container.firstPlace capsules) :
    Spells ((Backed.image ((append container header code).result store.device).2).region
      container.entry) container.firstPlace capsules :=
  spells_of_leaves (leaves_append stands.mounted
    (Legible.archive_eq store.device stands.readable) header code) spelled

/-- A call that erases nothing leaves every capsule where it is, unless it is an
erase that is torn. -/
theorem Stands.spells_perform (stands : Stands container store) (call : Call)
    (whole : call = .erase → ¬ Torn store)
    (kept : (call.perform.result store).1 ≠ .ok .erased) {capsules : List Capsule}
    (spelled : Spells (heldBytes container store) container.firstPlace capsules) :
    Spells (heldBytes container (call.perform.result store).2) container.firstPlace capsules := by
  rcases perform_cases call store with
    ⟨-, same | ⟨header, code, appended⟩⟩ | ⟨-, -, erased⟩ | ⟨stop, isErase, outcome, refused⟩
  · rw [same]
    exact spelled
  · rw [appended, stands.located]
    exact stands.spells_appended header code spelled
  · exact absurd (congrArg Prod.fst erased) kept
  · rw [refused]
    rw [stands.located] at outcome ⊢
    -- With the whole mark written, the refused erase would be torn.
    have unreached : WriteSession.reached container.index 0 [eraseMark] store.device ≠
        [eraseMark] := by
      intro reached
      refine whole isErase ⟨⟨stop, clear_eq_error.mpr ?_⟩, ?_⟩
      · rw [stands.located]
        exact outcome
      · rw [stands.located]
        exact reached
    rcases erase_cases stands.mounted with ⟨accepted, -⟩ | ⟨_, -, ⟨-, cursor, left⟩ | ⟨reached, -⟩⟩
    · rw [accepted] at outcome
      contradiction
    · show Spells ((Backed.image ((erase container).result store.device).2).region _) _ _
      rw [left]
      exact spelled
    · exact absurd reached unreached

/-- A run in which no erase succeeds and none is torn leaves every capsule where
it is. -/
theorem Stands.spells_after (stands : Stands container store) (calls : List Call)
    (untorn : Untorn calls store) (none : erasures calls store = 0) {capsules : List Capsule}
    (spelled : Spells (heldBytes container store) container.firstPlace capsules) :
    Spells (heldBytes container (Store.after calls store)) container.firstPlace capsules := by
  induction calls generalizing store with
  | nil => exact spelled
  | cons call rest inductionHypothesis =>
      rw [erasures_cons] at none
      have kept : (call.perform.result store).1 ≠ .ok .erased := by
        intro erased
        rw [if_pos erased] at none
        omega
      rw [if_neg kept] at none
      exact inductionHypothesis (stands.perform call) untorn.2 none
        (stands.spells_perform call untorn.1 kept spelled)

/-- What a handle stands for: the first capsule with its header, behind others
with other headers. -/
structure Denotes (container : Container) (bytes : Bytes) (offset : Offset)
    (capsules : List Capsule) (capsule : Capsule) : Prop where
  spelled : Spells bytes container.firstPlace (capsules ++ [capsule])
  fresh : ∀ other ∈ capsules, other.header ≠ capsule.header
  offset : offset = ⟨(container.firstPlace + totalSize capsules).toUInt16⟩

theorem Stands.denotes (stands : Stands container store) {length : UInt16} {hash : Hash}
    {handle : Handle} (issued : (store.lookup length hash).outcome = .ok (.found handle)) :
    ∃ capsules capsule, capsule.header = ⟨length, hash⟩ ∧
      Denotes container (heldBytes container store) handle.offset capsules capsule := by
  have found := (lookup_eq_found.mp issued).1
  rw [stands.located] at found
  obtain ⟨capsules, capsule, spelled, headed, fresh, offset⟩ :=
    spells_of_find_found stands.shows found
  exact ⟨capsules, capsule, headed, spelled, fresh, offset⟩

/-- The bytes at an offset, as the device answers them: a header, and the code
that the header announces. -/
structure ReadsAt (store : Store δ) (offset : Offset) (header : Header) (code : Bytes) : Prop where
  sized : header.length.toNat = headerSize + code.length
  headed : ∃ address, (store.container.addressOf offset.value.toNat : Outcome Error CodeAddress) =
    .ok address ∧ store.archive.readBytes address headerSize = .ok header.encode
  coded : ∃ address, store.codeAddress offset = .ok address ∧
    store.archive.readBytes address code.length = .ok code

section Denoted

variable {offset : Offset} {capsules : List Capsule} {capsule : Capsule}

theorem Stands.toNat_offset (stands : Stands container store)
    (denotes : Denotes container (heldBytes container store) offset capsules capsule) :
    offset.value.toNat = container.firstPlace + totalSize capsules := by
  rw [denotes.offset]
  exact toNat_toUInt16 (stands.shows.finish_lt (spells_append.mp denotes.spelled).1)

theorem Stands.readsAt (stands : Stands container store)
    (denotes : Denotes container (heldBytes container store) offset capsules capsule) :
    ReadsAt store offset capsule.header capsule.code := by
  have shows := stands.shows
  have standing := (spells_append.mp denotes.spelled).2
  have fits := standing.capsule_fits
  have covered := capsule.headerSize_le_size
  have dropped := standing.drop_eq
  rw [← stands.toNat_offset denotes] at fits dropped
  have codeStanding : capsule.code <+:
      (heldBytes container store).drop (offset.value.toNat + headerSize) := by
    rw [← List.drop_drop, dropped, ← Header.length_encode capsule.header, List.drop_left]
    exact List.prefix_append _ _
  have header := readBytes_eq shows offset.value.toNat capsule.header.encode
    (by rw [dropped]; exact List.prefix_append _ _)
  have code := readBytes_eq shows (offset.value.toNat + headerSize) capsule.code codeStanding
  have headerAt := shows.addressOf (ε := Error) offset.value.toNat (by omega)
  have codeAt := shows.addressOf (ε := Error) (offset.value.toNat + headerSize) (by omega)
  rw [Header.length_encode] at header
  rw [← stands.located] at header code headerAt codeAt
  exact ⟨capsule.sized, ⟨_, headerAt, header⟩, ⟨_, codeAt, code⟩⟩

theorem Stands.find_denoted (stands : Stands container store)
    (denotes : Denotes container (heldBytes container store) offset capsules capsule) :
    (find store.archive store.container capsule.header.length capsule.header.hash).outcome =
      .ok (.found offset) := by
  rw [stands.located, denotes.offset]
  exact find_of_spells_fresh stands.shows denotes.spelled denotes.fresh

theorem Stands.walked_denoted (stands : Stands container store)
    (denotes : Denotes container (heldBytes container store) offset capsules capsule) :
    .ok ⟨offset, capsule.header⟩ ∈ (walked container store.device).1 := by
  have shows := shows_region stands.mounted.holds stands.mounted.addressable
  show _ ∈ ((walkAt container container.firstPlace).collect _).1
  rw [collect_of_spells shows denotes.spelled, recordsAt_append, denotes.offset]
  simp [recordsAt]

theorem Stands.denotes_after (stands : Stands container store) {calls : List Call}
    (untorn : Untorn calls store) (none : erasures calls store = 0)
    (denotes : Denotes container (heldBytes container store) offset capsules capsule) :
    Denotes container (heldBytes container (Store.after calls store)) offset capsules capsule :=
  ⟨stands.spells_after calls untorn none denotes.spelled, denotes.fresh, denotes.offset⟩

end Denoted

end Standing

/-! ## On an image -/

theorem Stands.untorn {container : Container} {store : Store Image}
    (stands : Stands container store) (calls : List Call) : Untorn calls store := by
  induction calls generalizing store with
  | nil => trivial
  | cons call rest inductionHypothesis =>
      refine ⟨fun _ => not_torn_image ?_, inductionHypothesis (stands.perform call)⟩
      rw [stands.located]
      exact stands.mounted

/-- A handle is accepted as long as no erase has succeeded since it was issued,
and no longer. As long as it is accepted, its header and its code are read as
they were, and looking them up issues the same handle. -/
theorem handle_accepted_until_erase (image : Image) (config : Config) (store : Store Image)
    (valid : image.validate = .ok ()) (addressable : image.memoryEnd < UInt32.size)
    (opened : (start image config).outcome = .ok store) (before between : List Call)
    (length : UInt16) (hash : Hash) (handle : Handle)
    (issued : ((after before store).lookup length hash).outcome = .ok (.found handle))
    (few : erasures between (after before store) < 2 ^ 32) :
    ((∃ offset, (after (before ++ between) store).checkHandle handle = .ok offset) ↔
        erasures between (after before store) = 0) ∧
      ∃ code, ReadsAt (after before store) handle.offset ⟨length, hash⟩ code ∧
        ∀ offset, (after (before ++ between) store).checkHandle handle = .ok offset →
          offset = handle.offset ∧
            ReadsAt (after (before ++ between) store) offset ⟨length, hash⟩ code ∧
            ((after (before ++ between) store).lookup length hash).outcome =
              .ok (.found handle) := by
  have stands : Stands store.container (after before store) :=
    (stands_of_start valid addressable trivial opened).after before
  obtain ⟨-, generation⟩ := lookup_eq_found.mp issued
  obtain ⟨capsules, capsule, headed, denotes⟩ := stands.denotes issued
  have accepted := accepted_iff_no_erasure generation few
  have atIssue := stands.readsAt denotes
  rw [headed] at atIssue
  rw [after_append]
  refine ⟨accepted, capsule.code, atIssue, ?_⟩
  intro offset checked
  have none := accepted.mp ⟨offset, checked⟩
  obtain ⟨current, offsetEq⟩ := checkHandle_eq_ok.mp checked
  have denotesNow := stands.denotes_after (stands.untorn between) none denotes
  have found := (stands.after between).find_denoted denotesNow
  have reads := (stands.after between).readsAt denotesNow
  rw [headed] at found reads
  refine ⟨offsetEq, ?_, lookup_eq_found.mpr ⟨found, current⟩⟩
  rw [offsetEq]
  exact reads

/-- A capsule that is stored, and one for which there is no room. -/
def vainCalls : List Call :=
  [.appendCode ⟨5, 6, 7, 8⟩ [1, 2, 3, 4], .appendCode ⟨1, 2, 3, 4⟩ [0x08, 0x95]]

theorem handle_accepted_until_erase_at_odd_base :
    oddImage.validate = .ok () ∧ oddImage.memoryEnd < UInt32.size ∧
      (start oddImage .standard).outcome = .ok oddStore ∧
      ((after oddCalls oddStore).lookup 10 ⟨5, 6, 7, 8⟩).outcome = .ok (.found ⟨⟨1⟩, ⟨1⟩⟩) ∧
      erasures oddCalls (after oddCalls oddStore) = 1 ∧
      (¬ ∃ offset, (after (oddCalls ++ oddCalls) oddStore).checkHandle ⟨⟨1⟩, ⟨1⟩⟩ =
        .ok offset) ∧
      erasures vainCalls (after oddCalls oddStore) = 0 ∧
      ((after (oddCalls ++ vainCalls) oddStore).lookup 10 ⟨5, 6, 7, 8⟩).outcome =
        .ok (.found ⟨⟨1⟩, ⟨1⟩⟩) := by
  have valid : oddImage.validate = .ok () := by decide
  have addressable : oddImage.memoryEnd < UInt32.size := by decide
  have opened : (start oddImage .standard).outcome = .ok oddStore := by rfl
  have issued : ((after oddCalls oddStore).lookup 10 ⟨5, 6, 7, 8⟩).outcome =
      .ok (.found ⟨⟨1⟩, ⟨1⟩⟩) := by decide +kernel
  have once : erasures oddCalls (after oddCalls oddStore) = 1 := by decide +kernel
  have none : erasures vainCalls (after oddCalls oddStore) = 0 := by decide +kernel
  have stale := (handle_accepted_until_erase oddImage .standard oddStore valid addressable opened
    oddCalls oddCalls 10 ⟨5, 6, 7, 8⟩ ⟨⟨1⟩, ⟨1⟩⟩ issued (by omega)).1
  obtain ⟨accepted, code, -, kept⟩ := handle_accepted_until_erase oddImage .standard oddStore
    valid addressable opened oddCalls vainCalls 10 ⟨5, 6, 7, 8⟩ ⟨⟨1⟩, ⟨1⟩⟩ issued (by omega)
  obtain ⟨offset, checked⟩ := accepted.mpr none
  refine ⟨valid, addressable, opened, issued, once, ?_, none, (kept offset checked).2.2⟩
  rw [stale, once]
  decide

/-! ## On a device that refuses calls -/

section Refusals

variable {δ : Type} [Device δ] [Legible δ] {container : Container} {store : Store δ}

/-- What an erase that is refused leaves: the memory and the walk as they were,
or, if it is torn, an empty container and an open session. -/
theorem Stands.refused_clear (stands : Stands container store) {stop : Stop Error}
    (refused : (clear.result store).1 = .error stop) :
    (clear.result store).2.generation = store.generation ∧
      ((¬ Torn store ∧
          (Backed.image (clear.result store).2.device).memory =
            (Backed.image store.device).memory ∧
          walked container (clear.result store).2.device = walked container store.device) ∨
        (Torn store ∧ (Backed.image (clear.result store).2.device).sessionOpen = true ∧
          (walked container (clear.result store).2.device).1 = [])) := by
  have torn : Torn store ↔
      WriteSession.reached container.index 0 [eraseMark] store.device = [eraseMark] := by
    unfold Torn
    rw [stands.located]
    exact ⟨And.right, fun reached => ⟨⟨stop, refused⟩, reached⟩⟩
  have mountedAfter := (stands.perform .erase).mounted
  rw [perform_erase] at mountedAfter
  have stopped := clear_eq_error.mp refused
  rw [stands.located] at stopped
  have left : (clear.result store).2 =
      { store with device := ((erase container).result store.device).2 } := by
    rw [result_clear, stands.located]
    generalize (erase container).result store.device = ended at stopped ⊢
    obtain ⟨answer, device⟩ := ended
    simp only at stopped
    rw [stopped]
  rw [left] at mountedAfter ⊢
  refine ⟨rfl, ?_⟩
  rw [torn]
  rcases erase_cases stands.mounted with
    ⟨accepted, -⟩ | ⟨_, -, ⟨unreached, cursor, image⟩ | ⟨reached, sessionOpen, contained⟩⟩
  · rw [accepted] at stopped
    contradiction
  · left
    refine ⟨by rw [unreached]; simp, by rw [image], ?_⟩
    unfold walked
    rw [image]
    rfl
  · right
    refine ⟨reached, sessionOpen, ?_⟩
    rw [walked_of_contains mountedAfter contained]
    rfl

/-- On a device that refuses whatever it likes, an erase that is refused keeps
the generation, and the walk as well unless the mark was written and only the
close refused. So a handle that is accepted designates a record with its header,
unless since it was issued an erase was torn or the generations came round. -/
theorem accepted_handle_designates_record (device : δ) (config : Config) (store : Store δ)
    (valid : (Backed.image device).validate = .ok ())
    (addressable : (Backed.image device).memoryEnd < UInt32.size)
    (readable : Legible.Readable device) (opened : (start device config).outcome = .ok store) :
    (∀ (calls : List Call) (stop : Stop Error),
      (clear.result (after calls store)).1 = .error stop →
        (clear.result (after calls store)).2.generation = (after calls store).generation ∧
        ((¬ Torn (after calls store) ∧
            (Backed.image (clear.result (after calls store)).2.device).memory =
              (Backed.image (after calls store).device).memory ∧
            walked store.container (clear.result (after calls store)).2.device =
              walked store.container (after calls store).device) ∨
          (Torn (after calls store) ∧
            (Backed.image (clear.result (after calls store)).2.device).sessionOpen = true ∧
            (walked store.container (clear.result (after calls store)).2.device).1 = []))) ∧
    ∀ (before between : List Call) (length : UInt16) (hash : Hash) (handle : Handle)
      (offset : Offset),
      ((after before store).lookup length hash).outcome = .ok (.found handle) →
        Untorn between (after before store) → erasures between (after before store) < 2 ^ 32 →
        (after (before ++ between) store).checkHandle handle = .ok offset →
          .ok ⟨offset, ⟨length, hash⟩⟩ ∈
            (walked store.container (after (before ++ between) store).device).1 := by
  have stands := stands_of_start valid addressable readable opened
  constructor
  · intro calls stop refused
    exact (stands.after calls).refused_clear refused
  · intro before between length hash handle offset issued untorn few checked
    have standsThen := stands.after before
    rw [after_append] at checked ⊢
    obtain ⟨-, generation⟩ := lookup_eq_found.mp issued
    obtain ⟨capsules, capsule, headed, denotes⟩ := standsThen.denotes issued
    have none := (accepted_iff_no_erasure generation few).mp ⟨offset, checked⟩
    rw [(checkHandle_eq_ok.mp checked).2, ← headed]
    exact (standsThen.after between).walked_denoted
      (standsThen.denotes_after untorn none denotes)

end Refusals

/-- The store on `oddImage` behind a device with this plan. -/
def plannedStore (plan : FaultPlan) : Store FaultyDevice :=
  ⟨.start oddImage plan, .standard, oddContainer, .initial⟩

/-- The first open is refused. -/
def firstOpen : FaultPlan := { FaultPlan.none with opens := [1] }

/-- The first close is refused. -/
def firstClose : FaultPlan := { FaultPlan.none with closes := [1] }

theorem accepted_handle_behind_refused_open :
    (Backed.image (FaultyDevice.start oddImage firstOpen)).validate = .ok () ∧
      (Backed.image (FaultyDevice.start oddImage firstOpen)).memoryEnd < UInt32.size ∧
      Legible.Readable (FaultyDevice.start oddImage firstOpen) ∧
      (start (FaultyDevice.start oddImage firstOpen) .standard).outcome =
        .ok (plannedStore firstOpen) ∧
      (clear.result (plannedStore firstOpen)).1 =
        Outcome.refuse (.flash (.serialization (.injected .open))) ∧
      walked oddContainer (clear.result (plannedStore firstOpen)).2.device =
        walked oddContainer (plannedStore firstOpen).device ∧
      ((plannedStore firstOpen).lookup 8 ⟨1, 2, 3, 4⟩).outcome =
        .ok (.found ⟨⟨1⟩, .initial⟩) ∧
      Untorn [.erase] (plannedStore firstOpen) ∧ erasures [.erase] (plannedStore firstOpen) = 0 ∧
      (after [.erase] (plannedStore firstOpen)).checkHandle ⟨⟨1⟩, .initial⟩ = .ok ⟨1⟩ ∧
      .ok ⟨⟨1⟩, ⟨8, ⟨1, 2, 3, 4⟩⟩⟩ ∈
        (walked oddContainer (after [.erase] (plannedStore firstOpen)).device).1 := by
  have valid : (Backed.image (FaultyDevice.start oddImage firstOpen)).validate = .ok () := by
    decide
  have addressable : (Backed.image (FaultyDevice.start oddImage firstOpen)).memoryEnd <
      UInt32.size := by decide
  have readable : Legible.Readable (FaultyDevice.start oddImage firstOpen) := ⟨rfl, rfl⟩
  have opened : (start (FaultyDevice.start oddImage firstOpen) .standard).outcome =
      .ok (plannedStore firstOpen) := by rfl
  have refused : (clear.result (plannedStore firstOpen)).1 =
      Outcome.refuse (.flash (.serialization (.injected .open))) := by decide +kernel
  have issued : ((plannedStore firstOpen).lookup 8 ⟨1, 2, 3, 4⟩).outcome =
      .ok (.found ⟨⟨1⟩, .initial⟩) := by decide +kernel
  have whole : ¬ Torn (plannedStore firstOpen) := by
    rintro ⟨-, reached⟩
    have unreached : WriteSession.reached (plannedStore firstOpen).container.index 0 [eraseMark]
        (plannedStore firstOpen).device = [] := by decide +kernel
    rw [unreached] at reached
    contradiction
  have untorn : Untorn [.erase] (plannedStore firstOpen) := ⟨fun _ => whole, trivial⟩
  have none : erasures [.erase] (plannedStore firstOpen) = 0 := by decide +kernel
  have checked : (after [.erase] (plannedStore firstOpen)).checkHandle ⟨⟨1⟩, .initial⟩ =
      .ok ⟨1⟩ := by decide +kernel
  obtain ⟨clears, designates⟩ := accepted_handle_designates_record
    (FaultyDevice.start oddImage firstOpen) .standard (plannedStore firstOpen) valid addressable
    readable opened
  have designated := designates [] [.erase] 8 ⟨1, 2, 3, 4⟩ ⟨⟨1⟩, .initial⟩ ⟨1⟩ issued untorn
    (by rw [after_nil, none]; decide) checked
  rcases (clears [] _ refused).2 with ⟨-, -, same⟩ | ⟨torn, -⟩
  · exact ⟨valid, addressable, readable, opened, refused, same, issued, untorn, none, checked,
      designated⟩
  · exact absurd torn whole

theorem Rests.represents_erases {container : Container} {memoryEnd : Nat} {store : Store Image}
    (rests : Rests container memoryEnd store) (room : eraseMark.length ≤ container.capacity)
    (count : Nat) :
    Represents container memoryEnd (after (List.replicate (count + 1) .erase) store)
      ⟨[], ⟨store.generation.value + (count + 1).toUInt32⟩⟩ := by
  induction count generalizing store with
  | zero =>
      have cleared := (rests.clear room).2
      rw [List.replicate_succ, after_cons, perform_erase]
      exact cleared
  | succ count inductionHypothesis =>
      have cleared := (rests.clear room).2
      have next := inductionHypothesis cleared.toRests
      rw [cleared.generation] at next
      have generation : store.generation.next.value + (count + 1).toUInt32 =
          store.generation.value + (count + 1 + 1).toUInt32 := add_toUInt32_succ _ _
      rw [generation] at next
      rw [List.replicate_succ, after_cons, perform_erase]
      exact next

/-- As many erases as there are generations lead back to the first of them,
with nothing in the container. -/
theorem Rests.exists_round {container : Container} {memoryEnd : Nat} {store : Store Image}
    (rests : Rests container memoryEnd store) (room : eraseMark.length ≤ container.capacity) :
    ∃ calls, Represents container memoryEnd (after calls store) ⟨[], store.generation⟩ := by
  -- The number stays a variable, so that nothing unfolds a list of this length.
  obtain ⟨count, countEq⟩ : ∃ count : Nat, count + 1 = 2 ^ 32 := ⟨2 ^ 32 - 1, by decide⟩
  have round := rests.represents_erases room count
  have wraps : store.generation.value + (count + 1).toUInt32 = store.generation.value := by
    rw [countEq]
    exact UInt32.add_zero _
  rw [wraps] at round
  exact ⟨_, round⟩

/-- An erase whose close is refused fails and keeps the generation, but leaves
nothing in the container: a handle from before is accepted, and stands for no
record. On an image that refuses nothing, the same happens after as many erases
as there are generations. -/
theorem refused_close_leaves_live_handle :
    ((Backed.image (FaultyDevice.start oddImage firstClose)).validate = .ok () ∧
      (Backed.image (FaultyDevice.start oddImage firstClose)).memoryEnd < UInt32.size ∧
      Legible.Readable (FaultyDevice.start oddImage firstClose) ∧
      (start (FaultyDevice.start oddImage firstClose) .standard).outcome =
        .ok (plannedStore firstClose) ∧
      ((plannedStore firstClose).lookup 8 ⟨1, 2, 3, 4⟩).outcome =
        .ok (.found ⟨⟨1⟩, .initial⟩) ∧
      (walked oddContainer (plannedStore firstClose).device).1 =
        [.ok ⟨⟨1⟩, ⟨8, ⟨1, 2, 3, 4⟩⟩⟩] ∧
      (clear.result (plannedStore firstClose)).1 =
        Outcome.refuse (.flash (.serialization (.injected .close))) ∧
      (after [.erase] (plannedStore firstClose)).checkHandle ⟨⟨1⟩, .initial⟩ = .ok ⟨1⟩ ∧
      (walked oddContainer (after [.erase] (plannedStore firstClose)).device).1 = []) ∧
    ((oddStore.lookup 8 ⟨1, 2, 3, 4⟩).outcome = .ok (.found ⟨⟨1⟩, .initial⟩) ∧
      ∃ calls : List Call, (after calls oddStore).checkHandle ⟨⟨1⟩, .initial⟩ = .ok ⟨1⟩ ∧
        (walked oddContainer (after calls oddStore).device).1 = []) := by
  have rests : Rests oddContainer oddImage.memoryEnd oddStore :=
    ⟨rfl, rfl, ⟨rfl, by decide, by decide⟩, rfl⟩
  obtain ⟨calls, round⟩ := rests.exists_round (by decide)
  refine ⟨⟨by decide, by decide, ⟨rfl, rfl⟩, by rfl, by decide +kernel, by decide +kernel,
    by decide +kernel, by decide +kernel, by decide +kernel⟩, by decide +kernel, calls, ?_, ?_⟩
  · exact checkHandle_eq_ok.mpr ⟨round.generation.symm, rfl⟩
  · rw [walked_of_contains round.mounted round.contained]
    rfl

end CodeCapsules.Store
