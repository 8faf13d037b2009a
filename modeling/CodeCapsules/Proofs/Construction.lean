import CodeCapsules.Proofs.Layout
import Mathlib.Data.List.Forall2

/-!
Contract: the image that a builder makes of the parts it is given.

Owns:
- `Part`, one request to a builder, and the image of a list of them;
- the table and the bytes of a list of parts, as functions of the parts;
- `Keeps`, a file of the table with the type, the size and the contents it was
  given;
- a layout as a list of parts.

Main statement: parts that end at an address are placed. Every file is in the
table, in the order given, with its contents, no two share a byte, and bytes of
no file are erased. A layout that ends at an address is built exactly if its
capacity is one a container can have, and then its files stand back to back,
with at most one erased byte ahead of the container.

Does not own: parts that go beyond the addresses.
-/

namespace CodeCapsules.Flash

/-- The byte at the address belongs to the file. -/
def Entry.Owns (entry : Entry) (address : Nat) : Prop :=
  entry.base.value.toNat ≤ address ∧ address < entry.base.value.toNat + entry.size.toNat

/-- Files that stand back to back from one address to another. -/
def Adjoin (start finish : Nat) : List Entry → Prop
  | [] => start = finish
  | entry :: rest => entry.base.value.toNat = start ∧ Adjoin (start + entry.size.toNat) finish rest

/-- What a file is given. -/
structure Filing where
  type : FileType
  contents : Bytes
deriving DecidableEq, Repr

/-- The entry has what the file was given, and memory has its contents. -/
structure Image.Keeps (image : Image) (filing : Filing) (entry : Entry) : Prop where
  type : entry.type = filing.type
  size : entry.size.toNat = filing.contents.length
  contents : image.region entry = filing.contents

/-! ## Parts -/

/-- A request to a builder. -/
inductive Part where
  | file (type : FileType) (contents : Bytes)
  | padding (size : UInt32)
  | capsuleBuffer (capacity : UInt32)
  | container (type : FileType) (capacity : UInt32)
deriving DecidableEq, Repr

namespace Part

/-- The file that the part asks for, if it asks for one. -/
def filing? : Part → Option Filing
  | file type contents => some ⟨type, contents⟩
  | padding _ => none
  | capsuleBuffer capacity => some ⟨.capsuleBuffer, List.replicate capacity.toNat 0⟩
  | container type capacity => some ⟨type, List.replicate capacity.toNat 0⟩

/-- The bytes by which memory grows. -/
def bytes : Part → Bytes
  | file _ contents => contents
  | padding size => List.replicate size.toNat erasedByte
  | capsuleBuffer capacity => List.replicate capacity.toNat 0
  | container _ capacity => List.replicate capacity.toNat 0

/-- The address behind parts that are placed from `start` on. -/
def finish (start : Nat) : List Part → Nat
  | [] => start
  | part :: rest => finish (start + part.bytes.length) rest

def entryAt? (part : Part) (address : Nat) : Option Entry :=
  part.filing?.map fun filing =>
    ⟨⟨address.toUInt32⟩, filing.contents.length.toUInt32, filing.type⟩

/-- The table of parts that are placed from `start` on. -/
def table (start : Nat) : List Part → List Entry
  | [] => []
  | part :: rest => (part.entryAt? start).toList ++ table (start + part.bytes.length) rest

section Table

variable {part : Part} {parts : List Part} {start address : Nat} {entry : Entry}

theorem finish_eq (start : Nat) (parts : List Part) :
    finish start parts = start + (parts.flatMap bytes).length := by
  induction parts generalizing start with
  | nil => rfl
  | cons part rest inductionHypothesis =>
      rw [finish, inductionHypothesis, List.flatMap_cons, List.length_append, Nat.add_assoc]

theorem le_finish (start : Nat) (parts : List Part) : start ≤ finish start parts := by
  rw [finish_eq]
  exact Nat.le_add_right _ _

theorem finish_append (start : Nat) (parts others : List Part) :
    finish start (parts ++ others) = finish (finish start parts) others := by
  induction parts generalizing start with
  | nil => rfl
  | cons part rest inductionHypothesis => exact inductionHypothesis _

theorem table_append (start : Nat) (parts others : List Part) :
    table start (parts ++ others) = table start parts ++ table (finish start parts) others := by
  induction parts generalizing start with
  | nil => rfl
  | cons part rest inductionHypothesis =>
      rw [List.cons_append, table, table, finish, inductionHypothesis, List.append_assoc]

/-- A part that asks for a file adds the contents of the file, and no more. -/
theorem bytes_of_filing {filing : Filing} (filed : part.filing? = some filing) :
    part.bytes = filing.contents := by
  cases part with
  | padding size => contradiction
  | file type contents => rw [← Option.some.inj filed, bytes]
  | capsuleBuffer capacity => rw [← Option.some.inj filed, bytes]
  | container type capacity => rw [← Option.some.inj filed, bytes]

theorem bytes_of_none (unfiled : part.filing? = none) :
    part.bytes = List.replicate part.bytes.length erasedByte := by
  cases part with
  | padding size => rw [bytes, List.length_replicate]
  | file type contents => contradiction
  | capsuleBuffer capacity => contradiction
  | container type capacity => contradiction

theorem entryAt?_eq_none : part.entryAt? address = none ↔ part.filing? = none :=
  Option.map_eq_none_iff

/-- The entry of a part spans the bytes that the part adds. -/
theorem entryAt?_eq_some (made : part.entryAt? address = some entry)
    (addressable : address + part.bytes.length < UInt32.size) :
    ∃ filing, part.filing? = some filing ∧ entry.type = filing.type ∧
      entry.base.value.toNat = address ∧ entry.size.toNat = part.bytes.length := by
  obtain ⟨filing, filed, rfl⟩ := Option.map_eq_some_iff.mp made
  have bytesEq := bytes_of_filing filed
  refine ⟨filing, filed, rfl, toNat_toUInt32 (by omega), ?_⟩
  rw [bytesEq] at addressable ⊢
  exact toNat_toUInt32 (by omega)

/-- All files lie between the ends of the parts. -/
theorem mem_table (member : entry ∈ table start parts)
    (addressable : finish start parts < UInt32.size) :
    start ≤ entry.base.value.toNat ∧
      entry.base.value.toNat + entry.size.toNat ≤ finish start parts := by
  induction parts generalizing start with
  | nil => contradiction
  | cons part rest inductionHypothesis =>
      have grows := le_finish (start + part.bytes.length) rest
      rw [finish] at addressable ⊢
      rw [table] at member
      rcases List.mem_append.mp member with first | later
      · obtain ⟨-, -, -, baseEq, sizeEq⟩ := entryAt?_eq_some (Option.mem_toList.mp first) (by omega)
        omega
      · have inside := inductionHypothesis later addressable
        omega

/-- Each file ends before all later ones. -/
theorem pairwise_table (addressable : finish start parts < UInt32.size) :
    (table start parts).Pairwise fun earlier later =>
      earlier.base.value.toNat + earlier.size.toNat ≤ later.base.value.toNat := by
  induction parts generalizing start with
  | nil => exact .nil
  | cons part rest inductionHypothesis =>
      have grows := le_finish (start + part.bytes.length) rest
      rw [finish] at addressable
      rw [table, List.pairwise_append]
      refine ⟨?_, inductionHypothesis addressable, ?_⟩
      · cases part.entryAt? start with
        | none => exact .nil
        | some entry => exact List.pairwise_singleton _ _
      · intro earlier first later behind
        obtain ⟨-, -, -, baseEq, sizeEq⟩ := entryAt?_eq_some (Option.mem_toList.mp first) (by omega)
        have inside := mem_table behind addressable
        omega

/-- In memory that has the bytes of the parts at their place, every file has
its contents. -/
theorem keeps_table {image : Image} {tail : Bytes} (originLe : image.origin.toNat ≤ start)
    (present : image.memory.toList.drop (start - image.origin.toNat) =
      parts.flatMap bytes ++ tail)
    (addressable : finish start parts < UInt32.size) :
    List.Forall₂ image.Keeps (parts.filterMap filing?) (table start parts) := by
  induction parts generalizing start with
  | nil => exact .nil
  | cons part rest inductionHypothesis =>
      have grows := le_finish (start + part.bytes.length) rest
      rw [finish] at addressable
      rw [List.flatMap_cons, List.append_assoc] at present
      -- Memory holds the rest of the parts where the first of them ends.
      have restPresent : image.memory.toList.drop
          (start + part.bytes.length - image.origin.toNat) = rest.flatMap bytes ++ tail := by
        rw [Nat.sub_add_comm originLe, ← List.drop_drop, present, List.drop_left]
      have restKept := inductionHypothesis (by omega) restPresent addressable
      rw [table, List.filterMap_cons]
      cases made : part.entryAt? start with
      | none =>
          rw [entryAt?_eq_none.mp made]
          exact restKept
      | some entry =>
          obtain ⟨filing, filed, typeEq, baseEq, sizeEq⟩ := entryAt?_eq_some made (by omega)
          rw [filed]
          refine .cons ⟨typeEq, ?_, ?_⟩ restKept
          · rw [sizeEq, bytes_of_filing filed]
          · rw [Image.region, Image.regionStart, baseEq, present, sizeEq, List.take_left,
              bytes_of_filing filed]

/-- A byte of no file belongs to a part that asks for none. -/
theorem erased_of_unowned (startLe : start ≤ address) (addressLt : address < finish start parts)
    (unowned : ∀ entry ∈ table start parts, ¬entry.Owns address)
    (addressable : finish start parts < UInt32.size) :
    (parts.flatMap bytes)[address - start]? = some erasedByte := by
  induction parts generalizing start with
  | nil =>
      rw [finish] at addressLt
      omega
  | cons part rest inductionHypothesis =>
      have grows := le_finish (start + part.bytes.length) rest
      rw [finish] at addressLt addressable
      rw [table] at unowned
      rw [List.flatMap_cons]
      by_cases within : address < start + part.bytes.length
      -- A part with an entry would own all of its bytes.
      · rw [List.getElem?_append_left (by omega)]
        cases made : part.entryAt? start with
        | none =>
            rw [bytes_of_none (entryAt?_eq_none.mp made), List.getElem?_replicate_of_lt (by omega)]
        | some entry =>
            obtain ⟨-, -, -, baseEq, sizeEq⟩ := entryAt?_eq_some made (by omega)
            have owned : entry.Owns address := by
              unfold Entry.Owns
              omega
            exact absurd owned (unowned entry (by simp [made]))
      · rw [List.getElem?_append_right (by omega), ← inductionHypothesis (by omega) addressLt
          (fun entry member => unowned entry (List.mem_append_right _ member)) addressable]
        congr 1
        omega

end Table

/-- The image of parts, with its table and its memory said outright. -/
def image (origin : UInt32) (parts : List Part) : Image :=
  ⟨origin, (parts.flatMap bytes).toArray, table origin.toNat parts, none⟩

end Part

/-! ## Building from parts -/

namespace Builder

variable {ε : Type} {builder : Builder}

def place (builder : Builder) : Part → Outcome ε Builder
  | .file type contents => builder.file type contents
  | .padding size => .ok (builder.padding size)
  | .capsuleBuffer capacity => builder.capsuleBuffer capacity
  | .container type capacity => builder.container type capacity

def placeAll (builder : Builder) : List Part → Outcome ε Builder
  | [] => .ok builder
  | part :: rest => do
    let builder ← builder.place part
    placeAll builder rest

/-- The builder with more bytes and more files. -/
def extend (builder : Builder) (bytes : Bytes) (entries : List Entry) : Builder :=
  { builder with
    memory := builder.memory.appendList bytes
    files := builder.files ++ entries }

theorem finish_extend (bytes : Bytes) (entries : List Entry) :
    (builder.extend bytes entries).finish = builder.finish + bytes.length := by
  show builder.origin.toNat + (builder.memory.appendList bytes).size = _
  rw [size_appendList, finish, Nat.add_assoc]

theorem extend_nil : builder.extend [] [] = builder := by
  simp [extend]

theorem extend_extend (bytes more : Bytes) (entries others : List Entry) :
    (builder.extend bytes entries).extend more others =
      builder.extend (bytes ++ more) (entries ++ others) := by
  have memoryEq : (builder.memory.appendList bytes).appendList more =
      builder.memory.appendList (bytes ++ more) := by
    apply Array.toList_inj.mp
    simp
  unfold extend
  rw [memoryEq, List.append_assoc]

theorem nextAddress_eq (addressable : builder.finish < UInt32.size) :
    (builder.nextAddress : Outcome ε CodeAddress) = .ok ⟨builder.finish.toUInt32⟩ := by
  unfold finish at addressable ⊢
  unfold nextAddress
  rw [sum32_place addressable, Outcome.bind_ok]
  have sumEq : builder.origin + builder.memory.size.toUInt32 =
      (builder.origin.toNat + builder.memory.size).toUInt32 := by
    apply UInt32.toNat_inj.mp
    rw [toNat_add_place _ _ addressable, toNat_toUInt32 addressable]
  rw [sumEq]
  rfl

theorem file_eq (type : FileType) (contents : Bytes) (addressable : builder.finish < UInt32.size) :
    (builder.file type contents : Outcome ε Builder) = .ok (builder.extend contents
      [⟨⟨builder.finish.toUInt32⟩, contents.length.toUInt32, type⟩]) := by
  unfold file
  rw [nextAddress_eq addressable]
  rfl

/-- A part is placed behind what is there, as long as that is an address. -/
theorem place_eq (part : Part) (addressable : builder.finish < UInt32.size) :
    (builder.place part : Outcome ε Builder) =
      .ok (builder.extend part.bytes (part.entryAt? builder.finish).toList) := by
  cases part with
  | file type contents => exact file_eq type contents addressable
  | padding size =>
      show Except.ok _ = Except.ok ({ builder with
        memory := builder.memory.appendList (List.replicate size.toNat erasedByte)
        files := builder.files ++ [] } : Builder)
      rw [List.append_nil]
      rfl
  | capsuleBuffer capacity => exact file_eq .capsuleBuffer _ addressable
  | container type capacity => exact file_eq type _ addressable

theorem placeAll_eq (parts : List Part)
    (addressable : Part.finish builder.finish parts < UInt32.size) :
    (builder.placeAll parts : Outcome ε Builder) =
      .ok (builder.extend (parts.flatMap Part.bytes) (Part.table builder.finish parts)) := by
  induction parts generalizing builder with
  | nil =>
      show Except.ok builder = Except.ok (builder.extend [] [])
      rw [extend_nil]
  | cons part rest inductionHypothesis =>
      have grows := Part.le_finish (builder.finish + part.bytes.length) rest
      rw [Part.finish] at addressable
      rw [placeAll, place_eq part (by omega), Outcome.bind_ok,
        inductionHypothesis (by rw [finish_extend]; exact addressable), finish_extend,
        extend_extend, List.flatMap_cons, Part.table]

theorem exists_placeAll {parts : List Part}
    (addressable : Part.finish builder.finish parts < UInt32.size) :
    ∃ after, (builder.placeAll parts : Outcome ε Builder) = .ok after ∧
      after.finish = Part.finish builder.finish parts := by
  refine ⟨_, placeAll_eq parts addressable, ?_⟩
  rw [finish_extend, Part.finish_eq]

theorem placeAll_append (builder : Builder) (parts others : List Part) :
    (builder.placeAll (parts ++ others) : Outcome ε Builder) =
      builder.placeAll parts >>= fun middle => middle.placeAll others := by
  induction parts generalizing builder with
  | nil => rfl
  | cons part rest inductionHypothesis =>
      simp only [List.cons_append, placeAll]
      cases (builder.place part : Outcome ε Builder) with
      | error stop => rfl
      | ok middle => exact inductionHypothesis middle

end Builder

namespace Image

/-- The image that a builder makes of parts. -/
def ofParts (origin : UInt32) (parts : List Part) : Outcome Error Image := do
  let builder ← (Builder.start origin).placeAll parts
  return builder.build

/-- The image holds what the parts ask for, and nothing else. -/
structure Assembles (image : Image) (origin : UInt32) (parts : List Part) : Prop where
  begins : image.origin = origin
  finish : image.memoryEnd = Part.finish origin.toNat parts
  valid : image.validate = .ok ()
  listed : List.Forall₂ image.Keeps (parts.filterMap Part.filing?) image.files
  ordered : image.files.Pairwise fun earlier later => earlier.base.value ≤ later.base.value
  disjoint : image.files.Pairwise fun earlier later =>
    ∀ address, ¬(earlier.Owns address ∧ later.Owns address)
  erased : ∀ place < image.memory.size,
    (∀ entry ∈ image.files, ¬entry.Owns (image.origin.toNat + place)) →
      image.memory[place]? = some 0xFF

variable {origin : UInt32} {parts : List Part}

theorem ofParts_eq (addressable : Part.finish origin.toNat parts < UInt32.size) :
    ofParts origin parts = .ok (Part.image origin parts) := by
  have placed : ((Builder.start origin).placeAll parts : Outcome Error Builder) = _ :=
    Builder.placeAll_eq parts addressable
  have memoryEq : (#[] : Array UInt8).appendList (parts.flatMap Part.bytes) =
      (parts.flatMap Part.bytes).toArray := by
    simp
  unfold ofParts Part.image
  rw [placed, Outcome.bind_ok, ← memoryEq]
  rfl

end Image

theorem Part.assembles_image {origin : UInt32} {parts : List Part}
    (addressable : finish origin.toNat parts < UInt32.size) :
    (image origin parts).Assembles origin parts := by
  have finishEq : (image origin parts).memoryEnd = finish origin.toNat parts :=
    (finish_eq origin.toNat parts).symm
  have apart := pairwise_table addressable
  refine ⟨rfl, finishEq, ?_, ?_, ?_, ?_, ?_⟩
  · apply Image.validateFrom_eq_ok.mpr
    intro entry member
    unfold Image.Holds
    rw [finishEq]
    exact mem_table member addressable
  · apply keeps_table (Nat.le_refl _) ?_ addressable
    show List.drop (origin.toNat - origin.toNat) _ = _ ++ []
    rw [Nat.sub_self, List.append_nil]
    rfl
  · refine apart.imp fun before => UInt32.le_iff_toNat_le.mpr ?_
    omega
  · refine apart.imp fun before address both => ?_
    have left := both.1.2
    have right := both.2.1
    omega
  · intro place inside unowned
    have placeLt : place < (parts.flatMap bytes).length := inside
    have finishIs := finish_eq origin.toNat parts
    have erased : (parts.flatMap bytes)[origin.toNat + place - origin.toNat]? = some erasedByte :=
      erased_of_unowned (by omega) (by omega) unowned addressable
    rw [Nat.add_sub_cancel_left] at erased
    show (parts.flatMap bytes).toArray[place]? = _
    rw [List.getElem?_toArray]
    exact erased

/-! ## Layouts as parts -/

/-- The file that a layout asks for ahead of its container. -/
def FileSpec.filing (spec : FileSpec) : Filing :=
  ⟨spec.type, List.replicate spec.size.toNat spec.fill⟩

def FileSpec.part (spec : FileSpec) : Part := .file spec.filing.type spec.filing.contents

namespace Layout

/-- The parts that bring an address to a parity. -/
def gapAt (address : Nat) (oddBase : Bool) : List Part :=
  if decide (address % 2 = 1) = oddBase then [] else [.padding 1]

def ahead (layout : Layout) : List Part := layout.files.map FileSpec.part

/-- The address behind the files ahead of the container. -/
def filed (layout : Layout) : Nat := Part.finish layout.origin.toNat layout.ahead

def gap (layout : Layout) : List Part := gapAt layout.filed layout.oddBase

/-- The address of the container. -/
def base (layout : Layout) : Nat := Part.finish layout.filed layout.gap

def parts (layout : Layout) : List Part :=
  layout.ahead ++ (layout.gap ++ [.container layout.type layout.capacity])

/-- The address behind the container. -/
def finish (layout : Layout) : Nat := Part.finish layout.origin.toNat layout.parts

def reserved (layout : Layout) : Entry := ⟨⟨layout.base.toUInt32⟩, layout.capacity, layout.type⟩

/-- The image of a layout: the files ahead, back to back and filled, a gap of at
most one erased byte, and the zeroed container. -/
structure Fills (layout : Layout) (image : Image) (ahead : List Entry) (gap : Bytes)
    (reserved : Entry) : Prop where
  begins : image.origin = layout.origin
  files : image.files = ahead ++ [reserved]
  memory : image.memory.toList = layout.files.flatMap (fun spec => spec.filing.contents) ++
    gap ++ List.replicate layout.capacity.toNat 0
  listed : List.Forall₂ image.Keeps (layout.files.map FileSpec.filing) ahead
  zeroed : image.Keeps ⟨layout.type, List.replicate layout.capacity.toNat 0⟩ reserved
  adjoining : ∃ filed, Adjoin layout.origin.toNat filed ahead ∧
    reserved.base.value.toNat = filed + gap.length
  narrow : gap = [] ∨ gap = [0xFF]
  odd : reserved.base.value.toNat % 2 = 1 ↔ layout.oddBase = true

section Building

variable {ε : Type} {builder : Builder} {layout : Layout}

theorem placeFiles_eq (builder : Builder) (specs : List FileSpec) :
    (placeFiles builder specs : Outcome ε Builder) =
      builder.placeAll (specs.map FileSpec.part) := by
  induction specs generalizing builder with
  | nil => rfl
  | cons spec rest inductionHypothesis =>
      simp only [placeFiles, inductionHypothesis]
      rfl

theorem align_eq (oddBase : Bool) (addressable : builder.finish < UInt32.size) :
    (align builder oddBase : Outcome ε Builder) =
      builder.placeAll (gapAt builder.finish oddBase) := by
  have aligned : (⟨builder.finish.toUInt32⟩ : CodeAddress).isWordAligned =
      !decide (builder.finish % 2 = 1) := by
    rw [Bool.eq_iff_iff, CodeAddress.isWordAligned_iff, toNat_toUInt32 addressable]
    simp
  unfold align
  rw [Builder.nextAddress_eq addressable, Outcome.bind_ok, aligned, gapAt]
  cases oddBase <;> cases decide (builder.finish % 2 = 1) <;> rfl

/-- A gap is one byte exactly where the address has the wrong parity. -/
theorem gapAt_cases (address : Nat) (oddBase : Bool) :
    (gapAt address oddBase = [] ∧ (address % 2 = 1 ↔ oddBase = true)) ∨
      (gapAt address oddBase = [.padding 1] ∧ ¬(address % 2 = 1 ↔ oddBase = true)) := by
  unfold gapAt
  rw [← Bool.eq_iff_iff.trans (iff_congr decide_eq_true_iff .rfl)]
  split
  · rename_i right
    exact .inl ⟨rfl, right⟩
  · rename_i wrong
    exact .inr ⟨rfl, wrong⟩

theorem table_gap (layout : Layout) (start : Nat) : Part.table start layout.gap = [] := by
  unfold gap
  rcases gapAt_cases layout.filed layout.oddBase with ⟨gapEq, -⟩ | ⟨gapEq, -⟩ <;>
    (rw [gapEq]; rfl)

theorem bytes_gap (layout : Layout) :
    layout.gap.flatMap Part.bytes = [] ∨ layout.gap.flatMap Part.bytes = [0xFF] := by
  unfold gap
  rcases gapAt_cases layout.filed layout.oddBase with ⟨gapEq, -⟩ | ⟨gapEq, -⟩
  · rw [gapEq]
    exact .inl rfl
  · rw [gapEq]
    exact .inr rfl

/-- Behind the gap, the container has the parity that is asked for. -/
theorem odd_base (layout : Layout) : layout.base % 2 = 1 ↔ layout.oddBase = true := by
  unfold base gap
  rcases gapAt_cases layout.filed layout.oddBase with ⟨gapEq, right⟩ | ⟨gapEq, wrong⟩
  · rw [gapEq]
    exact right
  · rw [gapEq]
    show (layout.filed + 1) % 2 = 1 ↔ _
    cases oddBase : layout.oddBase with
    | false =>
        simp only [oddBase, Bool.false_eq_true, iff_false, Decidable.not_not] at wrong ⊢
        omega
    | true =>
        simp only [oddBase, iff_true] at wrong ⊢
        omega

theorem finish_eq (layout : Layout) : layout.finish = layout.base + layout.capacity.toNat := by
  rw [finish, parts, Part.finish_append, Part.finish_append]
  show layout.base + (List.replicate layout.capacity.toNat (0 : UInt8)).length = _
  rw [List.length_replicate]

theorem filed_le_finish (layout : Layout) : layout.filed ≤ layout.finish := by
  rw [finish, parts, Part.finish_append]
  exact Part.le_finish _ _

theorem entryAt?_container (layout : Layout) :
    (Part.container layout.type layout.capacity).entryAt? layout.base = some layout.reserved := by
  have sizeEq : (List.replicate layout.capacity.toNat (0 : UInt8)).length.toUInt32 =
      layout.capacity := by
    rw [List.length_replicate]
    exact UInt32.ofNat_toNat
  show some (⟨_, (List.replicate layout.capacity.toNat (0 : UInt8)).length.toUInt32, _⟩ : Entry) = _
  rw [sizeEq]
  rfl

theorem table_parts (layout : Layout) :
    Part.table layout.origin.toNat layout.parts =
      Part.table layout.origin.toNat layout.ahead ++ [layout.reserved] := by
  rw [parts, Part.table_append, Part.table_append]
  show _ ++ (Part.table _ layout.gap ++
    (((Part.container layout.type layout.capacity).entryAt? layout.base).toList ++ [])) = _
  rw [table_gap, entryAt?_container]
  rfl

theorem bytes_parts (layout : Layout) :
    layout.parts.flatMap Part.bytes = layout.ahead.flatMap Part.bytes ++
      (layout.gap.flatMap Part.bytes ++ List.replicate layout.capacity.toNat 0) := by
  rw [parts, List.flatMap_append, List.flatMap_append, List.flatMap_singleton]
  rfl

/-- A layout is built as its parts are, once its capacity is admitted. -/
theorem build_eq (least : minimumCapacity ≤ layout.capacity.toNat)
    (most : layout.capacity.toNat ≤ maximumCapacity) (addressable : layout.finish < UInt32.size) :
    layout.build = Image.ofParts layout.origin layout.parts := by
  have filedLt := Nat.lt_of_le_of_lt layout.filed_le_finish addressable
  obtain ⟨placed, placing, placedFinish⟩ : ∃ placed,
      ((Builder.start layout.origin).placeAll layout.ahead : Outcome Error Builder) = .ok placed ∧
        placed.finish = layout.filed :=
    Builder.exists_placeAll filedLt
  unfold build Image.ofParts
  rw [if_neg (Nat.not_lt.mpr least), if_neg (Nat.not_lt.mpr most), parts,
    Builder.placeAll_append, placeFiles_eq, ← ahead, placing, Outcome.bind_ok, Outcome.bind_ok,
    align_eq _ (by omega), Builder.placeAll_append, placedFinish, ← gap]
  -- Both sides place the container behind the gap; only the brackets differ.
  cases (placed.placeAll layout.gap : Outcome Error Builder) with
  | error stop => rfl
  | ok aligned =>
      show (aligned.container layout.type layout.capacity >>= _) =
        (aligned.container layout.type layout.capacity >>= _) >>= _
      cases (aligned.container layout.type layout.capacity : Outcome Error Builder) <;> rfl

theorem capacity_of_build {image : Image} (built : layout.build = .ok image) :
    minimumCapacity ≤ layout.capacity.toNat ∧ layout.capacity.toNat ≤ maximumCapacity := by
  unfold build at built
  split at built
  · contradiction
  split at built
  · contradiction
  rename_i least most
  exact ⟨Nat.not_lt.mp least, Nat.not_lt.mp most⟩

theorem adjoin_table (start : Nat) (specs : List FileSpec)
    (addressable : Part.finish start (specs.map FileSpec.part) < UInt32.size) :
    Adjoin start (Part.finish start (specs.map FileSpec.part))
      (Part.table start (specs.map FileSpec.part)) := by
  induction specs generalizing start with
  | nil => rfl
  | cons spec rest inductionHypothesis =>
      rw [List.map_cons, Part.finish] at addressable ⊢
      have grows := Part.le_finish (start + spec.part.bytes.length) (rest.map FileSpec.part)
      have made : spec.part.entryAt? start = some _ := rfl
      obtain ⟨-, -, -, baseEq, sizeEq⟩ := Part.entryAt?_eq_some made (by omega)
      refine ⟨baseEq, ?_⟩
      rw [sizeEq]
      exact inductionHypothesis _ addressable

theorem filterMap_ahead (layout : Layout) :
    layout.ahead.filterMap Part.filing? = layout.files.map FileSpec.filing := by
  rw [ahead, List.filterMap_map, ← List.filterMap_eq_map]
  rfl

theorem fills_image (addressable : layout.finish < UInt32.size) :
    layout.Fills (Part.image layout.origin layout.parts)
      (Part.table layout.origin.toNat layout.ahead) (layout.gap.flatMap Part.bytes)
      layout.reserved := by
  have filedLt := Nat.lt_of_le_of_lt layout.filed_le_finish addressable
  have finishEq := layout.finish_eq
  have filedEq : layout.filed = _ := Part.finish_eq layout.origin.toNat layout.ahead
  have baseEq : layout.base = _ := Part.finish_eq layout.filed layout.gap
  have reservedBase : layout.reserved.base.value.toNat = layout.base := toNat_toUInt32 (by omega)
  have memoryEq : (Part.image layout.origin layout.parts).memory.toList = _ := layout.bytes_parts
  refine ⟨rfl, layout.table_parts, ?_, ?_, ?_, ⟨layout.filed, adjoin_table _ _ filedLt, ?_⟩,
    layout.bytes_gap, ?_⟩
  · rw [memoryEq, List.append_assoc, ahead, List.flatMap_map]
    rfl
  · rw [← filterMap_ahead]
    refine Part.keeps_table (Nat.le_refl layout.origin.toNat) (Eq.trans ?_ memoryEq) filedLt
    show List.drop (layout.origin.toNat - layout.origin.toNat) _ = _
    rw [Nat.sub_self]
    rfl
  · refine ⟨rfl, (List.length_replicate).symm, ?_⟩
    have startEq : layout.base - layout.origin.toNat =
        (layout.ahead.flatMap Part.bytes ++ layout.gap.flatMap Part.bytes).length := by
      rw [List.length_append]
      omega
    rw [Image.region, Image.regionStart, reservedBase, memoryEq, ← List.append_assoc]
    show List.take layout.capacity.toNat (List.drop (layout.base - layout.origin.toNat) _) = _
    rw [startEq, List.drop_left, List.take_of_length_le (Nat.le_of_eq List.length_replicate)]
  · rw [reservedBase, baseEq]
  · rw [reservedBase]
    exact layout.odd_base

end Building

end Layout

/-- Parts that end at an address are placed as given. A layout that ends at an
address is built exactly if its capacity is admitted, and then as described. -/
theorem parts_and_layouts_are_placed_as_given :
    (∀ (origin : UInt32) (parts : List Part), Part.finish origin.toNat parts < UInt32.size →
      ∃ image, Image.ofParts origin parts = .ok image ∧ image.Assembles origin parts) ∧
    (∀ layout : Layout, layout.finish < UInt32.size →
      ((∃ image, layout.build = .ok image) ↔
        3 ≤ layout.capacity.toNat ∧ layout.capacity.toNat ≤ 65535) ∧
      ∀ image, layout.build = .ok image →
        ∃ ahead gap reserved, layout.Fills image ahead gap reserved) := by
  refine ⟨?_, ?_⟩
  · intro origin parts addressable
    exact ⟨_, Image.ofParts_eq addressable, Part.assembles_image addressable⟩
  · intro layout addressable
    have eq_of_build : ∀ image, layout.build = .ok image →
        image = Part.image layout.origin layout.parts := by
      intro image built
      obtain ⟨least, most⟩ := Layout.capacity_of_build built
      rw [Layout.build_eq least most addressable, Image.ofParts_eq addressable] at built
      exact (Except.ok.inj built).symm
    refine ⟨⟨?_, ?_⟩, ?_⟩
    · rintro ⟨image, built⟩
      exact Layout.capacity_of_build built
    · rintro ⟨least, most⟩
      refine ⟨Part.image layout.origin layout.parts, ?_⟩
      rw [Layout.build_eq least most addressable, Image.ofParts_eq addressable]
    · intro image built
      rw [eq_of_build image built]
      exact ⟨_, _, _, Layout.fills_image addressable⟩

/-- Parts of all kinds, an empty file among them, from an odd address on. -/
def mixedParts : List Part :=
  [.file .library [1, 2, 3], .padding 2, .capsuleBuffer 4, .file .tables [], .container ⟨9⟩ 3]

/-- A layout whose files end at an even address, with a container at an odd one. -/
def shiftedLayout : Layout :=
  ⟨0x303, [⟨.library, 2, 0xAA⟩, ⟨.tables, 0, 1⟩, ⟨.tables, 3, 7⟩], 5, .capsuleBuffer, true⟩

def shiftedImage : Image :=
  ⟨0x303, #[0xAA, 0xAA, 7, 7, 7, 0xFF, 0, 0, 0, 0, 0], [⟨⟨0x303⟩, 2, .library⟩,
    ⟨⟨0x305⟩, 0, .tables⟩, ⟨⟨0x305⟩, 3, .tables⟩, ⟨⟨0x309⟩, 5, .capsuleBuffer⟩], none⟩

theorem mixed_parts_and_shifted_layout_are_placed :
    Part.finish (0x301 : UInt32).toNat mixedParts < UInt32.size ∧
      (∃ image, Image.ofParts 0x301 mixedParts = .ok image ∧ image.Assembles 0x301 mixedParts) ∧
      shiftedLayout.finish < UInt32.size ∧ shiftedLayout.build = .ok shiftedImage ∧
      ∃ ahead reserved, shiftedLayout.Fills shiftedImage ahead [0xFF] reserved := by
  have placed := parts_and_layouts_are_placed_as_given
  have partsFit : Part.finish (0x301 : UInt32).toNat mixedParts < UInt32.size := by decide
  have layoutFits : shiftedLayout.finish < UInt32.size := by decide
  have built : shiftedLayout.build = .ok shiftedImage := by decide
  obtain ⟨ahead, gap, reserved, fills⟩ := (placed.2 shiftedLayout layoutFits).2 _ built
  refine ⟨partsFit, placed.1 0x301 mixedParts partsFit, layoutFits, built, ahead, reserved, ?_⟩
  rcases fills.narrow with rfl | rfl
  · exact absurd fills.memory (by decide)
  · exact fills

end CodeCapsules.Flash
