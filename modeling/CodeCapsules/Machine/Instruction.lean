import CodeCapsules.Bytes.Basic
import CodeCapsules.Outcome

/-!
Contract: the instructions of the capsule machine and the words they are
written as.

The machine knows a small part of the AVR instruction set: loads and moves of
registers, sums of bytes, stores through the pointer `Y`, relative calls and
returns.

Owns:
- the instructions with operands in range;
- the word of each mnemonic, for operand bytes in range or not;
- reading a word back as an instruction.
-/

namespace CodeCapsules.Machine

abbrev Register : Type := Fin 32

inductive Instruction where
  /-- Does nothing. -/
  | nop
  /-- Returns to the caller. -/
  | ret
  /-- Loads a constant into one of the upper sixteen registers. -/
  | loadImmediate (target : Fin 16) (constant : UInt8)
  /-- Copies a register. -/
  | move (target source : Register)
  /-- Adds a register to another, modulo 256. -/
  | add (target source : Register)
  /-- Stores a register where `Y` points, and advances `Y`. -/
  | storeAdvance (source : Register)
  /-- Stores a register at a distance from where `Y` points. -/
  | storeAt (distance : Fin 64) (source : Register)
  /-- Calls the code at a distance from the next instruction. -/
  | call (distance : Int16)
deriving DecidableEq, Repr

/-- The register that a load of a constant writes. -/
def upper (target : Fin 16) : Register := ⟨16 + target.val, by omega⟩

namespace Opcode

variable {ε : Type}

def nop : UInt16 := 0x0000

def ret : UInt16 := 0x9508

/-- A load of a constant. Only registers from 16 on can be written. -/
def loadImmediate (target constant : UInt8) : Outcome ε UInt16 := do
  let field := (← difference8 target 16).toUInt16
  let constant := constant.toUInt16
  return 0xE000 ||| ((constant &&& 0xF0) <<< (4 : UInt16)) ||| (field <<< (4 : UInt16)) |||
    (constant &&& 0x0F)

/-- The fields of two registers. -/
def registers (target source : UInt8) : UInt16 :=
  let target := target.toUInt16
  let source := source.toUInt16
  ((source &&& 0x10) <<< (5 : UInt16)) ||| (target <<< (4 : UInt16)) ||| (source &&& 0x0F)

def move (target source : UInt8) : UInt16 := 0x2C00 ||| registers target source

def add (target source : UInt8) : UInt16 := 0x0C00 ||| registers target source

def storeAdvance (source : UInt8) : UInt16 := 0x9209 ||| (source.toUInt16 <<< (4 : UInt16))

def storeAt (distance source : UInt8) : UInt16 :=
  let distance := distance.toUInt16
  0x8208 ||| ((distance &&& 0x20) <<< (8 : UInt16)) ||| ((distance &&& 0x18) <<< (7 : UInt16)) |||
    (distance &&& 0x07) ||| (source.toUInt16 <<< (4 : UInt16))

def store (source : UInt8) : UInt16 := storeAt 0 source

def call (distance : Int16) : UInt16 := 0xD000 ||| (distance.toUInt16 &&& 0x0FFF)

end Opcode

def assemble (words : List UInt16) : Bytes := words.flatMap fun word => Bytes.little 2 word.toNat

namespace Instruction

/-- The register in the five bits from the fifth on. -/
def targetOf (word : UInt16) : Register := Fin.ofNat 32 (word >>> (4 : UInt16)).toNat

/-- The upper register in the four bits from the fifth on. -/
def upperTargetOf (word : UInt16) : Fin 16 :=
  ⟨(word >>> (4 : UInt16)).toNat % 16, Nat.mod_lt _ (by decide)⟩

/-- The register whose highest bit stands apart from the other four. -/
def sourceOf (word : UInt16) : Register :=
  Fin.ofNat 32 (((word >>> (5 : UInt16)) &&& 0x10) ||| (word &&& 0x0F)).toNat

/-- The distance of a store, whose bits stand in three places. -/
def distanceOf (word : UInt16) : Fin 64 :=
  let high := (word >>> (8 : UInt16)) &&& 0x20
  let middle := (word >>> (7 : UInt16)) &&& 0x18
  Fin.ofNat 64 (high ||| middle ||| (word &&& 0x07)).toNat

/-- The distance of a call: twelve bits with a sign. -/
def callDistanceOf (word : UInt16) : Int16 := (word <<< (4 : UInt16)).toInt16 >>> (4 : Int16)

def decode? (word : UInt16) : Option Instruction :=
  if word = Opcode.nop then some .nop
  else if word = Opcode.ret then some .ret
  else if word &&& 0xF000 = 0xE000 then
    some (.loadImmediate (upperTargetOf word)
      (((word >>> (4 : UInt16)) &&& 0xF0) ||| (word &&& 0x0F)).toUInt8)
  else if word &&& 0xFC00 = 0x2C00 then some (.move (targetOf word) (sourceOf word))
  else if word &&& 0xFC00 = 0x0C00 then some (.add (targetOf word) (sourceOf word))
  else if word &&& 0xFE0F = 0x9209 then some (.storeAdvance (targetOf word))
  else if word &&& 0xD208 = 0x8208 then some (.storeAt (distanceOf word) (targetOf word))
  else if word &&& 0xF000 = 0xD000 then some (.call (callDistanceOf word))
  else none

end Instruction

end CodeCapsules.Machine
