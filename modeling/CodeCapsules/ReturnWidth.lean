import CodeCapsules.ValueError

/-!
Contract: how many result bytes a capsule returns, and in which registers.
-/

namespace CodeCapsules

/-- The width of a capsule's result. -/
inductive ReturnWidth where
  | byte
  | word
  | dword
deriving DecidableEq, Repr

namespace ReturnWidth

/-- All widths, the narrowest first. -/
def all : List ReturnWidth := [.byte, .word, .dword]

def size : ReturnWidth → Nat
  | .byte => 1
  | .word => 2
  | .dword => 4

/-- The register that holds the first byte of the result. -/
def firstRegister : ReturnWidth → Nat
  | .byte => 24
  | .word => 24
  | .dword => 22

def ofSize : Nat → Except ValueError ReturnWidth
  | 1 => .ok .byte
  | 2 => .ok .word
  | 4 => .ok .dword
  | size => .error (.invalidReturnWidth size)

def text : ReturnWidth → String
  | .byte => "byte"
  | .word => "word"
  | .dword => "dword"

def ofText? (name : String) : Option ReturnWidth := all.find? (·.text == name)

end ReturnWidth

end CodeCapsules
