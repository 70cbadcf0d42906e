/-!
Masks: one flag per axis, written as a text of the characters `0` and `1`. Commas may
stand anywhere and carry nothing, so `1,,0,1` and `101` are the same mask.
-/

namespace SliceCompiler

/-- Flags by axis: bit `i` belongs to axis `i`. -/
abbrev Mask := UInt32

/-- Why a text is no mask. -/
inductive MaskFault
  | invalidCharacter (character : Char) (position : Nat)
  | tooManyFlags (limit : Nat)
  deriving DecidableEq, Repr

def MaskFault.message : MaskFault → String
  | .invalidCharacter character position =>
    "Unsupported mask value: only 0 or 1 are supported, but got " ++
      s!"'{character}' at position {position}"
  | .tooManyFlags limit => s!"Mask encodes more than {limit} flags"

namespace Mask

/-- The number of flags a mask has room for. -/
def capacity : Nat := 32

/-- The flag of axis `i`. -/
def flag (m : Mask) (i : Nat) : Bool := m.toNat.testBit i

/-- The flag that a character stands for. -/
def flag? : Char → Option Bool
  | '0' => some false
  | '1' => some true
  | _ => none

/-- The flags of a text, of which `room` more may follow. Positions count bytes of UTF-8, and
the first fault in reading order is reported. -/
def scan (position room : Nat) : List Char → Except MaskFault (List Bool)
  | [] => .ok []
  | c :: rest =>
    if c = ',' then scan (position + c.utf8Size) room rest
    else
      match flag? c, room with
      | none, _ => .error (.invalidCharacter c position)
      | some _, 0 => .error (.tooManyFlags capacity)
      | some b, room + 1 => (scan (position + c.utf8Size) room rest).map (b :: ·)

/-- The first flag goes to axis 0. -/
def ofFlags (flags : List Bool) : Mask :=
  flags.foldr (fun b m => (m <<< 1) ||| b.toUInt32) 0

def decode (text : String) : Except MaskFault Mask :=
  (scan 0 capacity text.toList).map ofFlags

example : decode "1,,0,1" = .ok 5 := by rfl
example : decode "" = .ok 0 := by rfl
example : decode "1,é" = .error (.invalidCharacter 'é' 2) := by rfl

end Mask

end SliceCompiler
