/-!
The element types of tensors.
-/

namespace SliceCompiler

inductive ElementType
  | fp16 | fp32 | u8 | i8 | s32
  deriving DecidableEq, Repr

namespace ElementType

/-- The name used in messages. -/
def name : ElementType → String
  | fp16 => "FP16"
  | fp32 => "FP32"
  | u8 => "U8"
  | i8 => "I8"
  | s32 => "S32"

instance : ToString ElementType := ⟨name⟩

/-- Bytes per element. -/
def size : ElementType → Nat
  | u8 | i8 => 1
  | fp16 => 2
  | fp32 | s32 => 4

/-- The code in a blob. -/
def code : ElementType → UInt32
  | fp16 => 0
  | u8 => 1
  | s32 => 2
  | fp32 => 3
  | i8 => 4

theorem size_pos (e : ElementType) : 0 < e.size := by
  cases e <;> decide

theorem size_lt (e : ElementType) : e.size < UInt64.size := by
  cases e <;> decide

theorem code_inj {a b : ElementType} : a.code = b.code ↔ a = b := by
  cases a <;> cases b <;> decide

end ElementType

end SliceCompiler
