import SliceCompiler.Slot

/-!
Slot maps: a value for some of the inputs and outputs of a stage. The number of slots is fixed
when the map is made; writing to a slot that is not there is refused, reading one finds nothing.
-/

namespace SliceCompiler

structure SlotMap (α : Type) where
  inputs : List (Option α)
  outputs : List (Option α)
  deriving DecidableEq, Repr

namespace SlotMap

variable {α : Type}

/-- No slot has a value. -/
def blank (inputs outputs : Nat) : SlotMap α :=
  ⟨List.replicate inputs none, List.replicate outputs none⟩

def set? (m : SlotMap α) (slot : Slot) (value : α) : Option (SlotMap α) :=
  match slot with
  | .input i =>
    if i < m.inputs.length then some { m with inputs := m.inputs.set i (some value) } else none
  | .output i =>
    if i < m.outputs.length then some { m with outputs := m.outputs.set i (some value) } else none

def get? (m : SlotMap α) : Slot → Option α
  | .input i => m.inputs[i]?.join
  | .output i => m.outputs[i]?.join

/-- The values that have been set, inputs first. -/
def declared (m : SlotMap α) : List α := (m.inputs ++ m.outputs).filterMap id

def isBlank (m : SlotMap α) : Bool := (m.inputs ++ m.outputs).all Option.isNone

@[simp] theorem get?_blank (inputs outputs : Nat) (slot : Slot) :
    (blank inputs outputs : SlotMap α).get? slot = none := by
  cases slot <;> simp only [get?, blank, List.getElem?_replicate] <;> split <;> rfl

theorem get?_set? {m n : SlotMap α} {slot : Slot} {value : α} (h : m.set? slot value = some n)
    (other : Slot) : n.get? other = if other = slot then some value else m.get? other := by
  cases slot <;> cases other <;> simp only [set?] at h <;> split at h <;> simp at h <;>
    subst h <;> simp [get?, List.getElem?_set] <;> grind

end SlotMap

end SliceCompiler
