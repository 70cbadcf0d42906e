import Mathlib.Data.List.Induction
import Mathlib.Data.Nat.Notation
import Mathlib.Tactic.Lemma
import SliceCompiler.Stage

/-!
Slots of a stage under any sequence of writes. A write is made exactly if its slot is there, and
which slots are there never changes, so the writes that are made can be told beforehand. A slot
holds what was written to it last, and each side is as if the other one did not exist. Operators are
given blank slots, and a strided slice leaves them so.
-/

namespace SliceCompiler

namespace Slot

/-- The side that a slot is on. -/
def side : Slot → Side
  | input _ => .inputs
  | output _ => .outputs

/-- The place of a slot on its side. -/
def index : Slot → ℕ
  | input i => i
  | output i => i

end Slot

/-- The slot belongs to a tensor of the stage. -/
def Stage.HasSlot (s : Stage) : Slot → Prop
  | .input i => i < s.inputs.length
  | .output i => i < s.outputs.length

namespace SlotMap

variable {α : Type}

/-- The slots of one side. -/
def on (m : SlotMap α) : Side → List (Option α)
  | .inputs => m.inputs
  | .outputs => m.outputs

def Has (m : SlotMap α) (slot : Slot) : Prop := slot.index < (m.on slot.side).length

instance (m : SlotMap α) (slot : Slot) : Decidable (m.Has slot) :=
  inferInstanceAs (Decidable (slot.index < (m.on slot.side).length))

/-- The map after a write; one that is refused leaves it as it is. -/
def write (m : SlotMap α) (w : Slot × α) : SlotMap α := (m.set? w.1 w.2).getD m

/-- The map after some writes. -/
def after (m : SlotMap α) (writes : List (Slot × α)) : SlotMap α := writes.foldl write m

/-- The writes that are made; each of the others is refused when its turn comes. -/
def made (m : SlotMap α) : List (Slot × α) → List (Slot × α)
  | [] => []
  | w :: writes =>
    match m.set? w.1 w.2 with
    | some n => w :: n.made writes
    | none => m.made writes

/-- All slots of a stage are there, and none has a value. -/
structure BlankFor (m : SlotMap α) (s : Stage) : Prop where
  blank : m.isBlank = true
  inputs : m.inputs.length = s.inputs.length
  outputs : m.outputs.length = s.outputs.length

variable (m : SlotMap α)

@[simp] lemma after_nil : m.after [] = m := rfl

@[simp] lemma after_cons (w : Slot × α) (writes : List (Slot × α)) :
    m.after (w :: writes) = (m.write w).after writes := rfl

lemma after_append (first second : List (Slot × α)) :
    m.after (first ++ second) = (m.after first).after second := List.foldl_append

@[simp] lemma has_input (i : ℕ) : m.Has (.input i) ↔ i < m.inputs.length := Iff.rfl

@[simp] lemma has_output (i : ℕ) : m.Has (.output i) ↔ i < m.outputs.length := Iff.rfl

@[simp] lemma has_slots (s : Stage) (slot : Slot) :
    (s.slots : SlotMap α).Has slot ↔ s.HasSlot slot := by
  cases slot <;> simp [Stage.slots, blank, Stage.HasSlot]

/-! ### One write -/

/-- A write is made, or there is no such slot and nothing changes. -/
lemma write_cases (w : Slot × α) :
    m.Has w.1 ∧ m.set? w.1 w.2 = some (m.write w) ∨
      ¬ m.Has w.1 ∧ m.set? w.1 w.2 = none ∧ m.write w = m := by
  obtain ⟨slot, value⟩ := w
  cases slot with
  | input i => by_cases h : i < m.inputs.length <;> simp [write, set?, h]
  | output i => by_cases h : i < m.outputs.length <;> simp [write, set?, h]

lemma on_set? {n : SlotMap α} {slot : Slot} {value : α} (h : m.set? slot value = some n)
    (side : Side) : n.on side =
      if slot.side = side then (m.on side).set slot.index (some value) else m.on side := by
  cases slot with
  | input i =>
    obtain ⟨-, rfl⟩ : i < m.inputs.length ∧
        { m with inputs := m.inputs.set i (some value) } = n := by simpa [set?] using h
    cases side <;> rfl
  | output i =>
    obtain ⟨-, rfl⟩ : i < m.outputs.length ∧
        { m with outputs := m.outputs.set i (some value) } = n := by simpa [set?] using h
    cases side <;> rfl

/-- A write goes to the side of its slot. Where there is no such slot, `List.set` does nothing. -/
lemma on_write (w : Slot × α) (side : Side) :
    (m.write w).on side =
      if w.1.side = side then (m.on side).set w.1.index (some w.2) else m.on side := by
  rcases m.write_cases w with ⟨-, set⟩ | ⟨lacks, -, kept⟩
  · exact m.on_set? set side
  · have same : (m.on w.1.side).set w.1.index (some w.2) = m.on w.1.side :=
      List.set_eq_of_length_le (Nat.le_of_not_lt lacks)
    rw [kept]
    split
    · next own => rw [← own, same]
    · rfl

@[simp] lemma length_on_write (w : Slot × α) (side : Side) :
    ((m.write w).on side).length = (m.on side).length := by
  rw [on_write]
  split <;> simp

/-! ### Many writes -/

@[simp] lemma length_on_after (writes : List (Slot × α)) (side : Side) :
    ((m.after writes).on side).length = (m.on side).length := by
  induction writes generalizing m with
  | nil => rfl
  | cons w writes ih => rw [after_cons, ih, length_on_write]

@[simp] lemma has_after (writes : List (Slot × α)) (slot : Slot) :
    (m.after writes).Has slot ↔ m.Has slot := by
  rw [Has, Has, length_on_after]

/-- Which writes are made depends on their slots alone. -/
lemma made_eq (writes : List (Slot × α)) : m.made writes = writes.filter (m.Has ·.1) := by
  induction writes generalizing m with
  | nil => rfl
  | cons w writes ih =>
    have same (slot : Slot) : (m.write w).Has slot ↔ m.Has slot := m.has_after [w] slot
    rcases m.write_cases w with ⟨has, set⟩ | ⟨lacks, refused, -⟩
    · simp only [made, set, ih, same, List.filter_cons, has, decide_true, if_true]
    · simp only [made, refused, ih, List.filter_cons, lacks, decide_false, Bool.false_eq_true,
        if_false]

/-- A slot holds what was last written to it, and before that what it held at first. -/
lemma get?_after (writes : List (Slot × α)) (slot : Slot) :
    (m.after writes).get? slot =
      ((m.made writes).reverse.lookup slot).or (m.get? slot) := by
  rw [made_eq]
  -- from the end, so that the write in hand is the last one
  induction writes using List.reverseRecOn with
  | nil => rfl
  | append_singleton writes w ih =>
    obtain ⟨target, value⟩ := w
    rw [after_append, List.filter_append, List.reverse_append, after_cons, after_nil]
    rcases (m.after writes).write_cases (target, value) with ⟨has, set⟩ | ⟨lacks, -, same⟩
    · rw [has_after] at has
      rw [get?_set? set slot, ih]
      by_cases h : slot = target
      · simp [has, h]
      · simp [has, h, List.lookup_cons, beq_false_of_ne h]
    · rw [has_after] at lacks
      simp [same, ih, lacks]

/-- What is written to one side does not matter to the other. -/
lemma on_after (writes : List (Slot × α)) (side : Side) :
    (m.after writes).on side = (m.after (writes.filter (·.1.side = side))).on side := by
  -- the two runs differ on the other side, so they only agree on this one
  suffices run : ∀ n : SlotMap α, m.on side = n.on side →
      (m.after writes).on side = (n.after (writes.filter (·.1.side = side))).on side from run m rfl
  induction writes generalizing m with
  | nil => exact fun n same => same
  | cons w writes ih =>
    intro n same
    rw [after_cons, List.filter_cons]
    by_cases own : w.1.side = side
    · rw [if_pos (decide_eq_true own), after_cons]
      exact ih _ _ (by rw [on_write, on_write, same])
    · rw [if_neg (by simpa using own)]
      exact ih _ _ (by rw [on_write, if_neg own, same])

/-! ### Blank maps -/

lemma all_isNone_iff (values : List (Option α)) :
    values.all Option.isNone = true ↔ ∀ i : ℕ, values[i]?.join = none := by
  rw [List.all_eq_true]
  constructor
  · intro h i
    cases found : values[i]? with
    | none => rfl
    | some value => simpa using h value (List.mem_of_getElem? found)
  · intro h value hv
    obtain ⟨i, found⟩ := List.mem_iff_getElem?.mp hv
    simpa [found] using h i

lemma isBlank_iff : m.isBlank = true ↔ ∀ slot, m.get? slot = none := by
  rw [isBlank, List.all_append, Bool.and_eq_true, all_isNone_iff, all_isNone_iff]
  constructor
  · rintro ⟨inputs, outputs⟩ (i | i)
    · exact inputs i
    · exact outputs i
  · exact fun h => ⟨fun i => h (.input i), fun i => h (.output i)⟩

end SlotMap

lemma Operator.require_eq (o : Operator) (r : Requirements) : o.require r = r := by
  cases o with
  | stridedSlice masks => rfl

namespace Stage

open SlotMap

variable {α : Type} (s : Stage)

lemma get?_slots_after (writes : List (Slot × α)) (slot : Slot) :
    ((s.slots : SlotMap α).after writes).get? slot =
      ((s.slots.made writes).reverse.lookup slot) := by
  rw [get?_after, slots, get?_blank, Option.or_none]

lemma get?_slots_after_eq_none_iff (writes : List (Slot × α)) (slot : Slot) :
    ((s.slots : SlotMap α).after writes).get? slot = none ↔
      ¬ s.HasSlot slot ∨ ∀ w ∈ writes, w.1 ≠ slot := by
  rw [get?_slots_after, made_eq, List.lookup_eq_none_iff]
  simp only [List.mem_reverse, List.mem_filter, decide_eq_true_eq, has_slots, bne_iff_ne]
  constructor
  · intro h
    by_cases has : s.HasSlot slot
    · exact .inr fun w hw same => h w ⟨hw, same ▸ has⟩ same.symm
    · exact .inl has
  · rintro (lacks | never) w ⟨hw, has⟩ same
    · exact lacks (same ▸ has)
    · exact never w hw same.symm

lemma isBlank_slots_after_iff (writes : List (Slot × α)) :
    ((s.slots : SlotMap α).after writes).isBlank = true ↔ s.slots.made writes = [] := by
  simp only [isBlank_iff, get?_slots_after, List.lookup_eq_none_iff, List.mem_reverse, bne_iff_ne]
  constructor
  · intro h
    exact List.eq_nil_iff_forall_not_mem.mpr fun w hw => h w.1 w hw rfl
  · intro h
    simp [h]

lemma slots_write_cases (writes : List (Slot × α)) (slot : Slot) (value : α) :
    let m : SlotMap α := s.slots.after writes
    let next : SlotMap α := s.slots.after (writes ++ [(slot, value)])
    s.HasSlot slot ∧ m.set? slot value = some next ∨
      ¬ s.HasSlot slot ∧ m.set? slot value = none ∧ next = m := by
  intro m next
  have last : next = m.write (slot, value) := s.slots.after_append writes [(slot, value)]
  have has : m.Has slot ↔ s.HasSlot slot := (has_after _ writes slot).trans (has_slots s slot)
  rw [last, ← has]
  exact m.write_cases (slot, value)

lemma blankFor_slots : (s.slots : SlotMap α).BlankFor s where
  blank := (isBlank_iff _).mpr fun slot => get?_blank _ _ slot
  inputs := List.length_replicate
  outputs := List.length_replicate

/-- **A slot holds what was last written to it.** Whatever is written to the slots of a stage, and
however often, there remain as many as the stage has tensors. A write is refused, and changes
nothing, exactly if its slot is not there. A slot holds the value of the last write to it that was
made, and none if there was none, as when it is not there. Either side is as its own writes leave
it, and no slot has a value only if no write was made. What a stage asks of its tensors begins with
blank slots, and no operator writes to any. -/
theorem slots_after :
    (∀ (α : Type) (writes : List (Slot × α)),
      let m : SlotMap α := s.slots.after writes
      m.inputs.length = s.inputs.length ∧ m.outputs.length = s.outputs.length ∧
      (∀ slot value, let next : SlotMap α := s.slots.after (writes ++ [(slot, value)])
        s.HasSlot slot ∧ m.set? slot value = some next ∨
          ¬ s.HasSlot slot ∧ m.set? slot value = none ∧ next = m) ∧
      (∀ slot, m.get? slot = (s.slots.made writes).reverse.lookup slot) ∧
      (∀ slot, m.get? slot = none ↔ ¬ s.HasSlot slot ∨ ∀ w ∈ writes, w.1 ≠ slot) ∧
      (∀ side, m.on side = (s.slots.after (writes.filter (·.1.side = side))).on side) ∧
      (m.isBlank = true ↔ s.slots.made writes = [])) ∧
    s.requirements.order.BlankFor s ∧ s.requirements.strides.BlankFor s ∧
      s.requirements.layout.BlankFor s ∧ s.requirements.batch.BlankFor s := by
  constructor
  · intro α writes m
    have lengths (side : Side) : (m.on side).length = ((s.slots : SlotMap α).on side).length :=
      length_on_after _ writes side
    exact ⟨(lengths .inputs).trans s.blankFor_slots.inputs,
      (lengths .outputs).trans s.blankFor_slots.outputs, s.slots_write_cases writes,
      s.get?_slots_after writes, s.get?_slots_after_eq_none_iff writes, on_after _ writes,
      s.isBlank_slots_after_iff writes⟩
  · rw [requirements, Operator.require_eq]
    exact ⟨s.blankFor_slots, s.blankFor_slots, s.blankFor_slots, s.blankFor_slots⟩

example : (SlotMap.blank 2 1).after [(.input 1, 'a'), (.output 1, 'b'), (.input 1, 'c')] =
    ⟨[none, some 'c'], [none]⟩ := by decide

end Stage

end SliceCompiler
