import Mathlib
import SliceCompiler.Proofs.Lookups

/-!
Addresses of elements. The strides of a layout are made axis by axis and its size is made of all
dimensions at once; both count the positions of a box in row-major order. An index has its place in
that order, its address is that many elements on, and so the elements of a tensor lie side by side,
in the order of their indices, and fill the tensor. All this is so as long as the size of the tensor
does not wrap around; a tensor without elements has no addresses, and its strides may.
-/

namespace SliceCompiler.Layout

/-! ### Places in a box -/

/-- The number of positions of a box in front of an index, in row-major order. -/
def place : List ℕ → List ℕ → ℕ
  | _ :: inner, i :: index => i * volume inner + place inner index
  | _, _ => 0

variable {dims index other : List ℕ}

lemma place_lt_volume (h : List.Forall₂ (· < ·) index dims) : place dims index < volume dims := by
  induction h with
  | nil => exact Nat.one_pos
  | @cons i d index inner hi _ ih =>
    calc i * volume inner + place inner index
        < i * volume inner + volume inner := Nat.add_lt_add_left ih _
      _ = (i + 1) * volume inner := (Nat.succ_mul i _).symm
      _ ≤ d * volume inner := Nat.mul_le_mul_right _ hi

/-- An index that comes later, axis by axis from the outermost on, has a later place. -/
lemma place_lt_place (hi : List.Forall₂ (· < ·) index dims)
    (hj : List.Forall₂ (· < ·) other dims) (h : List.Lex (· < ·) index other) :
    place dims index < place dims other := by
  induction h generalizing dims with
  | nil => cases hi; cases hj
  | @cons i index other _ ih =>
    cases hi with
    | cons _ hi =>
      cases hj with
      | cons _ hj => exact Nat.add_lt_add_left (ih hi hj) _
  | @rel i index j other less =>
    cases hi with
    | @cons _ d _ inner _ hi =>
      calc i * volume inner + place inner index
          < (i + 1) * volume inner := by
            rw [Nat.succ_mul]
            exact Nat.add_lt_add_left (place_lt_volume hi) _
        _ ≤ j * volume inner := Nat.mul_le_mul_right _ less
        _ ≤ j * volume inner + place inner other := Nat.le_add_right _ _

/-- Every place in a box is that of an index. -/
lemma exists_place {n : ℕ} (h : n < volume dims) :
    ∃ index, List.Forall₂ (· < ·) index dims ∧ place dims index = n := by
  induction dims generalizing n with
  | nil => exact ⟨[], .nil, (Nat.lt_one_iff.mp h).symm⟩
  | cons d inner ih =>
    have inside : 0 < volume inner := Nat.pos_of_mul_pos_left (Nat.zero_lt_of_lt h)
    obtain ⟨index, hi, rest⟩ := ih (Nat.mod_lt n inside)
    refine ⟨n / volume inner :: index, .cons (Nat.div_lt_of_lt_mul ?_) hi, ?_⟩
    · rwa [Nat.mul_comm]
    · rw [place, rest, Nat.div_add_mod']

/-- Steps along the axes lead to the place of the index, a unit for each position in front. Where
there is an index at all no axis is empty, so no step is larger than the box, and none wraps
around. -/
lemma sum_rowMajor {unit : ℕ} (h : List.Forall₂ (· < ·) index dims)
    (fits : volume dims * unit < UInt64.size) :
    (List.zipWith (· * ·) index (rowMajor unit dims)).sum = place dims index * unit := by
  induction h with
  | nil => exact (Nat.zero_mul unit).symm
  | @cons i d index inner hi _ ih =>
    have inside : volume inner * unit < UInt64.size := by
      calc volume inner * unit ≤ d * volume inner * unit :=
            Nat.mul_le_mul_right _ (Nat.le_mul_of_pos_left _ (Nat.zero_lt_of_lt hi))
        _ < UInt64.size := fits
    rw [rowMajor, Size.wrap_of_lt inside, List.zipWith_cons_cons, List.sum_cons, ih inside, place,
      Nat.add_mul, Nat.mul_assoc]

/-! ### Elements of a tensor -/

/-- One position along each axis, outermost first. -/
structure Index (l : Layout) where
  along : List ℕ
  inside : List.Forall₂ (· < ·) along l.dims

/-- The address of an element, from the beginning of the tensor. -/
def address (l : Layout) (i : l.Index) : ℕ := (List.zipWith (· * ·) i.along l.strides).sum

/-- The bytes of an element. -/
def bytes (l : Layout) (i : l.Index) : Set ℕ :=
  Set.Ico (l.address i) (l.address i + l.element.size)

section

variable {l : Layout} (fits : volume l.dims * l.element.size < UInt64.size)

include fits

lemma byteSize_eq_mul : l.byteSize = volume l.dims * l.element.size := by
  rw [byteSize_eq, Size.wrap_of_lt fits]

lemma address_eq (i : l.Index) : l.address i = place l.dims i.along * l.element.size :=
  sum_rowMajor i.inside fits

/-- Elements come in the order of their indices. -/
lemma address_lt {i j : l.Index} (h : List.Lex (· < ·) i.along j.along) :
    l.address i + l.element.size ≤ l.address j := by
  have before := place_lt_place i.inside j.inside h
  calc l.address i + l.element.size
      = (place l.dims i.along + 1) * l.element.size := by rw [address_eq fits, Nat.succ_mul]
    _ ≤ place l.dims j.along * l.element.size := Nat.mul_le_mul_right _ before
    _ = l.address j := (address_eq fits j).symm

/-- Different elements share no byte. -/
lemma disjoint_bytes {i j : l.Index} (h : i ≠ j) : Disjoint (l.bytes i) (l.bytes j) := by
  have other : i.along ≠ j.along := fun same => h (by cases i; cases j; congr)
  rw [bytes, bytes, Set.Ico_disjoint_Ico]
  rcases trichotomous_of (List.Lex (· < ·)) i.along j.along with less | same | more
  · have := address_lt fits less
    omega
  · exact (other same).elim
  · have := address_lt fits more
    omega

/-- Every multiple of the element size inside the tensor is the address of an element. -/
lemma exists_address {n : ℕ} (h : n < volume l.dims) :
    ∃ i : l.Index, l.address i = n * l.element.size := by
  obtain ⟨along, inside, hn⟩ := exists_place h
  exact ⟨⟨along, inside⟩, by rw [address_eq fits, hn]⟩

/-- Every byte of the tensor is in the element that it is counted to. -/
lemma mem_bytes_iff {b : ℕ} : (∃ i, b ∈ l.bytes i) ↔ b < l.byteSize := by
  have pos := l.element.size_pos
  rw [byteSize_eq_mul fits]
  constructor
  · rintro ⟨i, -, hb⟩
    calc b < l.address i + l.element.size := hb
      _ = (place l.dims i.along + 1) * l.element.size := by rw [address_eq fits, Nat.succ_mul]
      _ ≤ volume l.dims * l.element.size := Nat.mul_le_mul_right _ (place_lt_volume i.inside)
  · intro hb
    obtain ⟨i, hi⟩ := exists_address fits (Nat.div_lt_of_lt_mul (by rwa [Nat.mul_comm]))
    refine ⟨i, ?_, ?_⟩
    · rw [hi]
      exact Nat.div_mul_le_self b _
    · rw [hi]
      exact Nat.lt_div_mul_add pos

end

/-- **Row-major strides address a tensor exactly.** There is a stride for each axis, made from the
innermost axis on. If the size of the tensor does not wrap around, an index that comes later in
lexicographic order has a higher address, and the addresses are the multiples of the element size
below the size of the tensor. So different elements share no byte, and the bytes of all elements
together are those of the tensor. -/
theorem address_exact (l : Layout) :
    Strict.strides l = some l.strides ∧ l.strides.length = l.rank ∧
    (volume l.dims * l.element.size < UInt64.size →
      (∀ i j : l.Index, List.Lex (· < ·) i.along j.along → l.address i < l.address j) ∧
      Set.range l.address = {a | l.element.size ∣ a ∧ a < l.byteSize} ∧
      Pairwise (Function.onFun Disjoint l.bytes) ∧ ⋃ i, l.bytes i = Set.Iio l.byteSize) := by
  refine ⟨Strict.strides_eq l, length_strides l, fun fits => ⟨fun i j less => ?_, ?_, ?_, ?_⟩⟩
  · exact Nat.lt_of_lt_of_le (Nat.lt_add_of_pos_right l.element.size_pos) (address_lt fits less)
  · ext a
    constructor
    · rintro ⟨i, rfl⟩
      refine ⟨⟨place l.dims i.along, by rw [address_eq fits, Nat.mul_comm]⟩, ?_⟩
      exact (mem_bytes_iff fits).mp ⟨i, le_rfl, Nat.lt_add_of_pos_right l.element.size_pos⟩
    · rintro ⟨⟨n, rfl⟩, less⟩
      rw [byteSize_eq_mul fits, Nat.mul_comm] at less
      obtain ⟨i, hi⟩ := exists_address fits (Nat.lt_of_mul_lt_mul_right less)
      exact ⟨i, by rw [hi, Nat.mul_comm]⟩
  · exact fun i j other => disjoint_bytes fits other
  · ext b
    rw [Set.mem_iUnion, mem_bytes_iff fits, Set.mem_Iio]

/-- A tensor that takes half of what 64 bits can count, and one without elements whose outermost
stride has wrapped around. -/
theorem address_exact_wide :
    let wide : Layout := ⟨.fp16, [32768, 65536, 1, 65536, 32768]⟩
    let void : Layout := ⟨.u8, [0, 2147483648, 2147483648, 2147483648]⟩
    wide.strides = [281474976710656, 4294967296, 4294967296, 65536, 2] ∧
      wide.byteSize = 9223372036854775808 ∧
      Set.range wide.address = {a | 2 ∣ a ∧ a < wide.byteSize} ∧
      void.strides = [0, 4611686018427387904, 2147483648, 1] ∧ void.byteSize = 0 ∧
      Set.range void.address = {a | 1 ∣ a ∧ a < void.byteSize} := by
  intro wide void
  obtain ⟨-, all, -⟩ := (address_exact wide).2.2 (by decide +kernel)
  obtain ⟨-, none, -⟩ := (address_exact void).2.2 (by decide +kernel)
  exact ⟨by decide +kernel, by decide +kernel, all, by decide +kernel, by decide +kernel, none⟩

end SliceCompiler.Layout
