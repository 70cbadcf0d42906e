import Mathlib
import SliceCompiler.Proofs.Regularity

/-!
How regions are filled. A new tensor begins where its region ends, and the region then ends behind
it, so the tensors of a region lie one behind the other in the order of their places, with nothing
between them. The ends of the regions are kept apart from the tensors: going back sets them by the
checkpoint and cuts the tensors off, and they still fit. Where a region is too small for its
tensors its end wraps around, and is right again as soon as enough of them are taken back.
-/

namespace SliceCompiler

/-- The bytes that tensors take in a region when they lie one behind the other. -/
def filled (r : Region) (ts : List Tensor) : ℕ :=
  ((ts.filter (·.region = r)).map (·.layout.byteSize)).sum

/-- The bytes of a tensor in its region. -/
def Tensor.span (t : Tensor) : Set ℕ := Set.Ico t.offset (t.offset + t.layout.byteSize)

variable {r : Region} {ts us : List Tensor} {t u : Tensor}

@[simp] lemma filled_nil (r : Region) : filled r [] = 0 := rfl

lemma filled_append (r : Region) (ts us : List Tensor) :
    filled r (ts ++ us) = filled r ts + filled r us := by
  simp [filled]

lemma filled_singleton (r : Region) (t : Tensor) :
    filled r [t] = if t.region = r then t.layout.byteSize else 0 := by
  by_cases h : t.region = r <;> simp [filled, h]

lemma filled_mono (h : ts <+: us) : filled r ts ≤ filled r us := by
  obtain ⟨rest, rfl⟩ := h
  rw [filled_append]
  exact Nat.le_add_right _ _

/-- What a region is filled with depends on where tensors lie and on their layouts only. -/
lemma filled_congr (h : ts.map (fun t => (t.region, t.layout)) =
    us.map fun t => (t.region, t.layout)) : filled r ts = filled r us := by
  have eq (xs : List Tensor) : filled r xs =
      (((xs.map fun t => (t.region, t.layout)).filter (·.1 = r)).map (·.2.byteSize)).sum := by
    simp [filled, List.filter_map, Function.comp_def]
  rw [eq, eq, h]

namespace Model

/-- Every tensor that takes memory begins where those in front of it end, and every region ends
where all of its tensors do, in 64 bits. No memory is in use nowhere. -/
structure Packed (m : Model) : Prop where
  offset : ∀ {id t}, m.tensor? id = some t → t.region ≠ .nowhere →
    t.offset = Size.wrap (filled t.region (m.tensors.take id))
  size : ∀ {r}, r ≠ .nowhere → m.areas.size r = Size.wrap (filled r m.tensors)
  nowhere : m.areas.size .nowhere = 0

/-- The regions are large enough for the tensors that lie in them. -/
def Roomy (m : Model) : Prop := ∀ r, r ≠ .nowhere → filled r m.tensors < UInt64.size

variable {direct : Bool} {m n : Model} {s : Stage} {id i j : TensorId}

/-- A stage that is appended moves no tensor. -/
lemma regions_link (m : Model) (s : Stage) :
    ((m.link s).tensors.map fun t => (t.region, t.layout)) =
      m.tensors.map fun t => (t.region, t.layout) := by
  refine List.ext_getElem? fun id => ?_
  have linked := m.tensor?_link s id
  simp only [tensor?] at linked
  rw [List.getElem?_map, List.getElem?_map, linked, Option.map_map]
  rfl

namespace Packed

lemma empty (name : String) : (Model.empty name).Packed :=
  ⟨by simp [Model.empty, tensor?], fun {r} _ => by cases r <;> rfl, rfl⟩

/-- A new tensor takes its memory at the end of its region. -/
lemma add (h : m.Packed) (name : String) (role : Role) (layout : Layout)
    (content : Option Content) : (m.add name role layout content).2.Packed := by
  refine ⟨fun {id t} ht hr => ?_, fun {r} hr => ?_, ?_⟩
  · rcases tensor?_add_cases ht with ht | ⟨rfl, rfl⟩
    · rw [h.offset ht hr, Model.add, List.take_append_of_le_length (lt_of_tensor? ht).le]
    · rw [Model.add, List.take_left]
      exact (m.areas.next_of_ne hr).trans (h.size hr)
  · rw [areas_add, Areas.size_grow, h.size hr, Model.add, filled_append, filled_singleton]
    by_cases same : role.region = r
    · simp [same, hr]
    · simp [same]
  · rw [areas_add, Areas.size_grow, if_neg fun both => both.2 both.1, h.nowhere]

lemma link (h : m.Packed) (s : Stage) : (m.link s).Packed := by
  have regions := regions_link m s
  refine ⟨fun {id u} hu hr => ?_, fun {r} hr => ?_, h.nowhere⟩
  · rw [tensor?_link] at hu
    obtain ⟨t, ht, rfl⟩ := Option.map_eq_some_iff.mp hu
    refine (h.offset ht hr).trans (congrArg Size.wrap (filled_congr ?_))
    rw [List.map_take, List.map_take, regions]
  · rw [areas_link, h.size hr, filled_congr regions]

/-! ### Regions with room for their tensors -/

variable (room : m.Roomy)

include room

lemma size_eq (h : m.Packed) {r : Region} (hr : r ≠ .nowhere) :
    m.areas.size r = filled r m.tensors := by
  rw [h.size hr, Size.wrap_of_lt (room r hr)]

lemma offset_eq (h : m.Packed) (ht : m.tensor? id = some t) (hr : t.region ≠ .nowhere) :
    t.offset = filled t.region (m.tensors.take id) := by
  have inside : filled t.region (m.tensors.take id) < UInt64.size :=
    (filled_mono (List.take_prefix _ _)).trans_lt (room _ hr)
  rw [h.offset ht hr, Size.wrap_of_lt inside]

/-- A tensor and those in front of it reach up to its end. -/
lemma end_eq (h : m.Packed) (ht : m.tensor? id = some t) (hr : t.region ≠ .nowhere) :
    t.offset + t.layout.byteSize = filled t.region (m.tensors.take (id + 1)) := by
  have next : m.tensors.take (id + 1) = m.tensors.take id ++ [t] := by
    rw [List.take_add_one, show m.tensors[id]? = some t from ht, Option.toList_some]
  rw [next, filled_append, filled_singleton, if_pos rfl, ← h.offset_eq room ht hr]

/-- A tensor ends before those behind it in its region begin. -/
lemma end_le_offset (h : m.Packed) (ht : m.tensor? i = some t) (hu : m.tensor? j = some u)
    (hij : i < j) (same : t.region = u.region) (hr : t.region ≠ .nowhere) :
    t.offset + t.layout.byteSize ≤ u.offset := by
  rw [h.end_eq room ht hr, h.offset_eq room hu (same ▸ hr), same]
  exact filled_mono (List.take_prefix_take_left hij)

/-- Tensors of one region share no byte. -/
lemma disjoint_span (h : m.Packed) (ht : m.tensor? i = some t) (hu : m.tensor? j = some u)
    (hij : i ≠ j) (same : t.region = u.region) (hr : t.region ≠ .nowhere) :
    Disjoint t.span u.span := by
  rw [Tensor.span, Tensor.span, Set.Ico_disjoint_Ico]
  rcases Nat.lt_or_gt_of_ne hij with lt | gt
  · have := h.end_le_offset room ht hu lt same hr
    omega
  · have := h.end_le_offset room hu ht gt same.symm (same ▸ hr)
    omega

/-- A tensor lies inside its region. -/
lemma span_subset (h : m.Packed) (ht : m.tensor? id = some t) (hr : t.region ≠ .nowhere) :
    t.span ⊆ Set.Ico 0 (m.areas.size t.region) := by
  refine Set.Ico_subset_Ico (Nat.zero_le _) ?_
  rw [h.end_eq room ht hr, h.size_eq room hr]
  exact filled_mono (List.take_prefix _ _)

end Packed

lemma Change.packed (h : Change direct m n) (hm : m.Packed) : n.Packed :=
  h.keeps (P := Packed) (fun name _ hm => hm.add name _ _ _) (fun {_ s} _ hm => hm.link s) hm

/-- **Regions are filled without gaps.** In every model that is reached by going back in order and
whose regions are large enough for its tensors, a tensor lies in the region of its role and begins
where the ones in front of it in that region end, and the region ends where all of them do. So no
two tensors share a byte, and none lies outside its region. Placeholders lie nowhere, at 0, and
take no memory. -/
theorem packed_of_reachable (h : m.Reachable .stack) (room : m.Roomy) :
    (∀ id t, m.tensor? id = some t → t.region = t.role.region ∧
      (t.region ≠ .nowhere → t.offset = filled t.region (m.tensors.take id) ∧
        t.span ⊆ Set.Ico 0 (m.areas.size t.region)) ∧
      (t.isPlaceholder = true → t.region = .nowhere ∧ t.offset = 0)) ∧
    (∀ i j t u, m.tensor? i = some t → m.tensor? j = some u → i ≠ j → t.region = u.region →
      t.region ≠ .nowhere → Disjoint t.span u.span) ∧
    (∀ r, r ≠ .nowhere → m.areas.size r = filled r m.tensors) ∧ m.areas.size .nowhere = 0 := by
  obtain ⟨name, grown⟩ := h.grows
  have packed : m.Packed := grown.invariant Change.packed (.empty name)
  have regular := h.regular
  refine ⟨fun id t ht => ⟨(regular id t ht).region, fun hr => ?_, fun hp => ?_⟩, ?_, ?_,
    packed.nowhere⟩
  · exact ⟨packed.offset_eq room ht hr, packed.span_subset room ht hr⟩
  · have role : t.role = .placeholder := by simpa [Tensor.isPlaceholder] using hp
    rw [(regular id t ht).region, role]
    exact ⟨rfl, ((regular id t ht).placeholder hp).1⟩
  · exact fun i j t u ht hu hij same hr => packed.disjoint_span room ht hu hij same hr
  · exact fun r hr => packed.size_eq room hr

/-- A constant that is refused, tensors that are taken back, two of which are too large for their
region, a layer that is rejected, and a tensor without bytes: the next one begins where it does. -/
theorem packed_of_reachable_gone :
    let half : Layout := ⟨.u8, [9223372036854775808]⟩
    let m := (Session.run .stack ⟨empty "m", []⟩
      [.run (.addInput "x" ⟨.fp16, [2, 4]⟩), .mark,
        .run (.addConst "k" ⟨.s32, [2]⟩ (.ofInts [1])), .run (.addInput "w" half), .mark,
        .run (.addIntermediate "v" ⟨.u8, [7]⟩), .run (.addInput "w" half), .undo 1,
        .run (.addInput "begin" ⟨.s32, [1]⟩), .run (.addInput "void" ⟨.s32, [0]⟩),
        .run (.addOutput "y" ⟨.fp16, [2]⟩),
        .run (.lowerLayer {} (.stridedSlice "a" [0, 1, 1] 3)),
        .run (.lowerLayer {} (.stridedSlice "b" [0, 1, 1] 3)),
        .run (.addInput "z" ⟨.s32, [2]⟩)]).model
    m.Reachable .stack ∧ m.Roomy ∧
      m.tensors.map (fun t => (t.region, t.offset)) =
        [(.input, 0), (.input, 16), (.input, 20), (.output, 0), (.nowhere, 0), (.input, 20)] ∧
      m.areas.size .input = 28 ∧ m.areas.size .nowhere = 0 ∧
      ∀ r, r ≠ .nowhere → m.areas.size r = filled r m.tensors := by
  intro half m
  have reached : m.Reachable .stack := ⟨"m", _, rfl⟩
  have room : m.Roomy := fun r _ => by cases r <;> decide +kernel
  obtain ⟨-, -, sizes, nowhere⟩ := packed_of_reachable reached room
  exact ⟨reached, room, by decide +kernel, by decide +kernel, nowhere, sizes⟩

end Model

end SliceCompiler
