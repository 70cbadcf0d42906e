import SliceCompiler.Proofs.Changes

/-!
What a layer that is lowered leaves behind, in full: one stage, at most one new tensor, and the
number of the stage with the tensors that it reads and writes. The model after lowering is given
as a whole, so that nothing else can have changed; a layer may name a tensor several times, and
may write what it reads.
-/

namespace SliceCompiler

namespace Model

/-- The tensors after a stage was appended, place by place. -/
lemma tensors_link (m : Model) (s : Stage) : (m.link s).tensors =
    m.tensors.mapIdx fun id t =>
      t.linked m.stages.length (s.inputs.count id) (id ∈ s.outputs) := by
  refine List.ext_getElem? fun id => ?_
  rw [List.getElem?_mapIdx]
  exact m.tensor?_link s id

/-- The tensor that stands in for strides that a layer leaves out. -/
def standIn (m : Model) : Tensor where
  id := m.tensors.length
  name := s!"@fake_{m.tensors.length}"
  role := .placeholder
  layout := ⟨.fp16, [1]⟩
  content := none
  region := .nowhere
  offset := 0
  producer := none
  consumers := []

lemma addPlaceholder_eq (m : Model) :
    m.addPlaceholder = (m.tensors.length, { m with tensors := m.tensors ++ [m.standIn] }) := rfl

end Model

/-- The tensors that come with a layer when it is lowered into `m`. -/
def Layer.added (l : Layer) (m : Model) : List Tensor :=
  if l.inputs.length = 3 then [m.standIn] else []

/-- What comes with a layer counts for none of the tensors that were there before. -/
lemma Layer.count_added (l : Layer) {m : Model} {i : TensorId} (hi : i < m.tensors.length) :
    (l.inputs ++ (l.added m).map (·.id)).count i = l.inputs.count i := by
  rw [List.count_append, Nat.add_eq_left, List.count_eq_zero]
  unfold added
  split <;> simp [Model.standIn, hi.ne]

namespace Slice.Planned

variable {l : Layer} {m : Model} {p : Plan} {ts : SliceTensors}

lemma length_inputs (h : Planned l m p ts) : l.inputs.length = 3 ∨ l.inputs.length = 4 := by
  rw [h.inputs]
  cases hs : ts.strides <;> simp [SliceTensors.inputs, hs]

/-- The inputs of the stage are those of the layer, and the tensor that comes with it. -/
lemma supply_eq (h : Planned l m p ts) : p.operands.supply m =
    (l.inputs ++ (l.added m).map (·.id), { m with tensors := m.tensors ++ l.added m }) := by
  obtain ⟨e, -⟩ := operands_eq_ok_iff.mp h.operands
  unfold Layer.added
  rw [e, h.inputs]
  cases hs : ts.strides with
  | none => simp [Operands.supply, SliceTensors.inputs, hs, Model.addPlaceholder_eq, Model.standIn]
  | some id => simp [Operands.supply, SliceTensors.inputs, hs]

/-- The tensor that is written was there before. -/
lemma lt_of_output (h : Planned l m p ts) : ts.output < m.tensors.length :=
  SliceTensors.known_of_check h.fits _ (by simp)

/-- A tensor that comes with the layer stays without links: a placeholder does not list its
readers, and the output is another tensor. -/
lemma linked_added (h : Planned l m p ts) (k : StageId) (reads : ℕ → ℕ) :
    (l.added m).mapIdx (fun i t =>
      t.linked k (reads (i + m.tensors.length)) (i + m.tensors.length ∈ l.outputs)) =
      l.added m := by
  have other : m.tensors.length ≠ ts.output := h.lt_of_output.ne'
  unfold Layer.added
  split <;> simp [h.outputs, other, Tensor.linked, Tensor.isPlaceholder, Model.standIn]

/-- The model after lowering, in terms of the layer. -/
lemma lowered_eq (h : Planned l m p ts) : lowered l p m =
    { m with
      tensors := m.tensors.mapIdx (fun i t =>
        t.linked m.stages.length (l.inputs.count i) (i ∈ l.outputs)) ++ l.added m
      stages := m.stages ++ [stage l (l.inputs ++ (l.added m).map (·.id)) p.masks] } := by
  unfold lowered
  rw [h.supply_eq]
  refine Model.ext rfl ?_ rfl rfl
  rw [Model.tensors_link, List.mapIdx_append]
  congr 1
  · refine List.mapIdx_eq_mapIdx_iff.mpr fun i hi => ?_
    rw [stage, l.count_added hi]
  · exact h.linked_added m.stages.length fun i => (l.inputs ++ (l.added m).map (·.id)).count i

end Slice.Planned

/-- **What a lowered layer leaves behind.** The answer is the number of one new stage, with the
label of the layer, its masks as they are decoded, its output and its inputs; where there are only
three, a placeholder that is added last takes the place of the strides. The output gets the stage
as its producer, and every input that is no placeholder gets it as a consumer as often as the layer
names it. All else is as it was: the other fields of the tensors, the earlier stages and the sizes
of the regions. -/
theorem Model.lowerLayer_effect {m : Model} {config : Config} {l : Layer} {id : StageId}
    (h : (m.lowerLayer config l).result = .ok id) :
    ∃ beginMask endMask output,
      Mask.decode (l.param "begin_mask" "") = .ok beginMask ∧
      Mask.decode (l.param "end_mask" "") = .ok endMask ∧
      l.outputs = [output] ∧ (l.inputs.length = 3 ∨ l.inputs.length = 4) ∧
      id = m.stages.length ∧
      (m.lowerLayer config l).model =
        { name := m.name
          tensors := m.tensors.mapIdx (fun i t =>
            { t with
              producer := if i = output then some id else t.producer
              consumers :=
                if t.role = .placeholder then t.consumers
                else t.consumers ++ List.replicate (l.inputs.count i) id }) ++ l.added m
          stages := m.stages ++
            [{ label := l.label
               operator := .stridedSlice ⟨beginMask, endMask⟩
               inputs := l.inputs ++ (l.added m).map (·.id)
               outputs := [output] }]
          areas := m.areas } := by
  rw [result_lowerLayer] at h
  cases hp : l.plan m with
  | error reason => simp [hp] at h
  | ok p =>
    obtain rfl : m.stages.length = id := by simpa [hp] using h
    obtain ⟨ts, planned⟩ := planned_of_plan hp
    obtain ⟨beginMask, hb, kept⟩ := bind_eq_ok_iff.mp planned.masks
    obtain ⟨endMask, he, kept⟩ := bind_eq_ok_iff.mp kept
    have masks : SliceMasks.mk beginMask endMask = p.masks := Except.ok.inj kept
    refine ⟨beginMask, endMask, ts.output, Slice.mask_eq_ok_iff.mp hb, Slice.mask_eq_ok_iff.mp he,
      planned.outputs, planned.length_inputs, rfl, ?_⟩
    rw [model_lowerLayer_of_plan hp, planned.lowered_eq, ← masks, Slice.stage, planned.outputs]
    simp only [Tensor.linked, Tensor.isPlaceholder, List.mem_singleton, decide_eq_true_eq]

/-- The layer writes a tensor that it reads twice, and leaves the strides out. -/
theorem Model.lowerLayer_effect_aliased :
    let m := (Session.run .free ⟨empty "m", []⟩
      [.run (.addInput "x" ⟨.s32, [4]⟩), .run (.addOutput "y" ⟨.s32, [2]⟩), .mark,
        .run (.lowerLayer {} (Layer.stridedSlice "a" [0, 0, 0] 1)),
        .run (.addOutput "z" ⟨.s32, [2]⟩)]).model
    let l := Layer.maskedSlice "b" [3, 0, 3] 3 "1" "0,1"
    let n := (m.lowerLayer {} l).model
    (m.lowerLayer {} l).result = .ok 1 ∧
      n.tensors.map (fun t => (t.name, t.producer, t.consumers)) =
        [("x", none, [0, 0, 0, 1]), ("y", some 0, []), ("@fake_2", none, []),
          ("z", some 1, [1, 1]), ("@fake_4", none, [])] ∧
      n.stages = m.stages ++ [⟨⟨"b", "StridedSlice"⟩, .stridedSlice ⟨1, 2⟩, [3, 0, 3, 4], [3]⟩] ∧
      n.areas = m.areas := by
  intro m l n
  have lowered : (m.lowerLayer {} l).result = .ok 1 := by decide +kernel
  obtain ⟨beginMask, endMask, output, hb, he, ho, -, -, effect⟩ := lowerLayer_effect lowered
  obtain rfl : (1 : Mask) = beginMask := Except.ok.inj (Eq.trans (by decide +kernel) hb)
  obtain rfl : (2 : Mask) = endMask := Except.ok.inj (Eq.trans (by decide +kernel) he)
  obtain rfl : 3 = output := List.singleton_inj.mp ho
  have after : n = _ := effect
  rw [after]
  exact ⟨lowered, by decide +kernel, by decide +kernel, rfl⟩

end SliceCompiler
