import SliceCompiler.Proofs.Undo

/-!
Operations that fail. By the time a layer is rejected a placeholder may have been added for it, and
then the model is taken back. However far lowering has come, it has only extended the model, and a
model whose links lead to stages of its own is found again below each of its extensions. All
reachable models are of that kind, those left by going back to a stale checkpoint among them, so
an operation that fails leaves no trace.
-/

namespace SliceCompiler

namespace Slice

/-- Wherever it stops, and whatever the plan, appending a stage has only extended the model. -/
lemma extends_appendStage (recheck : Bool) (l : Layer) (p : Plan) (m : Model) :
    m.Extends (appendStage recheck l p m).model := by
  have supplied := extends_supply p.operands m
  unfold appendStage
  dsimp only
  split
  · -- the stage fails its own check: at most the placeholder is there
    exact supplied
  · split <;> exact supplied.trans (Model.grows_addStage _ _).extends

lemma extends_lower (recheck : Bool) (l : Layer) (m : Model) :
    m.Extends (lower recheck l m).model := by
  unfold lower
  split
  · exact .refl m
  · exact extends_appendStage recheck l _ m

end Slice

namespace Model

variable {d : Discipline} {m : Model}

/-- A layer that is rejected leaves the model as it was, whatever it was rejected for. -/
lemma lowerLayer_of_error (hm : m.Linked) {config : Config} {l : Layer} {r : Rejection}
    (h : (m.lowerLayer config l).result = .error r) : (m.lowerLayer config l).model = m := by
  revert h
  unfold lowerLayer
  rcases Opcode.ofLayerType? l.label.type with _ | ⟨⟨⟩⟩
  · exact fun _ => rfl
  · dsimp only
    cases hl : (Slice.lower config.recheck l m).result with
    | ok id => simp [hl]
    | error r => exact fun _ => (Slice.extends_lower config.recheck l m).rollback hm

/-- A constant is looked at before the model changes. -/
lemma addConst_of_error {name : String} {layout : Layout} {content : Content} {fault : ModelFault}
    (h : (m.addConst name layout content).result = .error fault) :
    (m.addConst name layout content).model = m := by
  unfold addConst at h ⊢
  split
  · rfl
  · split
    · rfl
    · next type size =>
      -- a constant of the right type and size is taken
      rw [if_neg type, if_neg size] at h
      cases h

/-- A stage is looked at before it is linked to its tensors. -/
lemma addStage_of_error {s : Stage} {fault : ModelFault}
    (h : (m.addStage s).result = .error fault) : (m.addStage s).model = m := by
  unfold addStage at h ⊢
  cases hf : m.stageFault? s with
  | some found => rfl
  | none =>
    rw [hf] at h
    cases h

/-- **Failing operations change nothing.** A layer that is rejected, a constant that is refused and
a stage that is refused leave every reachable model as it was, even after going back to
checkpoints in any order. -/
theorem unchanged_of_error (h : m.Reachable d) :
    (∀ config l rejection, (m.lowerLayer config l).result = .error rejection →
      (m.lowerLayer config l).model = m) ∧
    (∀ name layout content fault, (m.addConst name layout content).result = .error fault →
      (m.addConst name layout content).model = m) ∧
    ∀ s fault, (m.addStage s).result = .error fault → (m.addStage s).model = m := by
  refine ⟨fun config l r hr => ?_, fun name layout content fault refused => ?_,
    fun s fault refused => ?_⟩
  · exact lowerLayer_of_error h.linked hr
  · exact addConst_of_error refused
  · exact addStage_of_error refused

/-- A stale checkpoint has left `m` with a stage whose input is gone. Strides that are not positive,
a constant of the wrong size and a second producer are turned away without a trace. -/
theorem unchanged_of_error_stale :
    let slice (inputs outputs : List TensorId) : Stage :=
      ⟨⟨"s", "StridedSlice"⟩, .stridedSlice ⟨0, 0⟩, inputs, outputs⟩
    let m := (Session.run .free ⟨empty "m", []⟩
      [.mark, .run (.addInput "x" ⟨.s32, [1]⟩), .run (.addStage (slice [0] [])), .mark, .undo 1,
        .run (.addConst "k" ⟨.s32, [2]⟩ (.ofInts [1, 0])), .run (.addOutput "y" ⟨.s32, [2]⟩),
        .run (.addOutput "z" ⟨.s32, [2]⟩), .run (.addInput "w" ⟨.s32, [2]⟩),
        .run (.addStage (slice [0, 3] [])), .undo 0,
        .run (.addOutput "y" ⟨.s32, [2]⟩), .run (.addOutput "z" ⟨.s32, [2]⟩),
        .run (.addStage (slice [0] [1]))]).model
    let l := Layer.stridedSlice "l" [0, 0, 0, 0] 2
    m.Reachable .free ∧ m.stages.map (·.inputs) = [[0, 3], [0]] ∧ m.tensors.length = 3 ∧
      (m.lowerLayer {} l).result = .error ⟨l.label, .nonPositiveStride 1 0⟩ ∧
      (m.lowerLayer {} l).model = m ∧
      (m.addConst "c" ⟨.s32, [2]⟩ (.ofInts [1])).result = .error (.contentSize "c" 4 8) ∧
      (m.addConst "c" ⟨.s32, [2]⟩ (.ofInts [1])).model = m ∧
      (m.addStage (slice [2] [1])).result = .error (.producedTwice "s" "y" "s") ∧
      (m.addStage (slice [2] [1])).model = m := by
  intro slice m l
  have reached : m.Reachable .free := ⟨"m", _, rfl⟩
  have rejected : (m.lowerLayer {} l).result = .error ⟨l.label, .nonPositiveStride 1 0⟩ := by
    decide +kernel
  have short : (m.addConst "c" ⟨.s32, [2]⟩ (.ofInts [1])).result =
      .error (.contentSize "c" 4 8) := by decide +kernel
  have again : (m.addStage (slice [2] [1])).result = .error (.producedTwice "s" "y" "s") := by
    decide +kernel
  obtain ⟨layer, const, stage⟩ := unchanged_of_error reached
  exact ⟨reached, by decide +kernel, by decide +kernel, rejected, layer {} l _ rejected,
    short, const _ _ _ _ short, again, stage _ _ again⟩

end Model

end SliceCompiler
