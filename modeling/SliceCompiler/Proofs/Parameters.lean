import SliceCompiler.Proofs.MaskTexts

/-!
Parameters. Lowering reads five of them, each as a mask, and keeps of a text nothing but the mask
that it spells or the reason why it spells none. So layers that only differ in how their masks are
written, or in other parameters, are lowered alike, also within a list and up to the blob.
-/

namespace SliceCompiler

namespace Mask

/-- Texts that spell masks are read alike if the same flags are set in them: commas carry nothing,
and neither do flags behind the last one that is set. -/
lemma decode_congr {t u : String} (ht : Spells 32 t.toList) (hu : Spells 32 u.toList)
    (same : ∀ i : ℕ, (flagsOf t.toList)[i]? = some '1' ↔ (flagsOf u.toList)[i]? = some '1') :
    decode t = decode u := by
  rw [decode_of_spells ht, decode_of_spells hu]
  refine congrArg _ (eq_of_flag fun i => Bool.eq_iff_iff.mpr ?_)
  rw [flag_of_spells ht, flag_of_spells hu, same]

end Mask

namespace Layer

/-- The parameters that lowering reads. -/
def maskParams : List String :=
  ["begin_mask", "end_mask", "new_axis_mask", "shrink_axis_mask", "ellipsis_mask"]

/-- Layers with the same tensors and masks, however the masks are written. -/
structure Alike (l k : Layer) : Prop where
  label : l.label = k.label
  inputs : l.inputs = k.inputs
  outputs : l.outputs = k.outputs
  masks : ∀ param ∈ maskParams, Mask.decode (l.param param "") = Mask.decode (k.param param "")

lemma Alike.refl (l : Layer) : l.Alike l := ⟨rfl, rfl, rfl, fun _ _ => rfl⟩

/-! ### Settings -/

/-- Of the texts that a parameter is set to, the last one is kept. -/
lemma get?_withParams (l : Layer) (settings : List (String × String)) (param : String) :
    (l.withParams settings).params.get? param =
      (settings.reverse.lookup param).or (l.params.get? param) := by
  induction settings generalizing l with
  | nil => rfl
  | cons setting settings ih =>
    obtain ⟨key, value⟩ := setting
    have rest : (l.withParam key value).withParams settings =
        l.withParams ((key, value) :: settings) := rfl
    rw [← rest, ih, withParam, Params.get?_set, List.reverse_cons, List.lookup_append]
    cases settings.reverse.lookup param with
    | some text => rfl
    | none =>
      -- nothing that is set later is this parameter
      by_cases h : param = key
      · simp [h]
      · simp [List.lookup_cons, h, beq_false_of_ne h]

lemma param_withParams (l : Layer) (settings : List (String × String)) (param default : String) :
    (l.withParams settings).param param default =
      (settings.reverse.lookup param).getD (l.param param default) := by
  rw [Layer.param, get?_withParams]
  cases settings.reverse.lookup param <;> rfl

/-- Settings leave a layer as it was but for its parameters. -/
lemma withParams_eq (l : Layer) (settings : List (String × String)) :
    l.withParams settings = { l with params := (l.withParams settings).params } := by
  induction settings generalizing l with
  | nil => rfl
  | cons setting settings ih => exact ih (l.withParam setting.1 setting.2)

/-- Only the texts that are set last count, and of these only the masks. -/
lemma alike_withParams (l : Layer) {first second : List (String × String)}
    (h : ∀ param ∈ maskParams,
      Mask.decode ((first.reverse.lookup param).getD (l.param param "")) =
        Mask.decode ((second.reverse.lookup param).getD (l.param param ""))) :
    (l.withParams first).Alike (l.withParams second) := by
  refine ⟨?_, ?_, ?_, fun param hp => by rw [param_withParams, param_withParams, h param hp]⟩
  all_goals rw [withParams_eq l first, withParams_eq l second]

end Layer

/-! ### One layer -/

namespace Layer.Alike

open Slice

variable {l k : Layer} (h : l.Alike k)

include h

lemma mask_eq {param : String} (hp : param ∈ maskParams) : mask l param = mask k param := by
  rw [mask, mask, h.masks param hp]

lemma checkUnset_eq {params : List String} (hp : ∀ param ∈ params, param ∈ maskParams) :
    checkUnset l params = checkUnset k params := by
  induction params with
  | nil => rfl
  | cons param params ih =>
    obtain ⟨first, others⟩ := List.forall_mem_cons.mp hp
    rw [checkUnset, checkUnset, h.mask_eq first, ih others]

lemma gate_eq : gate l = gate k := h.checkUnset_eq (by decide)

lemma keptMasks_eq : keptMasks l = keptMasks k := by
  rw [keptMasks, keptMasks, h.mask_eq (by decide), h.mask_eq (by decide)]

lemma validate_eq (m : Model) : validate l m = validate k m := by
  rw [validate, validate, h.inputs, h.outputs]

lemma plan_eq (m : Model) : Slice.plan l m = Slice.plan k m := by
  rw [Slice.plan, Slice.plan, h.validate_eq, h.gate_eq, h.keptMasks_eq]

lemma stage_eq (inputs : List TensorId) (masks : SliceMasks) :
    stage l inputs masks = stage k inputs masks := by
  rw [stage, stage, h.label, h.outputs]

lemma appendStage_eq (recheck : Bool) (p : Plan) (m : Model) :
    appendStage recheck l p m = appendStage recheck k p m := by
  simp only [appendStage, h.stage_eq, h.label]

lemma lower_eq (recheck : Bool) (m : Model) : lower recheck l m = lower recheck k m := by
  simp only [lower, h.plan_eq, h.appendStage_eq, h.label]

lemma lowerLayer_eq (m : Model) (config : Config) :
    m.lowerLayer config l = m.lowerLayer config k := by
  simp only [Model.lowerLayer, h.lower_eq, h.label]

end Layer.Alike

/-! ### Lists -/

namespace Model

open Layer

variable {ls ks : List Layer}

/-- Each layer meets the model that the other one meets at its place. -/
lemma lowerEach_congr (h : List.Forall₂ Alike ls ks) (m : Model) (config : Config) :
    m.lowerEach config ls = m.lowerEach config ks := by
  induction h generalizing m with
  | nil => rfl
  | cons alike _ ih => simp only [lowerEach, alike.lowerLayer_eq, alike.label, ih]

lemma lowerLayers_congr (h : List.Forall₂ Alike ls ks) (m : Model) (config : Config) :
    m.lowerLayers config ls = m.lowerLayers config ks := by
  simp only [lowerLayers, lowerEach_congr h, h.length_eq]

lemma compile_congr (h : List.Forall₂ Alike ls ks) (m : Model) (config : Config) :
    m.compile config ls = m.compile config ks := by
  simp only [compile, lowerLayers_congr h]

end Model

/-- A layer of a list is replaced. -/
lemma Layer.Alike.replace {l k : Layer} (h : l.Alike k) (before after : List Layer) :
    List.Forall₂ Alike (before ++ l :: after) (before ++ k :: after) := by
  induction before with
  | nil => exact .cons h (List.forall₂_same.mpr fun x _ => .refl x)
  | cons x before ih => exact .cons (.refl x) ih

/-- **Parameters count as the masks that they spell.** Layers with the same tensors and masks have
the same answer, leave the same model and report the same, alone, in the place of each other within
a list, and in a compilation. Layers are of this kind if they only differ in settings and the texts
set last are the same masks, whatever else was set, in whatever order; and texts are the same mask
if they have the same flags set, wherever there are commas and however many flags that are not set
follow. -/
theorem Model.lowering_alike (m : Model) (config : Config) :
    (∀ l k : Layer, l.Alike k → m.lowerLayer config l = m.lowerLayer config k ∧
      ∀ before after,
        m.lowerLayers config (before ++ l :: after) =
          m.lowerLayers config (before ++ k :: after) ∧
        m.compile config (before ++ l :: after) = m.compile config (before ++ k :: after)) ∧
    (∀ (l : Layer) (first second : List (String × String)), (∀ param ∈ Layer.maskParams,
        Mask.decode ((first.reverse.lookup param).getD (l.param param "")) =
          Mask.decode ((second.reverse.lookup param).getD (l.param param ""))) →
      (l.withParams first).Alike (l.withParams second)) ∧
    ∀ t u : String, Mask.Spells 32 t.toList → Mask.Spells 32 u.toList →
      (∀ i : ℕ, (Mask.flagsOf t.toList)[i]? = some '1' ↔ (Mask.flagsOf u.toList)[i]? = some '1') →
      Mask.decode t = Mask.decode u := by
  refine ⟨fun l k h => ⟨h.lowerLayer_eq m config, fun before after => ?_⟩,
    fun l _ _ h => Layer.alike_withParams l h, fun t u => Mask.decode_congr⟩
  have list := h.replace before after
  exact ⟨lowerLayers_congr list m config, compile_congr list m config⟩

/-- The second of three layers has its masks overwritten, among other settings, and its commas and
flags at other places. -/
theorem Model.lowering_alike_overwritten :
    let m := (Session.run .stack ⟨empty "m", []⟩
      [.run (.addInput "x" ⟨.s32, [4]⟩), .run (.addOutput "y" ⟨.s32, [2]⟩),
        .run (.addOutput "z" ⟨.s32, [2]⟩)]).model
    let base := Layer.stridedSlice "b" [0, 0, 0] 1
    let l := base.withParams [("end_mask", "1"), ("begin_mask", "2"), ("axis", "7"),
      ("begin_mask", "1,,0,1")]
    let k := base.withParams [("begin_mask", "10100,"), ("new_axis_mask", ""), ("end_mask", "1")]
    let first := Layer.stridedSlice "a" [0, 0, 9] 2
    let last := Layer.stridedSlice "c" [0, 1, 0] 2
    l ≠ k ∧ l.Alike k ∧
      m.compile ⟨true, .skip⟩ ([first] ++ l :: [last]) =
        m.compile ⟨true, .skip⟩ ([first] ++ k :: [last]) ∧
      (m.lowerLayers ⟨true, .skip⟩ ([first] ++ l :: [last])).result = .ok [0, 1] := by
  intro m base l k first last
  have same (i : ℕ) : (Mask.flagsOf "1,,0,1".toList)[i]? = some '1' ↔
      (Mask.flagsOf "10100,".toList)[i]? = some '1' := by
    have spaced : Mask.flagsOf "1,,0,1".toList = ['1', '0', '1'] := by decide +kernel
    have padded : Mask.flagsOf "10100,".toList = ['1', '0', '1', '0', '0'] := by decide +kernel
    rw [spaced, padded]
    rcases i with _ | _ | _ | _ | _ | i <;> simp
  obtain ⟨-, settings, texts⟩ := lowering_alike m ⟨true, .skip⟩
  have begins : Mask.decode "1,,0,1" = Mask.decode "10100," :=
    texts _ _ ⟨by simp [Mask.IsFlag], by decide +kernel⟩ ⟨by simp [Mask.IsFlag], by decide +kernel⟩
      same
  have alike : l.Alike k := settings base _ _ (List.forall_mem_cons.mpr ⟨begins, by decide +kernel⟩)
  refine ⟨by decide +kernel, alike, ?_, by decide +kernel⟩
  exact (((lowering_alike m ⟨true, .skip⟩).1 l k alike).2 [first] [last]).2

end SliceCompiler
