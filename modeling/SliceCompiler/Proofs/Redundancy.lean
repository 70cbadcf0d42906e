import SliceCompiler.Proofs.Objections
import SliceCompiler.Proofs.Reports

/-!
Checks that say nothing new. A stage may be checked against its own tensors before it is added, and
the model checks it once more. Both look at four inputs where the layer may have had three, and at a
model with a placeholder that was not there when the layer was looked at. Still a stage whose layer
has a plan passes both, so a run is the same with and without the first check. The second one never
is the reason for a rejection, since it is not among what may be objected to a layer.
-/

namespace SliceCompiler

/-- Whatever goes wrong, it is not that the model refuses a stage. -/
def Unrefused {α : Type} (x : Except Reason α) : Prop :=
  ∀ message, x ≠ .error (.refused message)

variable {m : Model}

namespace Slice

/-- What the steps of planning settle one by one is what a plan settles. -/
lemma planned_of_steps {l : Layer} {ts : SliceTensors} {masks : SliceMasks} {o : Operands}
    (fits : validate l m = .ok ts) (gated : gate l = .ok ()) (kept : keptMasks l = .ok masks)
    (settled : operandsOf l m = .ok o) : Planned l m ⟨masks, o⟩ ts := by
  obtain ⟨inputs, outputs, check, free⟩ := validate_eq_ok_iff.mp fits
  obtain ⟨us, hus, settled⟩ := bind_eq_ok_iff.mp settled
  -- both steps read the same tensors off the layer
  rw [SliceTensors.ofLists_eq_ok_iff.mpr ⟨inputs, outputs⟩] at hus
  obtain rfl : ts = us := Except.ok.inj hus
  exact ⟨inputs, outputs, check, free, gated, kept, settled⟩

end Slice

/-- Nothing that may be objected to a layer is that the model refuses its stage. -/
lemma Layer.not_refused_of_mem {l : Layer} {c : Objection} (h : c ∈ l.objections m)
    (message : String) : ¬ c (.refused message) := by
  intro refused
  simp only [objections, List.mem_append, List.mem_cons, List.mem_map, List.mem_flatMap,
    List.not_mem_nil, or_false] at h
  rcases h with (((((rfl | rfl | rfl) | ⟨x, -, rfl⟩) | ⟨id, -, rfl⟩) | ⟨param, -, rfl | rfl⟩) |
    ⟨param, -, rfl⟩) | ⟨id, -, rfl | rfl⟩ <;> cases refused

lemma Layer.unrefused_plan (l : Layer) (m : Model) : Unrefused (l.plan m) := by
  intro message h
  obtain ⟨c, hc, refused⟩ := ((Objection.heeds_plan l m _).mp h).exists_mem
  exact not_refused_of_mem hc message refused

namespace Model

/-! ### Runs with and without a check -/

lemma lowerLayer_recheck (m : Model) (a b : Bool) (policy : OnRejection) (l : Layer) :
    m.lowerLayer ⟨a, policy⟩ l = m.lowerLayer ⟨b, policy⟩ l := by
  simp only [lowerLayer, Slice.lower_eq]

lemma lowerEach_recheck (m : Model) (a b : Bool) (policy : OnRejection) (ls : List Layer) :
    m.lowerEach ⟨a, policy⟩ ls = m.lowerEach ⟨b, policy⟩ ls := by
  induction ls generalizing m with
  | nil => rfl
  | cons l rest ih => simp only [lowerEach, m.lowerLayer_recheck a b, ih]

lemma lowerLayers_recheck (m : Model) (a b : Bool) (policy : OnRejection) (ls : List Layer) :
    m.lowerLayers ⟨a, policy⟩ ls = m.lowerLayers ⟨b, policy⟩ ls := by
  rw [lowerLayers, lowerLayers, m.lowerEach_recheck a b]

lemma compile_recheck (m : Model) (a b : Bool) (policy : OnRejection) (ls : List Layer) :
    m.compile ⟨a, policy⟩ ls = m.compile ⟨b, policy⟩ ls := by
  rw [compile, compile, m.lowerLayers_recheck a b]

/-! ### Rejections -/

variable {config : Config} {l : Layer} {ls : List Layer} {r : Rejection}

/-- A layer is rejected for the reason that it has no plan for. -/
lemma plan_of_lowerLayer_error (h : (m.lowerLayer config l).result = .error r) :
    ∃ reason, l.plan m = .error reason ∧ r = ⟨l.label, reason⟩ := by
  rw [result_lowerLayer] at h
  cases hp : l.plan m with
  | ok p => simp [hp] at h
  | error reason =>
    rw [hp] at h
    exact ⟨reason, rfl, (Except.error.inj h).symm⟩

/-- A list is rejected for one of its layers, in the model that the layer was met in. -/
lemma exists_of_lowerEach_error (h : (m.lowerEach config ls).result = .error r) :
    ∃ n, ∃ l ∈ ls, (lowerLayer n config l).result = .error r := by
  obtain ⟨front, ids, lowered, -, rfl | ⟨-, l, after, r', rfl, rejected, result⟩⟩ :=
    m.exists_front config ls
  · rw [lowered] at h
    cases h
  · rw [result] at h
    cases h
    exact ⟨_, l, List.mem_append_right _ (.head _), rejected⟩

lemma lowerLayer_ne_refused (m : Model) (config : Config) (l : Layer) (label : LayerLabel)
    (message : String) : (m.lowerLayer config l).result ≠ .error ⟨label, .refused message⟩ := by
  intro h
  obtain ⟨reason, hp, same⟩ := plan_of_lowerLayer_error h
  cases same
  exact l.unrefused_plan m message hp

lemma lowerLayers_ne_refused (m : Model) (config : Config) (ls : List Layer)
    (label : LayerLabel) (message : String) :
    (m.lowerLayers config ls).result ≠ .error ⟨label, .refused message⟩ := by
  rw [result_lowerLayers]
  intro h
  obtain ⟨n, l, -, hr⟩ := exists_of_lowerEach_error h
  exact n.lowerLayer_ne_refused config l label message hr

lemma compile_ne_refused (m : Model) (config : Config) (ls : List Layer) (label : LayerLabel)
    (message : String) :
    (m.compile config ls).result ≠ .error (.lowering ⟨label, .refused message⟩) := by
  cases h : (m.lowerLayers config ls).result with
  | ok ids => exact result_compile_of_ok h _
  | error r =>
    rw [result_compile_of_error h]
    intro same
    cases same
    exact m.lowerLayers_ne_refused config ls label message h

/-- **Checking a built stage says nothing new.** Lowering a layer, lowering a list and compiling do
the same with and without the check of the stages they build: the answer, the model and the log
are the same. Where all steps of planning succeed, the stage passes its check in the model with
the placeholder, and the model takes it; so a rejection never is that the model refuses a stage. -/
theorem recheck_redundant (m : Model) :
    (∀ a b policy,
      (∀ l, m.lowerLayer ⟨a, policy⟩ l = m.lowerLayer ⟨b, policy⟩ l) ∧
      ∀ ls, m.lowerLayers ⟨a, policy⟩ ls = m.lowerLayers ⟨b, policy⟩ ls ∧
        m.compile ⟨a, policy⟩ ls = m.compile ⟨b, policy⟩ ls) ∧
    (∀ l ts masks o, Slice.validate l m = .ok ts → Slice.gate l = .ok () →
      Slice.keptMasks l = .ok masks → Slice.operandsOf l m = .ok o →
        let s := Slice.stage l (o.supply m).1 masks
        s.check (o.supply m).2 = .ok () ∧
          (o.supply m).2.addStage s =
            { result := .ok m.stages.length, model := (o.supply m).2.link s }) ∧
    ∀ config label message,
      (∀ l, (m.lowerLayer config l).result ≠ .error ⟨label, .refused message⟩) ∧
      ∀ ls, (m.lowerLayers config ls).result ≠ .error ⟨label, .refused message⟩ ∧
        (m.compile config ls).result ≠ .error (.lowering ⟨label, .refused message⟩) := by
  refine ⟨fun a b policy => ⟨m.lowerLayer_recheck a b policy, fun ls => ?_⟩, ?_, ?_⟩
  · exact ⟨m.lowerLayers_recheck a b policy ls, m.compile_recheck a b policy ls⟩
  · intro l ts masks o fits gated kept settled s
    have planned := Slice.planned_of_steps fits gated kept settled
    refine ⟨planned.check_stage, ?_⟩
    rw [addStage, stageFault?_eq_none_iff.mpr planned.accepts, Slice.stages_supply]
  · intro config label message
    refine ⟨fun l => m.lowerLayer_ne_refused config l label message, fun ls => ?_⟩
    exact ⟨m.lowerLayers_ne_refused config ls label message,
      m.compile_ne_refused config ls label message⟩

/-- The data is also where to begin and where to end, and the strides are left out: the stage is
checked with a placeholder that the layer did not have. -/
theorem recheck_redundant_shared :
    let m := (Session.run .free ⟨empty "m", []⟩
      [.mark, .run (.addInput "x" ⟨.s32, [4]⟩), .mark, .undo 1, .undo 0,
        .run (.addInput "x" ⟨.s32, [4]⟩), .run (.addOutput "y" ⟨.s32, [2]⟩)]).model
    let l := Layer.maskedSlice "a" [0, 0, 0] 1 "1" ""
    let o : Slice.Operands := ⟨0, 0, 0, .unit⟩
    Slice.validate l m = .ok ⟨0, 0, 0, none, 1⟩ ∧ Slice.gate l = .ok () ∧
      Slice.keptMasks l = .ok ⟨1, 0⟩ ∧ Slice.operandsOf l m = .ok o ∧
      (o.supply m).1 = [0, 0, 0, m.tensors.length] ∧
      (Slice.stage l (o.supply m).1 ⟨1, 0⟩).check (o.supply m).2 = .ok () := by
  intro m l o
  have fits : Slice.validate l m = .ok ⟨0, 0, 0, none, 1⟩ := by decide +kernel
  have gated : Slice.gate l = .ok () := by decide +kernel
  have kept : Slice.keptMasks l = .ok ⟨1, 0⟩ := by decide +kernel
  have settled : Slice.operandsOf l m = .ok o := by decide +kernel
  exact ⟨fits, gated, kept, settled, by decide +kernel,
    ((recheck_redundant m).2.1 l _ _ o fits gated kept settled).1⟩

end Model

end SliceCompiler
