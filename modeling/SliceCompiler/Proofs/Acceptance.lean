import SliceCompiler.Proofs.Atomicity
import SliceCompiler.Proofs.Backing
import SliceCompiler.Proofs.Effect

/-!
Stages that a model takes, and stages that it refuses. All checks are made before anything is
changed, and none of them looks at what the stage itself would change, so a stage may name a tensor
as often as it likes, also as an input and an output. What the changes come down to is told tensor
by tensor.
-/

namespace SliceCompiler.Model

/-- Why the stage `s` cannot write the tensor `id`. -/
inductive Unwritable (m : Model) (s : Stage) (id : TensorId) : ModelFault → Prop
  | placeholderOutput {t : Tensor} (h : m.tensor? id = some t) (hp : t.role = .placeholder) :
      Unwritable m s id (.placeholderOutput s.label.name t.name)
  | producedTwice {t : Tensor} {k : StageId} {r : Stage} (h : m.tensor? id = some t)
      (hp : t.role ≠ .placeholder) (hk : t.producer = some k) (hr : m.stage? k = some r)
      (writes : id ∈ r.outputs) :
      Unwritable m s id (.producedTwice s.label.name t.name r.label.name)

/-- Why the model does not take the stage `s`: for the first tensor that it does not have, or, if it
has them all, for the first output that cannot be written. -/
inductive Refuses (m : Model) (s : Stage) : ModelFault → Prop
  | unknownTensor {before after : List TensorId} {id : TensorId}
      (split : s.inputs ++ s.outputs = before ++ id :: after)
      (known : ∀ i ∈ before, i < m.tensors.length) (unknown : m.tensors.length ≤ id) :
      Refuses m s (.unknownTensor s.label.name id m.name)
  | unwritable {before after : List TensorId} {id : TensorId} {fault : ModelFault}
      (known : ∀ i ∈ s.inputs ++ s.outputs, i < m.tensors.length)
      (split : s.outputs = before ++ id :: after)
      (free : ∀ i ∈ before, ∀ t, m.tensor? i = some t →
        t.isPlaceholder = false ∧ t.producer = none)
      (h : Unwritable m s id fault) : Refuses m s fault

variable {d : Discipline} {m : Model} {s : Stage} {id : TensorId} {fault : ModelFault}

/-! ### Refusals -/

/-- A tensor that is written already is so by a stage of the model. -/
lemma outputFault?_eq_some_iff (hm : m.Backed) :
    m.outputFault? s id = some fault ↔ m.Unwritable s id fault := by
  unfold outputFault?
  constructor
  · intro h
    cases ht : m.tensor? id with
    | none => simp [ht] at h
    | some t =>
      by_cases hp : t.role = .placeholder
      · obtain rfl : .placeholderOutput s.label.name t.name = fault := by
          simpa [ht, hp, Tensor.isPlaceholder] using h
        exact .placeholderOutput ht hp
      · cases hk : t.producer with
        | none => simp [ht, hp, hk, Tensor.isPlaceholder] at h
        | some k =>
          obtain ⟨r, hr, writes⟩ := (hm ht).producer k hk
          obtain rfl : .producedTwice s.label.name t.name r.label.name = fault := by
            simpa [ht, hp, hk, hr, Tensor.isPlaceholder] using h
          exact .producedTwice ht hp hk hr writes
  · intro h
    cases h with
    | placeholderOutput ht hp => simp [ht, hp, Tensor.isPlaceholder]
    | producedTwice ht hp hk hr _ => simp [ht, hp, hk, hr, Tensor.isPlaceholder]

/-- The first output that cannot be written stands behind outputs that are free. -/
lemma findSome?_outputFault?_eq_some_iff (hm : m.Backed) {ids : List TensorId}
    (known : ∀ i ∈ ids, i < m.tensors.length) :
    ids.findSome? (m.outputFault? s) = some fault ↔ ∃ before id after,
      ids = before ++ id :: after ∧ m.Unwritable s id fault ∧
        ∀ i ∈ before, ∀ t, m.tensor? i = some t → t.isPlaceholder = false ∧ t.producer = none := by
  have free (i : TensorId) (hi : i ∈ ids) : m.outputFault? s i = none ↔
      ∀ t, m.tensor? i = some t → t.isPlaceholder = false ∧ t.producer = none := by
    obtain ⟨t, ht⟩ := exists_tensor (known i hi)
    simp [outputFault?_eq_none_iff ht, ht]
  rw [List.findSome?_eq_some_iff]
  refine exists_congr fun before => exists_congr fun id => exists_congr fun after =>
    and_congr_right fun split => and_congr (outputFault?_eq_some_iff hm) ?_
  exact forall₂_congr fun i hi => free i (by simp [split, hi])

lemma find?_le_eq_some_iff {ids : List TensorId} {n : ℕ} :
    ids.find? (n ≤ ·) = some id ↔
      n ≤ id ∧ ∃ before after, ids = before ++ id :: after ∧ ∀ i ∈ before, i < n := by
  simp [List.find?_eq_some_iff_append]

lemma stageFault?_eq_some_iff (hm : m.Backed) :
    m.stageFault? s = some fault ↔ m.Refuses s fault := by
  unfold stageFault?
  cases hu : (s.inputs ++ s.outputs).find? (m.tensors.length ≤ ·) with
  | some id =>
    obtain ⟨unknown, before, after, split, known⟩ := find?_le_eq_some_iff.mp hu
    constructor
    · intro h
      cases h
      exact .unknownTensor split known unknown
    · intro h
      cases h with
      | unknownTensor split known unknown =>
        -- there is only one first tensor that is not there
        have first := find?_le_eq_some_iff.mpr ⟨unknown, _, _, split, known⟩
        cases hu.symm.trans first
        rfl
      | unwritable known => exact absurd (known id (by simp [split])) unknown.not_gt
  | none =>
    have known : ∀ id ∈ s.inputs ++ s.outputs, id < m.tensors.length := by
      simpa only [List.find?_eq_none, decide_eq_true_eq, not_le] using hu
    dsimp only
    rw [findSome?_outputFault?_eq_some_iff hm fun i hi => known i (List.mem_append_right _ hi)]
    constructor
    · rintro ⟨before, id, after, split, h, free⟩
      exact .unwritable known split free h
    · intro h
      cases h with
      | unknownTensor split _ unknown => exact absurd (known _ (by simp [split])) unknown.not_gt
      | unwritable _ split free h => exact ⟨_, _, _, split, h, free⟩

/-! ### Effect -/

/-- The model with one more stage, tensor by tensor. -/
lemma link_eq (m : Model) (s : Stage) : m.link s =
    { name := m.name
      tensors := m.tensors.mapIdx fun i t =>
        { t with
          producer := if i ∈ s.outputs then some m.stages.length else t.producer
          consumers :=
            if t.role = .placeholder then t.consumers
            else t.consumers ++ List.replicate (s.inputs.count i) m.stages.length }
      stages := m.stages ++ [s]
      areas := m.areas } := by
  refine Model.ext rfl ?_ rfl rfl
  rw [tensors_link]
  simp only [Tensor.linked, Tensor.isPlaceholder, decide_eq_true_eq]

lemma addStage_eq_ok_iff {k : StageId} {n : Model} :
    (m.addStage s).result = .ok k ∧ (m.addStage s).model = n ↔
      m.Accepts s ∧ k = m.stages.length ∧ n = m.link s := by
  rw [← stageFault?_eq_none_iff, addStage]
  cases m.stageFault? s <;> simp [eq_comm]

lemma result_addStage_eq_error_iff :
    (m.addStage s).result = .error fault ↔ m.stageFault? s = some fault := by
  rw [addStage]
  cases m.stageFault? s <;> simp

/-- **What a model takes, and what comes of it.** A stage is taken exactly if the model has all its
tensors and each output can be written: it is no placeholder and has no producer. The answer is the
number of the stage, which stands behind the others as it was given. Its outputs get it as their
producer, and each tensor but a placeholder gets it as a consumer as often as it stands among the
inputs; all else is as it was. Otherwise the first tensor that the model does not have gives the
fault, inputs first, or, if it has them all, the first output that cannot be written, with the stage
that writes it already, and the model is left as it was. -/
theorem addStage_effect (h : m.Reachable d) (s : Stage) :
    (∀ k n, (m.addStage s).result = .ok k ∧ (m.addStage s).model = n ↔
      m.Accepts s ∧ k = m.stages.length ∧
      n =
        { name := m.name
          tensors := m.tensors.mapIdx fun i t =>
            { t with
              producer := if i ∈ s.outputs then some k else t.producer
              consumers :=
                if t.role = .placeholder then t.consumers
                else t.consumers ++ List.replicate (s.inputs.count i) k }
          stages := m.stages ++ [s]
          areas := m.areas }) ∧
    ∀ fault, ((m.addStage s).result = .error fault ↔ m.Refuses s fault) ∧
      (m.Refuses s fault → (m.addStage s).model = m) := by
  refine ⟨fun k n => ?_, fun fault => ?_⟩
  · rw [addStage_eq_ok_iff, link_eq]
    refine and_congr_right fun _ => and_congr_right fun number => ?_
    rw [number]
  · have refused : (m.addStage s).result = .error fault ↔ m.Refuses s fault := by
      rw [result_addStage_eq_error_iff, stageFault?_eq_some_iff h.backed]
    exact ⟨refused, fun hf => addStage_of_error (refused.mpr hf)⟩

/-- A stage that writes what it reads, and reads and writes some of it twice. Another one is refused
for an output that stands in front of a placeholder, and a third one for an input. -/
theorem addStage_effect_repeated :
    let slice (name : String) (inputs outputs : List TensorId) : Stage :=
      ⟨⟨name, "StridedSlice"⟩, .stridedSlice ⟨0, 0⟩, inputs, outputs⟩
    let m := (Session.run .free ⟨empty "m", []⟩
      [.run (.addInput "x" ⟨.s32, [1]⟩), .mark, .run .addPlaceholder,
        .run (.addOutput "y" ⟨.s32, [1]⟩), .run (.addOutput "z" ⟨.s32, [1]⟩), .mark, .undo 1,
        .undo 0, .run .addPlaceholder, .run (.addOutput "y" ⟨.s32, [1]⟩),
        .run (.addOutput "z" ⟨.s32, [1]⟩), .run (.addStage (slice "p" [0] [2]))]).model
    let n := m.link (slice "s" [3, 0, 1, 0] [3, 3])
    m.Reachable .free ∧ ((m.addStage (slice "s" [3, 0, 1, 0] [3, 3])).result = .ok 1 ∧
        (m.addStage (slice "s" [3, 0, 1, 0] [3, 3])).model = n) ∧
      n.tensors.map (fun t => (t.producer, t.consumers)) =
        [(none, [0, 1, 1]), (none, []), (some 0, []), (some 1, [1])] ∧
      (m.addStage (slice "s" [0] [3, 2, 1])).result = .error (.producedTwice "s" "y" "p") ∧
      (m.addStage (slice "s" [0] [3, 2, 1])).model = m ∧
      (m.addStage (slice "s" [0, 9] [2, 8])).result = .error (.unknownTensor "s" 9 "m") := by
  intro slice m n
  have reached : m.Reachable .free := ⟨"m", _, rfl⟩
  have takes : m.Accepts (slice "s" [3, 0, 1, 0] [3, 3]) :=
    stageFault?_eq_none_iff.mp (by decide +kernel)
  have free : ∀ i ∈ [3], ∀ t, m.tensor? i = some t →
      t.isPlaceholder = false ∧ t.producer = none := by decide +kernel
  have written : m.Unwritable (slice "s" [0] [3, 2, 1]) 2 (.producedTwice "s" "y" "p") :=
    (outputFault?_eq_some_iff reached.backed).mp (by decide +kernel)
  have outputs : (slice "s" [0] [3, 2, 1]).outputs = [3] ++ 2 :: [1] := rfl
  have ids : [0, 9] ++ [2, 8] = [0] ++ 9 :: [2, 8] := rfl
  have refused : m.Refuses (slice "s" [0] [3, 2, 1]) (.producedTwice "s" "y" "p") :=
    .unwritable (by decide +kernel) outputs free written
  have unknown : m.Refuses (slice "s" [0, 9] [2, 8]) (.unknownTensor "s" 9 "m") :=
    .unknownTensor ids (by decide +kernel) (by decide +kernel)
  obtain ⟨again, unchanged⟩ := (addStage_effect reached (slice "s" [0] [3, 2, 1])).2 _
  refine ⟨reached, ?_, by decide +kernel, again.mpr refused, unchanged refused, ?_⟩
  · exact ((addStage_effect reached _).1 1 n).mpr ⟨takes, rfl, m.link_eq _⟩
  · exact ((addStage_effect reached _).2 _).1.mpr unknown

end SliceCompiler.Model
