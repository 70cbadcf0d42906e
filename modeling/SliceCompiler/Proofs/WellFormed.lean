import SliceCompiler.Proofs.Regularity
import SliceCompiler.Proofs.Undo

/-!
Models whose stages were all lowered from layers. Each stage keeps what was settled when its
layer was planned, whatever is added later: its tensors have the right types, and its strides
are known and positive or a placeholder that no other stage reads.
-/

namespace SliceCompiler

/-- A placeholder: it has no content and lies nowhere. -/
structure Tensor.StandsForOnes (t : Tensor) : Prop where
  placeholder : t.isPlaceholder = true
  content : t.content = none
  region : t.region = .nowhere
  offset : t.offset = 0

/-- A constant whose values can be strides. -/
structure Tensor.HoldsStrides (t : Tensor) : Prop where
  role : t.role = .const
  element : t.element = .s32
  positive : ∃ values, t.content.bind Content.ints? = some values ∧ ∀ v ∈ values, 0 < v

lemma Tensor.HoldsStrides.not_placeholder {t : Tensor} (h : t.HoldsStrides) :
    t.isPlaceholder = false := by
  simp [isPlaceholder, h.role]

lemma Tensor.Regular.standsForOnes {id : TensorId} {t : Tensor} (h : t.Regular id)
    (hp : t.isPlaceholder = true) : t.StandsForOnes := by
  have role : t.role = .placeholder := by simpa [isPlaceholder] using hp
  refine ⟨hp, ?_, by rw [h.region, role]; rfl, (h.placeholder hp).1⟩
  have := h.content.1
  rw [role] at this
  simpa using this

/-- Only constants have contents, and a content is of the type of its tensor. -/
lemma Tensor.Regular.holdsStrides {id : TensorId} {t : Tensor} (h : t.Regular id)
    {values : List Int32} (hv : t.content.bind Content.ints? = some values)
    (pos : ∀ v ∈ values, 0 < v) : t.HoldsStrides := by
  obtain ⟨c, hc, hi⟩ := Option.bind_eq_some_iff.mp hv
  have whole : c.element = .s32 := by
    unfold Content.ints? at hi
    split at hi
    · next hw => exact hw.1
    · cases hi
  refine ⟨h.content.1.mp (by simp [hc]), ?_, values, hv, pos⟩
  rw [element, ← (h.content.2 c hc).1, whole]

namespace Slice

/-- What lowering has settled about the stage at the place `k`. -/
structure Sound (m : Model) (k : StageId) (s : Stage) : Prop where
  check : s.check m = .ok ()
  strides : ∃ id t, s.inputs[3]? = some id ∧ m.tensor? id = some t ∧
    (t.isPlaceholder = true ∨ t.HoldsStrides)
  producer : ∀ id ∈ s.outputs, ∃ t, m.tensor? id = some t ∧ t.producer = some k

variable {m n : Model} {k : StageId} {s : Stage}

/-- What was settled stays so in every later model. -/
lemma Sound.mono (h : Sound m k s) (g : m.Extends n) : Sound n k s := by
  refine ⟨Stage.check_mono h.check g, ?_, fun id hid => ?_⟩
  · obtain ⟨id, t, hid, ht, hs⟩ := h.strides
    obtain ⟨u, hu, tu⟩ := g.tensors ht
    refine ⟨id, u, hid, hu, hs.imp (fun hp => tu.isPlaceholder_eq.trans hp) fun hs => ?_⟩
    rw [tu.same]
    exact ⟨hs.role, hs.element, hs.positive⟩
  · obtain ⟨t, ht, hp⟩ := h.producer id hid
    obtain ⟨u, hu, tu⟩ := g.tensors ht
    refine ⟨u, hu, ?_⟩
    rcases tu.producer with e | ⟨e, -⟩
    · rw [e, hp]
    · rw [hp] at e
      cases e

/-- A stage that passes its check refers to tensors of the model. -/
lemma known_of_check (h : s.check m = .ok ()) :
    ∀ id ∈ s.inputs ++ s.outputs, id < m.tensors.length := by
  obtain ⟨ts, hi, ho, hc⟩ := Stage.check_eq_ok_iff.mp h
  rw [hi, ho]
  exact ts.known_of_check hc

/-- Only the strides of a stage that passes its check can be a placeholder. -/
lemma not_placeholder_of_check (h : s.check m = .ok ()) {id : TensorId} {t : Tensor}
    (hid : id ∈ s.inputs.take 3 ++ s.outputs) (ht : m.tensor? id = some t) :
    t.isPlaceholder = false := by
  obtain ⟨ts, hi, ho, hc⟩ := Stage.check_eq_ok_iff.mp h
  obtain ⟨data, start, stop, output, hd, h₁, h₂, h₃, real, -⟩ := SliceTensors.typed_of_check hc
  refine real t ?_
  have : id = ts.data ∨ id = ts.start ∨ id = ts.stop ∨ id = ts.output := by
    simpa [hi, ho, SliceTensors.inputs] using hid
  rcases this with rfl | rfl | rfl | rfl <;> simp_all

lemma inputs_of_check (h : s.check m = .ok ()) {id : TensorId} (hid : s.inputs[3]? = some id) :
    s.inputs = s.inputs.take 3 ++ [id] := by
  obtain ⟨ts, hi, -, -⟩ := Stage.check_eq_ok_iff.mp h
  rw [hi] at hid ⊢
  cases hs : ts.strides with
  | none => simp [SliceTensors.inputs, hs] at hid
  | some x => simpa [SliceTensors.inputs, hs] using hid

/-- An appended stage is sound where it stands. -/
lemma Sound.link (ha : m.Accepts s) (hc : s.check m = .ok ()) {id : TensorId} {t : Tensor}
    (hid : s.inputs[3]? = some id) (ht : m.tensor? id = some t)
    (hs : t.isPlaceholder = true ∨ t.HoldsStrides) : Sound (m.link s) m.stages.length s := by
  refine ⟨Stage.check_mono hc (.link ha), ⟨id, _, hid, by rw [m.tensor?_link, ht]; rfl, ?_⟩,
    fun o ho => ?_⟩
  · exact hs.imp (fun hp => hp) fun hs => ⟨hs.role, hs.element, hs.positive⟩
  · obtain ⟨u, hu⟩ := Model.exists_tensor (known_of_check hc o (List.mem_append_right _ ho))
    refine ⟨_, by rw [m.tensor?_link, hu]; rfl, ?_⟩
    simp [Tensor.linked, ho]

end Slice

namespace Model

/-- All stages were lowered, and no two inputs share a placeholder. -/
structure WellFormed (m : Model) : Prop where
  regular : m.Regular
  sound : ∀ {k s}, m.stage? k = some s → Slice.Sound m k s
  once : ∀ {id t}, m.tensor? id = some t → t.isPlaceholder = true →
    (m.stages.flatMap Stage.inputs).count id ≤ 1

variable {m n : Model} {s : Stage}

lemma wellFormed_empty (name : String) : (empty name).WellFormed :=
  ⟨regular_empty name, by simp [empty, stage?], by simp [empty]⟩

namespace WellFormed

lemma known (h : m.WellFormed) {id : TensorId} (hid : id ∈ m.stages.flatMap Stage.inputs) :
    id < m.tensors.length := by
  obtain ⟨s, hs, hid⟩ := List.mem_flatMap.mp hid
  obtain ⟨k, hk⟩ := List.mem_iff_getElem?.mp hs
  exact Slice.known_of_check (h.sound hk).check id (List.mem_append_left _ hid)

lemma add (h : m.WellFormed) (name : String) {role : Role} {layout : Layout}
    {content : Option Content} (hc : role.Admits layout content) :
    (m.add name role layout content).2.WellFormed := by
  refine ⟨h.regular.add name hc, fun hs => (h.sound hs).mono (.add _ _ _ _ _), ?_⟩
  intro id t ht hp
  rcases tensor?_add_cases ht with ht | ⟨rfl, -⟩
  · exact h.once ht hp
  · -- no stage can refer to the new tensor yet
    have unread : m.tensors.length ∉ m.stages.flatMap Stage.inputs :=
      fun hid => (h.known hid).false
    rw [stages_add, List.count_eq_zero_of_not_mem unread]
    exact Nat.zero_le 1

/-- A stage may be appended whose strides are known or a placeholder that is not read yet. -/
lemma link (h : m.WellFormed) (ha : m.Accepts s) (hc : s.check m = .ok ())
    {id : TensorId} {t : Tensor} (hid : s.inputs[3]? = some id) (ht : m.tensor? id = some t)
    (hs : t.isPlaceholder = true ∧ id ∉ m.stages.flatMap Stage.inputs ∨ t.HoldsStrides) :
    (m.link s).WellFormed := by
  refine ⟨h.regular.link ha, fun {k r} hr => ?_, fun {i u} hu hp => ?_⟩
  · rcases stage?_link_cases hr with hr | ⟨rfl, rfl⟩
    · exact (h.sound hr).mono (.link ha)
    · exact .link ha hc hid ht (hs.imp_left And.left)
  · rw [tensor?_link] at hu
    obtain ⟨v, hv, rfl⟩ := Option.map_eq_some_iff.mp hu
    replace hp : v.isPlaceholder = true := hp
    -- only the strides of the new stage can be this placeholder
    have others : i ∉ s.inputs.take 3 := fun hi => by
      have := Slice.not_placeholder_of_check hc (List.mem_append_left _ hi) hv
      simp [hp] at this
    rw [stages_link, List.flatMap_append, List.count_append, List.flatMap_singleton,
      Slice.inputs_of_check hc hid, List.count_append, List.count_eq_zero_of_not_mem others]
    by_cases hi : id = i
    · subst hi
      obtain rfl : t = v := Option.some.inj (ht.symm.trans hv)
      rcases hs with ⟨-, unread⟩ | hs
      · rw [List.count_eq_zero_of_not_mem unread]
        simp
      · rw [hs.not_placeholder] at hp
        cases hp
    · simpa [hi] using h.once hv hp

/-- A layer that has a plan leaves a well-formed model. -/
lemma lowered (h : m.WellFormed) {l : Layer} {p : Slice.Plan} (hp : l.plan m = .ok p) :
    (Slice.lowered l p m).WellFormed := by
  obtain ⟨ts, hp⟩ := planned_of_plan hp
  have third (id : TensorId) (hid : (ts.supplied m).strides = some id) :
      (Slice.stage l (p.operands.supply m).1 p.masks).inputs[3]? = some id := by
    rw [Slice.stage, hp.supply_fst, SliceTensors.inputs, hid]
    rfl
  rcases hp.strides_cases with ⟨id, hs, same, hc⟩ | ⟨hs, same⟩
  · -- the strides are a constant: only constants have contents
    obtain ⟨t, values, ht, hv, pos⟩ := Slice.checkStrides_eq_ok_iff.mp hc
    have hid : (ts.supplied m).strides = some id := by simp [SliceTensors.supplied, hs]
    have holds := (h.regular id t ht).holdsStrides hv pos
    refine link (t := t) ?_ hp.accepts hp.check_stage (third id hid) ?_ (.inr holds)
    · rw [same]
      exact h
    · rw [same, ht]
  · have hid : (ts.supplied m).strides = some m.tensors.length := by
      simp [SliceTensors.supplied, hs]
    refine link ?_ hp.accepts hp.check_stage (third _ hid)
      (by rw [same]; exact tensor?_add_self _ _ _ _ _) (.inl ⟨rfl, ?_⟩)
    · rw [same]
      exact h.add _ ⟨by simp, by simp⟩
    · rw [Slice.stages_supply]
      exact fun hid => (h.known hid).false

end WellFormed

lemma Lowered.wellFormed (h : m.Lowered) : m.WellFormed := by
  obtain ⟨name, grown⟩ := h.grows
  refine grown.invariant (P := WellFormed) (fun change hm => ?_) (wellFormed_empty name)
  cases change with
  | add name hc => exact hm.add name hc
  | lower hp => exact hm.lowered hp
  | link hd _ => cases hd

end Model

namespace Slice

/-- The stage at the place `k` reads and writes these tensors, as a slice may. -/
structure Wired (m : Model) (k : StageId) (s : Stage) (data start stop strides output : Tensor) :
    Prop where
  inputs : s.inputs.map m.tensor? = [some data, some start, some stop, some strides]
  outputs : s.outputs.map m.tensor? = [some output]
  real : ∀ t ∈ [data, start, stop, output], t.isPlaceholder = false
  start_element : start.element = .s32
  stop_element : stop.element = .s32
  output_element : output.element = data.element
  strides : strides.StandsForOnes ∨ strides.HoldsStrides
  producer : output.producer = some k
  check : s.check m = .ok ()

lemma Sound.wired {m : Model} {k : StageId} {s : Stage} (h : Sound m k s) (hm : m.Regular) :
    ∃ data start stop strides output, Wired m k s data start stop strides output := by
  obtain ⟨ts, hi, ho, hc⟩ := Stage.check_eq_ok_iff.mp h.check
  obtain ⟨data, start, stop, output, hd, h₁, h₂, h₃, real, e₁, e₂, e₃⟩ :=
    SliceTensors.typed_of_check hc
  obtain ⟨id, strides, hid, ht, hs⟩ := h.strides
  obtain ⟨u, hu, hp⟩ := h.producer ts.output (by simp [ho])
  obtain rfl : output = u := Option.some.inj (h₃.symm.trans hu)
  have given : ts.strides = some id := by
    rw [hi] at hid
    cases hs : ts.strides with
    | none => simp [SliceTensors.inputs, hs] at hid
    | some x => simpa [SliceTensors.inputs, hs] using hid
  refine ⟨data, start, stop, strides, output, ?_, ?_, real, e₁, e₂, e₃, ?_, hp, h.check⟩
  · simp [hi, SliceTensors.inputs, given, hd, h₁, h₂, ht]
  · simp [ho, h₃]
  · refine hs.imp_left fun hp => ?_
    exact (hm id strides ht).standsForOnes hp

end Slice

namespace Model

variable {m : Model}

/-- **Lowered models are well-formed.** In a model all of whose stages were lowered, each stage
reads and writes tensors as a slice may and passes its check. A placeholder stands for the
strides of one stage at most, and for nothing else, and carries no links. -/
theorem wired_of_lowered (h : m.Lowered) :
    (∀ k s, m.stage? k = some s →
      ∃ data start stop strides output, Slice.Wired m k s data start stop strides output) ∧
    ∀ id t, m.tensor? id = some t → t.isPlaceholder = true →
      (m.stages.flatMap Stage.inputs).count id ≤ 1 ∧
      (∀ s ∈ m.stages, (∀ i, s.inputs[i]? = some id → i = 3) ∧ id ∉ s.outputs) ∧
      t.producer = none ∧ t.consumers = [] := by
  have hm := h.wellFormed
  refine ⟨fun k s hs => (hm.sound hs).wired hm.regular, fun id t ht hp => ?_⟩
  refine ⟨hm.once ht hp, fun s hs => ?_, ((hm.regular id t ht).placeholder hp).2⟩
  obtain ⟨k, hk⟩ := List.mem_iff_getElem?.mp hs
  have sound := hm.sound hk
  -- wherever a tensor stands but for the strides, it is no placeholder
  have only : id ∉ s.inputs.take 3 ++ s.outputs := fun hid => by
    rw [Slice.not_placeholder_of_check sound.check hid ht] at hp
    cases hp
  obtain ⟨last, -, hlast, -⟩ := sound.strides
  refine ⟨fun i hi => ?_, fun ho => only (List.mem_append_right _ ho)⟩
  rw [Slice.inputs_of_check sound.check hlast] at hi
  rcases getElem?_concat_cases hi with hi | ⟨hi, -⟩
  · exact (only (List.mem_append_left _ (List.mem_of_getElem? hi))).elim
  · have := (List.getElem?_eq_some_iff.mp hlast).1
    rw [hi, List.length_take]
    omega

/-- Two layers, one without strides, lowered around a layer that is taken back. -/
theorem wired_of_lowered_two :
    let m := (Session.run .stack ⟨empty "m", []⟩
      [.run (.addInput "x" ⟨.fp16, [4, 4]⟩), .run (.addInput "begin" ⟨.s32, [2]⟩),
        .run (.addConst "strides" ⟨.s32, [2]⟩ (.ofInts [1, 2])),
        .run (.addOutput "y" ⟨.fp16, [4, 2]⟩), .run (.addOutput "z" ⟨.fp16, [2, 2]⟩),
        .run (.lowerLayer {} (.maskedSlice "a" [0, 1, 1] 3 "1,0" "")), .mark,
        .run (.lowerLayer {} (.stridedSlice "b" [0, 1, 1] 4)), .undo 0,
        .run (.lowerLayers ⟨false, .skip⟩
          [.stridedSlice "c" [0, 5, 1, 2] 4, .stridedSlice "d" [3, 1, 1, 2] 4])]).model
    m.Lowered ∧ m.stages.map (·.label.name) = ["a", "d"] ∧
      (∃ t, m.tensor? 5 = some t ∧ t.isPlaceholder = true) ∧
      ∀ k s, m.stage? k = some s →
        ∃ data start stop strides output, Slice.Wired m k s data start stop strides output := by
  intro m
  have lowered : m.Lowered := ⟨"m", _, by decide, rfl⟩
  exact ⟨lowered, by decide +kernel, ⟨_, by rfl, by decide⟩, (wired_of_lowered lowered).1⟩

end Model

end SliceCompiler
