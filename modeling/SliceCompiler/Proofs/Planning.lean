import SliceCompiler.Lowering.Layers
import SliceCompiler.Proofs.Growth

/-!
What is settled once a layer has a plan: its tensors fit and its output is free. That is all a
model asks of the stage, and all the stage asks of its tensors, so nothing can go wrong after
planning: a layer is lowered exactly if it has a plan, and otherwise the model is not touched.
-/

namespace SliceCompiler

lemma bind_eq_ok_iff {ε α β : Type} {x : Except ε α} {f : α → Except ε β} {b : β} :
    x >>= f = .ok b ↔ ∃ a, x = .ok a ∧ f a = .ok b := by
  cases x <;> simp [bind, Except.bind]

lemma exists_unit_iff {p : Unit → Prop} : (∃ u, p u) ↔ p () :=
  ⟨fun ⟨_, h⟩ => h, fun h => ⟨(), h⟩⟩

lemma Model.resolve_eq_ok_iff {m : Model} {id : TensorId} {t : Tensor} :
    m.resolve id = .ok t ↔ m.tensor? id = some t := by
  unfold resolve
  split <;> simp [*]

namespace SliceTensors

variable {m n : Model} {ts : SliceTensors}

/-- The inputs of a layer with these tensors. -/
def inputs (ts : SliceTensors) : List TensorId :=
  [ts.data, ts.start, ts.stop] ++ ts.strides.toList

lemma ofLists_eq_ok_iff {ins outs : List TensorId} :
    ofLists ins outs = .ok ts ↔ ins = ts.inputs ∧ outs = [ts.output] := by
  obtain ⟨data, start, stop, strides, output⟩ := ts
  unfold ofLists
  split
  · cases strides <;> simp [inputs, and_assoc]
  · cases strides <;> simp [inputs, and_assoc]
  · next three four =>
    constructor
    · intro h
      split at h <;> cases h
    · rintro ⟨hi, ho⟩
      cases strides with
      | none => exact (three _ _ _ _ hi ho).elim
      | some id => exact (four _ _ _ _ _ hi ho).elim

/-- Lists of the right lengths name the tensors of a slice. -/
lemma exists_ofLists {ins outs : List TensorId} (hi : ins.length = 3 ∨ ins.length = 4)
    (ho : outs.length = 1) : ∃ ts, ofLists ins outs = .ok ts := by
  obtain ⟨output, rfl⟩ := List.length_eq_one_iff.mp ho
  match ins, hi with
  | [data, start, stop], .inl _ => exact ⟨_, rfl⟩
  | [data, start, stop, strides], .inr _ => exact ⟨_, rfl⟩

/-- A slot has a tensor of the type that it has to have; the strides may be a placeholder. -/
def Suits (m : Model) (x : Slot × TensorId × ElementType) : Prop :=
  ∃ t, m.tensor? x.2.1 = some t ∧
    if t.isPlaceholder then x.1 = stridesSlot else t.element = x.2.2

lemma Suits.mono {x : Slot × TensorId × ElementType} (h : Suits m x) (g : m.Extends n) :
    Suits n x := by
  obtain ⟨t, ht, hx⟩ := h
  obtain ⟨u, hu, tu⟩ := g.tensors ht
  exact ⟨u, hu, by rwa [tu.isPlaceholder_eq, tu.element_eq]⟩

lemma Suits.of_ne {x : Slot × TensorId × ElementType} (h : Suits m x) (hs : x.1 ≠ stridesSlot) :
    ∃ t, m.tensor? x.2.1 = some t ∧ t.isPlaceholder = false ∧ t.element = x.2.2 := by
  obtain ⟨t, ht, hx⟩ := h
  cases hp : t.isPlaceholder with
  | false => exact ⟨t, ht, hp, by simpa [hp] using hx⟩
  | true => exact (hs (by simpa [hp] using hx)).elim

lemma checkSlot_eq_ok_iff {slot : Slot} {id : TensorId} {expected : ElementType} :
    checkSlot m slot id expected = .ok () ↔ Suits m (slot, id, expected) := by
  simp only [checkSlot, bind_eq_ok_iff, Model.resolve_eq_ok_iff, Suits]
  refine exists_congr fun t => and_congr_right fun _ => ?_
  by_cases hp : t.isPlaceholder
  · by_cases hs : slot = stridesSlot <;> simp [hp, hs]
  · by_cases he : t.element = expected <;> simp [hp, he]

lemma checkSlots_eq_ok_iff {xs : List (Slot × TensorId × ElementType)} :
    checkSlots m xs = .ok () ↔ ∀ x ∈ xs, Suits m x := by
  induction xs with
  | nil => simp [checkSlots]
  | cons x xs ih =>
    obtain ⟨slot, id, expected⟩ := x
    simp only [checkSlots, bind_eq_ok_iff, exists_unit_iff, checkSlot_eq_ok_iff, ih,
      List.forall_mem_cons]

lemma check_eq_ok_iff : ts.check m = .ok () ↔
    ∃ data, m.tensor? ts.data = some data ∧ ∀ x ∈ ts.slots data.element, Suits m x := by
  simp only [check, bind_eq_ok_iff, Model.resolve_eq_ok_iff, checkSlots_eq_ok_iff]

/-- A check that was passed is passed in every later model. -/
lemma check_mono (h : ts.check m = .ok ()) (g : m.Extends n) : ts.check n = .ok () := by
  obtain ⟨data, hd, hx⟩ := check_eq_ok_iff.mp h
  obtain ⟨data', hd', e⟩ := g.tensors hd
  refine check_eq_ok_iff.mpr ⟨data', hd', fun x hm => ?_⟩
  rw [e.element_eq] at hm
  exact (hx x hm).mono g

/-- The slots are those of the inputs and the output, whatever the type of the data. -/
lemma ids_slots (ts : SliceTensors) (e : ElementType) :
    (ts.slots e).map (·.2.1) = ts.inputs ++ [ts.output] := by
  cases hs : ts.strides <;> simp [slots, inputs, hs]

lemma known_of_check (h : ts.check m = .ok ()) :
    ∀ id ∈ ts.inputs ++ [ts.output], id < m.tensors.length := by
  intro id hid
  obtain ⟨data, -, hx⟩ := check_eq_ok_iff.mp h
  rw [← ts.ids_slots data.element] at hid
  obtain ⟨x, hm, rfl⟩ := List.mem_map.mp hid
  obtain ⟨t, ht, -⟩ := hx x hm
  exact Model.lt_of_tensor? ht

/-- Apart from the strides there are tensors of the right types in all slots. -/
lemma typed_of_check (h : ts.check m = .ok ()) : ∃ data start stop output,
    m.tensor? ts.data = some data ∧ m.tensor? ts.start = some start ∧
    m.tensor? ts.stop = some stop ∧ m.tensor? ts.output = some output ∧
    (∀ t ∈ [data, start, stop, output], t.isPlaceholder = false) ∧
    start.element = .s32 ∧ stop.element = .s32 ∧ output.element = data.element := by
  obtain ⟨data, hd, hx⟩ := check_eq_ok_iff.mp h
  have real (slot : Slot) (id : TensorId) (e : ElementType) (hs : slot ≠ stridesSlot)
      (hm : (slot, id, e) ∈ ts.slots data.element) :
      ∃ t, m.tensor? id = some t ∧ t.isPlaceholder = false ∧ t.element = e :=
    (hx _ hm).of_ne hs
  obtain ⟨data', hd', p₀, -⟩ := real (.input 0) ts.data data.element nofun (by simp [slots])
  obtain ⟨start, hstart, p₁, e₁⟩ := real (.input 1) ts.start .s32 nofun (by simp [slots])
  obtain ⟨stop, hstop, p₂, e₂⟩ := real (.input 2) ts.stop .s32 nofun (by simp [slots])
  obtain ⟨output, hout, p₃, e₃⟩ :=
    real (.output 0) ts.output data.element nofun (by simp [slots])
  obtain rfl : data = data' := Option.some.inj (hd.symm.trans hd')
  exact ⟨data, start, stop, output, hd, hstart, hstop, hout, by simp [p₀, p₁, p₂, p₃], e₁, e₂, e₃⟩

/-- The tensors of the stage that is lowered into `m`: strides left out are a new tensor. -/
def supplied (ts : SliceTensors) (m : Model) : SliceTensors :=
  { ts with strides := some (ts.strides.getD m.tensors.length) }

end SliceTensors

lemma Stage.check_eq_ok_iff {s : Stage} {m : Model} :
    s.check m = .ok () ↔ ∃ ts : SliceTensors,
      s.inputs = ts.inputs ∧ s.outputs = [ts.output] ∧ ts.check m = .ok () := by
  obtain ⟨label, ⟨masks⟩, ins, outs⟩ := s
  have reject_eq_ok (r : Except Reason Unit) : label.reject r = .ok () ↔ r = .ok () := by
    cases r <;> simp
  simp only [check, reject_eq_ok, bind_eq_ok_iff, SliceTensors.ofLists_eq_ok_iff, and_assoc]

lemma Stage.check_mono {s : Stage} {m n : Model} (h : s.check m = .ok ()) (g : m.Extends n) :
    s.check n = .ok () := by
  obtain ⟨ts, hi, ho, hc⟩ := Stage.check_eq_ok_iff.mp h
  exact Stage.check_eq_ok_iff.mpr ⟨ts, hi, ho, SliceTensors.check_mono hc g⟩

/-! ### Plans -/

namespace Slice

/-- What is settled by a plan of the layer `l`, whose tensors are `ts`. -/
structure Planned (l : Layer) (m : Model) (p : Plan) (ts : SliceTensors) : Prop where
  inputs : l.inputs = ts.inputs
  outputs : l.outputs = [ts.output]
  fits : ts.check m = .ok ()
  free : ∃ t, m.tensor? ts.output = some t ∧ t.producer = none
  gate : gate l = .ok ()
  masks : keptMasks l = .ok p.masks
  operands : operands ts m = .ok p.operands

variable {l : Layer} {m : Model} {p : Plan} {ts : SliceTensors}

lemma validate_eq_ok_iff : validate l m = .ok ts ↔
    l.inputs = ts.inputs ∧ l.outputs = [ts.output] ∧ ts.check m = .ok () ∧
      ∃ t, m.tensor? ts.output = some t ∧ t.producer = none := by
  have free (us : SliceTensors) (t : Tensor) :
      (if t.producer.isSome then .error (.producedTwice us.output) else .ok us :
        Except Reason SliceTensors) = .ok ts ↔ t.producer = none ∧ us = ts := by
    cases t.producer <;> simp
  simp only [validate, bind_eq_ok_iff, exists_unit_iff, SliceTensors.ofLists_eq_ok_iff,
    Model.resolve_eq_ok_iff, free]
  constructor
  · rintro ⟨us, ⟨hi, ho⟩, hc, t, ht, hp, rfl⟩
    exact ⟨hi, ho, hc, t, ht, hp⟩
  · rintro ⟨hi, ho, hc, t, ht, hp⟩
    exact ⟨ts, ⟨hi, ho⟩, hc, t, ht, hp, rfl⟩

lemma mask_eq_ok_iff {param : String} {flags : Mask} :
    mask l param = .ok flags ↔ Mask.decode (l.param param "") = .ok flags := by
  unfold mask
  cases Mask.decode (l.param param "") <;> simp [Except.mapError]

lemma keptMasks_eq_ok_iff {masks : SliceMasks} : keptMasks l = .ok masks ↔
    Mask.decode (l.param "begin_mask" "") = .ok masks.beginMask ∧
      Mask.decode (l.param "end_mask" "") = .ok masks.endMask := by
  simp only [keptMasks, bind_eq_ok_iff, mask_eq_ok_iff]
  constructor
  · rintro ⟨beginMask, hb, endMask, he, kept⟩
    cases kept
    exact ⟨hb, he⟩
  · rintro ⟨hb, he⟩
    exact ⟨_, hb, _, he, rfl⟩

lemma plan_eq_ok_iff : plan l m = .ok p ↔ ∃ ts, Planned l m p ts := by
  simp only [plan, bind_eq_ok_iff, exists_unit_iff, validate_eq_ok_iff]
  constructor
  · rintro ⟨ts, ⟨hi, ho, hc, hf⟩, hg, masks, hm, o, hop, h⟩
    cases h
    exact ⟨ts, hi, ho, hc, hf, hg, hm, hop⟩
  · rintro ⟨ts, hi, ho, hc, hf, hg, hm, hop⟩
    exact ⟨ts, ⟨hi, ho, hc, hf⟩, hg, p.masks, hm, p.operands, hop, rfl⟩

/-- The operands name the tensors of the layer, whose strides, if given, were looked at. -/
lemma operands_eq_ok_iff {o : Operands} : operands ts m = .ok o ↔
    o = ⟨ts.data, ts.start, ts.stop, ts.strides.elim .unit .tensor⟩ ∧
      ∀ id, ts.strides = some id → checkStrides id m = .ok () := by
  unfold operands
  cases ts.strides with
  | none => simp [eq_comm]
  | some id =>
    simp only [bind_eq_ok_iff, exists_unit_iff, pure, Except.pure, Except.ok.injEq,
      Option.some.injEq, forall_eq', Option.elim_some]
    exact ⟨fun ⟨h, e⟩ => ⟨e.symm, h⟩, fun ⟨e, h⟩ => ⟨h, e.symm⟩⟩

lemma badStride?_eq_none_iff {values : List Int32} :
    badStride? values = none ↔ ∀ v ∈ values, 0 < v := by
  simp only [badStride?, Option.map_eq_none_iff, List.find?_eq_none, decide_eq_true_eq,
    Int32.not_le]
  constructor
  · intro h v hv
    obtain ⟨i, hi⟩ := List.mem_iff_getElem?.mp hv
    exact h (v, i) (List.mk_mem_zipIdx_iff_getElem?.mpr hi)
  · intro h x hx
    exact h x.1 (List.fst_mem_of_mem_zipIdx hx)

/-- A stride that is not positive is found behind positive ones. -/
lemma badStride?_eq_some_iff {values : List Int32} {i : ℕ} {v : Int32} :
    badStride? values = some (i, v) ↔ ∃ front back, values = front ++ v :: back ∧
      (∀ w ∈ front, 0 < w) ∧ v ≤ 0 ∧ front.length = i := by
  have swap (x : Int32 × ℕ) : (x.2, x.1) = (i, v) ↔ x = (v, i) := by
    simp only [Prod.ext_iff]
    tauto
  simp only [badStride?, Option.map_eq_some_iff, swap, exists_eq_right,
    List.find?_eq_some_iff_append, Bool.not_eq_eq_eq_not, Bool.not_true, decide_eq_false_iff_not,
    decide_eq_true_eq, Int32.not_le]
  constructor
  · rintro ⟨hv, before, after, split, positive⟩
    have values_eq : values = before.map (·.1) ++ v :: after.map (·.1) := by
      rw [← List.zipIdx_map_fst 0 values, split, List.map_append, List.map_cons]
    have place : values.zipIdx[before.length]? = some (v, i) := by
      rw [split, List.getElem?_append_right le_rfl, Nat.sub_self]
      rfl
    refine ⟨_, _, values_eq, List.forall_mem_map.mpr positive, hv, ?_⟩
    rw [List.getElem?_zipIdx, Option.map_eq_some_iff] at place
    obtain ⟨w, -, same⟩ := place
    rw [List.length_map, ← (Prod.mk.inj same).2, Nat.zero_add]
  · rintro ⟨front, back, rfl, positive, hv, rfl⟩
    refine ⟨hv, front.zipIdx, back.zipIdx (front.length + 1), ?_, fun x hx => ?_⟩
    · rw [List.zipIdx_append, List.zipIdx_cons, Nat.zero_add]
    · exact positive x.1 (List.fst_mem_of_mem_zipIdx hx)

/-- Strides that pass are contents known while lowering, all of them positive. -/
lemma checkStrides_eq_ok_iff {id : TensorId} : checkStrides id m = .ok () ↔
    ∃ t values, m.tensor? id = some t ∧ t.content.bind Content.ints? = some values ∧
      ∀ v ∈ values, 0 < v := by
  simp only [checkStrides, bind_eq_ok_iff, Model.resolve_eq_ok_iff]
  refine exists_congr fun t => ?_
  cases hc : t.content.bind Content.ints? with
  | none => simp
  | some values =>
    cases hb : badStride? values with
    | none => simp [hb, ← badStride?_eq_none_iff]
    | some bad => simp [← badStride?_eq_none_iff, hb]

/-- The model with the stage of a planned layer. -/
def lowered (l : Layer) (p : Plan) (m : Model) : Model :=
  (p.operands.supply m).2.link (stage l (p.operands.supply m).1 p.masks)

/-- Supplying the inputs at most adds a placeholder. -/
lemma extends_supply (o : Operands) (m : Model) : m.Extends (o.supply m).2 := by
  unfold Operands.supply
  split
  · exact .refl m
  · exact .add m _ _ _ _

@[simp] lemma stages_supply (o : Operands) (m : Model) : (o.supply m).2.stages = m.stages := by
  unfold Operands.supply
  split <;> rfl

lemma tensor?_supply (o : Operands) {id : TensorId} (h : id < m.tensors.length) :
    (o.supply m).2.tensor? id = m.tensor? id := by
  unfold Operands.supply
  split
  · rfl
  · exact Model.tensor?_add _ _ _ _ _ h

namespace Planned

/-- The stage reads the tensors of the layer, and a new one for strides that were left out. -/
lemma supply_fst (h : Planned l m p ts) : (p.operands.supply m).1 = (ts.supplied m).inputs := by
  obtain ⟨e, -⟩ := operands_eq_ok_iff.mp h.operands
  rw [e]
  cases hs : ts.strides <;>
    simp [Operands.supply, SliceTensors.inputs, SliceTensors.supplied, hs, Model.addPlaceholder]

/-- The inputs of the layer stand in front of those of the stage. -/
lemma leading_inputs (h : Planned l m p ts) : l.inputs <+: (p.operands.supply m).1 := by
  rw [h.supply_fst, h.inputs]
  cases hs : ts.strides <;> simp [SliceTensors.inputs, SliceTensors.supplied, hs]

/-- Strides are either given, and then known and positive, or a new placeholder. -/
lemma strides_cases (h : Planned l m p ts) :
    (∃ id, ts.strides = some id ∧ (p.operands.supply m).2 = m ∧ checkStrides id m = .ok ()) ∨
      ts.strides = none ∧ (p.operands.supply m).2 = m.addPlaceholder.2 := by
  obtain ⟨e, hc⟩ := operands_eq_ok_iff.mp h.operands
  rw [e]
  cases hs : ts.strides with
  | none => exact .inr ⟨rfl, rfl⟩
  | some id => exact .inl ⟨id, rfl, rfl, hc id hs⟩

/-- The tensors of the stage fit as those of the layer did. -/
lemma fits_supplied (h : Planned l m p ts) :
    (ts.supplied m).check (p.operands.supply m).2 = .ok () := by
  obtain ⟨data, hd, hx⟩ := SliceTensors.check_eq_ok_iff.mp
    (SliceTensors.check_mono h.fits (extends_supply p.operands m))
  refine SliceTensors.check_eq_ok_iff.mpr ⟨data, hd, fun x hm => ?_⟩
  rcases h.strides_cases with ⟨id, hs, -, -⟩ | ⟨hs, e⟩
  · refine hx x ?_
    simpa [SliceTensors.slots, SliceTensors.supplied, hs] using hm
  · by_cases hslot : x = (SliceTensors.stridesSlot, m.tensors.length, .s32)
    · -- the only slot that the layer did not have
      subst hslot
      refine ⟨_, by rw [e]; exact Model.tensor?_add_self _ _ _ _ _, ?_⟩
      simp [Tensor.isPlaceholder]
    · refine hx x ?_
      simpa [SliceTensors.slots, SliceTensors.supplied, hs, hslot] using hm

/-- The stage passes its own check. -/
lemma check_stage (h : Planned l m p ts) :
    (stage l (p.operands.supply m).1 p.masks).check (p.operands.supply m).2 = .ok () :=
  Stage.check_eq_ok_iff.mpr ⟨ts.supplied m, h.supply_fst, h.outputs, h.fits_supplied⟩

lemma accepts (h : Planned l m p ts) :
    (p.operands.supply m).2.Accepts (stage l (p.operands.supply m).1 p.masks) := by
  constructor
  · rw [stage, h.supply_fst, h.outputs]
    exact (ts.supplied m).known_of_check h.fits_supplied
  · intro id hid t ht
    obtain rfl : id = ts.output := by simpa [stage, h.outputs] using hid
    obtain ⟨_, _, _, u, -, -, -, hu, real, -⟩ := SliceTensors.typed_of_check h.fits_supplied
    obtain rfl : u = t := Option.some.inj (hu.symm.trans ht)
    refine ⟨real u (by simp), ?_⟩
    obtain ⟨v, hv, free⟩ := h.free
    rw [tensor?_supply _ (Model.lt_of_tensor? hv), hv] at ht
    rw [← Option.some.inj ht, free]

end Planned

/-- A planned layer is lowered, with or without a check of its stage. -/
theorem lower_eq (recheck : Bool) (l : Layer) (m : Model) :
    lower recheck l m = match plan l m with
      | .error reason => { result := .error ⟨l.label, reason⟩, model := m }
      | .ok p =>
        { result := .ok m.stages.length
          model := lowered l p m
          log := [.sliceRead l.label.name p.masks.beginMask p.masks.endMask p.operands.strides,
            .layerLowered l.label.name m.stages.length] } := by
  unfold lower
  cases hp : plan l m with
  | error reason => rfl
  | ok p =>
    obtain ⟨ts, h⟩ := plan_eq_ok_iff.mp hp
    have checked : (if recheck then (stage l (p.operands.supply m).1 p.masks).check
        (p.operands.supply m).2 else .ok ()) = .ok () := by
      split
      · exact h.check_stage
      · rfl
    have added := Model.stageFault?_eq_none_iff.mpr h.accepts
    simp only [appendStage, checked, Model.addStage, added, stages_supply, lowered]

end Slice

/-- The plan of a layer whose type the hardware knows. -/
def Layer.plan (l : Layer) (m : Model) : Except Reason Slice.Plan :=
  match Opcode.ofLayerType? l.label.type with
  | none => .error .unsupportedType
  | some .stridedSlice => Slice.plan l m

/-- What is answered for a layer is settled by its plan. -/
lemma Model.result_lowerLayer (m : Model) (config : Config) (l : Layer) :
    (m.lowerLayer config l).result = match l.plan m with
      | .error reason => .error ⟨l.label, reason⟩
      | .ok _ => .ok m.stages.length := by
  unfold lowerLayer Layer.plan
  rcases Opcode.ofLayerType? l.label.type with _ | ⟨⟨⟩⟩
  · rfl
  · simp only [Slice.lower_eq]
    cases Slice.plan l m <;> rfl

/-- What is reported on a layer is settled by its plan as well. -/
lemma Model.log_lowerLayer (m : Model) (config : Config) (l : Layer) :
    (m.lowerLayer config l).log = match l.plan m with
      | .error _ => []
      | .ok p => [.sliceRead l.label.name p.masks.beginMask p.masks.endMask p.operands.strides,
          .layerLowered l.label.name m.stages.length] := by
  unfold lowerLayer Layer.plan
  rcases Opcode.ofLayerType? l.label.type with _ | ⟨⟨⟩⟩
  · rfl
  · simp only [Slice.lower_eq]
    cases Slice.plan l m <;> rfl

lemma Model.model_lowerLayer_of_plan {m : Model} {l : Layer} {p : Slice.Plan}
    (h : l.plan m = .ok p) (config : Config) :
    (m.lowerLayer config l).model = Slice.lowered l p m := by
  revert h
  unfold lowerLayer Layer.plan
  rcases Opcode.ofLayerType? l.label.type with _ | ⟨⟨⟩⟩
  · nofun
  · intro h
    simp only [Slice.lower_eq, h]

/-- A layer is lowered exactly if it has a plan; otherwise the model is left as it was. -/
theorem Model.lowerLayer_eq {m : Model} (hm : m.Linked) (config : Config) (l : Layer) :
    m.lowerLayer config l = match l.plan m with
      | .error reason => { result := .error ⟨l.label, reason⟩, model := m }
      | .ok p =>
        { result := .ok m.stages.length
          model := Slice.lowered l p m
          log := [.sliceRead l.label.name p.masks.beginMask p.masks.endMask p.operands.strides,
            .layerLowered l.label.name m.stages.length] } := by
  unfold lowerLayer Layer.plan
  rcases Opcode.ofLayerType? l.label.type with _ | ⟨⟨⟩⟩
  · rfl
  · simp only [Slice.lower_eq]
    cases Slice.plan l m with
    | error reason => simp only [(Extends.refl m).rollback hm]
    | ok p => rfl

end SliceCompiler
