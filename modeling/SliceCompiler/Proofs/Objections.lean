import SliceCompiler.History
import SliceCompiler.Proofs.Planning

/-!
What speaks against a layer. All that may be objected to a layer stands in one list, and each
objection is about the layer and the model as they are given. A layer that nothing is objected to is
lowered; any other one is rejected, and the first objection that applies gives the reason. Planning
goes through the list from the front: each of its steps answers for a part, and may take for granted
that nothing in the parts before applies.
-/

namespace SliceCompiler

/-- An objection to a layer, by the reasons that it gives. -/
abbrev Objection := Reason → Prop

namespace Objection

/-- None of the objections applies. -/
def Clear (cs : List Objection) : Prop := ∀ c ∈ cs, ∀ r, ¬ c r

/-- The first objection that applies gives the reason. -/
inductive First : List Objection → Reason → Prop
  | here {c : Objection} {cs : List Objection} {r : Reason} (h : c r) : First (c :: cs) r
  | later {c : Objection} {cs : List Objection} {r : Reason} (h : ∀ s, ¬ c s)
      (g : First cs r) : First (c :: cs) r

/-! ### Single objections -/

/-- The layer is of another type than strided slices. -/
inductive Foreign (l : Layer) : Reason → Prop
  | unsupportedType (h : l.label.type ≠ "StridedSlice") : Foreign l .unsupportedType

/-- There are neither three nor four inputs. -/
inductive InputCount (l : Layer) : Reason → Prop
  | arity (three : l.inputs.length ≠ 3) (four : l.inputs.length ≠ 4) :
      InputCount l (.arity .inputs [3, 4] l.inputs.length)

/-- There is not one output. -/
inductive OutputCount (l : Layer) : Reason → Prop
  | arity (one : l.outputs.length ≠ 1) : OutputCount l (.arity .outputs [1] l.outputs.length)

/-- The type that a slot asks for, by that of the data. -/
def wanted (data : ElementType) : Slot → ElementType
  | .input 0 | .output _ => data
  | .input _ => .s32

/-- The tensor `id` is not for this slot, with `data` for the data of the layer. -/
inductive AtSlot (m : Model) (data : Option Tensor) (slot : Slot) (id : TensorId) : Reason → Prop
  | unknown (h : m.tensor? id = none) : AtSlot m data slot id (.unknownTensor id)
  | placeholder {t : Tensor} (h : m.tensor? id = some t) (hp : t.role = .placeholder)
      (hs : slot ≠ .input 3) : AtSlot m data slot id (.placeholder slot)
  | elementType {t d : Tensor} (h : m.tensor? id = some t) (hp : t.role ≠ .placeholder)
      (hd : data = some d) (other : t.element ≠ wanted d.element slot) :
      AtSlot m data slot id (.elementType slot (wanted d.element slot) t.element)

/-- The tensor has a producer. -/
inductive Written (m : Model) (id : TensorId) : Reason → Prop
  | producedTwice {t : Tensor} {k : StageId} (h : m.tensor? id = some t)
      (hp : t.producer = some k) : Written m id (.producedTwice id)

/-- The text of the parameter, empty if it is not set, is no mask. -/
inductive Unreadable (l : Layer) (param : String) : Reason → Prop
  | badMask {fault : MaskFault} (h : Mask.decode (l.param param "") = .error fault) :
      Unreadable l param (.badMask param fault)

/-- The parameter holds a mask with flags that are set. -/
inductive Flagged (l : Layer) (param : String) : Reason → Prop
  | unsupportedFeature {flags : Mask} (h : Mask.decode (l.param param "") = .ok flags)
      (set : flags ≠ 0) : Flagged l param (.unsupportedFeature param)

/-- The strides are not known as integers. -/
inductive NoContent (m : Model) (id : TensorId) : Reason → Prop
  | noContent {t : Tensor} (h : m.tensor? id = some t)
      (hc : t.content.bind Content.ints? = none) : NoContent m id (.noContent (.input 3))

/-- Behind positive strides there is one that is not. -/
inductive NonPositive (m : Model) (id : TensorId) : Reason → Prop
  | nonPositiveStride {t : Tensor} {front back : List Int32} {v : Int32}
      (h : m.tensor? id = some t)
      (hc : t.content.bind Content.ints? = some (front ++ v :: back))
      (positive : ∀ w ∈ front, 0 < w) (hv : v ≤ 0) :
      NonPositive m id (.nonPositiveStride front.length v)

end Objection

open Objection

/-- The slots of a layer with their tensors, inputs first. -/
def Layer.slots (l : Layer) : List (Slot × TensorId) :=
  (l.inputs.zipIdx.map fun (id, i) => (.input i, id)) ++
    l.outputs.zipIdx.map fun (id, i) => (.output i, id)

/-- All that may be objected to a layer, in the order in which it counts. -/
def Layer.objections (l : Layer) (m : Model) : List Objection :=
  [Foreign l, InputCount l, OutputCount l] ++
    (l.slots.map fun (slot, id) => AtSlot m (l.inputs.head?.bind m.tensor?) slot id) ++
    l.outputs.map (Written m) ++
    (["new_axis_mask", "shrink_axis_mask", "ellipsis_mask"].flatMap fun param =>
      [Unreadable l param, Flagged l param]) ++
    ["begin_mask", "end_mask"].map (Unreadable l) ++
    (l.inputs.drop 3).flatMap fun id => [NoContent m id, NonPositive m id]

/-! ### The first of several objections -/

namespace Objection

variable {α β : Type} {c : Objection} {cs ds : List Objection} {r : Reason}
  {x : Except Reason α} {f : α → Except Reason β}

lemma not_first_nil : ¬ First [] r := nofun

lemma first_cons_iff : First (c :: cs) r ↔ c r ∨ (∀ s, ¬ c s) ∧ First cs r := by
  constructor
  · intro h
    cases h with
    | here h => exact .inl h
    | later h g => exact .inr ⟨h, g⟩
  · rintro (h | ⟨h, g⟩)
    · exact .here h
    · exact .later h g

lemma first_append_iff : First (cs ++ ds) r ↔ First cs r ∨ Clear cs ∧ First ds r := by
  induction cs with
  | nil => simp [not_first_nil, Clear]
  | cons c cs ih =>
    have clear : Clear (c :: cs) ↔ (∀ s, ¬ c s) ∧ Clear cs := List.forall_mem_cons
    rw [List.cons_append, first_cons_iff, first_cons_iff, ih, clear]
    tauto

lemma clear_iff : Clear cs ↔ ∀ r, ¬ First cs r := by
  induction cs with
  | nil => exact iff_of_true nofun fun _ => not_first_nil
  | cons c cs ih =>
    constructor
    · intro h r first
      obtain ⟨now, later⟩ := List.forall_mem_cons.mp h
      rcases first_cons_iff.mp first with here | ⟨-, first⟩
      · exact now r here
      · exact ih.mp later r first
    · intro h
      have now : ∀ s, ¬ c s := fun s hs => h s (.here hs)
      exact List.forall_mem_cons.mpr ⟨now, ih.mpr fun r first => h r (.later now first)⟩

lemma First.exists_mem (h : First cs r) : ∃ c ∈ cs, c r := by
  induction h with
  | here h => exact ⟨_, .head _, h⟩
  | later _ _ ih =>
    obtain ⟨c, hc, hr⟩ := ih
    exact ⟨c, .tail _ hc, hr⟩

/-- The step fails for the first of these objections, and only for one of them. -/
def Heeds (x : Except Reason α) (cs : List Objection) : Prop := ∀ r, x = .error r ↔ First cs r

lemma Heeds.ok_iff (h : Heeds x cs) : (∃ a, x = .ok a) ↔ Clear cs := by
  rw [clear_iff]
  cases x with
  | ok a => exact iff_of_true ⟨a, rfl⟩ fun r first => nomatch (h r).mpr first
  | error r =>
    refine iff_of_false (fun ⟨a, ha⟩ => nomatch ha) fun clear => ?_
    exact clear r ((h r).mp rfl)

lemma heeds_ok (a : α) : Heeds (.ok a) [] := fun _ => iff_of_false nofun not_first_nil

lemma heeds_single (h : ∀ r, x = .error r ↔ c r) : Heeds x [c] := by
  intro r
  rw [h, first_cons_iff]
  simp [not_first_nil]

/-- A step that fails for the first objection, whatever else may be objected. -/
lemma heeds_error (h : c r) (only : ∀ s, c s → s = r) (cs : List Objection) :
    Heeds (.error r : Except Reason α) (c :: cs) := by
  intro s
  constructor
  · intro same
    cases same
    exact .here h
  · intro first
    rcases first_cons_iff.mp first with here | ⟨clear, -⟩
    · rw [only s here]
    · exact (clear r h).elim

/-- An objection that does not apply makes no difference. -/
lemma Heeds.cons (hx : Heeds x cs) (clear : ∀ s, ¬ c s) : Heeds x (c :: cs) := by
  intro r
  rw [hx r, first_cons_iff]
  exact ⟨fun first => .inr ⟨clear, first⟩, fun h => h.elim (fun here => (clear r here).elim) (·.2)⟩

/-- The second step is reached only if nothing is objected to the first. -/
lemma Heeds.bind (hx : Heeds x cs) (hf : ∀ a, x = .ok a → Heeds (f a) ds) :
    Heeds (x >>= f) (cs ++ ds) := by
  intro r
  rw [first_append_iff, ← hx r, ← hx.ok_iff]
  cases x with
  | error s => simp [Bind.bind, Except.bind]
  | ok a =>
    have next : f a = .error r ↔ First ds r := hf a rfl r
    simpa [Bind.bind, Except.bind] using next

/-! ### Steps of planning -/

variable {m : Model} {l : Layer} {ts : SliceTensors} {d t : Tensor}

lemma heeds_ofLists (l : Layer) :
    Heeds (SliceTensors.ofLists l.inputs l.outputs) [InputCount l, OutputCount l] := by
  by_cases hi : l.inputs.length = 3 ∨ l.inputs.length = 4
  · have inputs : ∀ s, ¬ InputCount l s := fun _ ⟨three, four⟩ => hi.elim three four
    by_cases ho : l.outputs.length = 1
    · obtain ⟨ts, lists⟩ := SliceTensors.exists_ofLists hi ho
      rw [lists]
      exact ((heeds_ok ts).cons fun _ ⟨one⟩ => one ho).cons inputs
    · have lists : SliceTensors.ofLists l.inputs l.outputs =
          .error (.arity .outputs [1] l.outputs.length) := by
        unfold SliceTensors.ofLists
        split <;> simp_all
      rw [lists]
      exact (heeds_error (.arity ho) (fun _ ⟨_⟩ => rfl) []).cons inputs
  · have lists : SliceTensors.ofLists l.inputs l.outputs =
        .error (.arity .inputs [3, 4] l.inputs.length) := by
      unfold SliceTensors.ofLists
      split <;> simp_all
    rw [lists]
    obtain ⟨three, four⟩ := not_or.mp hi
    exact heeds_error (.arity three four) (fun _ ⟨_, _⟩ => rfl) _

/-- A tensor that is not there is the only objection to its slot. -/
lemma heeds_unknown {slot : Slot} {id : TensorId} (h : m.tensor? id = none) (data : Option Tensor)
    (cs : List Objection) :
    Heeds (.error (.unknownTensor id) : Except Reason α) (AtSlot m data slot id :: cs) := by
  refine heeds_error (.unknown h) (fun r hr => ?_) cs
  cases hr with
  | unknown => rfl
  | placeholder ht | elementType ht => simp [h] at ht

lemma heeds_checkSlot (m : Model) (d : Tensor) (slot : Slot) (id : TensorId) :
    Heeds (SliceTensors.checkSlot m slot id (wanted d.element slot))
      [AtSlot m (some d) slot id] := by
  unfold SliceTensors.checkSlot Model.resolve
  cases ht : m.tensor? id with
  | none => exact heeds_unknown ht _ _
  | some t =>
    change Heeds (if t.isPlaceholder then _ else _) _
    by_cases hp : t.role = .placeholder
    · have placeholder : t.isPlaceholder = true := decide_eq_true hp
      rw [if_pos placeholder]
      split
      · next hs =>
        refine (heeds_ok ()).cons fun r hr => ?_
        cases hr with
        | unknown hu => simp [ht] at hu
        | placeholder _ _ other => exact other hs
        | elementType hu other => simp_all
      · next hs =>
        refine heeds_error (.placeholder ht hp hs) (fun r hr => ?_) []
        cases hr with
        | unknown hu => simp [ht] at hu
        | placeholder => rfl
        | elementType hu other => simp_all
    · have real : ¬ t.isPlaceholder = true := by simpa [Tensor.isPlaceholder] using hp
      rw [if_neg real]
      split
      · next he =>
        refine (heeds_ok ()).cons fun r hr => ?_
        cases hr <;> simp_all
      · next he =>
        refine heeds_error (.elementType ht hp rfl he) (fun r hr => ?_) []
        cases hr <;> simp_all

/-- Each slot is looked at when nothing is objected to the ones in front. -/
lemma heeds_checkSlots (m : Model) (d : Tensor) (xs : List (Slot × TensorId)) :
    Heeds (SliceTensors.checkSlots m (xs.map fun (slot, id) => (slot, id, wanted d.element slot)))
      (xs.map fun (slot, id) => AtSlot m (some d) slot id) := by
  induction xs with
  | nil => exact heeds_ok ()
  | cons x xs ih => exact (heeds_checkSlot m d x.1 x.2).bind fun _ _ => ih

lemma slots_eq (hi : l.inputs = ts.inputs) (ho : l.outputs = [ts.output]) (data : ElementType) :
    ts.slots data = l.slots.map fun (slot, id) => (slot, id, wanted data slot) := by
  rw [Layer.slots, hi, ho]
  cases hs : ts.strides <;>
    simp [SliceTensors.slots, SliceTensors.inputs, SliceTensors.stridesSlot, hs, wanted]

lemma heeds_check (hi : l.inputs = ts.inputs) (ho : l.outputs = [ts.output]) :
    Heeds (ts.check m)
      (l.slots.map fun (slot, id) => AtSlot m (l.inputs.head?.bind m.tensor?) slot id) := by
  have data : l.inputs.head?.bind m.tensor? = m.tensor? ts.data := by
    rw [hi]
    rfl
  rw [data]
  unfold SliceTensors.check Model.resolve
  cases hd : m.tensor? ts.data with
  | none =>
    -- the data stands in the first slot
    obtain ⟨others, slots⟩ : ∃ others, l.slots = (.input 0, ts.data) :: others := by
      rw [Layer.slots, hi]
      exact ⟨_, rfl⟩
    rw [slots]
    exact heeds_unknown hd _ _
  | some d =>
    have first : Heeds (SliceTensors.checkSlots m (ts.slots d.element)) _ :=
      slots_eq hi ho d.element ▸ heeds_checkSlots m d l.slots
    exact first

lemma heeds_free {id : TensorId} (h : m.tensor? id = some t) :
    Heeds (if t.producer.isSome then .error (.producedTwice id) else .ok ts) [Written m id] := by
  cases hp : t.producer with
  | none =>
    refine (heeds_ok ts).cons fun _ ⟨hu, written⟩ => ?_
    simp_all
  | some k => exact heeds_error (.producedTwice h hp) (fun _ ⟨_, _⟩ => rfl) []

lemma heeds_validate (l : Layer) (m : Model) :
    Heeds (Slice.validate l m) ([InputCount l, OutputCount l] ++
      ((l.slots.map fun (slot, id) => AtSlot m (l.inputs.head?.bind m.tensor?) slot id) ++
        l.outputs.map (Written m))) := by
  refine (heeds_ofLists l).bind fun ts lists => ?_
  obtain ⟨hi, ho⟩ := SliceTensors.ofLists_eq_ok_iff.mp lists
  refine (heeds_check hi ho).bind fun _ fits => ?_
  obtain ⟨t, ht⟩ := Model.exists_tensor (SliceTensors.known_of_check fits ts.output (by simp))
  rw [ho, Model.resolve_eq_ok_iff.mpr ht]
  exact heeds_free ht

lemma heeds_mask (l : Layer) (param : String) :
    Heeds (Slice.mask l param) [Unreadable l param] := by
  unfold Slice.mask
  cases h : Mask.decode (l.param param "") with
  | ok flags =>
    refine (heeds_ok flags).cons fun _ ⟨unreadable⟩ => ?_
    simp [h] at unreadable
  | error fault =>
    refine heeds_error (.badMask h) (fun _ ⟨other⟩ => ?_) []
    rw [h] at other
    cases other
    rfl

/-- A mask that can be read is objected to if flags are set in it. -/
lemma heeds_checkUnset (l : Layer) (params : List String) :
    Heeds (Slice.checkUnset l params)
      (params.flatMap fun param => [Unreadable l param, Flagged l param]) := by
  induction params with
  | nil => exact heeds_ok ()
  | cons param rest ih =>
    have flagged (flags : Mask) (read : Slice.mask l param = .ok flags) :
        Heeds (if flags = 0 then Slice.checkUnset l rest else .error (.unsupportedFeature param))
          (Flagged l param :: rest.flatMap fun param => [Unreadable l param, Flagged l param]) := by
      have decoded := Slice.mask_eq_ok_iff.mp read
      split
      · next unset =>
        refine ih.cons fun _ ⟨other, set⟩ => ?_
        rw [decoded] at other
        cases other
        exact set unset
      · next set => exact heeds_error (.unsupportedFeature decoded set) (fun _ ⟨_, _⟩ => rfl) _
    exact (heeds_mask l param).bind flagged

lemma heeds_keptMasks (l : Layer) :
    Heeds (Slice.keptMasks l) (["begin_mask", "end_mask"].map (Unreadable l)) :=
  (heeds_mask l "begin_mask").bind fun _ _ => (heeds_mask l "end_mask").bind fun _ _ => heeds_ok _

/-- Strides are looked at when they are known. -/
lemma heeds_checkStrides {id : TensorId} (h : m.tensor? id = some t) :
    Heeds (Slice.checkStrides id m) [NoContent m id, NonPositive m id] := by
  unfold Slice.checkStrides
  rw [Model.resolve_eq_ok_iff.mpr h]
  refine (heeds_ok t).bind fun _ same => ?_
  cases same
  cases hc : t.content.bind Content.ints? with
  | none => exact heeds_error (.noContent h hc) (fun _ ⟨_, _⟩ => rfl) _
  | some values =>
    have known : ∀ r, ¬ NoContent m id r := fun r ⟨hu, unknown⟩ => by
      rw [h] at hu
      cases hu
      simp [hc] at unknown
    -- what is objected to the strides is what a look at them finds
    have found (r : Reason) : NonPositive m id r ↔
        ∃ i v, Slice.badStride? values = some (i, v) ∧ .nonPositiveStride i v = r := by
      constructor
      · rintro ⟨hu, strides, positive, hv⟩
        rw [h] at hu
        cases hu
        rw [hc] at strides
        have split := Option.some.inj strides
        exact ⟨_, _, Slice.badStride?_eq_some_iff.mpr ⟨_, _, split, positive, hv, rfl⟩, rfl⟩
      · rintro ⟨i, v, bad, rfl⟩
        obtain ⟨front, back, rfl, positive, hv, rfl⟩ := Slice.badStride?_eq_some_iff.mp bad
        exact .nonPositiveStride h hc positive hv
    refine Heeds.cons (heeds_single fun r => ?_) known
    rw [found]
    cases hb : Slice.badStride? values with
    | none => simp [hb]
    | some bad =>
      obtain ⟨i, v⟩ := bad
      simp [hb]

lemma heeds_operands (hi : l.inputs = ts.inputs) (fits : ts.check m = .ok ()) :
    Heeds (Slice.operands ts m)
      ((l.inputs.drop 3).flatMap fun id => [NoContent m id, NonPositive m id]) := by
  have strides : l.inputs.drop 3 = ts.strides.toList := by
    rw [hi]
    rfl
  unfold Slice.operands
  rw [strides]
  cases hs : ts.strides with
  | none => exact heeds_ok _
  | some id =>
    obtain ⟨t, ht⟩ := Model.exists_tensor
      (SliceTensors.known_of_check fits id (by simp [SliceTensors.inputs, hs]))
    exact (heeds_checkStrides ht).bind fun _ _ => heeds_ok _

lemma heeds_slicePlan (l : Layer) (m : Model) : Heeds (Slice.plan l m) (l.objections m).tail := by
  have steps := (heeds_validate l m).bind fun ts valid => by
    obtain ⟨hi, -, fits, -⟩ := Slice.validate_eq_ok_iff.mp valid
    exact (heeds_checkUnset l Slice.unsupported).bind fun _ _ =>
      (heeds_keptMasks l).bind fun masks _ =>
        (heeds_operands hi fits).bind fun o _ => heeds_ok (Slice.Plan.mk masks o)
  simp only [Layer.objections, Slice.unsupported, List.append_assoc, List.append_nil,
    List.cons_append, List.nil_append, List.tail_cons] at steps ⊢
  exact steps

/-- Planning goes through all the objections. -/
lemma heeds_plan (l : Layer) (m : Model) : Heeds (l.plan m) (l.objections m) := by
  change Heeds _ (Foreign l :: (l.objections m).tail)
  unfold Layer.plan
  rcases ho : Opcode.ofLayerType? l.label.type with _ | ⟨⟨⟩⟩
  · have other : l.label.type ≠ "StridedSlice" := fun same => by
      rw [Opcode.ofLayerType?_eq_some (o := .stridedSlice).mpr same] at ho
      cases ho
    exact heeds_error (.unsupportedType other) (fun _ ⟨_⟩ => rfl) _
  · refine (heeds_slicePlan l m).cons fun _ ⟨other⟩ => ?_
    exact other (Opcode.ofLayerType?_eq_some.mp ho)

end Objection

/-- **The first objection counts.** A layer is rejected exactly for the first of its objections
that applies, under its own label, and it is lowered exactly if none applies. The objections are
those to the type, to the numbers of inputs and outputs, to each slot in turn, to an output that is
written already, to the masks that have to be unset, to those that are kept, and to the strides. So
what is done after planning, with the stage and its check, never decides the answer, and neither
does the configuration. -/
theorem Model.lowerLayer_objections (m : Model) (config : Config) (l : Layer) :
    (∀ r, (m.lowerLayer config l).result = .error r ↔
      r.layer = l.label ∧ First (l.objections m) r.reason) ∧
    ((∃ id, (m.lowerLayer config l).result = .ok id) ↔ Clear (l.objections m)) := by
  have planned := heeds_plan l m
  rw [← planned.ok_iff, result_lowerLayer]
  constructor
  · rintro ⟨label, reason⟩
    rw [← planned reason]
    cases l.plan m with
    | ok p => simp
    | error other => simp [eq_comm]
  · cases l.plan m with
    | ok p => simp
    | error reason => simp

/-- A mask that is kept is objected to before the strides, and one that has to be unset before it,
though only that one can be read. -/
example :
    let m := (Session.run .stack ⟨.empty "m", []⟩
      [.run (.addInput "x" ⟨.s32, [4]⟩), .run (.addOutput "y" ⟨.s32, [2]⟩),
        .run (.addConst "s" ⟨.s32, [2]⟩ (.ofInts [1, 0]))]).model
    let l := Layer.maskedSlice "a" [0, 0, 0, 2] 1 "1" "0,x"
    (m.lowerLayer {} l).result =
        .error ⟨l.label, .badMask "end_mask" (.invalidCharacter 'x' 2)⟩ ∧
      (m.lowerLayer {} (l.withParam "ellipsis_mask" "1")).result =
        .error ⟨l.label, .unsupportedFeature "ellipsis_mask"⟩ := by
  decide +kernel

end SliceCompiler
