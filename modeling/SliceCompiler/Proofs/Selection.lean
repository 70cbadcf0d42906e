import SliceCompiler.Proofs.Policies

/-!
Which layers of a list are lowered. All that lowering leaves behind for a later layer are
placeholders and links. A placeholder that is new is of no use to the layer: it can only stand for
the strides, and has no content to be looked at. A link matters where the layer writes a tensor that
is written already. So what becomes of a layer is settled by the model at the start and by the
outputs of the layers in front of it.
-/

namespace SliceCompiler

/-! ### Checks in an earlier model -/

namespace SliceTensors

variable {m n : Model} {ts : SliceTensors}

/-- A tensor that was there before suits a slot as it did. -/
lemma Suits.of_extends {x : Slot × TensorId × ElementType} (h : Suits n x) (g : m.Extends n)
    (hid : x.2.1 < m.tensors.length) : Suits m x := by
  obtain ⟨u, hu, hx⟩ := h
  obtain ⟨t, v, ht, hv, tv⟩ := g.exists_tensors hid
  obtain rfl : u = v := Option.some.inj (hu.symm.trans hv)
  exact ⟨t, ht, by rwa [tv.isPlaceholder_eq, tv.element_eq] at hx⟩

/-- A check is passed in an earlier model if the tensors were there. -/
lemma check_of_extends (h : ts.check n = .ok ()) (g : m.Extends n)
    (known : ∀ id ∈ ts.inputs ++ [ts.output], id < m.tensors.length) : ts.check m = .ok () := by
  obtain ⟨data, hd, hx⟩ := check_eq_ok_iff.mp h
  obtain ⟨t, u, ht, hu, tu⟩ := g.exists_tensors (known ts.data (.head _))
  obtain rfl : data = u := Option.some.inj (hd.symm.trans hu)
  refine check_eq_ok_iff.mpr ⟨t, ht, fun x hm => ?_⟩
  rw [← tu.element_eq] at hm
  refine (hx x hm).of_extends g (known _ ?_)
  rw [← ids_slots ts data.element]
  exact List.mem_map_of_mem hm

lemma strides_of_mem_slots {x : Slot × TensorId × ElementType} {e : ElementType}
    (h : x ∈ ts.slots e) (hs : x.1 = stridesSlot) : ts.strides = some x.2.1 := by
  obtain ⟨slot, id, e'⟩ := x
  cases hs
  cases hg : ts.strides <;> simp_all [slots, stridesSlot]

end SliceTensors

/-- Strides that were there before are looked at as they were. -/
lemma Slice.checkStrides_iff_of_extends {m n : Model} {id : TensorId} (g : m.Extends n)
    (hid : id < m.tensors.length) : checkStrides id n = .ok () ↔ checkStrides id m = .ok () := by
  obtain ⟨t, u, ht, hu, tu⟩ := g.exists_tensors hid
  have content : u.content = t.content := by rw [tu.same]
  simp only [checkStrides_eq_ok_iff, ht, hu, Option.some.injEq, exists_and_left,
    exists_eq_left', content]

namespace Model

/-- `n` was left by lowering layers with these lists of outputs into `m`: what is new are
placeholders, and what has come to be written are the outputs. -/
structure WrittenSince (m n : Model) (written : List (List TensorId)) : Prop where
  grown : m.Extends n
  fresh : ∀ {id u}, n.tensor? id = some u →
    id < m.tensors.length ∨ u.isPlaceholder = true ∧ u.content = none
  producer : ∀ {id t u}, m.tensor? id = some t → n.tensor? id = some u →
    (u.producer = none ↔ t.producer = none ∧ [id] ∉ written)

/-- The layer can be lowered into the model as it stands. -/
def takes (m : Model) (recheck : Bool) (l : Layer) : Bool :=
  (m.lowerLayer ⟨recheck, .abort⟩ l).result.isOk

variable {d : Discipline} {m n : Model} {recheck : Bool} {l : Layer} {ls : List Layer}
  {p : Slice.Plan} {ts : SliceTensors} {written : List (List TensorId)} {i : ℕ}

lemma takes_iff (hm : m.Linked) : m.takes recheck l = true ↔ ∃ p, l.plan m = .ok p := by
  unfold takes
  rw [lowerLayer_eq hm]
  cases l.plan m <;> simp [Except.isOk, Except.toBool]

namespace WrittenSince

lemma refl (m : Model) : m.WrittenSince m [] := by
  refine ⟨.refl m, fun hu => .inl (lt_of_tensor? hu), fun ht hu => ?_⟩
  simp [Option.some.inj (ht.symm.trans hu)]

lemma addPlaceholder (h : m.WrittenSince n written) :
    m.WrittenSince n.addPlaceholder.2 written := by
  refine ⟨h.grown.trans (.add _ _ _ _ _), fun hu => ?_, fun ht hu => ?_⟩
  · rcases tensor?_add_cases hu with hu | ⟨-, rfl⟩
    · exact h.fresh hu
    · exact .inr ⟨rfl, rfl⟩
  · rcases tensor?_add_cases hu with hu | ⟨rfl, -⟩
    · exact h.producer ht hu
    · exact ((h.grown.lt (lt_of_tensor? ht)).false).elim

lemma link (h : m.WrittenSince n written) {s : Stage} (ha : n.Accepts s) {id : TensorId}
    (ho : s.outputs = [id]) : m.WrittenSince (n.link s) ([id] :: written) := by
  refine ⟨h.grown.trans (.link ha), fun {i v} hv => ?_, fun {i t v} ht hv => ?_⟩ <;>
    rw [tensor?_link] at hv <;> obtain ⟨u, hu, rfl⟩ := Option.map_eq_some_iff.mp hv
  · -- links make no placeholder out of a tensor, and give it no content
    exact (h.fresh hu).imp_right fun new => new
  · by_cases hi : i = id
    · simp [Tensor.linked, ho, hi]
    · simp [Tensor.linked, ho, hi, h.producer ht hu]

/-- Lowering a layer adds its outputs to those that are written. -/
lemma lowered (h : m.WrittenSince n written) (hp : l.plan n = .ok p) :
    m.WrittenSince (Slice.lowered l p n) (l.outputs :: written) := by
  obtain ⟨ts, planned⟩ := planned_of_plan hp
  rw [planned.outputs]
  refine link ?_ planned.accepts planned.outputs
  rcases planned.strides_cases with ⟨-, -, same, -⟩ | ⟨-, same⟩
  · rw [same]
    exact h
  · rw [same]
    exact h.addPlaceholder

/-! ### Plans do not change but for outputs that are written -/

/-- All tensors that a layer with a plan refers to were there from the start. -/
lemma known (h : m.WrittenSince n written) (planned : Slice.Planned l n p ts) :
    ∀ id ∈ ts.inputs ++ [ts.output], id < m.tensors.length := by
  obtain ⟨-, strides⟩ := Slice.operands_eq_ok_iff.mp planned.operands
  obtain ⟨data, -, suits⟩ := SliceTensors.check_eq_ok_iff.mp planned.fits
  intro id hid
  rw [← ts.ids_slots data.element] at hid
  obtain ⟨x, hx, rfl⟩ := List.mem_map.mp hid
  obtain ⟨u, hu, fits⟩ := suits x hx
  rcases h.fresh hu with hlt | ⟨new, empty⟩
  · exact hlt
  · -- a new placeholder would have to be the strides, and strides have a content
    have hs : ts.strides = some x.2.1 :=
      SliceTensors.strides_of_mem_slots hx (by simpa [new] using fits)
    obtain ⟨t, values, ht, content, -⟩ := Slice.checkStrides_eq_ok_iff.mp (strides _ hs)
    obtain rfl : u = t := Option.some.inj (hu.symm.trans ht)
    simp [empty] at content

/-- A layer has the same plan as at the start, as long as its output has not been written since. -/
lemma planned_iff (h : m.WrittenSince n written) :
    Slice.Planned l n p ts ↔ Slice.Planned l m p ts ∧ l.outputs ∉ written := by
  constructor
  · intro planned
    have known := h.known planned
    obtain ⟨u, hu, free⟩ := planned.free
    obtain ⟨t, ht⟩ := exists_tensor (known ts.output (by simp))
    obtain ⟨unwritten, since⟩ := (h.producer ht hu).mp free
    obtain ⟨o, strides⟩ := Slice.operands_eq_ok_iff.mp planned.operands
    refine ⟨⟨planned.inputs, planned.outputs, ?_, ⟨t, ht, unwritten⟩, planned.gate, planned.masks,
      Slice.operands_eq_ok_iff.mpr ⟨o, fun id hs => ?_⟩⟩, planned.outputs ▸ since⟩
    · exact SliceTensors.check_of_extends planned.fits h.grown known
    · have hid := known id (by simp [SliceTensors.inputs, hs])
      exact (Slice.checkStrides_iff_of_extends h.grown hid).mp (strides id hs)
  · rintro ⟨planned, since⟩
    obtain ⟨t, ht, unwritten⟩ := planned.free
    obtain ⟨u, hu, -⟩ := h.grown.tensors ht
    rw [planned.outputs] at since
    obtain ⟨o, strides⟩ := Slice.operands_eq_ok_iff.mp planned.operands
    refine ⟨planned.inputs, planned.outputs, SliceTensors.check_mono planned.fits h.grown,
      ⟨u, hu, (h.producer ht hu).mpr ⟨unwritten, since⟩⟩, planned.gate, planned.masks,
      Slice.operands_eq_ok_iff.mpr ⟨o, fun id hs => ?_⟩⟩
    have hid := ts.known_of_check planned.fits id (by simp [SliceTensors.inputs, hs])
    exact (Slice.checkStrides_iff_of_extends h.grown hid).mpr (strides id hs)

lemma plan_eq_ok_iff (h : m.WrittenSince n written) :
    l.plan n = .ok p ↔ l.plan m = .ok p ∧ l.outputs ∉ written := by
  unfold Layer.plan
  split
  · simp
  · simp only [Slice.plan_eq_ok_iff, h.planned_iff, exists_and_right]

/-- The next layer of a list is lowered exactly if the model at the start takes it and its output
has not been written since. -/
lemma step (h : m.WrittenSince n written) (hm : m.Linked) (recheck : Bool) (l : Layer) :
    (∃ p, l.plan n = .ok p ∧ m.takes recheck l = true ∧ l.outputs ∉ written) ∨
      ∃ reason, l.plan n = .error reason ∧ ¬ (m.takes recheck l = true ∧ l.outputs ∉ written) := by
  simp only [takes_iff hm]
  cases hp : l.plan n with
  | ok p =>
    obtain ⟨planned, since⟩ := h.plan_eq_ok_iff.mp hp
    exact .inl ⟨p, rfl, ⟨p, planned⟩, since⟩
  | error reason =>
    refine .inr ⟨reason, rfl, ?_⟩
    rintro ⟨⟨p, planned⟩, since⟩
    have := h.plan_eq_ok_iff.mpr ⟨planned, since⟩
    rw [hp] at this
    cases this

/-! ### Lists -/

/-- The layer at the place `i` is lowered exactly if the model at the start takes it, and its output
has not been written since nor is an output of such a layer in front of it. -/
lemma attempts_iff (h : m.WrittenSince n written) (hm : m.Linked) (hn : n.Linked) (recheck : Bool)
    {i : ℕ} (hl : ls[i]? = some l) :
    (∃ id, (n.attempts recheck ls)[i]? = some (l, .ok id)) ↔
      (m.takes recheck l = true ∧ l.outputs ∉ written) ∧
        ∀ k ∈ ls.take i, m.takes recheck k = true → k.outputs ≠ l.outputs := by
  induction ls generalizing n written i with
  | nil => simp at hl
  | cons k rest ih =>
    rcases h.step hm recheck k with ⟨p, hp, taken, since⟩ | ⟨reason, hp, refused⟩
    · rw [attempts_cons_of_plan hn hp]
      cases i with
      | zero =>
        obtain rfl : k = l := by simpa using hl
        simp [taken, since]
      | succ i =>
        have hl : rest[i]? = some l := hl
        rw [List.getElem?_cons_succ, ih (h.lowered hp) (linked_lowered hn hp) hl]
        simp only [List.take_succ_cons, List.mem_cons, not_or]
        grind
    · rw [attempts_cons_of_error hn hp]
      cases i with
      | zero =>
        obtain rfl : k = l := by simpa using hl
        simp [refused]
      | succ i =>
        have hl : rest[i]? = some l := hl
        rw [List.getElem?_cons_succ, ih h hn hl]
        simp only [List.take_succ_cons, List.forall_mem_cons]
        -- if the model takes `k` all the same, then the output of `k` is among the written ones
        grind

/-- A list is lowered as a whole exactly if the model at the start takes all of its layers and each
output is written once. -/
lemma lowerEach_abort_iff (h : m.WrittenSince n written) (hm : m.Linked) (hn : n.Linked)
    (recheck : Bool) (ls : List Layer) :
    (∃ ids, (n.lowerEach ⟨recheck, .abort⟩ ls).result = .ok ids) ↔
      (∀ l ∈ ls, m.takes recheck l = true ∧ l.outputs ∉ written) ∧
        ls.Pairwise (·.outputs ≠ ·.outputs) := by
  induction ls generalizing n written with
  | nil => simp [lowerEach]
  | cons k rest ih =>
    rw [List.forall_mem_cons, List.pairwise_cons]
    rcases h.step hm recheck k with ⟨p, hp, taken, since⟩ | ⟨reason, hp, refused⟩
    · have others := ih (h.lowered hp) (linked_lowered hn hp)
      rw [lowerEach_cons_of_plan hn hp, exists_map_eq_ok_iff, others]
      simp only [List.mem_cons, not_or, taken]
      grind
    · rw [lowerEach_abort_cons_of_error hn hp]
      simp [refused]

/-- If no two outputs are the same, all layers are lowered that the model at the start takes. -/
lemma selected_eq_filter (h : m.WrittenSince n written) (hm : m.Linked) (hn : n.Linked)
    (recheck : Bool) (since : ∀ l ∈ ls, l.outputs ∉ written)
    (distinct : ls.Pairwise (·.outputs ≠ ·.outputs)) :
    n.selected recheck ls = ls.filter (m.takes recheck) := by
  induction ls generalizing n written with
  | nil => rfl
  | cons k rest ih =>
    obtain ⟨now, later⟩ := List.forall_mem_cons.mp since
    obtain ⟨others, distinct⟩ := List.pairwise_cons.mp distinct
    rcases h.step hm recheck k with ⟨p, hp, taken, -⟩ | ⟨reason, hp, refused⟩
    · rw [selected_cons_of_plan hn hp, List.filter_cons_of_pos taken,
        ih (h.lowered hp) (linked_lowered hn hp) (fun l hl => ?_) distinct]
      exact List.not_mem_cons_of_ne_of_not_mem (others l hl).symm (later l hl)
    · have refused : ¬ m.takes recheck k = true := fun taken => refused ⟨taken, now⟩
      rw [selected_cons_of_error hn hp, List.filter_cons_of_neg refused, ih h hn later distinct]

end WrittenSince

/-! ### The run of a list, layer by layer -/

/-- The answer of each layer is that of the model which the layers in front of it have left. -/
lemma getElem?_attempts (m : Model) (recheck : Bool) (ls : List Layer) (i : ℕ) :
    (m.attempts recheck ls)[i]? = ls[i]?.map fun l =>
      (l, ((m.lowerEach ⟨recheck, .skip⟩ (ls.take i)).model.lowerLayer ⟨recheck, .skip⟩ l).result)
    := by
  induction ls generalizing m i with
  | nil => rfl
  | cons k rest ih =>
    cases i with
    | zero => rfl
    | succ i =>
      simp only [attempts, List.getElem?_cons_succ, List.take_succ_cons, model_lowerEach_skip_cons]
      exact ih _ i

/-- One layer more is lowered, or not, into the model that those in front of it have left. -/
lemma model_lowerEach_take_succ (m : Model) (recheck : Bool) (hl : ls[i]? = some l) :
    (m.lowerEach ⟨recheck, .skip⟩ (ls.take (i + 1))).model =
      ((m.lowerEach ⟨recheck, .skip⟩ (ls.take i)).model.lowerLayer ⟨recheck, .skip⟩ l).model := by
  rw [List.take_add_one, hl, Option.toList_some, model_lowerEach_skip_append,
    model_lowerEach_skip_cons]
  rfl

/-- Of a list that is lowered as a whole no layer is left out. -/
lemma selected_of_abort (hm : m.Linked) {ids : List StageId}
    (h : (m.lowerEach ⟨recheck, .abort⟩ ls).result = .ok ids) : m.selected recheck ls = ls := by
  induction ls generalizing m ids with
  | nil => rfl
  | cons k rest ih =>
    cases hp : k.plan m with
    | error reason =>
      rw [lowerEach_abort_cons_of_error hm hp] at h
      cases h
    | ok p =>
      rw [lowerEach_cons_of_plan hm hp] at h
      obtain ⟨others, lowered, -⟩ := map_eq_ok_iff.mp h
      rw [selected_cons_of_plan hm hp, ih (linked_lowered hm hp) lowered]

/-- A layer that can be lowered has one output. -/
lemma outputs_of_takes (hm : m.Linked) (h : m.takes recheck l = true) :
    ∃ id, l.outputs = [id] := by
  obtain ⟨p, hp⟩ := (takes_iff hm).mp h
  obtain ⟨ts, planned⟩ := planned_of_plan hp
  exact ⟨ts.output, planned.outputs⟩

/-- **What is lowered is settled at the start.** With the skip policy each layer of a list is tried
in the model that those in front of it have left, and the stages that are new in the end are what
the layers that are lowered become, in order. A layer is among them exactly if the model at the
start takes it and no such layer in front of it has the same output. With the abort policy a list is
lowered exactly if the model at the start takes all of its layers and no two have the same output;
it is then lowered as with the skip policy, and no layer is left out. Where no two layers have the
same outputs, their order does not matter to which of them are lowered. -/
theorem lowered_iff_takes (h : m.Reachable d) (recheck : Bool) (ls : List Layer) :
    let skip : Config := ⟨recheck, .skip⟩
    let abort : Config := ⟨recheck, .abort⟩
    let left (i : ℕ) : Model := (m.lowerLayers skip (ls.take i)).model
    (∀ l, m.takes recheck l = true → ∃ id, l.outputs = [id]) ∧
    (m.lowerLayers skip ls).result =
      .ok ((m.attempts recheck ls).filterMap (·.2.toOption)) ∧
    (∀ i l, ls[i]? = some l →
      (m.attempts recheck ls)[i]? = some (l, ((left i).lowerLayer skip l).result) ∧
      left (i + 1) = ((left i).lowerLayer skip l).model) ∧
    (∃ new, (m.lowerLayers skip ls).model.stages = m.stages ++ new ∧
      List.Forall₂ Layer.Becomes (m.selected recheck ls) new) ∧
    (∀ i l, ls[i]? = some l →
      ((∃ id, (m.attempts recheck ls)[i]? = some (l, .ok id)) ↔
        m.takes recheck l = true ∧
          ∀ k ∈ ls.take i, m.takes recheck k = true → k.outputs ≠ l.outputs)) ∧
    ((∃ ids, (m.lowerLayers abort ls).result = .ok ids) ↔
      (∀ l ∈ ls, m.takes recheck l = true) ∧ ls.Pairwise (·.outputs ≠ ·.outputs)) ∧
    (∀ ids, (m.lowerLayers abort ls).result = .ok ids → m.selected recheck ls = ls ∧
      (m.lowerLayers abort ls).model = (m.lowerLayers skip ls).model) ∧
    ∀ ks, ks.Perm ls → ls.Pairwise (·.outputs ≠ ·.outputs) →
      (m.selected recheck ks).Perm (m.selected recheck ls) := by
  intro skip abort left
  have hm := h.linked
  have start := WrittenSince.refl m
  have left_eq (i : ℕ) : left i = (m.lowerEach skip (ls.take i)).model := model_lowerLayers ..
  refine ⟨fun l => outputs_of_takes hm, ?_, fun i l hl => ⟨?_, ?_⟩, ?_, fun i l hl => ?_, ?_,
    fun ids hr => ?_, fun ks perm distinct => ?_⟩
  · rw [result_lowerLayers, result_lowerEach_skip]
  · rw [getElem?_attempts, hl, Option.map_some, left_eq]
  · rw [left_eq, left_eq]
    exact model_lowerEach_take_succ m recheck hl
  · rw [model_lowerLayers]
    exact stages_lowerEach_skip hm recheck ls
  · simpa using start.attempts_iff hm hm recheck hl
  · rw [result_lowerLayers]
    simpa using start.lowerEach_abort_iff hm hm recheck ls
  · rw [result_lowerLayers] at hr
    have all := selected_of_abort hm hr
    have same := (lowerEach_abort_selected hm recheck ls).2
    rw [all] at same
    exact ⟨all, by rw [model_lowerLayers, model_lowerLayers, same]⟩
  · have distinct' : ks.Pairwise (·.outputs ≠ ·.outputs) :=
      (perm.pairwise_iff fun distinct => distinct.symm).mpr distinct
    rw [start.selected_eq_filter hm hm recheck (by simp) distinct,
      start.selected_eq_filter hm hm recheck (by simp) distinct']
    exact perm.filter _

/-- Layer `a` brings in a placeholder, which becomes the tensor 5: layer `c` names it for its
strides, in vain. Layer `b` would be taken at the start, but `a` writes the same output. -/
theorem lowered_iff_takes_mixed :
    let m := (Session.run .free ⟨empty "m", []⟩
      [.mark, .run (.addInput "x" ⟨.fp16, [4]⟩), .mark, .undo 1, .undo 0,
        .run (.addInput "x" ⟨.fp16, [4]⟩), .run (.addInput "begin" ⟨.s32, [1]⟩),
        .run (.addConst "strides" ⟨.s32, [1]⟩ (.ofInts [2])), .run (.addOutput "y" ⟨.fp16, [2]⟩),
        .run (.addOutput "z" ⟨.fp16, [2]⟩)]).model
    let ls : List Layer :=
      [.maskedSlice "mask" [0, 1, 1] 4 "2" "", .stridedSlice "a" [0, 1, 1] 3,
        .stridedSlice "b" [0, 1, 1, 2] 3, .stridedSlice "c" [0, 1, 1, 5] 4,
        .stridedSlice "d" [3, 1, 1, 2] 4]
    m.Reachable .free ∧ ls.map (m.takes true) = [false, true, true, false, true] ∧
      (m.attempts true ls).map (·.2.toOption) = [none, some 0, none, none, some 1] ∧
      (m.selected true ls).map (·.label.name) = ["a", "d"] ∧
      (∃ new, (m.lowerLayers ⟨true, .skip⟩ ls).model.stages = m.stages ++ new ∧
        List.Forall₂ Layer.Becomes (m.selected true ls) new) ∧
      ∀ i l, ls[i]? = some l →
        ((∃ id, (m.attempts true ls)[i]? = some (l, .ok id)) ↔
          m.takes true l = true ∧
            ∀ k ∈ ls.take i, m.takes true k = true → k.outputs ≠ l.outputs) := by
  intro m ls
  have reached : m.Reachable .free := ⟨"m", _, rfl⟩
  obtain ⟨-, -, -, stages, lowered, -⟩ := lowered_iff_takes reached true ls
  exact ⟨reached, by decide +kernel, by decide +kernel, by decide +kernel, stages, lowered⟩

end Model

end SliceCompiler
