import Mathlib.Data.List.Induction
import SliceCompiler.Proofs.Backing
import SliceCompiler.Proofs.Emission
import SliceCompiler.Proofs.Reports
import SliceCompiler.Proofs.Strict

/-!
Nothing is looked up in vain. A strict run, which ends at the first place that is not there, comes
to its end in every model whose links lead to stages of the model, and then has done what the
plain run does. All reachable models are of that kind, however they have gone back.
-/

namespace SliceCompiler

/-! ### Flags and answers -/

lemma Mask.ofFlags_false (flags : List Bool) :
    Mask.ofFlags (false :: flags) = Mask.ofFlags flags <<< 1 := UInt32.or_zero

lemma Mask.ofFlags_replicate (n : ℕ) : Mask.ofFlags (List.replicate n false) = 0 := by
  induction n with
  | zero => rfl
  | succ n ih =>
    rw [List.replicate_succ, ofFlags_false, ih]
    rfl

/-- The flag of axis `n` and those behind it make up the mask. -/
lemma Mask.ofFlags_replicate_append (n : ℕ) (b : Bool) (flags : List Bool) :
    Mask.ofFlags (List.replicate n false ++ b :: flags) =
      Mask.ofFlags (List.replicate n false ++ [b]) |||
        Mask.ofFlags (List.replicate (n + 1) false ++ flags) := by
  induction n with
  | zero =>
    have one : Mask.ofFlags [b] = b.toUInt32 := UInt32.zero_or
    change Mask.ofFlags flags <<< 1 ||| b.toUInt32 =
      Mask.ofFlags [b] ||| Mask.ofFlags (false :: flags)
    rw [one, ofFlags_false, UInt32.or_comm]
  | succ n ih =>
    simp only [List.replicate_succ, List.cons_append, ofFlags_false] at ih ⊢
    rw [ih, UInt32.shiftLeft_or]

namespace Strict

lemma modify_eq {α : Type} {f : α → α} {xs : List α} {i : ℕ} (h : i < xs.length) :
    modify f xs i = some (xs.modify i f) := if_pos h

lemma sub_eq {a b : ℕ} (h : b ≤ a) : sub a b = some (a - b) := if_pos h

/-- Changes one after the other, at places that were all there at first. -/
lemma foldlM_modify {α : Type} (f : α → α) {ids : List ℕ} {xs : List α}
    (h : ∀ i ∈ ids, i < xs.length) :
    ids.foldlM (modify f) xs = some (ids.foldl (fun xs i => xs.modify i f) xs) := by
  induction ids generalizing xs with
  | nil => rfl
  | cons i ids ih =>
    obtain ⟨first, others⟩ := List.forall_mem_cons.mp h
    rw [List.foldlM_cons, modify_eq first, List.foldl_cons]
    exact ih (by simpa using others)

@[simp] lemma length_foldl_modify {α : Type} (f : α → α) (ids : List ℕ) (xs : List α) :
    (ids.foldl (fun xs i => xs.modify i f) xs).length = xs.length := by
  induction ids generalizing xs with
  | nil => rfl
  | cons i ids ih => simp [ih]

/-! ### Masks -/

/-- An axis that a mask has a flag for has its bit. -/
lemma setFlag_eq {i : ℕ} (h : i < Mask.capacity) (flags : Mask) (b : Bool) :
    setFlag flags i b = some (flags ||| Mask.ofFlags (List.replicate i false ++ [b])) := by
  unfold setFlag
  cases b with
  | true =>
    have bits : ∀ i < Mask.capacity,
        1 <<< i.toUInt32 = Mask.ofFlags (List.replicate i false ++ [true]) := by decide
    rw [if_pos rfl, bit, if_pos h, bits i h]
    rfl
  | false => rw [if_neg nofun, ← List.replicate_succ', Mask.ofFlags_replicate, UInt32.or_zero]

/-- As long as there is room for a flag, the mask has a bit for it. -/
lemma scan_eq {i : ℕ} (h : i ≤ Mask.capacity) (flags : Mask) (position : ℕ) (cs : List Char) :
    scan flags i position cs =
      some ((Mask.scan position (Mask.capacity - i) cs).map fun more =>
        flags ||| Mask.ofFlags (List.replicate i false ++ more)) := by
  induction cs generalizing flags i position with
  | nil =>
    rw [scan, Mask.scan, Except.map, List.append_nil, Mask.ofFlags_replicate, UInt32.or_zero]
  | cons c rest ih =>
    unfold scan Mask.scan
    split
    · exact ih h flags _
    · cases Mask.flag? c with
      | none => rfl
      | some b =>
        dsimp only
        split
        · next full =>
          rw [Nat.sub_eq_zero_of_le full]
          rfl
        · next room =>
          have room : i < Mask.capacity := Nat.lt_of_not_le room
          obtain ⟨left, further⟩ : ∃ left, Mask.capacity - i = left + 1 :=
            ⟨Mask.capacity - (i + 1), by omega⟩
          have left_eq : Mask.capacity - (i + 1) = left := by omega
          rw [setFlag_eq room, further]
          dsimp only [Option.bind_eq_bind, Option.bind_some]
          rw [ih room, left_eq]
          cases Mask.scan (position + c.utf8Size) left rest with
          | error fault => rfl
          | ok more =>
            dsimp only [Except.map]
            rw [Mask.ofFlags_replicate_append i b more, UInt32.or_assoc]

/-- Setting the flags one by one, each at a bit that is there, reads the mask. -/
lemma scan_decode (text : String) : scan 0 0 0 text.toList = some (Mask.decode text) := by
  rw [scan_eq (Nat.zero_le _), Mask.decode]
  cases Mask.scan 0 Mask.capacity text.toList with
  | error fault => rfl
  | ok flags =>
    have same : 0 ||| Mask.ofFlags (List.replicate 0 false ++ flags) = Mask.ofFlags flags :=
      UInt32.zero_or
    simp only [Except.map, same]

/-- The steps of a check that can end early. -/
lemma bind_eq {α β : Type} {x : ExceptT Reason Option α} {a : Except Reason α}
    {f : α → ExceptT Reason Option β} {g : α → Except Reason β} (hx : x.run = some a)
    (hf : ∀ v, (f v).run = some (g v)) : (x >>= f).run = some (a >>= g) := by
  rw [ExceptT.run_bind, hx]
  cases a with
  | error reason => rfl
  | ok v => exact hf v

lemma mask_eq (l : Layer) (param : String) : (mask l param).run = some (Slice.mask l param) := by
  unfold mask
  rw [scan_decode]
  rfl

lemma checkUnset_eq (l : Layer) (params : List String) :
    (checkUnset l params).run = some (Slice.checkUnset l params) := by
  induction params with
  | nil => rfl
  | cons param rest ih =>
    refine bind_eq (mask_eq l param) fun flags => ?_
    split
    · exact ih
    · rfl

lemma keptMasks_eq (l : Layer) : (keptMasks l).run = some (Slice.keptMasks l) :=
  bind_eq (mask_eq l _) fun _ => bind_eq (mask_eq l _) fun _ => rfl

/-! ### Layers and their tensors -/

/-- Lists of the right lengths have what is taken from them. -/
lemma tensors_eq (inputs outputs : List TensorId) :
    tensors inputs outputs = some (SliceTensors.ofLists inputs outputs) := by
  unfold SliceTensors.ofLists
  split
  · rfl
  · rfl
  · next three four =>
    have outputs_ne_one (h : inputs.length = 3 ∨ inputs.length = 4) : outputs.length ≠ 1 := by
      intro one
      obtain ⟨output, rfl⟩ := List.length_eq_one_iff.mp one
      match inputs, h with
      | [data, start, stop], .inl _ => exact three _ _ _ _ rfl rfl
      | [data, start, stop, strides], .inr _ => exact four _ _ _ _ _ rfl rfl
    unfold tensors
    by_cases arity : inputs.length = 3 ∨ inputs.length = 4
    · rw [if_neg (by omega), if_pos (outputs_ne_one arity), if_pos arity]
    · rw [if_pos (by omega), if_neg arity]

lemma validate_eq (l : Layer) (m : Model) : validate l m = some (Slice.validate l m) := by
  rw [validate, tensors_eq]
  rfl

lemma operandsOf_eq (l : Layer) (m : Model) : operandsOf l m = some (Slice.operandsOf l m) := by
  rw [operandsOf, tensors_eq]
  rfl

lemma plan_eq (l : Layer) (m : Model) : (plan l m).run = some (Slice.plan l m) := by
  refine bind_eq (validate_eq l m) fun ts => ?_
  refine bind_eq (checkUnset_eq l _) fun _ => ?_
  exact bind_eq (keptMasks_eq l) fun masks => bind_eq rfl fun _ => rfl

lemma check_eq (s : Stage) (m : Model) : check s m = some (s.check m) := by
  rw [check, tensors_eq]
  rfl

/-! ### Stages -/

variable {m : Model} {s : Stage}

/-- The stage that has written a tensor is a stage of the model. -/
lemma outputFault_eq (hm : m.Linked) {id : TensorId} (hid : id < m.tensors.length) :
    outputFault m s id = some (m.outputFault? s id) := by
  obtain ⟨t, ht⟩ := Model.exists_tensor hid
  unfold outputFault Model.outputFault?
  rw [ht]
  cases hp : t.isPlaceholder with
  | true => simp [hp]
  | false =>
    cases hw : t.producer with
    | none => simp [hp, hw]
    | some producer =>
      have known : producer < m.stages.length :=
        (hm t (Model.mem_tensors_iff.mpr ⟨id, ht⟩)).1 producer hw
      have hs : m.stage? producer = some m.stages[producer] := List.getElem?_eq_getElem known
      simp [hp, hw, hs]

lemma outputsFault_eq (hm : m.Linked) {ids : List TensorId}
    (known : ∀ id ∈ ids, id < m.tensors.length) :
    outputsFault m s ids = some (ids.findSome? (m.outputFault? s)) := by
  induction ids with
  | nil => rfl
  | cons id ids ih =>
    obtain ⟨first, others⟩ := List.forall_mem_cons.mp known
    rw [outputsFault, outputFault_eq hm first, List.findSome?_cons]
    cases m.outputFault? s id with
    | some fault => rfl
    | none => exact ih others

/-- Once all tensors of a stage are known, all that is done with them finds them. -/
lemma addStage_eq (hm : m.Linked) (s : Stage) : addStage m s = some (m.addStage s) := by
  unfold addStage Model.addStage Model.stageFault?
  cases unknown : (s.inputs ++ s.outputs).find? (m.tensors.length ≤ ·) with
  | some id => rfl
  | none =>
    have known : ∀ id ∈ s.inputs ++ s.outputs, id < m.tensors.length := by
      simpa only [List.find?_eq_none, decide_eq_true_eq, not_le] using unknown
    obtain ⟨inputs, outputs⟩ := List.forall_mem_append.mp known
    simp only [outputsFault_eq hm outputs]
    cases s.outputs.findSome? (m.outputFault? s) with
    | some fault => rfl
    | none =>
      -- the readers leave the tensors at their places, so the writers find them there
      let ts := s.inputs.foldl (fun ts i => ts.modify i (·.readBy m.stages.length)) m.tensors
      have same : ts.length = m.tensors.length := length_foldl_modify _ _ _
      have read := foldlM_modify (·.readBy m.stages.length) inputs
      have written := foldlM_modify (·.writtenBy m.stages.length) (same ▸ outputs)
      simp only [Option.bind_eq_bind, Option.bind_some, read, ts, written]
      rfl

-- a producer that is no stage of the model: without the hypothesis a strict run may end early
example :
    let m := ((Model.empty "m").addOutput "y" ⟨.s32, [1]⟩).2
    addStage { m with tensors := m.tensors.map (·.writtenBy 0) }
      ⟨⟨"s", "StridedSlice"⟩, .stridedSlice ⟨0, 0⟩, [], [0]⟩ = none := rfl

/-! ### Lowering -/

lemma appendStage_eq (recheck : Bool) (l : Layer) (p : Slice.Plan) (hm : m.Linked) :
    appendStage recheck l p m = some (Slice.appendStage recheck l p m) := by
  have supplied : (p.operands.supply m).2.Linked := by
    unfold Slice.Operands.supply
    split
    · exact hm
    · exact hm.add _ _ _ _
  have checked (s : Stage) (n : Model) : (if recheck then check s n else some (.ok ())) =
      some (if recheck then s.check n else .ok ()) := by
    cases recheck with
    | true => exact check_eq s n
    | false => rfl
  unfold appendStage Slice.appendStage
  dsimp only
  rw [checked, addStage_eq supplied]
  dsimp only [Option.bind_eq_bind, Option.bind_some]
  cases (if recheck then (Slice.stage l (p.operands.supply m).1 p.masks).check
      (p.operands.supply m).2 else .ok ()) with
  | error rejection => rfl
  | ok =>
    dsimp only
    cases ((p.operands.supply m).2.addStage
      (Slice.stage l (p.operands.supply m).1 p.masks)).result <;> rfl

lemma lower_eq (recheck : Bool) (l : Layer) (hm : m.Linked) :
    lower recheck l m = some (Slice.lower recheck l m) := by
  unfold lower Slice.lower
  rw [plan_eq]
  cases Slice.plan l m with
  | error reason => rfl
  | ok p =>
    dsimp only [Option.bind_eq_bind, Option.bind_some]
    rw [appendStage_eq recheck l p hm]
    rfl

lemma lowerLayer_eq (hm : m.Linked) (config : Config) (l : Layer) :
    lowerLayer m config l = some (m.lowerLayer config l) := by
  unfold lowerLayer Model.lowerLayer
  rcases Opcode.ofLayerType? l.label.type with _ | ⟨⟨⟩⟩
  · rfl
  · dsimp only
    rw [lower_eq config.recheck l hm]
    dsimp only [Option.bind_eq_bind, Option.bind_some]
    cases (Slice.lower config.recheck l m).result <;> rfl

lemma lowerEach_eq (hm : m.Linked) (config : Config) (ls : List Layer) :
    lowerEach m config ls = some (m.lowerEach config ls) := by
  induction ls generalizing m with
  | nil => rfl
  | cons l rest ih =>
    have grown : Model.Grows true m (m.lowerLayer config l).model :=
      Model.grows_lowerLayer hm config l
    have later := ih (grown.linked hm)
    unfold lowerEach Model.lowerEach
    rw [lowerLayer_eq hm]
    dsimp only [Option.bind_eq_bind, Option.bind_some]
    rw [later]
    cases (m.lowerLayer config l).result with
    | ok id => rfl
    | error rejection => cases config.onRejection <;> rfl

lemma lowerLayers_eq (hm : m.Linked) (config : Config) (ls : List Layer) :
    lowerLayers m config ls = some (m.lowerLayers config ls) := by
  unfold lowerLayers Model.lowerLayers
  rw [lowerEach_eq hm]
  dsimp only [Option.bind_eq_bind, Option.bind_some]
  cases hr : (m.lowerEach config ls).result with
  | error rejection => rfl
  | ok ids =>
    dsimp only
    rw [sub_eq (Model.length_le_of_lowerEach hr)]
    rfl

/-! ### Blobs -/

/-- Where the axes from the second of these on have their steps, the first gets its own. It is all
the same whether the step wraps around once more. -/
lemma fillStride_eq (unit : ℕ) (front : List ℕ) (outer d : ℕ) (inner : List ℕ) :
    fillStride (front ++ outer :: d :: inner)
        (List.replicate front.length unit ++ unit :: Layout.rowMajor unit (d :: inner))
        front.length =
      some (List.replicate front.length unit ++ Layout.rowMajor unit (outer :: d :: inner)) := by
  let steps := List.replicate front.length unit ++ unit :: Layout.rowMajor unit (d :: inner)
  have start : (List.replicate front.length unit).length = front.length := List.length_replicate
  have step : steps[front.length + 1]? = some (Size.wrap (Layout.volume inner * unit)) := by
    rw [List.getElem?_append_right (by omega), start, Nat.add_sub_cancel_left]
    rfl
  have dim : (front ++ outer :: d :: inner)[front.length + 1]? = some d := by
    rw [List.getElem?_append_right (by omega), Nat.add_sub_cancel_left]
    rfl
  have here : front.length < steps.length := by
    rw [List.length_append, start]
    exact Nat.lt_add_of_pos_right Nat.succ_pos'
  have passed : Size.mul (Size.wrap (Layout.volume inner * unit)) d =
      Size.wrap (Layout.volume (d :: inner) * unit) := by
    rw [Size.mul_wrap_left, Layout.volume_cons, Nat.mul_right_comm,
      Nat.mul_comm (Layout.volume inner)]
  unfold fillStride
  rw [step, dim]
  dsimp only [Option.bind_eq_bind, Option.bind_some]
  rw [modify_eq here, List.modify_eq_take_drop, List.take_left' start, List.drop_left' start,
    passed]
  rfl

/-- The axes in front get their steps one after the other, the innermost first. -/
lemma foldlM_fillStride (unit : ℕ) (front : List ℕ) (d : ℕ) (inner : List ℕ) :
    (List.range front.length).reverse.foldlM (fillStride (front ++ d :: inner))
        (List.replicate front.length unit ++ Layout.rowMajor unit (d :: inner)) =
      some (Layout.rowMajor unit (front ++ d :: inner)) := by
  induction front using List.reverseRecOn generalizing d inner with
  | nil => rfl
  | append_singleton front outer ih =>
    rw [List.length_append, List.length_singleton, List.range_succ, List.reverse_append,
      List.replicate_succ', List.append_assoc, List.append_assoc]
    change (fillStride _ _ front.length >>= _) = _
    rw [List.singleton_append, List.singleton_append, fillStride_eq]
    exact ih outer (d :: inner)

/-- Filled in one after the other, the steps of a layout are those of row-major order. -/
lemma strides_eq (l : Layout) : strides l = some l.strides := by
  obtain ⟨element, dims⟩ := l
  rcases List.eq_nil_or_concat dims with rfl | ⟨front, d, rfl⟩
  · rfl
  · have innermost : List.replicate (front ++ [d]).length element.size =
        List.replicate front.length element.size ++ Layout.rowMajor element.size [d] := by
      rw [List.length_append, List.length_singleton, List.replicate_succ', Layout.rowMajor,
        Layout.volume_nil, Nat.one_mul, Size.wrap_of_lt element.size_lt]
      rfl
    unfold strides
    rw [List.concat_eq_append, Layout.rank, innermost, List.length_append, List.length_singleton,
      Nat.add_sub_cancel]
    exact foldlM_fillStride _ _ _ _

lemma emitTensor_eq (t : Tensor) (b : Buffer) : emitTensor t b = some (t.emit.run b) := by
  unfold emitTensor
  rw [strides_eq]
  rfl

lemma emitTensors_eq (s : Stage) (m : Model) (ids : List TensorId) (b : Buffer) :
    emitTensors s m ids b = some ((s.emitTensors m ids).run b) := by
  induction ids generalizing b with
  | nil => rfl
  | cons id ids ih =>
    unfold emitTensors Stage.emitTensors
    cases m.tensor? id with
    | none => rfl
    | some t =>
      dsimp only
      rw [emitTensor_eq, EStateM.run_bind]
      dsimp only [Option.bind_eq_bind, Option.bind_some]
      cases t.emit.run b with
      | ok _ c => exact ih c
      | error fault c => rfl

lemma emitData_eq (s : Stage) (m : Model) (b : Buffer) :
    emitData s m b = some ((s.emitData m).run b) := by
  unfold emitData Stage.emitData
  split
  · exact emitTensors_eq s m _ b
  · rfl

/-- The data comes behind the reserved word and only adds to the buffer, so the word is still there
to be patched, and the size is none too small. -/
lemma emitSection_eq (m : Model) (s : Stage) (b : Buffer) :
    emitSection m s b = some ((Blob.emitSection m s).run b) := by
  unfold emitSection Blob.emitSection
  simp only [Emit.word, Emit.reserve, Emit.size, Buffer.reserve, EStateM.run_bind,
    EStateM.run_modify, EStateM.run_modifyGet, EStateM.run_get, EStateM.run_pure]
  generalize b.push s.opcode.code = front
  have params := (Emit.yields_words s.operator.paramWords).writes rfl (front.push 0)
  simp only [Stage.emitParams, params, emitData_eq, Option.bind_eq_bind, Option.bind_some]
  cases run : (s.emitData m).run
      ⟨(front.push 0).bytes ++ Word.encode s.operator.paramWords⟩ with
  | error fault c => rfl
  | ok _ c =>
    obtain ⟨ws, rfl⟩ : ∃ ws, c = ⟨front.bytes ++ Word.bytes 0 ++ Word.encode ws⟩ := by
      have written := (s.yields_emitData m).eq_of_ok run
      exact ⟨s.payload m, by simpa [Stage.payload] using written⟩
    have grown : (front.push 0).size ≤
        (⟨front.bytes ++ Word.bytes 0 ++ Word.encode ws⟩ : Buffer).size := by
      simp only [Buffer.size, Buffer.bytes_push, List.length_append]
      omega
    have patched (w : UInt32) :
        (⟨front.bytes ++ Word.bytes 0 ++ Word.encode ws⟩ : Buffer).patch? front.size w =
          some ⟨front.bytes ++ Word.bytes w ++ Word.encode ws⟩ :=
      Buffer.patch?_append _ _ _ _
    dsimp only
    rw [sub_eq grown, Emit.patch]
    dsimp only [Option.bind_some]
    cases Word.ofNat ((⟨front.bytes ++ Word.bytes 0 ++ Word.encode ws⟩ : Buffer).size -
        (front.push 0).size) with
    | error fault => rfl
    | ok w =>
      dsimp only
      rw [EStateM.run_bind, EStateM.run_get]
      dsimp only
      rw [patched]
      rfl

lemma writeSections_eq (m : Model) (ss : List Stage) (b : Buffer) :
    writeSections m ss b = some (Blob.writeSections m ss b) := by
  induction ss generalizing b with
  | nil => rfl
  | cons s ss ih =>
    unfold writeSections Blob.writeSections
    rw [emitSection_eq]
    dsimp only [Option.bind_eq_bind, Option.bind_some]
    cases (Blob.emitSection m s).run b with
    | error fault c => rfl
    | ok size c =>
      dsimp only
      rw [ih]
      rfl

lemma write_eq (m : Model) : write m = some (Blob.write m) := by
  unfold write Blob.write
  cases (Blob.emitHeader m).run {} with
  | error fault c => rfl
  | ok _ header =>
    dsimp only
    rw [writeSections_eq]
    dsimp only [Option.bind_eq_bind, Option.bind_some]
    rcases Blob.writeSections m m.stages header with ⟨_ | _, log⟩ <;> rfl

lemma compile_eq (hm : m.Linked) (config : Config) (ls : List Layer) :
    compile m config ls = some (m.compile config ls) := by
  unfold compile Model.compile
  rw [lowerLayers_eq hm]
  dsimp only [Option.bind_eq_bind, Option.bind_some]
  cases (m.lowerLayers config ls).result with
  | error rejection => rfl
  | ok _ =>
    dsimp only
    rw [write_eq]
    rfl

end Strict

/-! ### Reachable models -/

namespace Model

variable {m : Model} {d : Discipline}

/-- Strict runs on the model come to their ends, and do what plain runs do. -/
structure Unfailing (m : Model) : Prop where
  addStage : ∀ s, Strict.addStage m s = some (m.addStage s)
  check : ∀ s, Strict.check s m = some (s.check m)
  validate : ∀ l, Strict.validate l m = some (Slice.validate l m)
  operandsOf : ∀ l, Strict.operandsOf l m = some (Slice.operandsOf l m)
  lowerLayer : ∀ config l, Strict.lowerLayer m config l = some (m.lowerLayer config l)
  lowerLayers : ∀ config ls, Strict.lowerLayers m config ls = some (m.lowerLayers config ls)
  compile : ∀ config ls, Strict.compile m config ls = some (m.compile config ls)
  emitData : ∀ s b, Strict.emitData s m b = some ((s.emitData m).run b)
  write : Strict.write m = some (Blob.write m)

lemma Linked.unfailing (hm : m.Linked) : m.Unfailing where
  addStage := Strict.addStage_eq hm
  check s := Strict.check_eq s m
  validate l := Strict.validate_eq l m
  operandsOf l := Strict.operandsOf_eq l m
  lowerLayer := Strict.lowerLayer_eq hm
  lowerLayers := Strict.lowerLayers_eq hm
  compile := Strict.compile_eq hm
  emitData s b := Strict.emitData_eq s m b
  write := Strict.write_eq m

/-- **Nothing is looked up in vain.** After going back to checkpoints in any order, also to stale
ones and to ones that lie ahead, a tensor still knows its place, its producer is a stage of the
model that writes it, and its consumers are stages of the model that read it, each as often as it
stands there. Placeholders carry no links, and going back leaves no more and no less than there is
on both sides. So every place that is looked up is there, whatever is done to the model next. -/
theorem unfailing_of_reachable (h : m.Reachable d) :
    (∀ id t, m.tensor? id = some t → t.id = id ∧
      (∀ k, t.producer = some k → k < m.stages.length ∧
        ∃ s, m.stage? k = some s ∧ id ∈ s.outputs) ∧
      (∀ k ∈ t.consumers, k < m.stages.length ∧
        ∃ s, m.stage? k = some s ∧ id ∈ s.inputs ∧ t.consumers.count k = s.inputs.count id) ∧
      (t.isPlaceholder = true → t.producer = none ∧ t.consumers = [])) ∧
    (∀ c, (m.rollback c).tensors.length = min m.tensors.length c.tensors ∧
      (m.rollback c).stages.length = min m.stages.length c.stages) ∧
    m.Unfailing := by
  refine ⟨fun id t ht => ?_, fun c => ?_, h.linked.unfailing⟩
  · have here := h.regular id t ht
    have backed := h.backed ht
    refine ⟨here.id, fun k hk => ?_, fun k hk => ?_, fun hp => (here.placeholder hp).2⟩
    · obtain ⟨s, hs, ho⟩ := backed.producer k hk
      exact ⟨lt_of_stage? hs, s, hs, ho⟩
    · have known := Backed.lt h.backed ht hk
      obtain ⟨s, hs⟩ : ∃ s, m.stage? k = some s := ⟨_, List.getElem?_eq_getElem known⟩
      have count : t.consumers.count k = s.inputs.count id := by
        rw [backed.consumers k hk, reads, hs]
        rfl
      have read : id ∈ s.inputs := by
        rw [← List.count_pos_iff, ← count]
        exact List.count_pos_iff.mpr hk
      exact ⟨known, s, hs, read, count⟩
  · simp [rollback, Nat.min_comm]

/-- A stale checkpoint has cut off tensors that a stage still names, a placeholder has taken the
place of one of them, and a later checkpoint lies ahead. A second producer is told by its name, and
the stage whose output is gone stops the blob. -/
theorem unfailing_of_reachable_stale :
    let slice (inputs outputs : List TensorId) : Stage :=
      ⟨⟨"s", "StridedSlice"⟩, .stridedSlice ⟨0, 0⟩, inputs, outputs⟩
    let m := (Session.run .free ⟨empty "m", []⟩
      [.mark, .run (.addInput "x" ⟨.s32, [1]⟩), .run (.addOutput "y" ⟨.s32, [1]⟩),
        .run (.addStage (slice [0, 0, 0, 0] [1])), .mark, .undo 1,
        .run (.addOutput "u" ⟨.s32, [1]⟩), .run (.addInput "v" ⟨.s32, [1]⟩),
        .run (.addInput "w" ⟨.s32, [1]⟩), .run (.addOutput "z" ⟨.s32, [1]⟩),
        .run (.addStage (slice [0, 1, 2, 0] [3])), .run (.addStage (slice [3, 3] [])), .mark,
        .undo 1, .run .addPlaceholder, .run (.addStage (slice [1, 2, 1] [0])), .undo 0]).model
    m.Reachable .free ∧
      m.stages.map (fun s => (s.inputs, s.outputs)) = [([0, 1, 2, 0], [3]), ([1, 2, 1], [0])] ∧
      m.tensors.map (fun t => (t.producer, t.consumers)) =
        [(some 1, [0, 0]), (none, [0, 1, 1]), (none, [])] ∧
      (m.rollback ⟨4, 1, {}⟩).tensors.length = min m.tensors.length 4 ∧
      (Strict.addStage m (slice [1] [0])).map (·.result) =
        some (.error (.producedTwice "s" "u" "s")) ∧
      Strict.write m = some (.error (.unknownTensor "s" 3), []) := by
  intro slice m
  have reached : m.Reachable .free := ⟨"m", _, rfl⟩
  have again : (m.addStage (slice [1] [0])).result = .error (.producedTwice "s" "u" "s") := by
    decide +kernel
  have gone : Blob.write m = (.error (.unknownTensor "s" 3), []) := by decide +kernel
  obtain ⟨-, lengths, unfailing⟩ := unfailing_of_reachable reached
  refine ⟨reached, by decide +kernel, by decide +kernel, (lengths _).1, ?_, ?_⟩
  · rw [unfailing.addStage, Option.map_some, again]
  · rw [unfailing.write, gone]

end Model

end SliceCompiler
