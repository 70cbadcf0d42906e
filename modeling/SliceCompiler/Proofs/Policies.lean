import Mathlib.Data.List.Forall2
import SliceCompiler.Proofs.Atomicity

/-!
Lists of layers under both policies. A layer that is rejected leaves the model as it was, so to skip
it is not to have it in the list: the skip policy does with a list what the abort policy does with
the layers that are lowered. Under the abort policy a list ends with the first layer that is
rejected, in the model that the layers before it have left.
-/

namespace SliceCompiler

lemma map_eq_error_iff {ε α β : Type} {x : Except ε α} {f : α → β} {e : ε} :
    x.map f = .error e ↔ x = .error e := by
  cases x <;> simp [Except.map]

lemma map_eq_ok_iff {ε α β : Type} {x : Except ε α} {f : α → β} {b : β} :
    x.map f = .ok b ↔ ∃ a, x = .ok a ∧ f a = b := by
  cases x <;> simp [Except.map]

lemma exists_map_eq_ok_iff {ε α β : Type} {x : Except ε α} {f : α → β} :
    (∃ b, x.map f = .ok b) ↔ ∃ a, x = .ok a := by
  cases x <;> simp [Except.map]

/-- What stands at a place of a list has its counterpart at that place of the other. -/
lemma exists_getElem?_of_forall₂ {α β : Type} {R : α → β → Prop} {xs : List α} {ys : List β}
    (h : List.Forall₂ R xs ys) {i : ℕ} {x : α} (hx : xs[i]? = some x) :
    ∃ y, ys[i]? = some y ∧ R x y := by
  obtain ⟨hi, rfl⟩ := List.getElem?_eq_some_iff.mp hx
  have hj : i < ys.length := h.length_eq ▸ hi
  exact ⟨ys[i], List.getElem?_eq_getElem hj, h.get hi hj⟩

/-- The stage that a layer becomes has its label, its masks and its outputs, and its inputs, behind
which a placeholder may stand. -/
structure Layer.Becomes (l : Layer) (s : Stage) : Prop where
  label : s.label = l.label
  masks : ∃ masks, Slice.keptMasks l = .ok masks ∧ s.operator = .stridedSlice masks
  inputs : l.inputs <+: s.inputs
  outputs : s.outputs = l.outputs

namespace Model

/-- Each layer of a list with its answer, when the layers that are rejected are left out. -/
def attempts (m : Model) (recheck : Bool) : List Layer → List (Layer × Except Rejection StageId)
  | [] => []
  | l :: rest =>
    let one := m.lowerLayer ⟨recheck, .skip⟩ l
    (l, one.result) :: one.model.attempts recheck rest

/-- The layers of a list that are lowered, when the others are left out. -/
def selected (m : Model) (recheck : Bool) (ls : List Layer) : List Layer :=
  ((m.attempts recheck ls).filter (·.2.isOk)).map (·.1)

variable {d : Discipline} {m : Model} {l : Layer} {p : Slice.Plan} {reason : Reason}

lemma linked_lowered (hm : m.Linked) (hp : l.plan m = .ok p) : (Slice.lowered l p m).Linked := by
  have change : Change false m (Slice.lowered l p m) := .lower hp
  exact change.linked hm

/-- A lowered layer has become one stage. -/
lemma stages_lowered (hp : l.plan m = .ok p) :
    ∃ s, (Slice.lowered l p m).stages = m.stages ++ [s] ∧ l.Becomes s := by
  obtain ⟨ts, planned⟩ := planned_of_plan hp
  refine ⟨_, by rw [Slice.lowered, stages_link, Slice.stages_supply], ?_⟩
  exact ⟨rfl, ⟨p.masks, planned.masks, rfl⟩, planned.leading_inputs, rfl⟩

lemma length_stages_lowered (l : Layer) (p : Slice.Plan) (m : Model) :
    (Slice.lowered l p m).stages.length = m.stages.length + 1 := by
  rw [Slice.lowered, stages_link, Slice.stages_supply, List.length_append, List.length_singleton]

/-! ### One layer more -/

lemma lowerEach_cons_of_plan (hm : m.Linked) (hp : l.plan m = .ok p) (config : Config)
    (rest : List Layer) :
    m.lowerEach config (l :: rest) =
      { result := ((Slice.lowered l p m).lowerEach config rest).result.map (m.stages.length :: ·)
        model := ((Slice.lowered l p m).lowerEach config rest).model
        log := .sliceRead l.label.name p.masks.beginMask p.masks.endMask p.operands.strides ::
          .layerLowered l.label.name m.stages.length ::
            ((Slice.lowered l p m).lowerEach config rest).log } := by
  simp only [lowerEach, lowerLayer_eq hm, hp]
  rfl

/-- A layer that is skipped is only reported. -/
lemma lowerEach_skip_cons_of_error (hm : m.Linked) (hp : l.plan m = .error reason)
    (recheck : Bool) (rest : List Layer) :
    m.lowerEach ⟨recheck, .skip⟩ (l :: rest) =
      { m.lowerEach ⟨recheck, .skip⟩ rest with
        log := .layerSkipped l.label.name ⟨l.label, reason⟩ ::
          (m.lowerEach ⟨recheck, .skip⟩ rest).log } := by
  simp only [lowerEach, lowerLayer_eq hm, hp]
  rfl

lemma lowerEach_abort_cons_of_error (hm : m.Linked) (hp : l.plan m = .error reason)
    (recheck : Bool) (rest : List Layer) :
    m.lowerEach ⟨recheck, .abort⟩ (l :: rest) =
      { result := .error ⟨l.label, reason⟩, model := m } := by
  simp only [lowerEach, lowerLayer_eq hm, hp]

lemma attempts_cons_of_plan (hm : m.Linked) (hp : l.plan m = .ok p) (recheck : Bool)
    (rest : List Layer) :
    m.attempts recheck (l :: rest) =
      (l, .ok m.stages.length) :: (Slice.lowered l p m).attempts recheck rest := by
  simp only [attempts, lowerLayer_eq hm, hp]

lemma attempts_cons_of_error (hm : m.Linked) (hp : l.plan m = .error reason) (recheck : Bool)
    (rest : List Layer) :
    m.attempts recheck (l :: rest) =
      (l, .error ⟨l.label, reason⟩) :: m.attempts recheck rest := by
  simp only [attempts, lowerLayer_eq hm, hp]

lemma selected_cons_of_plan (hm : m.Linked) (hp : l.plan m = .ok p) (recheck : Bool)
    (rest : List Layer) :
    m.selected recheck (l :: rest) = l :: (Slice.lowered l p m).selected recheck rest := by
  rw [selected, attempts_cons_of_plan hm hp]
  rfl

lemma selected_cons_of_error (hm : m.Linked) (hp : l.plan m = .error reason) (recheck : Bool)
    (rest : List Layer) : m.selected recheck (l :: rest) = m.selected recheck rest := by
  rw [selected, attempts_cons_of_error hm hp]
  rfl

/-! ### The skip policy -/

lemma attempts_layers (m : Model) (recheck : Bool) (ls : List Layer) :
    (m.attempts recheck ls).map (·.1) = ls := by
  induction ls generalizing m with
  | nil => rfl
  | cons l rest ih => rw [attempts, List.map_cons, ih]

lemma selected_sublist (m : Model) (recheck : Bool) (ls : List Layer) :
    (m.selected recheck ls).Sublist ls := by
  have := (List.filter_sublist (p := (·.2.isOk)) (l := m.attempts recheck ls)).map (·.1)
  rwa [attempts_layers] at this

/-- The answers of the layers that are lowered are the numbers from the first free one on. -/
lemma attempts_answers (hm : m.Linked) (recheck : Bool) (ls : List Layer) :
    (m.attempts recheck ls).filterMap (·.2.toOption) =
      List.range' m.stages.length (m.selected recheck ls).length := by
  induction ls generalizing m with
  | nil => rfl
  | cons l rest ih =>
    cases hp : l.plan m with
    | error reason =>
      rw [attempts_cons_of_error hm hp, selected_cons_of_error hm hp]
      exact ih hm
    | ok p =>
      rw [attempts_cons_of_plan hm hp, selected_cons_of_plan hm hp, List.length_cons,
        List.range'_succ, ← length_stages_lowered l p m, ← ih (linked_lowered hm hp)]
      rfl

@[simp] lemma model_lowerEach_skip_cons (m : Model) (recheck : Bool) (l : Layer)
    (rest : List Layer) :
    (m.lowerEach ⟨recheck, .skip⟩ (l :: rest)).model =
      ((m.lowerLayer ⟨recheck, .skip⟩ l).model.lowerEach ⟨recheck, .skip⟩ rest).model := by
  rw [lowerEach]
  cases (m.lowerLayer ⟨recheck, .skip⟩ l).result <;> rfl

/-- The second part of a list is worked off in the model that the first part has left. -/
lemma model_lowerEach_skip_append (m : Model) (recheck : Bool) (front back : List Layer) :
    (m.lowerEach ⟨recheck, .skip⟩ (front ++ back)).model =
      ((m.lowerEach ⟨recheck, .skip⟩ front).model.lowerEach ⟨recheck, .skip⟩ back).model := by
  induction front generalizing m with
  | nil => rfl
  | cons l rest ih =>
    rw [List.cons_append, model_lowerEach_skip_cons, ih, model_lowerEach_skip_cons]

/-- A list under the skip policy answers what its layers do, but for rejections. -/
lemma result_lowerEach_skip (m : Model) (recheck : Bool) (ls : List Layer) :
    (m.lowerEach ⟨recheck, .skip⟩ ls).result =
      .ok ((m.attempts recheck ls).filterMap (·.2.toOption)) := by
  induction ls generalizing m with
  | nil => rfl
  | cons l rest ih =>
    rw [lowerEach, attempts]
    cases hr : (m.lowerLayer ⟨recheck, .skip⟩ l).result with
    | error rejection => exact ih _
    | ok id =>
      simp only [ih]
      rfl

/-- The layers that are lowered are lowered without the others as well, to the same model. -/
lemma lowerEach_abort_selected (hm : m.Linked) (recheck : Bool) (ls : List Layer) :
    (m.lowerEach ⟨recheck, .abort⟩ (m.selected recheck ls)).result =
        (m.lowerEach ⟨recheck, .skip⟩ ls).result ∧
      (m.lowerEach ⟨recheck, .abort⟩ (m.selected recheck ls)).model =
        (m.lowerEach ⟨recheck, .skip⟩ ls).model := by
  induction ls generalizing m with
  | nil => exact ⟨rfl, rfl⟩
  | cons l rest ih =>
    cases hp : l.plan m with
    | error reason =>
      rw [lowerEach_skip_cons_of_error hm hp, selected_cons_of_error hm hp]
      exact ih hm
    | ok p =>
      obtain ⟨result, model⟩ := ih (linked_lowered hm hp)
      rw [lowerEach_cons_of_plan hm hp, selected_cons_of_plan hm hp, lowerEach_cons_of_plan hm hp]
      exact ⟨by rw [result], model⟩

/-- The stages that come behind those of the model are what the layers that are lowered become,
one by one. -/
lemma stages_lowerEach_skip (hm : m.Linked) (recheck : Bool) (ls : List Layer) :
    ∃ new, (m.lowerEach ⟨recheck, .skip⟩ ls).model.stages = m.stages ++ new ∧
      List.Forall₂ Layer.Becomes (m.selected recheck ls) new := by
  induction ls generalizing m with
  | nil => exact ⟨[], (List.append_nil _).symm, .nil⟩
  | cons l rest ih =>
    cases hp : l.plan m with
    | error reason =>
      rw [lowerEach_skip_cons_of_error hm hp, selected_cons_of_error hm hp]
      exact ih hm
    | ok p =>
      obtain ⟨s, hs, becomes⟩ := stages_lowered hp
      obtain ⟨new, stages, others⟩ := ih (linked_lowered hm hp)
      rw [lowerEach_cons_of_plan hm hp, selected_cons_of_plan hm hp]
      refine ⟨s :: new, ?_, .cons becomes others⟩
      rw [stages, hs, List.append_assoc, List.singleton_append]

/-! ### The abort policy -/

@[simp] lemma result_lowerLayers (m : Model) (config : Config) (ls : List Layer) :
    (m.lowerLayers config ls).result = (m.lowerEach config ls).result := by
  unfold lowerLayers
  dsimp only
  split <;> simp [*]

/-- With the abort policy a list is at its end with the layer `l`, which is rejected after all in
front of it were lowered: the model is theirs, and whatever stands behind `l` has no part in it. -/
structure EndsAt (m : Model) (recheck : Bool) (before : List Layer) (l : Layer) (r : Rejection) :
    Prop where
  lowered : ∃ ids, (m.lowerLayers ⟨recheck, .abort⟩ before).result = .ok ids
  rejected : ((m.lowerLayers ⟨recheck, .abort⟩ before).model.lowerLayer ⟨recheck, .abort⟩ l).result
    = .error r
  layer : r.layer = l.label
  result : ∀ after, (m.lowerLayers ⟨recheck, .abort⟩ (before ++ l :: after)).result = .error r
  model : ∀ after, (m.lowerLayers ⟨recheck, .abort⟩ (before ++ l :: after)).model =
    (m.lowerLayers ⟨recheck, .abort⟩ before).model

/-- A layer that has no plan ends the list at once. -/
lemma endsAt_nil (hm : m.Linked) (hp : l.plan m = .error reason) (recheck : Bool) :
    m.EndsAt recheck [] l ⟨l.label, reason⟩ := by
  refine ⟨⟨[], rfl⟩, ?_, rfl, fun after => ?_, fun after => ?_⟩
  · simp [lowerEach, lowerLayer_eq hm, hp]
  · rw [result_lowerLayers, List.nil_append, lowerEach_abort_cons_of_error hm hp]
  · rw [model_lowerLayers, List.nil_append, lowerEach_abort_cons_of_error hm hp]
    rfl

/-- A layer in front that is lowered leaves the end to the others. -/
lemma EndsAt.cons {k : Layer} {r : Rejection} {recheck : Bool} {before : List Layer}
    (hm : m.Linked) (hp : k.plan m = .ok p) (h : (Slice.lowered k p m).EndsAt recheck before l r) :
    m.EndsAt recheck (k :: before) l r := by
  obtain ⟨⟨ids, lowered⟩, rejected, layer, result, model⟩ := h
  simp only [result_lowerLayers, model_lowerLayers] at lowered rejected result model
  refine ⟨⟨m.stages.length :: ids, ?_⟩, ?_, layer, fun after => ?_, fun after => ?_⟩
  · rw [result_lowerLayers, lowerEach_cons_of_plan hm hp, lowered]
    rfl
  · rwa [model_lowerLayers, lowerEach_cons_of_plan hm hp]
  · rw [result_lowerLayers, List.cons_append, lowerEach_cons_of_plan hm hp, result after]
    rfl
  · rw [model_lowerLayers, model_lowerLayers, List.cons_append, lowerEach_cons_of_plan hm hp,
      lowerEach_cons_of_plan hm hp]
    exact model after

/-- A list that is not lowered as a whole has come to its end at one of its layers. -/
lemma exists_endsAt (hm : m.Linked) {recheck : Bool} {ls : List Layer} {r : Rejection}
    (h : (m.lowerEach ⟨recheck, .abort⟩ ls).result = .error r) :
    ∃ before l after, ls = before ++ l :: after ∧ m.EndsAt recheck before l r := by
  induction ls generalizing m with
  | nil => cases h
  | cons k rest ih =>
    cases hp : k.plan m with
    | error reason =>
      rw [lowerEach_abort_cons_of_error hm hp] at h
      cases h
      exact ⟨[], k, rest, rfl, endsAt_nil hm hp recheck⟩
    | ok p =>
      rw [lowerEach_cons_of_plan hm hp] at h
      obtain ⟨before, l, after, rfl, ends⟩ :=
        ih (linked_lowered hm hp) (map_eq_error_iff.mp h)
      exact ⟨k :: before, l, after, rfl, ends.cons hm hp⟩

/-! ### Compilation -/

lemma result_compile_of_error {config : Config} {ls : List Layer} {r : Rejection}
    (h : (m.lowerLayers config ls).result = .error r) :
    (m.compile config ls).result = .error (.lowering r) := by
  simp only [compile, h]

lemma result_compile_of_ok {config : Config} {ls : List Layer} {ids : List StageId}
    (h : (m.lowerLayers config ls).result = .ok ids) (r : Rejection) :
    (m.compile config ls).result ≠ .error (.lowering r) := by
  simp only [compile, h]
  cases (Blob.write (m.lowerLayers config ls).model).1 <;> simp [Except.mapError]

/-- **Skipping is leaving out, aborting is cutting off.** With the skip policy a list does what its
layers that are lowered do with the abort policy: it gives the same stages, numbered on, each
named for its layer. With the abort policy a list that fails ends at its first layer that is
rejected. Compilation fails in the same way, and with the skip policy never for a layer. -/
theorem lowerLayers_skip_abort (h : m.Reachable d) (recheck : Bool) (ls : List Layer) :
    let skip : Config := ⟨recheck, .skip⟩
    let abort : Config := ⟨recheck, .abort⟩
    let kept := m.selected recheck ls
    let ids := List.range' m.stages.length kept.length
    (kept.Sublist ls ∧
      (m.lowerLayers skip ls).result = .ok ids ∧
      (m.lowerLayers abort kept).result = .ok ids ∧
      (m.lowerLayers abort kept).model = (m.lowerLayers skip ls).model ∧
      ∀ k l, kept[k]? = some l → ∃ s,
        (m.lowerLayers skip ls).model.stage? (m.stages.length + k) = some s ∧ s.label = l.label) ∧
    (∀ r, (m.lowerLayers abort ls).result = .error r →
      (∃ before l after, ls = before ++ l :: after ∧ m.EndsAt recheck before l r) ∧
      (m.compile abort ls).result = .error (.lowering r) ∧
      (m.compile abort ls).model = (m.lowerLayers abort ls).model) ∧
    ∀ r, (m.compile skip ls).result ≠ .error (.lowering r) := by
  intro skip abort kept ids
  have hm := h.linked
  obtain ⟨result, model⟩ := lowerEach_abort_selected hm recheck ls
  have skipped : (m.lowerLayers skip ls).result = .ok ids := by
    rw [result_lowerLayers, result_lowerEach_skip, attempts_answers hm]
  refine ⟨⟨selected_sublist m recheck ls, skipped, ?_, ?_, fun k l hk => ?_⟩,
    fun r hr => ⟨?_, ?_, ?_⟩, result_compile_of_ok skipped⟩
  · rw [result_lowerLayers, result, ← result_lowerLayers, skipped]
  · rw [model_lowerLayers, model, ← model_lowerLayers]
  · obtain ⟨new, stages, become⟩ := stages_lowerEach_skip hm recheck ls
    obtain ⟨s, hs, becomes⟩ := exists_getElem?_of_forall₂ become hk
    refine ⟨s, ?_, becomes.label⟩
    rw [model_lowerLayers, stage?, stages, List.getElem?_append_right (Nat.le_add_right _ _),
      Nat.add_sub_cancel_left, hs]
  · rw [result_lowerLayers] at hr
    exact exists_endsAt hm hr
  · exact result_compile_of_error hr
  · rw [model_compile, model_lowerLayers]

/-- The model has gone back to a stale checkpoint and has a stage already. Layer `b` writes what
layer `a` has written, so it is left out, or else the list ends there. -/
theorem lowerLayers_skip_abort_clash :
    let m := (Session.run .free ⟨empty "m", []⟩
      [.mark, .run (.addInput "x" ⟨.fp16, [4]⟩), .run (.addInput "begin" ⟨.s32, [1]⟩),
        .run (.addConst "strides" ⟨.s32, [1]⟩ (.ofInts [2])), .run (.addOutput "y" ⟨.fp16, [2]⟩),
        .run (.addOutput "z" ⟨.fp16, [2]⟩), .mark, .undo 1, .undo 0,
        .run (.addInput "x" ⟨.fp16, [4]⟩), .run (.addInput "begin" ⟨.s32, [1]⟩),
        .run (.addConst "strides" ⟨.s32, [1]⟩ (.ofInts [2])), .run (.addOutput "y" ⟨.fp16, [2]⟩),
        .run (.addOutput "z" ⟨.fp16, [2]⟩),
        .run (.addStage ⟨⟨"s", "StridedSlice"⟩, .stridedSlice ⟨0, 0⟩, [0, 0], []⟩)]).model
    let b := Layer.stridedSlice "b" [0, 1, 1, 2] 3
    let ls := [.stridedSlice "a" [0, 1, 1] 3, b, .stridedSlice "c" [0, 1, 1, 2] 4]
    let r : Rejection := ⟨b.label, .producedTwice 3⟩
    m.Reachable .free ∧ (m.selected true ls).map (·.label.name) = ["a", "c"] ∧
      (m.lowerLayers ⟨true, .skip⟩ ls).result = .ok [1, 2] ∧
      (m.lowerLayers ⟨true, .abort⟩ ls).result = .error r ∧
      (m.compile ⟨true, .abort⟩ ls).result = .error (.lowering r) ∧
      ∃ before l after, ls = before ++ l :: after ∧ m.EndsAt true before l r := by
  intro m b ls r
  have reached : m.Reachable .free := ⟨"m", _, rfl⟩
  have failed : (m.lowerLayers ⟨true, .abort⟩ ls).result = .error r := by decide +kernel
  obtain ⟨⟨-, skipped, -⟩, stopped, -⟩ := lowerLayers_skip_abort reached true ls
  obtain ⟨ends, compiled, -⟩ := stopped r failed
  have numbers : List.range' m.stages.length (m.selected true ls).length = [1, 2] := by
    decide +kernel
  exact ⟨reached, by decide +kernel, numbers ▸ skipped, failed, compiled, ends⟩

end Model

end SliceCompiler
