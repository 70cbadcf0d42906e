import SliceCompiler.Proofs.Policies

/-!
What is reported on a list of layers. A layer is reported as read when everything that can speak
against it has been looked at, so what is read is lowered, and that is reported next. A layer that is
left out is reported once. The log of a list consists of the reports on its layers in their order. In
front of them it tells how many layers there are, and behind them, unless one of them has ended the
list, how many were left out.
-/

namespace SliceCompiler

namespace Event

/-- The stage that an event tells the number of. -/
def stage? : Event → Option StageId
  | layerLowered _ id => some id
  | _ => none

/-- How many events of a log are warnings. -/
def warnings (log : List Event) : ℕ := log.countP (·.level = .warn)

/-- What the events of a log that are for debugging tell, in their order. -/
def debugged (log : List Event) : List (Option StageId) :=
  (log.filter (·.level = .debug)).map stage?

lemma warnings_append (xs ys : List Event) : warnings (xs ++ ys) = warnings xs + warnings ys :=
  List.countP_append

lemma debugged_append (xs ys : List Event) : debugged (xs ++ ys) = debugged xs ++ debugged ys := by
  simp [debugged]

end Event

open Event

namespace Layer

/-- Where the strides of a layer come from. -/
def stridesSource (l : Layer) : StridesSource := l.inputs[3]?.elim .unit .tensor

/-- The reports on a layer with this answer, where a list goes on behind it: what was read, at once
followed by the stage that has come of it, or a warning that the layer is left out, and why. -/
inductive Reports (l : Layer) (policy : OnRejection) : Except Rejection StageId → List Event → Prop
  | lowered {beginMask endMask : Mask} {id : StageId}
      (hb : Mask.decode (l.param "begin_mask" "") = .ok beginMask)
      (he : Mask.decode (l.param "end_mask" "") = .ok endMask) :
      Reports l policy (.ok id)
        [.sliceRead l.label.name beginMask endMask l.stridesSource, .layerLowered l.label.name id]
  | skipped {r : Rejection} (h : policy = .skip) :
      Reports l policy (.error r) [.layerSkipped l.label.name r]

namespace Reports

variable {l : Layer} {policy : OnRejection} {answer : Except Rejection StageId}
  {events : List Event}

/-- The stage that is answered is told for debugging. -/
lemma debugged_eq (h : l.Reports policy answer events) :
    debugged events = answer.toOption.toList.map some := by
  cases h <;> rfl

/-- Either there is a stage or a warning. -/
lemma warnings_eq (h : l.Reports policy answer events) :
    answer.toOption.toList.length + warnings events = 1 := by
  cases h <;> rfl

end Reports

end Layer

lemma Slice.Planned.strides_eq {l : Layer} {m : Model} {p : Plan} {ts : SliceTensors}
    (h : Planned l m p ts) : p.operands.strides = l.stridesSource := by
  obtain ⟨settled, -⟩ := operands_eq_ok_iff.mp h.operands
  have place : ts.inputs[3]? = ts.strides := by
    cases hs : ts.strides <;> simp [SliceTensors.inputs, hs]
  rw [settled, Layer.stridesSource, h.inputs, place]

namespace Model

/-- Each layer of a list is lowered or skipped in the model that the layers in front of it have left,
and these are the reports on them, layer by layer. -/
structure Reported (m : Model) (config : Config) (ls : List Layer) (reports : List (List Event)) :
    Prop where
  length : reports.length = ls.length
  each : ∀ {i : ℕ} {l : Layer} {events : List Event}, ls[i]? = some l → reports[i]? = some events →
    l.Reports config.onRejection
      ((m.lowerLayers config (ls.take i)).model.lowerLayer config l).result events

variable {m : Model} {config : Config} {l : Layer} {ls : List Layer} {r : Rejection}
  {id : StageId}

/-! ### One layer -/

lemma log_lowerLayer_of_error (h : (m.lowerLayer config l).result = .error r) :
    (m.lowerLayer config l).log = [] := by
  rw [result_lowerLayer] at h
  rw [log_lowerLayer]
  cases hp : l.plan m with
  | error reason => rfl
  | ok p => simp [hp] at h

lemma reports_of_ok (h : (m.lowerLayer config l).result = .ok id) (policy : OnRejection) :
    l.Reports policy (.ok id) (m.lowerLayer config l).log := by
  rw [result_lowerLayer] at h
  rw [log_lowerLayer]
  cases hp : l.plan m with
  | error reason => simp [hp] at h
  | ok p =>
    obtain rfl : m.stages.length = id := by simpa [hp] using h
    obtain ⟨ts, planned⟩ := planned_of_plan hp
    obtain ⟨hb, he⟩ := Slice.keptMasks_eq_ok_iff.mp planned.masks
    dsimp only
    rw [planned.strides_eq]
    exact .lowered hb he

/-- A layer at the head of a list either is reported on, and the others meet the model that it has
left, or it ends the list. -/
lemma lowerEach_cons_cases (m : Model) (config : Config) (l : Layer) :
    (∃ events, l.Reports config.onRejection (m.lowerLayer config l).result events ∧
      ∀ rest, m.lowerEach config (l :: rest) =
        { result := ((m.lowerLayer config l).model.lowerEach config rest).result.map
            ((m.lowerLayer config l).result.toOption.toList ++ ·)
          model := ((m.lowerLayer config l).model.lowerEach config rest).model
          log := events ++ ((m.lowerLayer config l).model.lowerEach config rest).log }) ∨
    config.onRejection = .abort ∧ ∃ r, (m.lowerLayer config l).result = .error r ∧
      ∀ rest, m.lowerEach config (l :: rest) =
        { result := .error r, model := (m.lowerLayer config l).model } := by
  cases h : (m.lowerLayer config l).result with
  | ok id =>
    refine .inl ⟨_, reports_of_ok h _, fun rest => ?_⟩
    simp only [lowerEach, h]
    rfl
  | error r =>
    have silent := log_lowerLayer_of_error h
    cases policy : config.onRejection with
    | abort =>
      refine .inr ⟨rfl, r, rfl, fun rest => ?_⟩
      simp only [lowerEach, h, policy, silent]
    | skip =>
      refine .inl ⟨_, .skipped rfl, fun rest => ?_⟩
      simp only [lowerEach, h, policy, silent]
      cases ((m.lowerLayer config l).model.lowerEach config rest).result <;> rfl

/-! ### Lists -/

namespace Reported

lemma nil (m : Model) (config : Config) : m.Reported config [] [] := ⟨rfl, by simp⟩

/-- A layer that the list goes on behind is reported in front of the others. -/
lemma cons {events : List Event} {rest : List Layer} {reports : List (List Event)}
    (first : l.Reports config.onRejection (m.lowerLayer config l).result events)
    (step : ∀ front, (m.lowerLayers config (l :: front)).model =
      ((m.lowerLayer config l).model.lowerLayers config front).model)
    (h : (m.lowerLayer config l).model.Reported config rest reports) :
    m.Reported config (l :: rest) (events :: reports) := by
  refine ⟨by rw [List.length_cons, h.length, List.length_cons], fun {i k others} hk ho => ?_⟩
  cases i with
  | zero =>
    cases hk
    cases ho
    exact first
  | succ i =>
    rw [List.take_succ_cons, step]
    exact h.each hk ho

end Reported

/-- A list comes to its end, or it ends at a layer and reports what those in front of it do. -/
lemma exists_front (m : Model) (config : Config) (ls : List Layer) : ∃ front ids,
    (m.lowerEach config front).result = .ok ids ∧
    (m.lowerEach config ls).log = (m.lowerEach config front).log ∧
    (front = ls ∨ config.onRejection = .abort ∧ ∃ l after r, ls = front ++ l :: after ∧
      ((m.lowerEach config front).model.lowerLayer config l).result = .error r ∧
      (m.lowerEach config ls).result = .error r) := by
  induction ls generalizing m with
  | nil => exact ⟨[], [], rfl, rfl, .inl rfl⟩
  | cons l rest ih =>
    rcases m.lowerEach_cons_cases config l with ⟨events, -, step⟩ | ⟨abort, r, rejected, step⟩
    · obtain ⟨front, ids, lowered, log, ends⟩ := ih (m.lowerLayer config l).model
      simp only [step]
      refine ⟨l :: front, _, by rw [step, lowered]; rfl, by rw [step, log], ?_⟩
      rcases ends with rfl | ⟨abort, k, after, r, rfl, rejected, result⟩
      · exact .inl rfl
      · refine .inr ⟨abort, k, after, r, rfl, by rwa [step], by rw [result]; rfl⟩
    · exact ⟨[], [], rfl, by rw [step]; rfl, .inr ⟨abort, l, rest, r, rfl, rejected, by rw [step]⟩⟩

/-- A list that comes to its end reports on each of its layers and on nothing else. -/
lemma exists_reported {ids : List StageId} (h : (m.lowerEach config ls).result = .ok ids) :
    ∃ reports, m.Reported config ls reports ∧ (m.lowerEach config ls).log = reports.flatten ∧
      debugged reports.flatten = ids.map some ∧
      ids.length + warnings reports.flatten = ls.length := by
  induction ls generalizing m ids with
  | nil =>
    cases h
    exact ⟨[], .nil m config, rfl, rfl, rfl⟩
  | cons l rest ih =>
    rcases m.lowerEach_cons_cases config l with ⟨events, first, step⟩ | ⟨-, r, -, step⟩
    · rw [step] at h
      obtain ⟨others, lowered, rfl⟩ := map_eq_ok_iff.mp h
      obtain ⟨reports, reported, log, numbers, tally⟩ := ih lowered
      refine ⟨events :: reports, .cons first (fun front => ?_) reported, ?_, ?_, ?_⟩
      · rw [model_lowerLayers, model_lowerLayers, step]
      · rw [step, log, List.flatten_cons]
      · rw [List.flatten_cons, debugged_append, first.debugged_eq, numbers, List.map_append]
      · have one := first.warnings_eq
        rw [List.flatten_cons, warnings_append, List.length_append, List.length_cons]
        omega
    · rw [step] at h
      cases h

/-- No more stages come of a list than it has layers. -/
lemma length_le_of_lowerEach {ids : List StageId} (h : (m.lowerEach config ls).result = .ok ids) :
    ids.length ≤ ls.length := by
  obtain ⟨reports, -, -, -, tally⟩ := exists_reported h
  omega

lemma log_lowerLayers_of_ok {ids : List StageId} (h : (m.lowerEach config ls).result = .ok ids) :
    (m.lowerLayers config ls).log =
      .loweringStarted ls.length m.name :: (m.lowerEach config ls).log ++
        [.loweringFinished (m.lowerLayers config ls).model.name
          (m.lowerLayers config ls).model.stages.length (ls.length - ids.length)] := by
  rw [model_lowerLayers, lowerLayers]
  simp only [h]

lemma log_lowerLayers_of_error (h : (m.lowerEach config ls).result = .error r) :
    (m.lowerLayers config ls).log =
      .loweringStarted ls.length m.name :: (m.lowerEach config ls).log := by
  rw [lowerLayers]
  simp only [h]

/-- **The log accounts for every layer.** It begins with the number of layers. The reports on them
follow in their order: for a layer that is lowered what was read, and right behind it the number of
the stage; for a layer that is skipped a warning. With the abort policy the first layer that is
rejected ends the log without a report. Otherwise the log closes with the number of stages that the
model has and the number of layers that were skipped: it is the number of warnings, and together with
the stages that are answered it makes up the list. These stages are what the log tells for debugging,
in the same order. -/
theorem log_lowerLayers (m : Model) (config : Config) (ls : List Layer) :
    let o := m.lowerLayers config ls
    ∃ front reports ids,
      (m.lowerLayers config front).result = .ok ids ∧ m.Reported config front reports ∧
      debugged o.log = ids.map some ∧ ids.length + warnings o.log = front.length ∧
      ((front = ls ∧ o.log = .loweringStarted ls.length m.name :: reports.flatten ++
          [.loweringFinished o.model.name o.model.stages.length (warnings o.log)]) ∨
        config.onRejection = .abort ∧ ∃ l after r, ls = front ++ l :: after ∧
          ((m.lowerLayers config front).model.lowerLayer config l).result = .error r ∧
          o.result = .error r ∧ o.log = .loweringStarted ls.length m.name :: reports.flatten) := by
  dsimp only
  obtain ⟨front, ids, lowered, same, ends⟩ := m.exists_front config ls
  obtain ⟨reports, reported, log, numbers, tally⟩ := exists_reported lowered
  rw [log] at same
  have front_ok : (m.lowerLayers config front).result = .ok ids := by
    rw [result_lowerLayers, lowered]
  -- neither the first event nor the last one is a warning, or tells the number of a stage
  rcases ends with rfl | ⟨abort, l, after, r, rfl, rejected, result⟩
  · have closed := log_lowerLayers_of_ok lowered
    rw [same] at closed
    have count : warnings (m.lowerLayers config front).log = warnings reports.flatten := by
      rw [closed, warnings_append]
      rfl
    have told : debugged (m.lowerLayers config front).log = debugged reports.flatten := by
      rw [closed, debugged_append]
      exact List.append_nil _
    have skipped : front.length - ids.length = warnings (m.lowerLayers config front).log := by
      omega
    rw [skipped] at closed
    exact ⟨front, reports, ids, front_ok, reported, told.trans numbers, by omega,
      .inl ⟨rfl, closed⟩⟩
  · have ended := log_lowerLayers_of_error result
    rw [same] at ended
    have count : warnings (m.lowerLayers config (front ++ l :: after)).log =
        warnings reports.flatten := by
      rw [ended]
      rfl
    have told : debugged (m.lowerLayers config (front ++ l :: after)).log =
        debugged reports.flatten := by
      rw [ended]
      rfl
    refine ⟨front, reports, ids, front_ok, reported, told.trans numbers, by omega,
      .inr ⟨abort, l, after, r, rfl, ?_, ?_, ended⟩⟩
    · rwa [model_lowerLayers]
    · rw [result_lowerLayers, result]

/-- Layer `b` writes what layer `a` has written. -/
example :
    let m := (Session.run .stack ⟨empty "m", []⟩
      [.run (.addInput "x" ⟨.s32, [4]⟩), .run (.addConst "k" ⟨.s32, [1]⟩ (.ofInts [2])),
        .run (.addOutput "y" ⟨.s32, [2]⟩), .run (.addOutput "z" ⟨.s32, [2]⟩)]).model
    let b := Layer.stridedSlice "b" [0, 0, 0] 2
    let ls := [.maskedSlice "a" [0, 0, 0] 2 "1" "0,1", b, .stridedSlice "c" [0, 0, 0, 1] 3]
    let lowered : List Event := [.sliceRead "a" 1 2 .unit, .layerLowered "a" 0]
    (m.lowerLayers ⟨true, .abort⟩ ls).log = .loweringStarted 3 "m" :: lowered ∧
      (m.lowerLayers ⟨true, .skip⟩ ls).log = .loweringStarted 3 "m" :: lowered ++
        [.layerSkipped "b" ⟨b.label, .producedTwice 2⟩, .sliceRead "c" 0 0 (.tensor 1),
          .layerLowered "c" 1, .loweringFinished "m" 2 1] := by
  decide +kernel

end Model

end SliceCompiler
