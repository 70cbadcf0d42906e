import SliceCompiler.Proofs.Parameters

/-!
How layers are set up. Setting a parameter takes the place of what it was set to before, so of a
history of settings only the last one of each parameter is left, and layers are equal if they agree
in these, whatever else was set and in whatever order.
-/

namespace SliceCompiler

/-- What a key is set to last, if it is set at all. -/
inductive LastSet (settings : List (String × String)) (key : String) : Option String → Prop
  | set {before after : List (String × String)} {value : String}
      (split : settings = before ++ (key, value) :: after) (last : ∀ e ∈ after, e.1 ≠ key) :
      LastSet settings key (some value)
  | unset (never : ∀ e ∈ settings, e.1 ≠ key) : LastSet settings key none

section

variable {settings : List (String × String)} {key : String} {value? : Option String}

lemma lookup_eq_none_iff : settings.lookup key = none ↔ ∀ e ∈ settings, e.1 ≠ key := by
  simp only [List.lookup_eq_none_iff, bne_iff_ne, ne_comm]

/-- The last setting is the first one from behind. -/
lemma lastSet_iff : LastSet settings key value? ↔ settings.reverse.lookup key = value? := by
  constructor
  · intro h
    cases h with
    | @set before after value split last =>
      have behind : after.reverse.lookup key = none :=
        lookup_eq_none_iff.mpr fun e he => last e (List.mem_reverse.mp he)
      rw [split, List.reverse_append, List.reverse_cons, List.lookup_append, List.lookup_append,
        behind]
      simp
    | unset never => exact lookup_eq_none_iff.mpr fun e he => never e (List.mem_reverse.mp he)
  · intro h
    cases value? with
    | none =>
      exact .unset fun e he => lookup_eq_none_iff.mp h e (List.mem_reverse.mpr he)
    | some value =>
      obtain ⟨after, before, split, last⟩ := List.lookup_eq_some_iff.mp h
      have forwards : settings = before.reverse ++ (key, value) :: after.reverse := by
        simpa using congrArg List.reverse split
      refine .set forwards fun e he => ?_
      exact (bne_iff_ne.mp (last e (List.mem_reverse.mp he))).symm

/-- Histories leave a key set to the same if the last setting of it is the same. -/
lemma lastSet_congr_iff {settings' : List (String × String)} :
    (∀ value?, LastSet settings key value? ↔ LastSet settings' key value?) ↔
      settings.reverse.lookup key = settings'.reverse.lookup key := by
  simp only [lastSet_iff]
  exact ⟨fun h => ((h _).mp rfl).symm, fun h value? => by rw [h]⟩

end

namespace Layer

lemma eq_iff {l k : Layer} : l = k ↔ l.label = k.label ∧ l.inputs = k.inputs ∧
    l.outputs = k.outputs ∧ ∀ key, l.params.get? key = k.params.get? key := by
  constructor
  · rintro rfl
    exact ⟨rfl, rfl, rfl, fun _ => rfl⟩
  · obtain ⟨label, inputs, outputs, params⟩ := l
    rintro ⟨rfl, rfl, rfl, same⟩
    obtain rfl := Params.ext same
    rfl

lemma withParams_eq_iff {l k : Layer} {settings settings' : List (String × String)} :
    l.withParams settings = k.withParams settings' ↔
      l.label = k.label ∧ l.inputs = k.inputs ∧ l.outputs = k.outputs ∧
        ∀ key, (settings.reverse.lookup key).or (l.params.get? key) =
          (settings'.reverse.lookup key).or (k.params.get? key) := by
  have kept (l : Layer) (settings : List (String × String)) :
      (l.withParams settings).label = l.label ∧ (l.withParams settings).inputs = l.inputs ∧
        (l.withParams settings).outputs = l.outputs := by
    rw [withParams_eq]
    exact ⟨rfl, rfl, rfl⟩
  obtain ⟨label, inputs, outputs⟩ := kept l settings
  obtain ⟨label', inputs', outputs'⟩ := kept k settings'
  rw [eq_iff, label, label', inputs, inputs', outputs, outputs']
  simp only [get?_withParams]

/-- Settings of two parameters can be exchanged. -/
lemma withParam_comm (l : Layer) {key key' : String} (h : key ≠ key') (value value' : String) :
    (l.withParam key value).withParam key' value' =
      (l.withParam key' value').withParam key value := by
  refine eq_iff.mpr ⟨rfl, rfl, rfl, fun param => ?_⟩
  simp only [withParam, Params.get?_set]
  by_cases first : param = key
  · simp [first, h]
  · simp [first]

/-- **The last setting counts.** A parameter has the text that it is set to last, and the default if
it is never set. Layers that are set up from nothing are equal exactly if they have the same name,
type and tensors and each parameter is set to the same text last, or never. A masked slice is a slice
with its two masks set, in either order. -/
theorem withParams_last :
    (∀ (label : LayerLabel) (inputs outputs : List TensorId) (settings : List (String × String))
        (key default : String), ∃ value?, LastSet settings key value? ∧
      (Layer.withParams { label, inputs, outputs } settings).param key default =
        value?.getD default) ∧
    (∀ (label label' : LayerLabel) (inputs inputs' outputs outputs' : List TensorId)
        (settings settings' : List (String × String)),
      Layer.withParams { label, inputs, outputs } settings =
          Layer.withParams { label := label', inputs := inputs', outputs := outputs' } settings' ↔
        label = label' ∧ inputs = inputs' ∧ outputs = outputs' ∧
          ∀ key value?, LastSet settings key value? ↔ LastSet settings' key value?) ∧
    ∀ (name : String) (inputs : List TensorId) (output : TensorId) (beginMask endMask : String),
      maskedSlice name inputs output beginMask endMask =
          (stridedSlice name inputs output).withParams
            [("begin_mask", beginMask), ("end_mask", endMask)] ∧
        maskedSlice name inputs output beginMask endMask =
          (stridedSlice name inputs output).withParams
            [("end_mask", endMask), ("begin_mask", beginMask)] := by
  refine ⟨fun label inputs outputs settings key default => ?_, ?_, ?_⟩
  · exact ⟨_, lastSet_iff.mpr rfl, param_withParams _ settings key default⟩
  · intro label label' inputs inputs' outputs outputs' settings settings'
    simp only [withParams_eq_iff, lastSet_congr_iff, Params.get?_empty, Option.or_none]
  · intro name inputs output beginMask endMask
    exact ⟨rfl, withParam_comm _ (by decide) beginMask endMask⟩

end Layer

end SliceCompiler
