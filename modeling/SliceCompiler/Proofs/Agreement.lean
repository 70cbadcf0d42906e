import SliceCompiler.Proofs.Regularity
import SliceCompiler.Proofs.Undo

/-!
Links are kept twice: a stage lists the tensors that it reads and writes, and a tensor lists the
stages that read it and the one that writes it. The two sides agree in every model that is reached
by going back in order, whatever its stages are: an added tensor is one that no stage knows yet, and
an appended stage leaves its number with a tensor as often as it lists the tensor.
-/

namespace SliceCompiler.Model

/-- How often the stage `k` reads the tensor `id`. -/
def reads (m : Model) (k : StageId) (id : TensorId) : ℕ := (m.stage? k).elim 0 (·.inputs.count id)

/-- The stage `k` writes the tensor `id`. -/
def Writes (m : Model) (k : StageId) (id : TensorId) : Prop :=
  ∃ s, m.stage? k = some s ∧ id ∈ s.outputs

/-- The links of the tensor `t` at the place `id` are those that the stages have to it. A reader
stands there as often as it reads, in the order of the stages. -/
structure Agrees (m : Model) (id : TensorId) (t : Tensor) : Prop where
  producer : ∀ k, t.producer = some k ↔ m.Writes k id
  order : t.consumers.Pairwise (· ≤ ·)
  consumers : t.isPlaceholder = false → ∀ k, t.consumers.count k = m.reads k id

/-- Both sides of the links agree, for all tensors and stages. -/
structure Meshed (m : Model) : Prop where
  known : ∀ s ∈ m.stages, ∀ id ∈ s.inputs ++ s.outputs, id < m.tensors.length
  agrees : ∀ {id t}, m.tensor? id = some t → m.Agrees id t

variable {direct : Bool} {m n : Model} {s : Stage} {k : StageId} {id : TensorId} {t : Tensor}

lemma lt_of_reads (h : 0 < m.reads k id) : k < m.stages.length := by
  unfold reads at h
  cases hs : m.stage? k with
  | none => simp [hs] at h
  | some s => exact lt_of_stage? hs

lemma reads_link (m : Model) (s : Stage) (k : StageId) (id : TensorId) :
    (m.link s).reads k id =
      m.reads k id + if k = m.stages.length then s.inputs.count id else 0 := by
  unfold reads
  rw [stage?_link]
  split
  · next hk => simp [hk, stage?]
  · simp

lemma writes_link : (m.link s).Writes k id ↔
    m.Writes k id ∨ k = m.stages.length ∧ id ∈ s.outputs := by
  unfold Writes
  rw [stage?_link]
  split
  · next hk => simp [hk, stage?]
  · next hk => simp [hk]

/-! ### Additions -/

namespace Meshed

lemma unread (h : m.Meshed) (hid : m.tensors.length ≤ id) (k : StageId) : m.reads k id = 0 := by
  unfold reads
  cases hs : m.stage? k with
  | none => rfl
  | some s =>
    refine List.count_eq_zero_of_not_mem fun hi => ?_
    exact (h.known s (mem_stages_of_stage? hs) id (List.mem_append_left _ hi)).not_ge hid

lemma unwritten (h : m.Meshed) (hid : m.tensors.length ≤ id) (k : StageId) :
    ¬ m.Writes k id := by
  rintro ⟨s, hs, ho⟩
  exact (h.known s (mem_stages_of_stage? hs) id (List.mem_append_right _ ho)).not_ge hid

lemma add (h : m.Meshed) (name : String) (role : Role) (layout : Layout)
    (content : Option Content) : (m.add name role layout content).2.Meshed := by
  refine ⟨fun s hs id hid => ?_, fun {id t} ht => ?_⟩
  · exact (Extends.add m name role layout content).lt (h.known s hs id hid)
  · rcases tensor?_add_cases ht with ht | ⟨rfl, rfl⟩
    · exact ⟨(h.agrees ht).producer, (h.agrees ht).order, (h.agrees ht).consumers⟩
    · refine ⟨fun k => ?_, List.Pairwise.nil, fun _ k => ?_⟩
      · exact iff_of_false (by simp) (h.unwritten le_rfl k)
      · exact (h.unread le_rfl k).symm

end Meshed

/-! ### Stages -/

namespace Agrees

/-- All readers are stages of the model. -/
lemma lt_of_mem (h : m.Agrees id t) (hp : t.isPlaceholder = false) (hk : k ∈ t.consumers) :
    k < m.stages.length := by
  have read : 0 < m.reads k id := by
    rw [← h.consumers hp k]
    exact List.count_pos_iff.mpr hk
  exact lt_of_reads read

lemma link (h : m.Agrees id t) (ht : m.tensor? id = some t) (ha : m.Accepts s) :
    (m.link s).Agrees id (t.linked m.stages.length (s.inputs.count id) (id ∈ s.outputs)) := by
  refine ⟨fun k => ?_, ?_, fun hp k => ?_⟩
  · rw [writes_link, ← h.producer k]
    by_cases ho : id ∈ s.outputs
    · -- the tensor was free, so the new stage is the only one to write it
      simp only [Tensor.linked, ho, (ha.free id ho t ht).2]
      simp [@eq_comm _ k]
    · simp [Tensor.linked, ho]
  · unfold Tensor.linked
    cases hp : t.isPlaceholder with
    | true => exact h.order
    | false =>
      refine List.pairwise_append.mpr ⟨h.order, List.pairwise_replicate.mpr (.inr le_rfl), ?_⟩
      intro j hj k hk
      rw [List.eq_of_mem_replicate hk]
      exact (h.lt_of_mem hp hj).le
  · have hp : t.isPlaceholder = false := hp
    rw [reads_link, ← h.consumers hp k]
    simp [Tensor.linked, hp, List.count_append, List.count_replicate, @eq_comm _ k]

end Agrees

lemma Meshed.link (h : m.Meshed) (ha : m.Accepts s) : (m.link s).Meshed := by
  refine ⟨fun r hr id hid => ?_, fun {id u} hu => ?_⟩
  · refine (Extends.link ha).lt ?_
    rcases List.mem_append.mp hr with hr | hr
    · exact h.known r hr id hid
    · obtain rfl := List.mem_singleton.mp hr
      exact ha.known id hid
  · rw [tensor?_link] at hu
    obtain ⟨t, ht, rfl⟩ := Option.map_eq_some_iff.mp hu
    exact (h.agrees ht).link ht ha

/-! ### Runs -/

lemma Change.meshed (h : Change direct m n) (hm : m.Meshed) : n.Meshed :=
  h.keeps (P := Meshed) (fun name _ hm => hm.add name _ _ _) (fun ha hm => hm.link ha) hm

lemma meshed_empty (name : String) : (empty name).Meshed :=
  ⟨by simp [empty], by simp [empty, tensor?]⟩

lemma Reachable.meshed (h : m.Reachable .stack) : m.Meshed := by
  obtain ⟨name, grown⟩ := h.grows
  exact grown.invariant Change.meshed (meshed_empty name)

/-- **Links agree on both sides.** In every model that is reached by going back in order, stages
name tensors of the model, a tensor names as its producer the stage that writes it and as its
consumers the stages that read it, each as often as it does, and no tensor is written by two
stages. Placeholders carry no links, and each tensor knows its place. -/
theorem agrees_of_reachable (h : m.Reachable .stack) :
    (∀ s ∈ m.stages, ∀ id ∈ s.inputs ++ s.outputs, id < m.tensors.length) ∧
    (∀ id t, m.tensor? id = some t → t.id = id ∧ m.Agrees id t ∧
      (t.isPlaceholder = true → t.producer = none ∧ t.consumers = [])) ∧
    ∀ id j k, m.Writes j id → m.Writes k id → j = k := by
  obtain ⟨name, grown⟩ := h.grows
  have meshed : m.Meshed := grown.invariant Change.meshed (meshed_empty name)
  have regular : m.Regular := grown.invariant Change.regular (regular_empty name)
  refine ⟨meshed.known, fun id t ht => ?_, fun id j k hj hk => ?_⟩
  · have here := regular id t ht
    exact ⟨here.id, meshed.agrees ht, fun hp => (here.placeholder hp).2⟩
  · -- both are the one producer that the tensor names
    obtain ⟨s, hs, ho⟩ := hj
    have known := meshed.known s (mem_stages_of_stage? hs) id (List.mem_append_right _ ho)
    obtain ⟨t, ht⟩ := exists_tensor known
    have first := ((meshed.agrees ht).producer j).mpr ⟨s, hs, ho⟩
    have second := ((meshed.agrees ht).producer k).mpr hk
    exact Option.some.inj (first.symm.trans second)

/-- Stages with repeated tensors, one that reads what it writes, a placeholder among the inputs, a
second producer that is refused and a stage that is taken back. -/
theorem agrees_of_reachable_repeated :
    let slice (inputs outputs : List TensorId) : Move :=
      .run (.addStage ⟨⟨"s", "StridedSlice"⟩, .stridedSlice ⟨0, 0⟩, inputs, outputs⟩)
    let m := (Session.run .stack ⟨empty "m", []⟩
      [.run (.addInput "x" ⟨.s32, [1]⟩), .run (.addOutput "y" ⟨.s32, [1]⟩),
        .run .addPlaceholder, slice [1, 1, 0, 2, 1] [1, 1], .mark, slice [1] [0], .undo 0,
        slice [0, 1] [], slice [0] [1]]).model
    m.Reachable .stack ∧
      m.tensors.map (fun t => (t.producer, t.consumers)) =
        [(none, [0, 1]), (some 0, [0, 0, 0, 1]), (none, [])] ∧
      ∀ id t, m.tensor? id = some t → m.Agrees id t := by
  intro slice m
  have reached : m.Reachable .stack := ⟨"m", _, rfl⟩
  refine ⟨reached, by decide +kernel, fun id t ht => ?_⟩
  exact ((agrees_of_reachable reached).2.1 id t ht).2.1

end SliceCompiler.Model
