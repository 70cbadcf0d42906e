import SliceCompiler.Proofs.Agreement

/-!
Links after going back in any order. A checkpoint that is stale may cut tensors off that stages
still name, and new tensors then take their places, so what a stage lists tells little about
tensors. The other direction holds up: what a tensor has for its producer and its consumers are
stages of the model that do list it. New tensors come without links, and going back cuts the links
to just those stages that it drops.
-/

namespace SliceCompiler

open Model

/-- The stages that the tensor `t` at the place `id` names do list it, its consumers as often as
they stand there. -/
structure Tensor.Backed (m : Model) (id : TensorId) (t : Tensor) : Prop where
  producer : ∀ k, t.producer = some k → m.Writes k id
  consumers : ∀ k ∈ t.consumers, t.consumers.count k = m.reads k id

/-- All links of tensors are backed by stages. -/
def Model.Backed (m : Model) : Prop := ∀ {id t}, m.tensor? id = some t → t.Backed m id

namespace Model

variable {direct : Bool} {d : Discipline} {m n : Model} {s : Stage} {c : Checkpoint}
  {id : TensorId} {k : StageId} {t u : Tensor}

/-! ### Going back to any checkpoint -/

/-- A link that is left leads to a stage that is left. -/
lemma Backed.rollback (hm : m.Backed) (c : Checkpoint) : (m.rollback c).Backed := by
  intro id u hu
  obtain ⟨t, ht, rfl⟩ := tensor?_rollback_cases hu
  have here := hm ht
  refine ⟨fun k hk => ?_, fun k hk => ?_⟩
  · obtain ⟨producer, kept⟩ := Option.filter_eq_some_iff.mp hk
    obtain ⟨s, hs, ho⟩ := here.producer k producer
    exact ⟨s, by rw [stage?_rollback (by simpa using kept), hs], ho⟩
  · obtain ⟨consumer, kept⟩ := List.mem_filter.mp hk
    have count : (t.consumers.filter (· < c.stages)).count k = t.consumers.count k :=
      List.count_filter kept
    rw [Tensor.keepStages, count, here.consumers k consumer, reads, reads,
      stage?_rollback (by simpa using kept)]

/-! ### Changes -/

/-- A consumer is a stage of the model. -/
lemma Backed.lt (hm : m.Backed) (ht : m.tensor? id = some t) (hk : k ∈ t.consumers) :
    k < m.stages.length := by
  have count : 0 < t.consumers.count k := List.count_pos_iff.mpr hk
  rw [(hm ht).consumers k hk] at count
  exact lt_of_reads count

lemma Backed.add (hm : m.Backed) (name : String) (role : Role) (layout : Layout)
    (content : Option Content) : (m.add name role layout content).2.Backed := by
  intro id t ht
  rcases tensor?_add_cases ht with ht | ⟨-, rfl⟩
  · exact ⟨(hm ht).producer, (hm ht).consumers⟩
  · exact ⟨nofun, nofun⟩

lemma Backed.link (hm : m.Backed) (s : Stage) : (m.link s).Backed := by
  intro id u hu
  rw [tensor?_link] at hu
  obtain ⟨t, ht, rfl⟩ := Option.map_eq_some_iff.mp hu
  have here := hm ht
  refine ⟨fun k hk => ?_, fun k hk => ?_⟩
  · rw [writes_link]
    by_cases written : id ∈ s.outputs
    · have last : m.stages.length = k := by simpa [Tensor.linked, written] using hk
      exact .inr ⟨last.symm, written⟩
    · exact .inl (here.producer k (by simpa [Tensor.linked, written] using hk))
  · -- the new stage is behind all those that stand among the consumers already
    have fresh : m.stages.length ∉ t.consumers := fun hk => (hm.lt ht hk).false
    have unread : m.reads m.stages.length id = 0 := by simp [reads, stage?]
    rw [reads_link]
    by_cases hp : t.isPlaceholder
    · have old : k ∈ t.consumers := by simpa [Tensor.linked, hp] using hk
      have other : k ≠ m.stages.length := fun e => fresh (e ▸ old)
      simp [Tensor.linked, hp, other, here.consumers k old]
    · by_cases last : k = m.stages.length
      · subst last
        simp [Tensor.linked, hp, unread, List.count_append, List.count_eq_zero_of_not_mem fresh]
      · have old : k ∈ t.consumers := by simpa [Tensor.linked, hp, last] using hk
        simp [Tensor.linked, hp, last, List.count_append, List.count_replicate,
          Ne.symm last, here.consumers k old]

lemma Change.backed (h : Change direct m n) (hm : m.Backed) : n.Backed :=
  h.keeps (P := Backed) (fun name _ hm => hm.add name _ _ _) (fun {_ s} _ hm => hm.link s) hm

lemma backed_empty (name : String) : (empty name).Backed := by
  intro id t ht
  cases ht

/-! ### Reachable models -/

lemma Reachable.backed (h : m.Reachable d) : m.Backed :=
  h.invariant (P := Backed) Change.backed (fun c hm => Backed.rollback hm c) backed_empty

end Model

end SliceCompiler
