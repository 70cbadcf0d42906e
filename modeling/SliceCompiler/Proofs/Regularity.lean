import SliceCompiler.Proofs.Undo

/-!
Regular models: each tensor knows its place, lies in the region of its role and has the content
that its role asks for, and a placeholder takes no memory and carries no links. Every change
keeps models regular, and so does going back to any checkpoint.
-/

namespace SliceCompiler

/-- A tensor as it stands at the place `id` of a model. -/
structure Tensor.Regular (id : TensorId) (t : Tensor) : Prop where
  id : t.id = id
  region : t.region = t.role.region
  content : t.role.Admits t.layout t.content
  placeholder : t.isPlaceholder = true → t.offset = 0 ∧ t.producer = none ∧ t.consumers = []

namespace Model

def Regular (m : Model) : Prop := ∀ id t, m.tensor? id = some t → t.Regular id

variable {direct : Bool} {d : Discipline} {m n : Model}

lemma Regular.add (hm : m.Regular) (name : String) {role : Role} {layout : Layout}
    {content : Option Content} (h : role.Admits layout content) :
    (m.add name role layout content).2.Regular := by
  intro id t ht
  rcases tensor?_add_cases ht with ht | ⟨rfl, rfl⟩
  · exact hm id t ht
  · refine ⟨rfl, rfl, h, fun hp => ⟨?_, rfl, rfl⟩⟩
    have : role = .placeholder := by simpa [Tensor.isPlaceholder] using hp
    rw [this]
    exact m.areas.next_nowhere

lemma Regular.link (hm : m.Regular) {s : Stage} (h : m.Accepts s) : (m.link s).Regular := by
  intro id u hu
  rw [tensor?_link] at hu
  obtain ⟨t, ht, rfl⟩ := Option.map_eq_some_iff.mp hu
  have ht' := hm id t ht
  refine ⟨ht'.id, ht'.region, ht'.content, fun hp => ?_⟩
  have hp : t.isPlaceholder = true := hp
  have unwritten : id ∉ s.outputs := fun ho => by
    have := (h.free id ho t ht).1
    simp [hp] at this
  simpa [Tensor.linked, hp, unwritten] using ht'.placeholder hp

lemma Change.regular (h : Change direct m n) (hm : m.Regular) : n.Regular :=
  h.keeps (P := Regular) (fun name h hm => Regular.add hm name h)
    (fun h hm => Regular.link hm h) hm

lemma regular_empty (name : String) : (empty name).Regular := by
  intro id t ht
  cases ht

lemma Regular.rollback (hm : m.Regular) (c : Checkpoint) : (m.rollback c).Regular := by
  intro id u hu
  obtain ⟨t, ht, rfl⟩ := tensor?_rollback_cases hu
  have here := hm id t ht
  refine ⟨here.id, here.region, here.content, fun hp => ?_⟩
  obtain ⟨offset, producer, consumers⟩ := here.placeholder hp
  exact ⟨offset, by simp [Tensor.keepStages, producer], by simp [Tensor.keepStages, consumers]⟩

lemma Reachable.regular (h : m.Reachable d) : m.Regular :=
  h.invariant Change.regular (fun c hm => Regular.rollback hm c) regular_empty

end Model

end SliceCompiler
