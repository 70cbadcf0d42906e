import Mathlib.Logic.Relation
import SliceCompiler.History
import SliceCompiler.Proofs.Planning

/-!
What operations come down to. There are three changes to a model: a tensor is added, a planned
layer is lowered, or a stage is appended as it is. Each operation is a run of such changes, and
a failing one is the empty run, so what every change keeps is kept by all operations.
-/

namespace SliceCompiler

/-- A constant has a content of its type and size, and nothing else has one. -/
def Role.Admits (role : Role) (layout : Layout) (content : Option Content) : Prop :=
  (content.isSome ↔ role = .const) ∧
    ∀ c, content = some c → c.element = layout.element ∧ c.byteSize = layout.byteSize

namespace Model

/-- One change of a model; with `direct`, also by a stage that was not lowered from a layer. -/
inductive Change (direct : Bool) : Model → Model → Prop
  | add {m : Model} {role : Role} {layout : Layout} {content : Option Content} (name : String)
      (h : role.Admits layout content) : Change direct m (m.add name role layout content).2
  | lower {m : Model} {l : Layer} {p : Slice.Plan} (h : l.plan m = .ok p) :
      Change direct m (Slice.lowered l p m)
  | link {m : Model} {s : Stage} (hd : direct = true) (h : m.Accepts s) :
      Change direct m (m.link s)

/-- Any number of changes. -/
def Grows (direct : Bool) : Model → Model → Prop := Relation.ReflTransGen (Change direct)

variable {direct : Bool} {l m n : Model}

/-! ### What a lowered layer adds -/

lemma planned_of_plan {l : Layer} {p : Slice.Plan} (h : l.plan m = .ok p) :
    ∃ ts, Slice.Planned l m p ts := by
  unfold Layer.plan at h
  split at h
  · cases h
  · exact Slice.plan_eq_ok_iff.mp h

/-- What additions and accepted stages keep is kept by every change: lowering a layer is an
addition at most, and then a stage. -/
lemma Change.keeps {P : Model → Prop}
    (add : ∀ {m role layout content} (name : String), role.Admits layout content → P m →
      P (m.add name role layout content).2)
    (link : ∀ {m s}, m.Accepts s → P m → P (m.link s))
    (h : Change direct m n) (hm : P m) : P n := by
  cases h with
  | add name h => exact add name h hm
  | link _ h => exact link h hm
  | lower h =>
    obtain ⟨ts, hp⟩ := planned_of_plan h
    refine link hp.accepts ?_
    unfold Slice.Operands.supply
    split
    · exact hm
    · exact add _ ⟨by simp, by simp⟩ hm

lemma Change.extends (h : Change direct m n) : m.Extends n :=
  h.keeps (P := m.Extends) (fun name _ hm => hm.trans (.add _ name _ _ _))
    (fun ha hm => hm.trans (.link ha)) (.refl m)

/-! ### Links lead to stages of the model -/

lemma Linked.add (hm : m.Linked) (name : String) (role : Role) (layout : Layout)
    (content : Option Content) : (m.add name role layout content).2.Linked := by
  intro t ht
  rcases List.mem_append.mp ht with ht | ht
  · exact hm t ht
  · obtain rfl := List.mem_singleton.mp ht
    exact ⟨by simp, by simp⟩

lemma Linked.link (hm : m.Linked) (s : Stage) : (m.link s).Linked := by
  intro u hu
  obtain ⟨id, hid⟩ := mem_tensors_iff.mp hu
  rw [tensor?_link] at hid
  obtain ⟨t, ht, rfl⟩ := Option.map_eq_some_iff.mp hid
  obtain ⟨producer, consumers⟩ := hm t (mem_tensors_iff.mpr ⟨id, ht⟩)
  simp only [Tensor.LinkedBelow, Tensor.linked, stages_link, List.length_append,
    List.length_singleton, Nat.lt_add_one_iff]
  constructor
  · intro k hk
    split at hk
    · exact (Option.some.inj hk).ge
    · exact (producer k hk).le
  · intro k hk
    split at hk
    · exact (consumers k hk).le
    · rcases List.mem_append.mp hk with hk | hk
      · exact (consumers k hk).le
      · exact (List.eq_of_mem_replicate hk).le

lemma Change.linked (h : Change direct m n) (hm : m.Linked) : n.Linked :=
  h.keeps (fun name _ hm => hm.add name _ _ _) (fun _ hm => hm.link _) hm

/-- Going back to any checkpoint, even one that lies ahead, leaves no link too many. -/
lemma Linked.rollback (hm : m.Linked) (c : Checkpoint) : (m.rollback c).Linked := by
  intro u hu
  obtain ⟨t, ht, rfl⟩ := List.mem_map.mp hu
  obtain ⟨producer, consumers⟩ := hm t (List.mem_of_mem_take ht)
  simp only [Tensor.LinkedBelow, Tensor.keepStages, Model.rollback, List.length_take,
    Option.filter_eq_some_iff, List.mem_filter, decide_eq_true_eq, Nat.lt_min]
  exact ⟨fun s hs => ⟨hs.2, producer s hs.1⟩, fun s hs => ⟨hs.2, consumers s hs.1⟩⟩

/-! ### Runs of changes -/

namespace Grows

lemma refl (m : Model) : Grows direct m m := Relation.ReflTransGen.refl

lemma single (h : Change direct m n) : Grows direct m n := Relation.ReflTransGen.single h

lemma trans (h : Grows direct l m) (g : Grows direct m n) : Grows direct l n :=
  Relation.ReflTransGen.trans h g

/-- What every change keeps holds after any number of changes. -/
lemma invariant {P : Model → Prop} (step : ∀ {a b}, Change direct a b → P a → P b)
    (h : Grows direct m n) (hm : P m) : P n := by
  induction h with
  | refl => exact hm
  | tail _ hab ih => exact step hab ih

lemma mono (h : Grows false m n) : Grows direct m n := by
  refine h.invariant (P := Grows direct m) (fun {a b} hab hm => hm.trans (single ?_)) (refl m)
  cases hab with
  | add name h => exact .add name h
  | lower h => exact .lower h
  | link hd _ => cases hd

lemma linked (h : Grows direct m n) (hm : m.Linked) : n.Linked :=
  h.invariant Change.linked hm

end Grows

lemma Grows.extends (h : Grows direct m n) : m.Extends n :=
  h.invariant (P := m.Extends) (fun hab hm => hm.trans hab.extends) (.refl m)

/-! ### Operations are runs of changes -/

lemma grows_add (name : String) {role : Role} (layout : Layout) (h : role ≠ .const) :
    Grows direct m (m.add name role layout none).2 :=
  .single (.add name ⟨by simpa using h, by simp⟩)

lemma grows_addConst (m : Model) (name : String) (layout : Layout) (content : Content) :
    Grows direct m (m.addConst name layout content).model := by
  unfold addConst
  split
  · exact .refl m
  · split
    · exact .refl m
    · next type size =>
      refine .single (.add name ⟨by simp, fun c hc => ?_⟩)
      cases hc
      exact ⟨not_not.mp type, not_not.mp size⟩

lemma grows_addStage (m : Model) (s : Stage) : Grows true m (m.addStage s).model := by
  unfold addStage
  split
  · exact .refl m
  · next accepted => exact .single (.link rfl (stageFault?_eq_none_iff.mp accepted))

lemma grows_lowerLayer (hm : m.Linked) (config : Config) (l : Layer) :
    Grows direct m (m.lowerLayer config l).model := by
  rw [lowerLayer_eq hm]
  cases h : l.plan m with
  | error reason => exact .refl m
  | ok p => exact .single (.lower h)

lemma grows_lowerEach (hm : m.Linked) (config : Config) (ls : List Layer) :
    Grows direct m (m.lowerEach config ls).model := by
  induction ls generalizing m with
  | nil => exact .refl m
  | cons l rest ih =>
    have one : Grows direct m (m.lowerLayer config l).model := grows_lowerLayer hm config l
    have all := one.trans (ih (one.linked hm))
    unfold lowerEach
    dsimp only
    split
    · exact all
    · exact one
    · exact all

@[simp] lemma model_lowerLayers (m : Model) (config : Config) (ls : List Layer) :
    (m.lowerLayers config ls).model = (m.lowerEach config ls).model := by
  unfold lowerLayers
  dsimp only
  split <;> rfl

@[simp] lemma model_compile (m : Model) (config : Config) (ls : List Layer) :
    (m.compile config ls).model = (m.lowerEach config ls).model := by
  rw [← model_lowerLayers]
  unfold compile
  dsimp only
  split <;> rfl

end Model

/-- An operation is a run of changes, whether it succeeds or fails. -/
theorem Operation.grows {m : Model} (hm : m.Linked) (op : Operation) :
    Model.Grows op.addsStage m (op.apply m) := by
  cases op with
  | addInput name layout => exact Model.grows_add name layout (by simp)
  | addOutput name layout => exact Model.grows_add name layout (by simp)
  | addIntermediate name layout => exact Model.grows_add name layout (by simp)
  | addConst name layout content => exact Model.grows_addConst m name layout content
  | addPlaceholder => exact Model.grows_add _ _ (by simp)
  | addStage s => exact Model.grows_addStage m s
  | supply o =>
    simp only [apply, Slice.Operands.supply]
    split
    · exact .refl m
    · exact Model.grows_add _ _ (by simp)
  | lowerLayer config l => exact Model.grows_lowerLayer hm config l
  | lowerLayers config ls =>
    simp only [apply, Model.model_lowerLayers]
    exact Model.grows_lowerEach hm config ls
  | compile config ls =>
    simp only [apply, Model.model_compile]
    exact Model.grows_lowerEach hm config ls

/-- An operation that adds no stage but by lowering is a run of such changes, and any operation is
a run of changes of all kinds. -/
lemma Operation.grows_of {direct : Bool} {m : Model} (hm : m.Linked) (op : Operation)
    (h : op.addsStage = true → direct = true) : Model.Grows direct m (op.apply m) := by
  have grown := op.grows hm
  cases hs : op.addsStage with
  | false =>
    rw [hs] at grown
    exact grown.mono
  | true =>
    rw [hs, ← h hs] at grown
    exact grown

end SliceCompiler
