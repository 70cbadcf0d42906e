import SliceCompiler.Proofs.Changes

/-!
Going back. Under the discipline of a stack the checkpoints of a session are those of models
each of which the later ones extend, so going back always gives one of them, exactly: the sizes
that a checkpoint keeps determine the model. Hence a history in which going back follows the
discipline leads nowhere that operations alone would not lead.
-/

namespace SliceCompiler

open Model

namespace Session

/-- The checkpoints of a session are those of the models `saved`, the latest first. Each of them
was left by changes of `base`, and everything later extends it. -/
structure Nested (direct : Bool) (base : Model) (s : Session) (saved : List Model) : Prop where
  marks : s.marks = saved.map checkpoint
  nested : (s.model :: saved).Pairwise fun later earlier => earlier.Extends later
  grown : ∀ m ∈ s.model :: saved, Grows direct base m

variable {direct : Bool} {base : Model} {s : Session} {saved : List Model}

/-- A model extends itself, so it may stand before itself. -/
lemma pairwise_again {m : Model} {older : List Model}
    (h : (m :: older).Pairwise fun later earlier => earlier.Extends later) :
    (m :: m :: older).Pairwise fun later earlier => earlier.Extends later := by
  refine List.pairwise_cons.mpr ⟨fun n hn => ?_, h⟩
  rcases List.mem_cons.mp hn with rfl | hn
  · exact .refl _
  · exact (List.pairwise_cons.mp h).1 n hn

lemma nested_start (direct : Bool) (m : Model) : (Session.mk m []).Nested direct m [] := by
  refine ⟨rfl, List.pairwise_singleton _ _, fun n hn => ?_⟩
  obtain rfl := List.mem_singleton.mp hn
  exact .refl _

lemma Nested.step_run (h : s.Nested direct base saved) (hb : base.Linked) (op : Operation)
    (hop : op.addsStage = true → direct = true) :
    (s.step .stack (.run op)).Nested direct base saved := by
  have grown := h.grown s.model (.head _)
  have change := op.grows (grown.linked hb)
  obtain ⟨below, among⟩ := List.pairwise_cons.mp h.nested
  refine ⟨h.marks, List.pairwise_cons.mpr ⟨fun m hm => ?_, among⟩, fun m hm => ?_⟩
  · exact (below m hm).trans change.extends
  · rcases List.mem_cons.mp hm with rfl | hm
    · exact grown.trans (op.grows_of (grown.linked hb) hop)
    · exact h.grown m (.tail _ hm)

lemma Nested.step_mark (h : s.Nested direct base saved) :
    (s.step .stack .mark).Nested direct base (s.model :: saved) := by
  refine ⟨by simp [step, h.marks], pairwise_again h.nested, ?_⟩
  simpa [step] using h.grown

/-- Going back gives the very model that the checkpoint was taken of. -/
lemma Nested.step_undo (h : s.Nested direct base saved) (hb : base.Linked) (age : ℕ) :
    ∃ kept, (s.step .stack (.undo age)).Nested direct base kept := by
  have drop : s.marks.drop age = (saved.drop age).map checkpoint := by
    rw [h.marks, List.map_drop]
  cases hd : saved.drop age with
  | nil => exact ⟨saved, by simpa [step, drop, hd] using h⟩
  | cons m older =>
    have mem : ∀ n ∈ m :: older, n ∈ saved := by
      intro n hn
      rw [← hd] at hn
      exact List.mem_of_mem_drop hn
    have hm := h.grown m (.tail _ (mem m (.head _)))
    obtain ⟨below, among⟩ := List.pairwise_cons.mp h.nested
    have back : s.model.rollback m.checkpoint = m :=
      (below m (mem m (.head _))).rollback (hm.linked hb)
    have inner : (m :: older).Pairwise fun later earlier => earlier.Extends later := by
      rw [← hd]
      exact among.sublist (List.drop_sublist age saved)
    refine ⟨m :: older, ?_, ?_, ?_⟩
    · simp [step, drop, hd]
    · simp only [step, drop, hd, List.map_cons, back]
      exact pairwise_again inner
    · simp only [step, drop, hd, List.map_cons, back]
      intro n hn
      rcases List.mem_cons.mp hn with rfl | hn
      · exact hm
      · exact h.grown n (.tail _ (mem n hn))

/-- A session under the discipline of a stack has only left models that changes lead to. -/
theorem Nested.grows_run (h : s.Nested direct base saved) (hb : base.Linked)
    (moves : List Move) (hm : ∀ v ∈ moves, v.lowersOnly = false → direct = true) :
    Grows direct base (s.run .stack moves).model := by
  induction moves generalizing s saved with
  | nil => exact h.grown s.model (.head _)
  | cons v moves ih =>
    rw [run_cons]
    have rest : ∀ w ∈ moves, w.lowersOnly = false → direct = true :=
      fun w hw => hm w (.tail _ hw)
    cases v with
    | run op =>
      refine ih (h.step_run hb op fun hop => hm _ (.head _) ?_) rest
      simp [Move.lowersOnly, hop]
    | mark => exact ih h.step_mark rest
    | undo age =>
      obtain ⟨kept, hk⟩ := h.step_undo hb age
      exact ih hk rest

/-- Links lead to stages of the model after any moves, whatever the discipline. -/
lemma linked_run (d : Discipline) (h : s.model.Linked) (moves : List Move) :
    (s.run d moves).model.Linked := by
  induction moves generalizing s with
  | nil => exact h
  | cons v moves ih =>
    rw [run_cons]
    refine ih ?_
    cases v with
    | run op => exact (op.grows h).linked h
    | mark => exact h
    | undo age =>
      simp only [step]
      split
      · exact h
      · exact h.rollback _

/-- What changes keep, and going back to any checkpoint, holds after any moves. -/
lemma invariant_run {P : Model → Prop} (change : ∀ {direct m n}, Change direct m n → P m → P n)
    (back : ∀ {m} (c : Checkpoint), P m → P (m.rollback c)) (d : Discipline)
    (linked : s.model.Linked) (h : P s.model) (moves : List Move) : P (s.run d moves).model := by
  induction moves generalizing s with
  | nil => exact h
  | cons v moves ih =>
    rw [run_cons]
    cases v with
    | run op =>
      have grown := op.grows linked
      exact ih (grown.linked linked) (grown.invariant change h)
    | mark => exact ih linked h
    | undo age =>
      simp only [step]
      split
      · exact ih linked h
      · exact ih (linked.rollback _) (back _ h)

end Session

namespace Model

variable {d : Discipline} {m : Model}

lemma linked_empty (name : String) : (empty name).Linked := by
  intro t ht
  cases ht

lemma Reachable.linked (h : m.Reachable d) : m.Linked := by
  obtain ⟨name, moves, rfl⟩ := h
  exact Session.linked_run d (linked_empty name) moves

/-- What changes keep, and going back to any checkpoint, holds in all reachable models. -/
lemma Reachable.invariant {P : Model → Prop} (h : m.Reachable d)
    (change : ∀ {direct m n}, Change direct m n → P m → P n)
    (back : ∀ {m} (c : Checkpoint), P m → P (m.rollback c)) (start : ∀ name, P (empty name)) :
    P m := by
  obtain ⟨name, moves, rfl⟩ := h
  exact Session.invariant_run change back d (linked_empty name) (start name) moves

/-- If going back follows the discipline, operations alone lead to the same model. -/
theorem Reachable.grows (h : m.Reachable .stack) : ∃ name, Grows true (empty name) m := by
  obtain ⟨name, moves, rfl⟩ := h
  exact ⟨name, (Session.nested_start true _).grows_run (linked_empty name) moves
    fun _ _ _ => rfl⟩

theorem Lowered.grows (h : m.Lowered) : ∃ name, Grows false (empty name) m := by
  obtain ⟨name, moves, hm, rfl⟩ := h
  refine ⟨name, (Session.nested_start false _).grows_run (linked_empty name) moves
    fun v hv hf => ?_⟩
  rw [List.all_eq_true.mp hm v hv] at hf
  cases hf

/-- **Going back is an exact undo.** Let a checkpoint be taken of any reachable model, and let
any moves follow that go back to it or to later checkpoints only. Going back to it then gives
the model again, and until then the checkpoint tells the model from all others. -/
theorem rollback_checkpoint_run (h : m.Reachable d) (moves : List Move) :
    let later := (Session.run .stack ⟨m, [m.checkpoint]⟩ moves).model
    later.rollback m.checkpoint = m ∧
      (later.rollback m.checkpoint).checkpoint = m.checkpoint ∧
      (later.checkpoint = m.checkpoint ↔ later = m) := by
  intro later
  have hm := h.linked
  have start : (Session.mk m [m.checkpoint]).Nested true m [m] :=
    (Session.nested_start true m).step_mark
  have grown : Grows true m later := start.grows_run hm moves fun _ _ _ => rfl
  have back : later.rollback m.checkpoint = m := grown.extends.rollback hm
  refine ⟨back, by rw [back], fun same => ?_, fun same => by rw [same]⟩
  -- a model is not changed by going back to where it is
  rw [← same, (Extends.refl later).rollback (grown.linked hm)] at back
  exact back

/-- Going back to a checkpoint that was ahead has left `m` with a stage whose second input is
gone; a checkpoint of `m` works all the same. -/
theorem rollback_checkpoint_run_stale :
    let slice (inputs outputs : List TensorId) : Operation :=
      .addStage ⟨⟨"s", "StridedSlice"⟩, .stridedSlice ⟨0, 0⟩, inputs, outputs⟩
    let m := (Session.run .free ⟨empty "m", []⟩
      [.mark, .run (.addInput "x" ⟨.s32, [1]⟩), .run (slice [0] []), .mark, .undo 1,
        .run (.addInput "x" ⟨.s32, [1]⟩), .run (.addInput "y" ⟨.s32, [1]⟩),
        .run (slice [0, 1] []), .undo 0]).model
    let later := (Session.run .stack ⟨m, [m.checkpoint]⟩
      [.run (.addOutput "z" ⟨.s32, [1]⟩), .mark, .run (slice [0, 0] [1]), .undo 0,
        .run (slice [1] [0])]).model
    m.Reachable .free ∧ later ≠ m ∧ later.rollback m.checkpoint = m := by
  intro slice m later
  have reached : m.Reachable .free := ⟨"m", _, rfl⟩
  exact ⟨reached, by decide, (rollback_checkpoint_run reached _).1⟩

end Model

end SliceCompiler
