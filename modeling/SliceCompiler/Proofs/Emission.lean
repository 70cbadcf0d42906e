import Mathlib.Data.List.Forall2
import SliceCompiler.Blob

/-!
What emission writes. A step of it adds the same words to every buffer, or stops with the same
fault on every buffer, so a blob can be told in advance: it consists of the sections of the
stages, and the first number that no word can hold stops it.
-/

namespace SliceCompiler

/-- The fault of a number that no word can hold. -/
def Word.fault? (n : Nat) : Option BlobFault :=
  if n < UInt32.size then none else some (.tooLarge n)

lemma Word.fault?_eq_none_iff {n : Nat} : Word.fault? n = none ↔ n < UInt32.size := by
  simp [fault?]

lemma Word.ofNat_of_fault? {n : Nat} :
    (Word.fault? n = none → Word.ofNat n = .ok n.toUInt32) ∧
    ∀ f, Word.fault? n = some f → Word.ofNat n = .error f := by
  unfold fault? Word.ofNat
  split <;> simp

lemma findSome?_cons_or {α β : Type} (f : α → Option β) (a : α) (xs : List α) :
    (a :: xs).findSome? f = (f a).or (xs.findSome? f) := by
  rw [List.findSome?_cons]
  cases f a <;> rfl

/-- A word in the midst of a buffer is patched without harm to the others. -/
lemma Buffer.patch?_append (xs ys : List UInt8) (v w : UInt32) :
    (⟨xs ++ Word.bytes v ++ ys⟩ : Buffer).patch? xs.length w =
      some ⟨xs ++ Word.bytes w ++ ys⟩ := by
  have fits : xs.length + Word.size ≤ (⟨xs ++ Word.bytes v ++ ys⟩ : Buffer).size := by
    simp only [size, List.length_append, Word.length_bytes]
    omega
  have before : (xs ++ Word.bytes v ++ ys).take xs.length = xs := by
    rw [List.append_assoc, List.take_left]
  have behind : (xs ++ Word.bytes v ++ ys).drop (xs.length + Word.size) = ys :=
    List.drop_left' (by simp)
  rw [patch?, if_pos fits, before, behind]

namespace Emit

/-- A step that stops on every buffer with the fault, if there is one, and that otherwise adds
these words and answers `a`. -/
structure Yields {α : Type} (e : Emit α) (fault? : Option BlobFault) (ws : List UInt32) (a : α) :
    Prop where
  writes : fault? = none → ∀ b, e.run b = .ok a ⟨b.bytes ++ Word.encode ws⟩
  stops : ∀ f, fault? = some f → ∀ b, ∃ c, e.run b = .error f c

section

variable {α β : Type} {e : Emit α} {k : α → Emit β} {f g : Option BlobFault}
  {us vs : List UInt32} {a : α} {c : β}

lemma yields_pure (a : α) : Yields (pure a : Emit α) none [] a :=
  ⟨fun _ b => by simp, by simp⟩

lemma yields_throw (f : BlobFault) (ws : List UInt32) (a : α) :
    Yields (throw f : Emit α) (some f) ws a :=
  ⟨by simp, fun _ h b => ⟨b, by rw [← Option.some.inj h]; rfl⟩⟩

/-- A step that has not stopped has added its words. -/
lemma Yields.eq_of_ok {b d : Buffer} {x : α} (h : Yields e f us a) (run : e.run b = .ok x d) :
    d = ⟨b.bytes ++ Word.encode us⟩ := by
  cases f with
  | none =>
    rw [h.writes rfl b] at run
    cases run
    rfl
  | some fault =>
    obtain ⟨c, stopped⟩ := h.stops fault rfl b
    rw [stopped] at run
    cases run

/-- The first of two steps that has a fault stops both. -/
lemma Yields.bind (he : Yields e f us a) (hk : Yields (k a) g vs c) :
    Yields (e >>= k) (f.or g) (us ++ vs) c := by
  refine ⟨fun h b => ?_, fun x h b => ?_⟩
  · obtain ⟨hf, hg⟩ := Option.or_eq_none_iff.mp h
    rw [EStateM.run_bind, he.writes hf b]
    simp only [hk.writes hg, Word.encode_append, List.append_assoc]
  · rw [EStateM.run_bind]
    rcases Option.or_eq_some_iff.mp h with hf | ⟨hf, hg⟩
    · obtain ⟨d, hd⟩ := he.stops x hf b
      exact ⟨d, by rw [hd]⟩
    · rw [he.writes hf b]
      exact hk.stops x hg _

end

lemma yields_word (w : UInt32) : Yields (word w) none [w] () :=
  ⟨fun _ b => by simp [word, Buffer.push], by simp⟩

lemma yields_nat (n : Nat) : Yields (nat n) (Word.fault? n) [n.toUInt32] () := by
  refine ⟨fun h b => ?_, fun f h b => ⟨b, ?_⟩⟩
  · simp [nat, Buffer.pushNat, Word.ofNat_of_fault?.1 h, Except.map, Buffer.push]
  · simp [nat, Buffer.pushNat, Word.ofNat_of_fault?.2 f h, Except.map]

lemma yields_nats (ns : List Nat) :
    Yields (nats ns) (ns.findSome? Word.fault?) (ns.map Nat.toUInt32) () := by
  induction ns with
  | nil => exact yields_pure ()
  | cons n ns ih =>
    rw [findSome?_cons_or]
    exact .bind (yields_nat n) ih

lemma yields_words (ws : List UInt32) : Yields (words ws) none ws () := by
  induction ws with
  | nil => exact yields_pure ()
  | cons w ws ih => exact .bind (yields_word w) ih

/-- A word is written as its number is. -/
lemma nat_toNat (w : UInt32) : nat w.toNat = word w := by
  have same : Word.ofNat w.toNat = .ok w := by simp [Word.ofNat, w.toNat_lt]
  funext b
  simp only [nat, Buffer.pushNat, same]
  rfl

lemma nats_append (ms ns : List Nat) :
    nats (ms ++ ns) = (do nats ms; nats ns : Emit Unit) := by
  induction ms with
  | nil => rfl
  | cons m ms ih => simp only [List.cons_append, nats, ih, bind_assoc]

lemma run_patch {pos n : Nat} {b c : Buffer} (hn : Word.fault? n = none)
    (hc : b.patch? pos n.toUInt32 = some c) : (patch pos n).run b = .ok () c := by
  simp only [patch, Word.ofNat_of_fault?.1 hn, EStateM.run_bind, EStateM.run_get, hc]
  rfl

lemma run_patch_of_fault {pos n : Nat} {f : BlobFault} (h : Word.fault? n = some f)
    (b : Buffer) : (patch pos n).run b = .error f b := by
  simp only [patch, Word.ofNat_of_fault?.2 f h]
  rfl

end Emit

/-! ### Sections told in advance -/

/-- The numbers that tell where and what a tensor is. -/
def Tensor.reference (t : Tensor) : List Nat :=
  [t.region.code.toNat, t.offset, t.element.code.toNat, t.layout.rank] ++
    t.layout.dims ++ t.layout.strides

/-- A tensor is written number by number. -/
lemma Tensor.emit_eq (t : Tensor) : t.emit = Emit.nats t.reference := by
  simp only [emit, reference, List.cons_append, List.nil_append, Emit.nats, Emit.nats_append,
    Emit.nat_toNat]

namespace Stage

/-- The tensors in the slots of a stage, inputs first. -/
def tensors (s : Stage) (m : Model) : List Tensor := (s.inputs ++ s.outputs).filterMap m.tensor?

/-- The words behind the size of a section. -/
def payload (s : Stage) (m : Model) : List UInt32 :=
  s.operator.paramWords ++ ((s.tensors m).flatMap Tensor.reference).map Nat.toUInt32

/-- The size that a section states. -/
def payloadSize (s : Stage) (m : Model) : Nat := Word.size * (s.payload m).length

def sectionWords (s : Stage) (m : Model) : List UInt32 :=
  [s.opcode.code, (s.payloadSize m).toUInt32] ++ s.payload m

def tensorFault? (s : Stage) (m : Model) (id : TensorId) : Option BlobFault :=
  match m.tensor? id with
  | none => some (.unknownTensor s.label.name id)
  | some t => t.reference.findSome? Word.fault?

def dataFault? (s : Stage) (m : Model) : Option BlobFault :=
  if s.inputs.length = 4 ∧ s.outputs.length = 1 then
    (s.inputs ++ s.outputs).findSome? (s.tensorFault? m)
  else some (.arity s.label.name s.inputs.length s.outputs.length)

/-- What stops the section of a stage: its size is known last. -/
def sectionFault? (s : Stage) (m : Model) : Option BlobFault :=
  (s.dataFault? m).or (Word.fault? (s.payloadSize m))

lemma yields_emitTensors (s : Stage) (m : Model) (ids : List TensorId) :
    (s.emitTensors m ids).Yields (ids.findSome? (s.tensorFault? m))
      (((ids.filterMap m.tensor?).flatMap Tensor.reference).map Nat.toUInt32) () := by
  induction ids with
  | nil => exact Emit.yields_pure ()
  | cons id ids ih =>
    rw [findSome?_cons_or, emitTensors, tensorFault?, List.filterMap_cons]
    cases ht : m.tensor? id with
    | none => exact Emit.yields_throw _ _ _
    | some t =>
      simp only [List.flatMap_cons, List.map_append]
      rw [t.emit_eq]
      exact .bind (Emit.yields_nats t.reference) ih

lemma yields_emitData (s : Stage) (m : Model) :
    (s.emitData m).Yields (s.dataFault? m)
      (((s.tensors m).flatMap Tensor.reference).map Nat.toUInt32) () := by
  unfold emitData dataFault?
  split
  · exact s.yields_emitTensors m _
  · exact Emit.yields_throw _ _ _

/-- A stage whose data has no fault has the slots of a slice, each with a tensor of the model. -/
lemma known_of_dataFault? {s : Stage} {m : Model} (h : s.dataFault? m = none) :
    (s.inputs.length = 4 ∧ s.outputs.length = 1) ∧
    ∀ id ∈ s.inputs ++ s.outputs, ∃ t, m.tensor? id = some t := by
  unfold dataFault? at h
  split at h
  · next arity =>
    refine ⟨arity, fun id hid => ?_⟩
    have := List.findSome?_eq_none_iff.mp h id hid
    unfold tensorFault? at this
    cases ht : m.tensor? id with
    | none => simp [ht] at this
    | some t => exact ⟨t, rfl⟩
  · cases h

/-- If all tensors are known, the first number that no word can hold stops them. -/
lemma dataFault?_of_known {s : Stage} {m : Model}
    (arity : s.inputs.length = 4 ∧ s.outputs.length = 1)
    (known : ∀ id ∈ s.inputs ++ s.outputs, ∃ t, m.tensor? id = some t) :
    s.dataFault? m = (s.tensors m).findSome? (·.reference.findSome? Word.fault?) := by
  rw [dataFault?, if_pos arity, tensors]
  generalize s.inputs ++ s.outputs = ids at known
  induction ids with
  | nil => rfl
  | cons id ids ih =>
    obtain ⟨t, ht⟩ := known id List.mem_cons_self
    rw [findSome?_cons_or, tensorFault?, ht, List.filterMap_cons_some ht, findSome?_cons_or,
      ih fun i hi => known i (List.mem_cons_of_mem _ hi)]

/-- The tensors of a stage are those of its slots, one by one. -/
lemma forall₂_tensors {s : Stage} {m : Model}
    (known : ∀ id ∈ s.inputs ++ s.outputs, ∃ t, m.tensor? id = some t) :
    List.Forall₂ (fun t id => m.tensor? id = some t) (s.tensors m) (s.inputs ++ s.outputs) := by
  unfold tensors
  generalize s.inputs ++ s.outputs = ids at known
  induction ids with
  | nil => exact .nil
  | cons id ids ih =>
    obtain ⟨t, ht⟩ := known id List.mem_cons_self
    rw [List.filterMap_cons_some ht]
    exact .cons ht (ih fun i hi => known i (List.mem_cons_of_mem _ hi))

end Stage

namespace Blob

/-- The section behind `b`, up to its patch: the reserved word stands between its code and its
payload. -/
lemma run_emitSection (m : Model) (s : Stage) (b : Buffer) :
    (s.dataFault? m = none → (emitSection m s).run b =
      (do Emit.patch (b.push s.opcode.code).size (s.payloadSize m)
          return s.payloadSize m : Emit Nat).run
        ⟨(b.push s.opcode.code).bytes ++ Word.bytes 0 ++ Word.encode (s.payload m)⟩) ∧
    ∀ f, s.dataFault? m = some f → ∃ c, (emitSection m s).run b = .error f c := by
  have params := (Emit.yields_words s.operator.paramWords).writes rfl
  have data := s.yields_emitData m
  simp only [emitSection, Emit.word, Emit.reserve, Emit.size, Buffer.reserve, Stage.emitParams,
    EStateM.run_bind, EStateM.run_modify, EStateM.run_modifyGet, EStateM.run_get,
    EStateM.run_pure, params]
  refine ⟨fun h => ?_, fun f h => ?_⟩
  · have written : ((b.push s.opcode.code).push 0).bytes ++ Word.encode s.operator.paramWords ++
          Word.encode (((s.tensors m).flatMap Tensor.reference).map Nat.toUInt32) =
        (b.push s.opcode.code).bytes ++ Word.bytes 0 ++ Word.encode (s.payload m) := by
      simp [Stage.payload]
    have size : (⟨(b.push s.opcode.code).bytes ++ Word.bytes 0 ++ Word.encode (s.payload m)⟩ :
          Buffer).size - ((b.push s.opcode.code).push 0).size = s.payloadSize m := by
      simp only [Buffer.size, Buffer.bytes_push, List.length_append, Word.length_bytes,
        Word.length_encode, Stage.payloadSize]
      omega
    simp only [data.writes h, written, size]
  · obtain ⟨c, hc⟩ := data.stops f h ⟨((b.push s.opcode.code).push 0).bytes ++
      Word.encode s.operator.paramWords⟩
    exact ⟨c, by rw [hc]⟩

lemma yields_emitSection (m : Model) (s : Stage) :
    (emitSection m s).Yields (s.sectionFault? m) (s.sectionWords m) (s.payloadSize m) := by
  refine ⟨fun h b => ?_, fun f h b => ?_⟩
  · obtain ⟨hd, hs⟩ := Option.or_eq_none_iff.mp h
    rw [(run_emitSection m s b).1 hd, EStateM.run_bind, Buffer.size,
      Emit.run_patch hs (Buffer.patch?_append _ _ _ _)]
    simp [Stage.sectionWords]
  · rcases Option.or_eq_some_iff.mp h with hd | ⟨hd, hs⟩
    · exact (run_emitSection m s b).2 f hd
    · rw [(run_emitSection m s b).1 hd, EStateM.run_bind, Emit.run_patch_of_fault hs]
      exact ⟨_, rfl⟩

/-- What the sections of these stages add to a buffer, or the first fault. -/
lemma writeSections_eq (m : Model) (ss : List Stage) (b : Buffer) :
    (writeSections m ss b).1 =
      match ss.findSome? (·.sectionFault? m) with
      | none => .ok ⟨b.bytes ++ Word.encode (ss.flatMap (·.sectionWords m))⟩
      | some f => .error f := by
  induction ss generalizing b with
  | nil => simp [writeSections]
  | cons s ss ih =>
    rw [findSome?_cons_or, writeSections]
    cases hs : s.sectionFault? m with
    | some f =>
      obtain ⟨c, hc⟩ := (yields_emitSection m s).stops f hs b
      rw [hc]
      rfl
    | none =>
      rw [(yields_emitSection m s).writes hs b]
      simp only [ih, Option.none_or, List.flatMap_cons, Word.encode_append, List.append_assoc]

/-- The words of a blob, with nothing cut as long as there is no fault. -/
def words (m : Model) : List UInt32 :=
  [magic, version, m.stages.length.toUInt32] ++ m.stages.flatMap (·.sectionWords m)

def fault? (m : Model) : Option BlobFault :=
  (Word.fault? m.stages.length).or (m.stages.findSome? (·.sectionFault? m))

lemma yields_emitHeader (m : Model) :
    (emitHeader m).Yields (Word.fault? m.stages.length)
      [magic, version, m.stages.length.toUInt32] () :=
  .bind (Emit.yields_word magic) (.bind (Emit.yields_word version) (Emit.yields_nat _))

/-- **Writing in one stroke**: a blob consists of the words told in advance, unless a fault told in
advance stops it. -/
theorem write_eq (m : Model) :
    (write m).1 = match fault? m with
      | none => .ok (Word.encode (words m))
      | some f => .error f := by
  unfold write fault?
  cases hc : Word.fault? m.stages.length with
  | some f =>
    obtain ⟨c, hc⟩ := (yields_emitHeader m).stops f hc {}
    rw [hc]
    rfl
  | none =>
    rw [(yields_emitHeader m).writes hc]
    have sections := writeSections_eq m m.stages
      ⟨[] ++ Word.encode [magic, version, m.stages.length.toUInt32]⟩
    rw [Option.none_or]
    dsimp only
    generalize writeSections m m.stages _ = written at sections ⊢
    obtain ⟨result, log⟩ := written
    dsimp only at sections ⊢
    subst sections
    cases m.stages.findSome? (·.sectionFault? m) with
    | none => simp [words]
    | some f => rfl

end Blob

end SliceCompiler
