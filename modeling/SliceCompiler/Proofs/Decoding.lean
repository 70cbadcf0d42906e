import SliceCompiler.Blob.Reader
import SliceCompiler.History
import SliceCompiler.Proofs.Emission

/-!
Reading what was written. A loader that knows nothing but the layout of blobs finds in one every
stage with its masks and tensors, no number cut, and the sizes alone lead it from section to
section.
-/

namespace SliceCompiler

lemma Word.toNat_toUInt32 {ns : List Nat} (h : ∀ n ∈ ns, n < UInt32.size) :
    (ns.map Nat.toUInt32).map UInt32.toNat = ns := by
  rw [List.map_map]
  exact (List.map_congr_left fun n hn => UInt32.toNat_ofNat_of_lt' (h n hn)).trans ns.map_id

namespace Blob

lemma take?_append {xs : List UInt32} {n : Nat} (h : n = xs.length) (rest : List UInt32) :
    take? n (xs ++ rest) = some (xs, rest) := by
  subst h
  simp [take?]

/-- If each item is read back with whatever follows, so are several in a row. -/
lemma readMany_flatMap {α β : Type} {read : List UInt32 → Option (β × List UInt32)}
    (write : α → List UInt32) {found : α → β} {xs : List α}
    (h : ∀ x ∈ xs, ∀ rest, read (write x ++ rest) = some (found x, rest)) (rest : List UInt32) :
    readMany read xs.length (xs.flatMap write ++ rest) = some (xs.map found, rest) := by
  induction xs with
  | nil => rfl
  | cons x xs ih =>
    rw [List.flatMap_cons, List.append_assoc, List.length_cons, readMany,
      h x List.mem_cons_self]
    simp [ih fun y hy => h y (List.mem_cons_of_mem _ hy)]

/-- What a loader finds in place of a tensor. -/
def Reference.of (t : Tensor) : Reference :=
  ⟨t.region.code, t.offset.toUInt32, t.element.code, t.layout.dims.map Nat.toUInt32,
    t.layout.strides.map Nat.toUInt32⟩

/-- What a loader finds in place of a stage. -/
def Entry.of (m : Model) (s : Stage) : Entry :=
  match s.operator with
  | .stridedSlice masks =>
    ⟨s.opcode.code, (s.payloadSize m).toUInt32, masks.beginMask, masks.endMask,
      (s.tensors m).map Reference.of⟩

lemma readReference_append {t : Tensor} (h : ∀ n ∈ t.reference, n < UInt32.size)
    (rest : List UInt32) :
    readReference (t.reference.map Nat.toUInt32 ++ rest) = some (.of t, rest) := by
  have rank : t.layout.rank.toUInt32.toNat = t.layout.rank :=
    UInt32.toNat_ofNat_of_lt' (h _ (by simp [Tensor.reference]))
  have words : t.reference.map Nat.toUInt32 ++ rest =
      t.region.code :: t.offset.toUInt32 :: t.element.code :: t.layout.rank.toUInt32 ::
        (t.layout.dims.map Nat.toUInt32 ++ (t.layout.strides.map Nat.toUInt32 ++ rest)) := by
    simp [Tensor.reference]
  rw [words, readReference, rank, take?_append (by simp [Layout.rank])]
  simp only [bind, Option.bind_some, take?_append (by simp : t.layout.rank =
    (t.layout.strides.map Nat.toUInt32).length)]
  rfl

/-- A section without faults has the tensors of five slots, all of whose numbers fit. -/
lemma fits_of_sectionFault? {m : Model} {s : Stage} (h : s.sectionFault? m = none) :
    (s.tensors m).length = 5 ∧ (∀ t ∈ s.tensors m, ∀ n ∈ t.reference, n < UInt32.size) ∧
      s.payloadSize m < UInt32.size := by
  obtain ⟨hd, hs⟩ := Option.or_eq_none_iff.mp h
  obtain ⟨arity, known⟩ := Stage.known_of_dataFault? hd
  refine ⟨?_, fun t ht n hn => ?_, Word.fault?_eq_none_iff.mp hs⟩
  · rw [(Stage.forall₂_tensors known).length_eq, List.length_append, arity.1, arity.2]
  · rw [Stage.dataFault?_of_known arity known, List.findSome?_eq_none_iff] at hd
    exact Word.fault?_eq_none_iff.mp (List.findSome?_eq_none_iff.mp (hd t ht) n hn)

lemma readEntry_append {m : Model} {s : Stage} (h : s.sectionFault? m = none)
    (rest : List UInt32) :
    readEntry (s.sectionWords m ++ rest) = some (.of m s, rest) := by
  obtain ⟨five, fits, -⟩ := fits_of_sectionFault? h
  obtain ⟨masks, hm⟩ : ∃ masks, s.operator = .stridedSlice masks := ⟨_, rfl⟩
  have tensors := readMany_flatMap (fun t : Tensor => t.reference.map Nat.toUInt32)
    (fun t ht => readReference_append (fits t ht)) rest
  rw [five] at tensors
  have words : s.sectionWords m ++ rest =
      s.opcode.code :: (s.payloadSize m).toUInt32 :: masks.beginMask :: masks.endMask ::
        ((s.tensors m).flatMap (fun t => t.reference.map Nat.toUInt32) ++ rest) := by
    simp [Stage.sectionWords, Stage.payload, hm, Operator.paramWords, List.map_flatMap]
  rw [words, readEntry, tensors, Entry.of, hm]
  rfl

/-- The words of a blob without faults are read back. -/
lemma read?_words {m : Model} (h : fault? m = none) :
    read? (Word.encode (words m)) = some ⟨magic, version, m.stages.map (Entry.of m)⟩ := by
  obtain ⟨hc, hs⟩ := Option.or_eq_none_iff.mp h
  have count : m.stages.length.toUInt32.toNat = m.stages.length :=
    UInt32.toNat_ofNat_of_lt' (Word.fault?_eq_none_iff.mp hc)
  have entries := readMany_flatMap (fun s : Stage => s.sectionWords m)
    (fun s hs' => readEntry_append (List.findSome?_eq_none_iff.mp hs s hs')) []
  rw [read?, if_pos (by simp), Word.decode_encode]
  simp only [words, List.cons_append, List.nil_append, count]
  rw [List.append_nil] at entries
  rw [entries]

/-- The size of a section leads to the next one. -/
lemma payloads?_succ {size : UInt32} {payload : List UInt8} (h : size.toNat = payload.length)
    (count : Nat) (code : UInt32) (rest : List UInt8) :
    payloads? (count + 1) (Word.bytes code ++ Word.bytes size ++ payload ++ rest) =
      (payloads? count rest).map (payload :: ·) := by
  simp only [Word.bytes, List.cons_append, List.nil_append, payloads?, Word.ofBytes_bytes, h]
  rw [if_pos (by simp), List.take_left, List.drop_left]

lemma payloads?_encode {m : Model} {ss : List Stage}
    (h : ∀ s ∈ ss, s.payloadSize m < UInt32.size) :
    payloads? ss.length (Word.encode (ss.flatMap (·.sectionWords m))) =
      some (ss.map fun s => Word.encode (s.payload m)) := by
  induction ss with
  | nil => rfl
  | cons s ss ih =>
    have size : (s.payloadSize m).toUInt32.toNat = (Word.encode (s.payload m)).length := by
      rw [UInt32.toNat_ofNat_of_lt' (h s List.mem_cons_self), Word.length_encode]
      rfl
    have section_ : Word.encode (s.sectionWords m) = Word.bytes s.opcode.code ++
        Word.bytes (s.payloadSize m).toUInt32 ++ Word.encode (s.payload m) := by
      simp [Stage.sectionWords]
    rw [List.flatMap_cons, Word.encode_append, section_, List.length_cons, payloads?_succ size,
      ih fun r hr => h r (List.mem_cons_of_mem _ hr)]
    rfl

/-! ### Blobs tell models apart -/

/-- The reference tells where and what the tensor is, no number cut. -/
structure Reference.Tells (r : Reference) (t : Tensor) : Prop where
  region : r.region = t.region.code
  offset : r.offset.toNat = t.offset
  element : r.element = t.element.code
  dims : r.dims.map UInt32.toNat = t.layout.dims
  strides : r.strides.map UInt32.toNat = t.layout.strides

/-- The entry tells the kind and the masks of a stage of `m`, and its five tensors. -/
structure Entry.Tells (m : Model) (e : Entry) (s : Stage) : Prop where
  code : e.code = s.opcode.code
  operator : s.operator = .stridedSlice ⟨e.beginMask, e.endMask⟩
  inputs : s.inputs.length = 4
  outputs : s.outputs.length = 1
  tensors : List.Forall₂ (fun r id => ∃ t, m.tensor? id = some t ∧ r.Tells t) e.tensors
    (s.inputs ++ s.outputs)

/-- The payload is of whole words, has the size that the entry states, and the entry is read from
it to its end. -/
structure Entry.Spans (e : Entry) (payload : List UInt8) : Prop where
  size : e.size.toNat = payload.length
  whole : payload.length % Word.size = 0
  read : readEntry (Word.decode (Word.bytes e.code ++ Word.bytes e.size ++ payload)) =
    some (e, [])

lemma Reference.tells {t : Tensor} (h : ∀ n ∈ t.reference, n < UInt32.size) :
    (Reference.of t).Tells t where
  region := rfl
  offset := UInt32.toNat_ofNat_of_lt' (h _ (by simp [Tensor.reference]))
  element := rfl
  dims := Word.toNat_toUInt32 fun n hn => h n (by simp [Tensor.reference, hn])
  strides := Word.toNat_toUInt32 fun n hn => h n (by simp [Tensor.reference, hn])

lemma Entry.tells {m : Model} {s : Stage} (h : s.sectionFault? m = none) :
    (Entry.of m s).Tells m s := by
  obtain ⟨⟨inputs, outputs⟩, known⟩ :=
    Stage.known_of_dataFault? (Option.or_eq_none_iff.mp h).1
  refine ⟨rfl, rfl, inputs, outputs, ?_⟩
  have tells : ∀ t ∈ s.tensors m, (Reference.of t).Tells t := fun t ht =>
    Reference.tells ((fits_of_sectionFault? h).2.1 t ht)
  refine List.forall₂_map_left_iff.mpr ?_
  refine ((List.forall₂_and_left _ _).mpr ⟨tells, Stage.forall₂_tensors known⟩).imp ?_
  exact fun t id ht => ⟨t, ht.2, ht.1⟩

lemma Entry.spans {m : Model} {s : Stage} (h : s.sectionFault? m = none) :
    (Entry.of m s).Spans (Word.encode (s.payload m)) := by
  refine ⟨?_, by simp, ?_⟩
  · rw [Word.length_encode]
    exact UInt32.toNat_ofNat_of_lt' (fits_of_sectionFault? h).2.2
  · have words : Word.bytes (Entry.of m s).code ++ Word.bytes (Entry.of m s).size ++
        Word.encode (s.payload m) = Word.encode (s.sectionWords m ++ []) := by
      simp [Stage.sectionWords, Entry.of]
    rw [words, Word.decode_encode, readEntry_append h]

end Blob

/-! ### Blobs tell models apart -/

/-- What a blob tells of a tensor; its strides follow from its layout. -/
def Tensor.place (t : Tensor) : Region × Nat × Layout := (t.region, t.offset, t.layout)

/-- What a blob tells of a stage: its masks, and what is in its slots, inputs first. -/
def Stage.profile (m : Model) (s : Stage) : Operator × List (Option (Region × Nat × Layout)) :=
  (s.operator, (s.inputs ++ s.outputs).map fun id => (m.tensor? id).map Tensor.place)

lemma map_eq_of_forall₂ {α β γ δ : Type} {R : α → β → Prop} {S : α → γ → Prop} {f : β → δ}
    {g : γ → δ} (h : ∀ x a b, R x a → S x b → f a = g b) {xs : List α} {as : List β}
    {bs : List γ} (ha : List.Forall₂ R xs as) (hb : List.Forall₂ S xs bs) :
    as.map f = bs.map g := by
  induction ha generalizing bs with
  | nil =>
    cases hb
    rfl
  | cons hx _ ih =>
    cases hb with
    | cons hy hb => rw [List.map_cons, List.map_cons, h _ _ _ hx hy, ih hb]

namespace Blob

lemma Reference.Tells.place_eq {r : Reference} {t u : Tensor} (ht : r.Tells t) (hu : r.Tells u) :
    t.place = u.place := by
  have region : t.region = u.region := Region.code_inj.mp (ht.region.symm.trans hu.region)
  have layout : t.layout = u.layout :=
    Layout.ext (ElementType.code_inj.mp (ht.element.symm.trans hu.element))
      (ht.dims.symm.trans hu.dims)
  rw [Tensor.place, Tensor.place, region, ← ht.offset, hu.offset, layout]

lemma Entry.Tells.profile_eq {m n : Model} {e : Entry} {s r : Stage} (hs : e.Tells m s)
    (hr : e.Tells n r) : s.profile m = r.profile n := by
  refine Prod.ext (hs.operator.trans hr.operator.symm) ?_
  refine map_eq_of_forall₂ ?_ hs.tensors hr.tensors
  rintro x i j ⟨t, ht, rt⟩ ⟨u, hu, ru⟩
  rw [ht, hu, Option.map_some, Option.map_some, rt.place_eq ru]

/-- A blob that is written has no fault, and a loader reads all its entries. -/
lemma read?_of_write {m : Model} {bytes : List UInt8} (h : (write m).1 = .ok bytes) :
    (∀ s ∈ m.stages, s.sectionFault? m = none) ∧ bytes = Word.encode (words m) ∧
      read? bytes = some ⟨magic, version, m.stages.map (Entry.of m)⟩ := by
  rw [write_eq] at h
  cases hf : fault? m with
  | some f => simp [hf] at h
  | none =>
    obtain rfl : Word.encode (words m) = bytes := by simpa [hf] using h
    have sections := List.findSome?_eq_none_iff.mp (Option.or_eq_none_iff.mp hf).2
    exact ⟨sections, rfl, read?_words hf⟩

lemma forall₂_tells {m : Model} {ss : List Stage} (h : ∀ s ∈ ss, s.sectionFault? m = none) :
    List.Forall₂ (Entry.Tells m) (ss.map (Entry.of m)) ss :=
  List.forall₂_map_left_iff.mpr (List.forall₂_same.mpr fun s hs => Entry.tells (h s hs))

/-- **Blobs are decodable**: a loader reads a blob to its end and finds every stage in order, with
its masks and the tensors of its five slots, no number cut. The sizes alone lead from section to
section as well. So a blob tells models apart up to what it does not hold. -/
theorem read?_write {m : Model} {bytes : List UInt8} (h : (write m).1 = .ok bytes) :
    (∃ entries payloads, read? bytes = some ⟨magic, version, entries⟩ ∧
      List.Forall₂ (Entry.Tells m) entries m.stages ∧
      payloads? m.stages.length (bytes.drop (3 * Word.size)) = some payloads ∧
      List.Forall₂ Entry.Spans entries payloads) ∧
    ∀ n, (write n).1 = .ok bytes →
      m.stages.map (Stage.profile m) = n.stages.map (Stage.profile n) := by
  obtain ⟨sections, hb, hr⟩ := read?_of_write h
  refine ⟨⟨m.stages.map (Entry.of m), m.stages.map fun s => Word.encode (s.payload m), hr,
    forall₂_tells sections, ?_, ?_⟩, fun n hn => ?_⟩
  · have header : bytes.drop (3 * Word.size) =
        Word.encode (m.stages.flatMap (·.sectionWords m)) := by
      rw [hb, words, Word.encode_append]
      exact List.drop_left' rfl
    rw [header]
    exact payloads?_encode fun s hs => (fits_of_sectionFault? (sections s hs)).2.2
  · rw [List.forall₂_map_left_iff, List.forall₂_map_right_iff, List.forall₂_same]
    exact fun s hs => Entry.spans (sections s hs)
  · obtain ⟨sections', -, hr'⟩ := read?_of_write hn
    have entries : m.stages.map (Entry.of m) = n.stages.map (Entry.of n) := by
      simpa using hr.symm.trans hr'
    have told : List.Forall₂ (Entry.Tells n) (m.stages.map (Entry.of m)) n.stages := by
      rw [entries]
      exact forall₂_tells sections'
    exact map_eq_of_forall₂ (fun _ _ _ hs hr => hs.profile_eq hr) (forall₂_tells sections) told

/-- A stage that was added as it is, and one lowered from a layer in a model of other names and
places: one blob for both. -/
theorem read?_write_twins :
    let m := Operation.applyAll (.empty "m")
      [.addInput "x" ⟨.fp16, [4]⟩, .addInput "begin" ⟨.s32, [1]⟩, .addPlaceholder,
        .addOutput "y" ⟨.fp16, [2]⟩,
        .addStage ⟨⟨"s", "StridedSlice"⟩, .stridedSlice ⟨1, 0⟩, [0, 1, 1, 2], [3]⟩]
    let n := Operation.applyAll (.empty "n")
      [.addOutput "b" ⟨.fp16, [2]⟩, .addInput "a" ⟨.fp16, [4]⟩, .addInput "c" ⟨.s32, [1]⟩,
        .lowerLayer {} (.maskedSlice "t" [1, 2, 2] 0 "1" "")]
    ∃ bytes, (write m).1 = .ok bytes ∧ (write n).1 = .ok bytes ∧
      (∃ entries, read? bytes = some ⟨magic, version, entries⟩ ∧
        List.Forall₂ (Entry.Tells m) entries m.stages) ∧
      m.stages.map (Stage.profile m) = n.stages.map (Stage.profile n) := by
  intro m n
  have hm : (write m).1 = .ok (Word.encode [magic, version, 1, 133, 128, 1, 0,
      1, 0, 0, 1, 4, 2, 1, 8, 2, 1, 1, 4, 1, 8, 2, 1, 1, 4, 0, 0, 0, 1, 1, 2,
      2, 0, 0, 1, 2, 2]) := by
    decide +kernel
  have hn : (write n).1 = (write m).1 := by decide +kernel
  obtain ⟨⟨entries, -, hr, ht, -⟩, same⟩ := read?_write hm
  exact ⟨_, hm, hn.trans hm, ⟨entries, hr, ht⟩, same n (hn.trans hm)⟩

end Blob

end SliceCompiler
