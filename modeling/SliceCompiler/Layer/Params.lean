/-!
Parameters: texts by key. The entries are kept in strict order of their keys, so two
collections are equal as soon as every key has the same text in both.
-/

namespace SliceCompiler

namespace Params

/-- The text of a key in a list of entries. -/
def find? (key : String) : List (String × String) → Option String
  | [] => none
  | (k, v) :: rest => if key = k then some v else find? key rest

/-- Puts an entry at its place, over the one that has its key. -/
def put (key value : String) : List (String × String) → List (String × String)
  | [] => [(key, value)]
  | (k, v) :: rest =>
    if key < k then (key, value) :: (k, v) :: rest
    else if key = k then (key, value) :: rest
    else (k, v) :: put key value rest

/-- The keys stand in strict order. -/
def Sorted (entries : List (String × String)) : Prop :=
  entries.Pairwise fun e f => e.1 < f.1

theorem mem_put {key value : String} {entries : List (String × String)} {e : String × String}
    (h : e ∈ put key value entries) : e = (key, value) ∨ e ∈ entries := by
  induction entries with
  | nil => simpa [put] using h
  | cons f rest ih =>
    obtain ⟨k, v⟩ := f
    simp only [put] at h
    split at h
    · simpa using h
    · split at h <;> rcases List.mem_cons.1 h with h | h
      · exact .inl h
      · exact .inr (.tail _ h)
      · exact .inr (h ▸ .head _)
      · exact (ih h).imp_right (.tail _)

theorem sorted_put (key value : String) {entries : List (String × String)}
    (h : Sorted entries) : Sorted (put key value entries) := by
  induction entries with
  | nil => simp [put, Sorted]
  | cons f rest ih =>
    obtain ⟨k, v⟩ := f
    obtain ⟨below, sorted⟩ := List.pairwise_cons.1 h
    simp only [put]
    split
    · rename_i less
      refine List.pairwise_cons.2 ⟨fun e he => ?_, h⟩
      rcases List.mem_cons.1 he with rfl | he
      · exact less
      · exact String.lt_trans less (below e he)
    · split
      · rename_i same
        subst same
        exact List.pairwise_cons.2 ⟨below, sorted⟩
      · rename_i more other
        refine List.pairwise_cons.2 ⟨fun e he => ?_, ih sorted⟩
        rcases mem_put he with rfl | he
        · grind
        · exact below e he

theorem find?_put (key value q : String) (entries : List (String × String)) :
    find? q (put key value entries) = if q = key then some value else find? q entries := by
  induction entries with
  | nil => simp [put, find?]
  | cons e rest ih =>
    obtain ⟨k, v⟩ := e
    simp only [put]
    split
    · simp [find?]
    · split <;> simp only [find?, ih] <;> grind

theorem find?_eq_none_of_lt {q : String} {entries : List (String × String)}
    (h : ∀ e ∈ entries, q < e.1) : find? q entries = none := by
  induction entries with
  | nil => rfl
  | cons e rest ih =>
    have other : q ≠ e.1 := fun same => String.lt_irrefl q (same ▸ h e (.head _) : q < q)
    simp only [find?, other, if_false]
    exact ih fun f hf => h f (.tail _ hf)

/-- Sorted entries are determined by what can be found in them. -/
theorem eq_of_find? {es fs : List (String × String)} (hes : Sorted es) (hfs : Sorted fs)
    (h : ∀ q, find? q es = find? q fs) : es = fs := by
  induction es generalizing fs with
  | nil =>
    match fs with
    | [] => rfl
    | (k, v) :: _ => simpa [find?] using h k
  | cons e es ih =>
    obtain ⟨k, v⟩ := e
    match fs with
    | [] => simpa [find?] using h k
    | (l, w) :: fs =>
      obtain ⟨kbelow, sortedEs⟩ := List.pairwise_cons.1 hes
      obtain ⟨lbelow, sortedFs⟩ := List.pairwise_cons.1 hfs
      have same : k = l := by
        false_or_by_contra
        rename_i other
        by_cases less : k < l
        · have : find? k fs = none :=
            find?_eq_none_of_lt fun f hf => String.lt_trans less (lbelow f hf)
          simpa [find?, other, this] using h k
        · have more : l < k := by grind
          have : find? l es = none :=
            find?_eq_none_of_lt fun f hf => String.lt_trans more (kbelow f hf)
          simpa [find?, Ne.symm other, this] using h l
      subst same
      have value : v = w := by simpa [find?] using h k
      subst value
      congr 1
      refine ih sortedEs sortedFs fun q => ?_
      by_cases hq : q = k
      · subst hq
        rw [find?_eq_none_of_lt kbelow, find?_eq_none_of_lt lbelow]
      · simpa [find?, hq] using h q

end Params

structure Params where
  entries : List (String × String)
  sorted : Params.Sorted entries
  deriving DecidableEq

namespace Params

def empty : Params := ⟨[], .nil⟩

/-- Sets the text of a key; a text that it had before is lost. -/
def set (p : Params) (key value : String) : Params :=
  ⟨put key value p.entries, sorted_put key value p.sorted⟩

def get? (p : Params) (key : String) : Option String := find? key p.entries

@[simp] theorem get?_empty (q : String) : empty.get? q = none := rfl

@[simp] theorem get?_set (p : Params) (key value q : String) :
    (p.set key value).get? q = if q = key then some value else p.get? q :=
  find?_put key value q p.entries

@[ext] theorem ext {p q : Params} (h : ∀ key, p.get? key = q.get? key) : p = q := by
  cases p; cases q
  congr
  exact eq_of_find? ‹_› ‹_› h

end Params

end SliceCompiler
