import SliceCompiler.Proofs.Lookups

/-!
Texts of masks. A text spells a mask if flags and commas are all there is in it, and if the mask
has room for the flags. Reading goes on as long as what was read is such a text, so it fails at the
first character that ends this, and there is only one reason why a character can: it is no
character of masks, or it is a flag that comes when the room is used up.
-/

namespace SliceCompiler.Mask

/-- The characters that stand for flags. -/
def IsFlag (c : Char) : Prop := c = '0' ∨ c = '1'

instance (c : Char) : Decidable (IsFlag c) := inferInstanceAs (Decidable (_ ∨ _))

/-- The flags of a text, from the left. -/
def flagsOf (cs : List Char) : List Char := cs.filter IsFlag

/-- The text holds nothing but flags, at most `room` of them, and commas. -/
structure Spells (room : ℕ) (cs : List Char) : Prop where
  alphabet : ∀ c ∈ cs, IsFlag c ∨ c = ','
  fits : (flagsOf cs).length ≤ room

/-- Behind a text with room for `room` flags, `c` is a fault. -/
inductive Stops (room : ℕ) (before : List Char) (c : Char) : MaskFault → Prop
  | invalidCharacter (foreign : ¬ (IsFlag c ∨ c = ',')) :
      Stops room before c (.invalidCharacter c (String.ofList before).utf8ByteSize)
  | tooManyFlags (flag : IsFlag c) (full : (flagsOf before).length = room) :
      Stops room before c (.tooManyFlags 32)

variable {room : ℕ} {c : Char} {cs before : List Char} {fault : MaskFault}

/-! ### Characters -/

lemma flag?_of_isFlag (h : IsFlag c) : flag? c = some (c == '1') := by
  rcases h with rfl | rfl <;> rfl

lemma flag?_eq_none (h : ¬ IsFlag c) : flag? c = none := by
  unfold flag? IsFlag at *
  split <;> simp_all

lemma IsFlag.ne_comma (h : IsFlag c) : c ≠ ',' := by
  rcases h with rfl | rfl <;> decide

lemma IsFlag.utf8Size_eq (h : IsFlag c) : c.utf8Size = 1 := by
  rcases h with rfl | rfl <;> rfl

@[simp] lemma flagsOf_flag (h : IsFlag c) (cs : List Char) :
    flagsOf (c :: cs) = c :: flagsOf cs :=
  List.filter_cons_of_pos (by simpa using h)

@[simp] lemma flagsOf_comma (cs : List Char) : flagsOf (',' :: cs) = flagsOf cs :=
  List.filter_cons_of_neg (by decide)

/-- The characters of masks are bytes, so that places in a text are the same in bytes as in
characters. -/
lemma utf8ByteSize_ofList (h : ∀ c ∈ cs, IsFlag c ∨ c = ',') :
    (String.ofList cs).utf8ByteSize = cs.length := by
  induction cs with
  | nil => rfl
  | cons c cs ih =>
    obtain ⟨first, others⟩ := List.forall_mem_cons.mp h
    have split : String.ofList (c :: cs) = String.ofList [c] ++ String.ofList cs := by
      rw [← String.ofList_append, List.singleton_append]
    have one : (String.ofList [c]).utf8ByteSize = 1 := by
      rcases first with (rfl | rfl) | rfl <;> rfl
    rw [split, String.utf8ByteSize_append, one, ih others, List.length_cons, Nat.add_comm]

lemma flagsOf_append (cs ds : List Char) : flagsOf (cs ++ ds) = flagsOf cs ++ flagsOf ds :=
  List.filter_append _ _

/-! ### Reading -/

lemma scan_comma (position room : ℕ) (cs : List Char) :
    scan position room (',' :: cs) = scan (position + 1) room cs := by
  simp only [scan, if_true]
  rfl

lemma scan_flag (hc : IsFlag c) (position room : ℕ) (cs : List Char) :
    scan position (room + 1) (c :: cs) = (scan (position + 1) room cs).map ((c == '1') :: ·) := by
  simp only [scan, hc.ne_comma, if_false, flag?_of_isFlag hc, hc.utf8Size_eq]

/-- Behind a text that spells a mask, reading goes on with the room that is left. -/
lemma scan_append (h : Spells room before) (position : ℕ) (cs : List Char) :
    scan position room (before ++ cs) =
      (scan (position + before.length) (room - (flagsOf before).length) cs).map
        ((flagsOf before).map (· == '1') ++ ·) := by
  induction before generalizing room position with
  | nil =>
    change scan position room cs = (scan position room cs).map id
    cases scan position room cs <;> rfl
  | cons c before ih =>
    obtain ⟨first, others⟩ := List.forall_mem_cons.mp h.alphabet
    have fits := h.fits
    have next : position + 1 + before.length = position + (c :: before).length := by
      rw [List.length_cons]
      omega
    rcases first with hc | rfl
    · rw [flagsOf_flag hc, List.length_cons] at fits
      -- a text with a flag in it has room for one
      obtain ⟨left, rfl⟩ : ∃ left, room = left + 1 := ⟨room - 1, by omega⟩
      have spelled : Spells left before := ⟨others, by omega⟩
      have room_left :
          left + 1 - (c :: flagsOf before).length = left - (flagsOf before).length := by
        rw [List.length_cons]
        omega
      rw [List.cons_append, scan_flag hc, ih spelled, next, flagsOf_flag hc, room_left]
      cases scan (position + (c :: before).length) (left - (flagsOf before).length) cs <;> rfl
    · rw [flagsOf_comma] at fits
      rw [List.cons_append, scan_comma, ih ⟨others, fits⟩, next, flagsOf_comma]

/-- A text that spells a mask is read to its end. -/
lemma scan_of_spells (h : Spells room cs) (position : ℕ) :
    scan position room cs = .ok ((flagsOf cs).map (· == '1')) := by
  have whole := scan_append h position []
  rw [List.append_nil] at whole
  rw [whole, scan, Except.map, List.append_nil]

/-- Reading stops at the first fault. -/
lemma scan_of_stops (h : Spells room before) (stop : Stops room before c fault)
    (after : List Char) : scan 0 room (before ++ c :: after) = .error fault := by
  rw [scan_append h, Nat.zero_add]
  cases stop with
  | invalidCharacter foreign =>
    obtain ⟨noFlag, noComma⟩ := not_or.mp foreign
    simp only [scan, noComma, if_false, flag?_eq_none noFlag, utf8ByteSize_ofList h.alphabet]
    rfl
  | tooManyFlags hc full =>
    rw [full, Nat.sub_self]
    simp only [scan, hc.ne_comma, if_false, flag?_of_isFlag hc]
    rfl

/-- A text spells a mask or has a first fault. -/
lemma spells_or_stops (room : ℕ) (cs : List Char) : Spells room cs ∨
    ∃ before c after fault, cs = before ++ c :: after ∧ Spells room before ∧
      Stops room before c fault := by
  induction cs using List.reverseRecOn with
  | nil => exact .inl ⟨nofun, Nat.zero_le _⟩
  | append_singleton cs c ih =>
    rcases ih with h | ⟨before, d, after, fault, rfl, h, stop⟩
    · by_cases foreign : IsFlag c ∨ c = ','
      · have alphabet : ∀ d ∈ cs ++ [c], IsFlag d ∨ d = ',' :=
          List.forall_mem_append.mpr ⟨h.alphabet, by simpa using foreign⟩
        have fits := h.fits
        rcases foreign with hc | rfl
        · have more : (flagsOf (cs ++ [c])).length = (flagsOf cs).length + 1 := by
            rw [flagsOf_append, flagsOf_flag hc, List.length_append]
            rfl
          rcases fits.eq_or_lt with full | left
          · exact .inr ⟨cs, c, [], _, rfl, h, .tooManyFlags hc full⟩
          · exact .inl ⟨alphabet, by omega⟩
        · refine .inl ⟨alphabet, ?_⟩
          have same : flagsOf (cs ++ [',']) = flagsOf cs := by
            rw [flagsOf_append, flagsOf_comma]
            exact List.append_nil _
          rwa [same]
      · exact .inr ⟨cs, c, [], _, rfl, h, .invalidCharacter foreign⟩
    · exact .inr ⟨before, d, after ++ [c], fault, by simp, h, stop⟩

/-! ### Bits -/

/-- The flags are the bits, axis by axis, of the 32 axes that there are. -/
lemma flag_ofFlags (flags : List Bool) (i : ℕ) :
    (ofFlags flags).flag i = (decide (i < 32) && flags.getD i false) := by
  induction flags generalizing i with
  | nil => simp [flag, ofFlags]
  | cons b flags ih =>
    have bit : b.toUInt32.toNat = b.toNat := by cases b <;> rfl
    have shifted : (ofFlags flags).toNat.testBit (i - 1) = _ := ih (i - 1)
    change (ofFlags flags <<< 1 ||| b.toUInt32).toNat.testBit i = _
    rw [UInt32.toNat_or, Nat.testBit_or, UInt32.toNat_shiftLeft, Nat.testBit_mod_two_pow,
      Nat.testBit_shiftLeft, bit, Nat.testBit_bool_toNat]
    simp only [UInt32.reduceToNat, Nat.reduceMod]
    rw [shifted]
    cases i with
    | zero => simp
    | succ i =>
      by_cases h : i + 1 < 32
      · simp [h, Nat.lt_of_succ_lt h]
      · simp [h]

/-- Masks with the same flags are the same. -/
lemma eq_of_flag {m n : Mask} (h : ∀ i, m.flag i = n.flag i) : m = n :=
  UInt32.toNat_inj.mp (Nat.eq_of_testBit_eq h)

/-- A text that spells a mask has a flag for each bit that is set. -/
lemma flag_of_spells (h : Spells 32 cs) (i : ℕ) :
    (ofFlags ((flagsOf cs).map (· == '1'))).flag i = true ↔ (flagsOf cs)[i]? = some '1' := by
  rw [flag_ofFlags, List.getD_eq_getElem?_getD, List.getElem?_map]
  cases hi : (flagsOf cs)[i]? with
  | none => simp
  | some c =>
    have known : i < 32 := (List.getElem?_eq_some_iff.mp hi).1.trans_le h.fits
    simp [known]

/-! ### Texts -/

variable {text : String}

lemma decode_of_spells (h : Spells 32 text.toList) :
    decode text = .ok (ofFlags ((flagsOf text.toList).map (· == '1'))) := by
  have read : scan 0 capacity text.toList = _ := scan_of_spells h 0
  rw [decode, read]
  rfl

lemma decode_of_stops {after : List Char} (ht : text.toList = before ++ c :: after)
    (h : Spells 32 before) (stop : Stops 32 before c fault) : decode text = .error fault := by
  have read : scan 0 capacity text.toList = _ := ht ▸ scan_of_stops h stop after
  rw [decode, read]
  rfl

/-- **A text spells a mask or has a first fault.** It is read as a mask exactly if it holds nothing
but flags and commas and no more than 32 flags, and then the bits of the mask are its flags, from
the left. Otherwise the first character at fault is reported: a character that no mask has, with
its place, which is the same in bytes as in characters, or the 33rd flag. No flag is ever set at a
bit that the mask does not have. -/
theorem decode_iff_spells (text : String) :
    (∀ m, decode text = .ok m ↔
      Spells 32 text.toList ∧ ∀ i, m.flag i = true ↔ (flagsOf text.toList)[i]? = some '1') ∧
    (∀ fault, decode text = .error fault ↔ ∃ before c after,
      text.toList = before ++ c :: after ∧ Spells 32 before ∧ Stops 32 before c fault ∧
        (String.ofList before).utf8ByteSize = before.length) ∧
    Strict.scan 0 0 0 text.toList = some (decode text) := by
  refine ⟨fun m => ⟨fun h => ?_, fun ⟨h, bits⟩ => ?_⟩, fun fault => ⟨fun h => ?_, ?_⟩,
    Strict.scan_decode text⟩
  · rcases spells_or_stops 32 text.toList with spelled | ⟨before, c, after, fault, ht, hb, stop⟩
    · rw [decode_of_spells spelled] at h
      cases h
      exact ⟨spelled, flag_of_spells spelled⟩
    · rw [decode_of_stops ht hb stop] at h
      cases h
  · rw [decode_of_spells h]
    refine congrArg _ (eq_of_flag fun i => Bool.eq_iff_iff.mpr ?_)
    rw [flag_of_spells h, bits]
  · rcases spells_or_stops 32 text.toList with spelled | ⟨before, c, after, f, ht, hb, stop⟩
    · rw [decode_of_spells spelled] at h
      cases h
    · rw [decode_of_stops ht hb stop] at h
      cases h
      exact ⟨before, c, after, ht, hb, stop, utf8ByteSize_ofList hb.alphabet⟩
  · rintro ⟨before, c, after, ht, hb, stop, -⟩
    exact decode_of_stops ht hb stop

-- behind 32 flags a comma is no fault, and of two faults the first counts
example : decode (String.ofList (List.replicate 32 '1') ++ ",,") = .ok 4294967295 := by
  decide +kernel
example : decode (String.ofList (List.replicate 33 '0') ++ "2") = .error (.tooManyFlags 32) := by
  decide +kernel

end SliceCompiler.Mask
