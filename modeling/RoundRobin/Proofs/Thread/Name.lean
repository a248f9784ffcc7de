import RoundRobin.Thread.Name

/-!
# What a name keeps

A cut between two bytes splits no character just if the bytes before it are those of the first few
characters. The search for a cut goes down from the most that fits, so it stops at the longest beginning
of the text that fits in whole characters, and a character has no more than four bytes for it to go
past. What the field holds is decided by that beginning alone, also when the text contains the zero
character that the rest of the field is filled with.
-/

namespace RoundRobin.ThreadName

variable {c : Char} {l p : List Char} {bytes : List UInt8} {i room : Nat} {s t kept : String}

/-! ## The bytes of characters -/

/-- UTF-8 bytes of characters. -/
def bytesOf (l : List Char) : List UInt8 := l.flatMap String.utf8EncodeChar

theorem encode_eq (s : String) : encode s = bytesOf s.toList := by
  unfold encode bytesOf
  rw [String.toUTF8_eq_toByteArray, ← String.utf8Encode_toList, List.utf8Encode]
  simp

theorem length_encode (s : String) : (encode s).length = s.utf8ByteSize := by
  unfold encode
  rw [String.toUTF8_eq_toByteArray, ← String.size_toByteArray]
  rfl

/-- What was encoded can be decoded. -/
theorem decode?_encode (s : String) : decode? (encode s) = some s := by
  unfold decode? encode String.fromUTF8?
  rw [Array.toArray_toList, String.toUTF8_eq_toByteArray, dif_pos s.isValidUTF8]
  rfl

theorem bytesOf_cons (c : Char) (l : List Char) :
    bytesOf (c :: l) = String.utf8EncodeChar c ++ bytesOf l := List.flatMap_cons

theorem length_bytesOf_cons (c : Char) (l : List Char) :
    (bytesOf (c :: l)).length = c.utf8Size + (bytesOf l).length := by
  rw [bytesOf_cons, List.length_append, String.length_utf8EncodeChar]

/-! ## First bytes and later bytes -/

/-- Whether a byte goes on with a character. -/
def Continues (b : UInt8) : Prop := b &&& 0xc0 = 0x80

/-- Six bits behind the mark of a later byte. -/
theorem continues_marked (b : UInt8) : Continues (b &&& 0x3f ||| 0x80) := by
  unfold Continues
  apply UInt8.toBitVec_inj.mp
  simp only [UInt8.toBitVec_and, UInt8.toBitVec_or, BitVec.and_or_distrib_right, BitVec.and_assoc]
  simp

/-- All bytes of a character but the first go on with it, -/
theorem continues_of_pos (hpos : 0 < i) (hi : i < (String.utf8EncodeChar c).length) :
    Continues (String.utf8EncodeChar c)[i] := by
  have hsize : i < c.utf8Size := by rwa [String.length_utf8EncodeChar] at hi
  rcases c.utf8Size_eq with h | h | h | h
  · omega
  · obtain rfl : i = 1 := by omega
    simp only [String.utf8EncodeChar_eq_cons_cons h]
    exact continues_marked _
  · simp only [String.utf8EncodeChar_eq_cons_cons_cons h]
    match i, hpos, h ▸ hsize with
    | 1, _, _ => exact continues_marked _
    | 2, _, _ => exact continues_marked _
  · simp only [String.utf8EncodeChar_eq_cons_cons_cons_cons h]
    match i, hpos, h ▸ hsize with
    | 1, _, _ => exact continues_marked _
    | 2, _, _ => exact continues_marked _
    | 3, _, _ => exact continues_marked _

theorem not_continues_of_mask {b mask v : UInt8} (h : b &&& mask = v)
    (hne : v &&& 0xc0 ≠ 0x80 &&& mask) : ¬ Continues b := by
  intro hcontinues
  apply hne
  rw [← h, ← hcontinues, UInt8.and_assoc, UInt8.and_assoc, UInt8.and_comm mask]

theorem not_continues_of_isFirst {b : UInt8} (h : b.IsUTF8FirstByte) : ¬ Continues b := by
  rcases h with h | h | h | h
  · exact not_continues_of_mask h (by decide)
  · exact not_continues_of_mask h (by decide)
  · exact not_continues_of_mask h (by decide)
  · exact not_continues_of_mask h (by decide)

/-- and characters begin with a byte that does not. -/
theorem exists_head (c : Char) (l : List Char) :
    ∃ b, (bytesOf (c :: l))[0]? = some b ∧ ¬ Continues b := by
  have hsize : 0 < (String.utf8EncodeChar c).length := by
    rw [String.length_utf8EncodeChar]
    exact c.utf8Size_pos
  refine ⟨(String.utf8EncodeChar c)[0], ?_, ?_⟩
  · rw [bytesOf_cons, List.getElem?_append_left hsize, List.getElem?_eq_getElem hsize]
  · exact not_continues_of_isFirst UInt8.isUTF8FirstByte_getElem_zero_utf8EncodeChar

/-! ## Cuts between characters -/

theorem isBoundary_iff : isBoundary bytes i = true ↔
    i = 0 ∨ i = bytes.length ∨ ∃ b, bytes[i]? = some b ∧ ¬ Continues b := by
  unfold isBoundary Continues
  cases hb : bytes[i]? with
  | none =>
    have hle : bytes.length ≤ i := List.getElem?_eq_none_iff.mp hb
    simp only [beq_iff_eq, reduceCtorEq, false_and, exists_false, or_false]
    omega
  | some b =>
    obtain ⟨hlt, _⟩ := List.getElem?_eq_some_iff.mp hb
    simp [Nat.ne_of_lt hlt]

/-- Inside its first character a text is not cut. -/
theorem isBoundary_of_lt (hpos : 0 < i) (hi : i < c.utf8Size) :
    isBoundary (bytesOf (c :: l)) i = false := by
  have hlt : i < (String.utf8EncodeChar c).length := by rwa [String.length_utf8EncodeChar]
  have hbyte : (bytesOf (c :: l))[i]? = some (String.utf8EncodeChar c)[i] := by
    rw [bytesOf_cons, List.getElem?_append_left hlt, List.getElem?_eq_getElem hlt]
  rw [Bool.eq_false_iff]
  intro hcut
  rcases isBoundary_iff.mp hcut with hzero | hend | ⟨b, hb, hnot⟩
  · omega
  · rw [length_bytesOf_cons] at hend
    omega
  · rw [hbyte, Option.some.injEq] at hb
    exact hnot (hb ▸ continues_of_pos hpos hlt)

/-- Behind it there is a cut where there is one in the rest. -/
theorem isBoundary_cons (hi : c.utf8Size ≤ i) : isBoundary (bytesOf (c :: l)) i = true ↔
    isBoundary (bytesOf l) (i - c.utf8Size) = true := by
  have hsize := c.utf8Size_pos
  have hbyte : (bytesOf (c :: l))[i]? = (bytesOf l)[i - c.utf8Size]? := by
    rw [bytesOf_cons, List.getElem?_append_right (by rwa [String.length_utf8EncodeChar]),
      String.length_utf8EncodeChar]
  rw [isBoundary_iff, isBoundary_iff, length_bytesOf_cons, hbyte]
  constructor
  · rintro (hzero | hend | hb)
    · omega
    · right; left; omega
    · right; right; exact hb
  · rintro (hzero | hend | hb)
    · rw [hzero]
      right
      cases l with
      | nil =>
        left
        have hnil : (bytesOf []).length = 0 := rfl
        omega
      | cons d l => right; exact exists_head d l
    · right; left; omega
    · right; right; exact hb

/-- A cut may be made just where the first few characters end. -/
theorem isBoundary_bytesOf_iff :
    isBoundary (bytesOf l) i = true ↔ ∃ p, p <+: l ∧ (bytesOf p).length = i := by
  induction l generalizing i with
  | nil =>
    rw [isBoundary_iff]
    constructor
    · intro h
      refine ⟨[], List.nil_prefix, ?_⟩
      rcases h with hzero | hend | ⟨b, hb, _⟩
      · exact hzero.symm
      · exact hend.symm
      · cases hb
    · rintro ⟨p, hp, rfl⟩
      rw [List.prefix_nil.mp hp]
      exact .inl rfl
  | cons c l ih =>
    rcases Nat.eq_zero_or_pos i with rfl | hpos
    · rw [isBoundary_iff]
      exact iff_of_true (.inl rfl) ⟨[], List.nil_prefix, rfl⟩
    rcases Nat.lt_or_ge i c.utf8Size with hlt | hge
    · rw [isBoundary_of_lt hpos hlt]
      constructor
      · intro h
        cases h
      · -- a beginning has no byte, or all of the first character
        rintro ⟨p, hp, rfl⟩
        cases p with
        | nil => exact absurd hpos (Nat.lt_irrefl 0)
        | cons d p =>
          obtain ⟨rfl, _⟩ := List.cons_prefix_cons.mp hp
          rw [length_bytesOf_cons] at hlt
          omega
    · rw [isBoundary_cons hge, ih]
      constructor
      · rintro ⟨p, hp, hlength⟩
        refine ⟨c :: p, List.cons_prefix_cons.mpr ⟨rfl, hp⟩, ?_⟩
        rw [length_bytesOf_cons]
        omega
      · rintro ⟨p, hp, rfl⟩
        cases p with
        | nil => exact absurd hpos (Nat.lt_irrefl 0)
        | cons d p =>
          obtain ⟨rfl, hrest⟩ := List.cons_prefix_cons.mp hp
          refine ⟨p, hrest, ?_⟩
          rw [length_bytesOf_cons]
          omega

/-! ## The search for the cut -/

/-- The search as it counts down. It would fail below zero. -/
def countDown (bytes : List UInt8) : Nat → Option Nat
  | 0 => if isBoundary bytes 0 then some 0 else none
  | i + 1 => if isBoundary bytes (i + 1) then some (i + 1) else countDown bytes i

/-- It never does: before the first byte there is always a cut. -/
theorem countDown_eq (bytes : List UInt8) (i : Nat) :
    countDown bytes i = some (lastBoundary bytes i) := by
  induction i with
  | zero => exact if_pos (isBoundary_iff.mpr (.inl rfl))
  | succ i ih =>
    unfold countDown lastBoundary
    split
    · rfl
    · exact ih

/-- The search ends at a cut, -/
theorem isBoundary_lastBoundary (bytes : List UInt8) (i : Nat) :
    isBoundary bytes (lastBoundary bytes i) = true := by
  induction i with
  | zero => exact isBoundary_iff.mpr (.inl rfl)
  | succ i ih =>
    unfold lastBoundary
    split
    · next h => exact h
    · exact ih

/-- and it leaves no later one behind. -/
theorem le_lastBoundary {j : Nat} (hj : isBoundary bytes j = true) (hle : j ≤ i) :
    j ≤ lastBoundary bytes i := by
  induction i with
  | zero => exact hle
  | succ i ih =>
    unfold lastBoundary
    split
    · exact hle
    · next hnot =>
      have hne : j ≠ i + 1 := fun h => hnot (h ▸ hj)
      exact ih (by omega)

/-! ## Beginnings of a text -/

/-- The bytes of a beginning are the first bytes of the text. -/
theorem take_bytesOf (h : p <+: l) : (bytesOf l).take (bytesOf p).length = bytesOf p := by
  obtain ⟨r, rfl⟩ := h
  unfold bytesOf
  rw [List.flatMap_append, List.take_left]

theorem length_bytesOf_le (h : p <+: l) : (bytesOf p).length ≤ (bytesOf l).length := by
  rw [← take_bytesOf h, List.length_take]
  exact Nat.min_le_right _ _

theorem eq_nil_of_bytesOf (h : (bytesOf l).length = 0) : l = [] := by
  cases l with
  | nil => rfl
  | cons c l =>
    rw [length_bytesOf_cons] at h
    have := c.utf8Size_pos
    omega

/-- Of two beginnings the one with fewer bytes is a beginning of the other. -/
theorem prefix_of_length_bytesOf_le {q : List Char} (hp : p <+: l) (hq : q <+: l)
    (hle : (bytesOf p).length ≤ (bytesOf q).length) : p <+: q := by
  rcases List.prefix_or_prefix_of_prefix hp hq with h | ⟨r, rfl⟩
  · exact h
  · have hrest : (bytesOf r).length = 0 := by
      unfold bytesOf at hle ⊢
      rw [List.flatMap_append, List.length_append] at hle
      omega
    obtain rfl : r = [] := eq_nil_of_bytesOf hrest
    simp

theorem utf8ByteSize_eq (s : String) : s.utf8ByteSize = (bytesOf s.toList).length := by
  rw [← encode_eq, length_encode]

/-- `kept` is the longest beginning of a text, in whole characters, that takes no more than `room`
bytes. -/
structure Longest (room : Nat) (text kept : String) : Prop where
  begins : kept.toList <+: text.toList
  fits : kept.utf8ByteSize ≤ room
  longest : ∀ other : String, other.toList <+: text.toList → other.utf8ByteSize ≤ room →
    other.toList <+: kept.toList

/-- There is only one. -/
theorem Longest.unique {kept' : String} (h : Longest room s kept) (h' : Longest room s kept') :
    kept = kept' := by
  have hle : kept.toList.length ≤ kept'.toList.length := (h'.longest kept h.begins h.fits).length_le
  apply String.toList_injective
  exact (h.longest kept' h'.begins h'.fits).eq_of_length_le hle |>.symm

/-- A text that fits is its own longest beginning. -/
theorem longest_self (h : s.utf8ByteSize ≤ room) : Longest room s s where
  begins := List.prefix_refl _
  fits := h
  longest := fun _ hother _ => hother

/-- What does not fit fails by less than a character, which has no more than four bytes. -/
theorem Longest.lt_of_lt (h : Longest room s kept) (hlt : room < s.utf8ByteSize) :
    room < kept.utf8ByteSize + 4 := by
  obtain ⟨r, hr⟩ := h.begins
  have hfits := h.fits
  rw [utf8ByteSize_eq] at hlt hfits ⊢
  cases r with
  | nil =>
    rw [← hr, List.append_nil] at hlt
    omega
  | cons c r =>
    apply Nat.lt_of_not_le
    intro hle
    -- one character more would fit as well
    have hsize : (bytesOf (kept.toList ++ [c])).length = (bytesOf kept.toList).length + c.utf8Size := by
      simp [bytesOf]
    have hfour := c.utf8Size_le_four
    have hmore := h.longest (String.ofList (kept.toList ++ [c])) (by
      rw [String.toList_ofList, ← hr]
      exact ⟨r, by simp⟩) (by
      rw [utf8ByteSize_eq, String.toList_ofList, hsize]
      omega)
    rw [String.toList_ofList] at hmore
    have hlength := hmore.length_le
    rw [List.length_append, List.length_singleton] at hlength
    omega

/-! ## What a name is made of -/

/-- The name whose field holds a text. -/
def holding (kept : String) : ThreadName where
  field := encode kept ++ List.replicate (fieldSize - kept.utf8ByteSize) 0
  length := kept.utf8ByteSize

theorem take_field_holding (kept : String) :
    (holding kept).field.take (holding kept).length = encode kept := by
  unfold holding
  rw [← length_encode, List.take_left]

theorem toString_holding (kept : String) : (holding kept).toString = kept := by
  unfold toString
  rw [take_field_holding, decode?_encode]
  rfl

/-- A name holds the longest beginning that fits. -/
theorem exists_longest (s : String) :
    ∃ kept, Longest maxLength s kept ∧ ofString s = holding kept := by
  -- the search ends where the first few characters do
  have hcut := isBoundary_lastBoundary (encode s) (min (encode s).length maxLength)
  rw [encode_eq, isBoundary_bytesOf_iff, ← encode_eq] at hcut
  obtain ⟨p, hp, hlength⟩ := hcut
  have hkept : (String.ofList p).utf8ByteSize = (bytesOf p).length := by
    rw [utf8ByteSize_eq, String.toList_ofList]
  refine ⟨String.ofList p, ⟨?_, ?_, ?_⟩, ?_⟩
  · rwa [String.toList_ofList]
  · rw [hkept, hlength]
    exact Nat.le_trans (lastBoundary_le _ _) (Nat.min_le_right _ _)
  · intro other hother hfits
    rw [String.toList_ofList]
    apply prefix_of_length_bytesOf_le hother hp
    rw [utf8ByteSize_eq] at hfits
    rw [hlength]
    apply le_lastBoundary
    · rw [encode_eq, isBoundary_bytesOf_iff]
      exact ⟨_, hother, rfl⟩
    · have hle := length_bytesOf_le hother
      rw [← encode_eq s] at hle
      exact Nat.le_min.mpr ⟨hle, hfits⟩
  · unfold ofString holding
    have htake : (encode s).take (bytesOf p).length = encode (String.ofList p) := by
      rw [encode_eq s, take_bytesOf hp, encode_eq, String.toList_ofList]
    dsimp only
    rw [← hlength, htake, hkept]

theorem ofString_of_longest (h : Longest maxLength s kept) : ofString s = holding kept := by
  obtain ⟨kept', hkept', heq⟩ := exists_longest s
  rw [heq, h.unique hkept']

/-- A name keeps the longest beginning of the text that fits in whole characters. The search for its end
never goes below zero, nor back by more than three bytes; the text can always be read back, and makes the
same name again. Two texts make one name just if they have that beginning in common. -/
theorem names_keep_longest (s t : String) :
    Longest maxLength s (ofString s).toString ∧
    countDown (encode s) (min s.utf8ByteSize maxLength) = some (ofString s).length ∧
    (maxLength < s.utf8ByteSize → 12 ≤ (ofString s).length) ∧
    decode? ((ofString s).field.take (ofString s).length) = some (ofString s).toString ∧
    ofString (ofString s).toString = ofString s ∧
    (ofString s = ofString t ↔ ∃ kept, Longest maxLength s kept ∧ Longest maxLength t kept) := by
  obtain ⟨kept, hkept, heq⟩ := exists_longest s
  have hself : ofString kept = holding kept := ofString_of_longest (longest_self hkept.fits)
  have hcount : countDown (encode s) (min s.utf8ByteSize maxLength) = some (ofString s).length := by
    rw [countDown_eq, ← length_encode]
    rfl
  rw [heq] at hcount ⊢
  rw [toString_holding, take_field_holding, decode?_encode, hself]
  refine ⟨hkept, hcount, ?_, rfl, rfl, ?_⟩
  · intro hlong
    have hlt := hkept.lt_of_lt hlong
    show 12 ≤ kept.utf8ByteSize
    unfold maxLength at hlt
    omega
  · constructor
    · intro hsame
      obtain ⟨kept', hkept', heq'⟩ := exists_longest t
      rw [heq'] at hsame
      have htext := congrArg toString hsame
      rw [toString_holding, toString_holding] at htext
      exact ⟨kept, hkept, htext ▸ hkept'⟩
    · rintro ⟨common, hs, ht⟩
      rw [ofString_of_longest ht, hkept.unique hs]

/-- A character of four bytes behind thirteen others is left out, which makes a name of thirteen bytes. It
is not the name with a zero in that place, though the fields of the two are alike. -/
theorem names_keep_longest_zero : maxLength < "abcdefghijklm😀".utf8ByteSize ∧
    12 ≤ (ofString "abcdefghijklm😀").length ∧
    ofString (ofString "abcdefghijklm😀").toString = ofString "abcdefghijklm😀" ∧
    ofString "abcdefghijklm😀" ≠ ofString "abcdefghijklm\x00" := by
  obtain ⟨_, _, hlong, _, hagain, hiff⟩ := names_keep_longest "abcdefghijklm😀" "abcdefghijklm\x00"
  refine ⟨by decide, hlong (by decide), hagain, ?_⟩
  rw [ne_eq, hiff]
  rintro ⟨kept, hkept, hzero⟩
  obtain rfl : "abcdefghijklm\x00" = kept := (longest_self (by decide)).unique hzero
  exact absurd hkept.begins (by decide)

end RoundRobin.ThreadName
