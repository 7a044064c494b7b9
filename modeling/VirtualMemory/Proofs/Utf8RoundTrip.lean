import VirtualMemory.Process.Load

/-!
# Text is read back

The bytes of a text are well-formed, so reading them answers the text. A first byte announces how
many bytes a character takes and which second byte it admits; each byte after it carries six more
bits of the character.
-/

namespace VirtualMemory

namespace Utf8

variable {lead second b b₁ b₂ b₃ : UInt8} {c : Char} {n : Nat}

theorem toNat_byte (h : n < 256) : (UInt8.ofNat n).toNat = n := by
  rw [UInt8.toNat_ofNat', Nat.mod_eq_of_lt h]

/-- A character is none of the surrogates. -/
theorem scalar (c : Char) : c.toNat < 0x110000 ∧ (c.toNat < 0xd800 ∨ 0xe000 ≤ c.toNat) := by
  have hvalid : c.toNat < 0xd800 ∨ 0xdfff < c.toNat ∧ c.toNat < 0x110000 := c.valid
  omega

/-! ## First and second bytes -/

theorem leadInfo_two (hlow : 0xc2 ≤ lead.toNat) (hhigh : lead.toNat ≤ 0xdf) :
    leadInfo lead = some (2, 0x80, 0xbf) := by
  simp [leadInfo, UInt8.le_iff_toNat_le, hlow, hhigh]

theorem leadInfo_three (hlead : 0xe0 ≤ lead.toNat ∧ lead.toNat ≤ 0xef)
    (hsecond : 0x80 ≤ second.toNat ∧ second.toNat ≤ 0xbf)
    (hlow : lead.toNat = 0xe0 → 0xa0 ≤ second.toNat)
    (hhigh : lead.toNat = 0xed → second.toNat ≤ 0x9f) :
    ∃ low high, leadInfo lead = some (3, low, high) ∧ low ≤ second ∧ second ≤ high := by
  simp only [leadInfo, Bool.and_eq_true, decide_eq_true_eq, UInt8.le_iff_toNat_le,
    ← UInt8.toNat_inj, UInt8.reduceToNat]
  split
  · omega
  split
  next h => exact ⟨_, _, rfl, hlow h, hsecond.2⟩
  split
  next h => exact ⟨_, _, rfl, hsecond.1, hhigh h⟩
  split
  · exact ⟨_, _, rfl, hsecond⟩
  · omega

theorem leadInfo_four (hlead : 0xf0 ≤ lead.toNat ∧ lead.toNat ≤ 0xf4)
    (hsecond : 0x80 ≤ second.toNat ∧ second.toNat ≤ 0xbf)
    (hlow : lead.toNat = 0xf0 → 0x90 ≤ second.toNat)
    (hhigh : lead.toNat = 0xf4 → second.toNat ≤ 0x8f) :
    ∃ low high, leadInfo lead = some (4, low, high) ∧ low ≤ second ∧ second ≤ high := by
  simp only [leadInfo, Bool.and_eq_true, decide_eq_true_eq, UInt8.le_iff_toNat_le,
    ← UInt8.toNat_inj, UInt8.reduceToNat]
  -- the first four ranges announce fewer bytes
  iterate 4 (split; omega)
  split
  next h => exact ⟨_, _, rfl, hlow h, hsecond.2⟩
  split
  · exact ⟨_, _, rfl, hsecond⟩
  split
  next h => exact ⟨_, _, rfl, hsecond.1, hhigh h⟩
  · omega

/-! ## The bytes after them -/

theorem isContinuation_of_toNat (hb : b.toNat = n % 64 + 0x80) : isContinuation b = true := by
  simp only [isContinuation, Bool.and_eq_true, decide_eq_true_eq, UInt8.le_iff_toNat_le, hb,
    UInt8.reduceToNat]
  omega

/-- Each byte carries six more bits. -/
theorem codePoint_snoc (size : Nat) (lead : UInt8) (tail : List UInt8)
    (hb : b.toNat = n % 64 + 0x80) :
    codePoint size lead (tail ++ [b]) = codePoint size lead tail * 64 + n % 64 := by
  have hbits : (b &&& 0x3f).toNat = n % 64 := by
    rw [UInt8.toNat_and]
    refine (Nat.and_two_pow_sub_one_eq_mod b.toNat 6).trans ?_
    omega
  rw [codePoint, codePoint, List.foldl_append, List.foldl_cons, List.foldl_nil, hbits]

/-- A sequence is continued up to its length. -/
theorem continuation_append {low high : UInt8} {tail : List UInt8} (hb : low ≤ b ∧ b ≤ high)
    (htail : ∀ x ∈ tail, isContinuation x = true) (rest : List UInt8) :
    continuation (tail.length + 1) low high (b :: tail ++ rest) = b :: tail := by
  induction tail generalizing low high b with
  | nil => cases rest <;> simp [continuation, hb]
  | cons x tail ih =>
    obtain ⟨hx, htail⟩ := List.forall_mem_cons.mp htail
    have hx : 0x80 ≤ x ∧ x ≤ 0xbf := by simpa [isContinuation] using hx
    simpa [continuation, hb] using ih hx htail

/-! ## One character -/

theorem decodeFirst_append {low high : UInt8} (tail : List UInt8) (hlead : 0x80 ≤ lead.toNat)
    (hinfo : leadInfo lead = some (tail.length + 2, low, high))
    (hsecond : low ≤ second ∧ second ≤ high) (htail : ∀ x ∈ tail, isContinuation x = true)
    (hpoint : codePoint (tail.length + 2) lead (second :: tail) = c.toNat) (rest : List UInt8) :
    decodeFirst lead (second :: tail ++ rest) = (c, tail.length + 2) := by
  have hlead : ¬ lead < 0x80 := by
    rw [UInt8.lt_iff_toNat_lt]
    exact Nat.not_lt.mpr hlead
  simp only [decodeFirst, if_neg hlead, hinfo, Nat.add_one_sub_one,
    continuation_append hsecond htail rest, List.length_cons, if_true, hpoint, Char.ofNat_toNat]

theorem decodeFirst_one (h : c.toNat ≤ 0x7f) (hlead : lead.toNat = c.toNat) (rest : List UInt8) :
    decodeFirst lead rest = (c, 1) := by
  have hlt : lead < 0x80 := by
    rw [UInt8.lt_iff_toNat_lt, hlead]
    exact Nat.lt_succ_of_le h
  rw [decodeFirst, if_pos hlt, hlead, Char.ofNat_toNat]

theorem decodeFirst_two (h : 0x7f < c.toNat) (h' : c.toNat ≤ 0x7ff)
    (h₀ : lead.toNat = c.toNat / 64 % 32 + 0xc0) (h₁ : b₁.toNat = c.toNat % 64 + 0x80)
    (rest : List UInt8) : decodeFirst lead (b₁ :: rest) = (c, 2) := by
  have hinfo : leadInfo lead = some (2, 0x80, 0xbf) := leadInfo_two (by omega) (by omega)
  have hsecond : (0x80 : UInt8) ≤ b₁ ∧ b₁ ≤ 0xbf := by
    simpa [isContinuation] using isContinuation_of_toNat h₁
  have hpoint : codePoint 2 lead [b₁] = c.toNat := by
    have hlead : codePoint 2 lead [] = lead.toNat % 32 := rfl
    refine (codePoint_snoc 2 lead [] h₁).trans ?_
    omega
  exact decodeFirst_append [] (by omega) hinfo hsecond nofun hpoint rest

theorem decodeFirst_three (h : 0x7ff < c.toNat) (h' : c.toNat ≤ 0xffff)
    (h₀ : lead.toNat = c.toNat / 4096 % 16 + 0xe0) (h₁ : b₁.toNat = c.toNat / 64 % 64 + 0x80)
    (h₂ : b₂.toNat = c.toNat % 64 + 0x80) (rest : List UInt8) :
    decodeFirst lead (b₁ :: b₂ :: rest) = (c, 3) := by
  have hscalar := scalar c
  obtain ⟨low, high, hinfo, hsecond⟩ : ∃ low high, leadInfo lead = some (3, low, high) ∧
      low ≤ b₁ ∧ b₁ ≤ high :=
    leadInfo_three (by omega) (by omega) (by omega) (by omega)
  have hpoint : codePoint 3 lead [b₁, b₂] = c.toNat := by
    have hlead : codePoint 3 lead [] = lead.toNat % 16 := rfl
    have hfirst : codePoint 3 lead [b₁] = _ := codePoint_snoc 3 lead [] h₁
    refine (codePoint_snoc 3 lead [b₁] h₂).trans ?_
    omega
  have htail : ∀ x ∈ [b₂], isContinuation x = true := by simp [isContinuation_of_toNat h₂]
  exact decodeFirst_append [b₂] (by omega) hinfo hsecond htail hpoint rest

theorem decodeFirst_four (h : 0xffff < c.toNat)
    (h₀ : lead.toNat = c.toNat / 262144 % 8 + 0xf0) (h₁ : b₁.toNat = c.toNat / 4096 % 64 + 0x80)
    (h₂ : b₂.toNat = c.toNat / 64 % 64 + 0x80) (h₃ : b₃.toNat = c.toNat % 64 + 0x80)
    (rest : List UInt8) : decodeFirst lead (b₁ :: b₂ :: b₃ :: rest) = (c, 4) := by
  have hscalar := scalar c
  obtain ⟨low, high, hinfo, hsecond⟩ : ∃ low high, leadInfo lead = some (4, low, high) ∧
      low ≤ b₁ ∧ b₁ ≤ high :=
    leadInfo_four (by omega) (by omega) (by omega) (by omega)
  have hpoint : codePoint 4 lead [b₁, b₂, b₃] = c.toNat := by
    have hlead : codePoint 4 lead [] = lead.toNat % 8 := rfl
    have hfirst : codePoint 4 lead [b₁] = _ := codePoint_snoc 4 lead [] h₁
    have hmiddle : codePoint 4 lead [b₁, b₂] = _ := codePoint_snoc 4 lead [b₁] h₂
    refine (codePoint_snoc 4 lead [b₁, b₂] h₃).trans ?_
    omega
  have htail : ∀ x ∈ [b₂, b₃], isContinuation x = true := by
    simp [isContinuation_of_toNat h₂, isContinuation_of_toNat h₃]
  exact decodeFirst_append [b₂, b₃] (by omega) hinfo hsecond htail hpoint rest

/-- The first character of a text is read back, whatever follows it. -/
theorem decodeFirst_encode (c : Char) (rest : List UInt8) :
    ∃ b tail, String.utf8EncodeChar c = b :: tail ∧
      decodeFirst b (tail ++ rest) = (c, tail.length + 1) := by
  have hscalar := scalar c
  have hbyte : ∀ n < 256, (UInt8.ofNat n).toNat = n := fun _ => toNat_byte
  have hvalue : c.val.toNat = c.toNat := rfl
  simp only [String.utf8EncodeChar, hvalue]
  split
  next => exact ⟨_, [], rfl, decodeFirst_one ‹_› (hbyte _ (by omega)) rest⟩
  split
  next =>
    exact ⟨_, [_], rfl, decodeFirst_two (by omega) ‹_› (hbyte _ (by omega)) (hbyte _ (by omega))
      rest⟩
  split
  next =>
    exact ⟨_, [_, _], rfl, decodeFirst_three (by omega) ‹_› (hbyte _ (by omega))
      (hbyte _ (by omega)) (hbyte _ (by omega)) rest⟩
  next =>
    exact ⟨_, [_, _, _], rfl, decodeFirst_four (by omega) (hbyte _ (by omega))
      (hbyte _ (by omega)) (hbyte _ (by omega)) (hbyte _ (by omega)) rest⟩

/-! ## Texts -/

/-- One character is taken off after the other. Each has a byte at least, so that there are steps
enough. -/
theorem decodeSteps_encode (cs : List Char) (steps : Nat)
    (henough : (cs.flatMap String.utf8EncodeChar).length ≤ steps) :
    decodeSteps steps (cs.flatMap String.utf8EncodeChar) = cs := by
  induction cs generalizing steps with
  | nil => cases steps <;> rfl
  | cons c rest ih =>
    obtain ⟨b, tail, hc, hfirst⟩ := decodeFirst_encode c (rest.flatMap String.utf8EncodeChar)
    simp only [List.flatMap_cons, hc, List.cons_append, List.length_cons, List.length_append]
      at henough ⊢
    obtain ⟨steps, rfl⟩ := Nat.exists_eq_add_one.mpr (Nat.lt_of_lt_of_le (Nat.succ_pos _) henough)
    simp only [decodeSteps, hfirst, Nat.add_sub_cancel, List.drop_left]
    rw [ih steps (by omega)]

end Utf8

theorem toList_loop (bytes : ByteArray) (i : Nat) (taken : List UInt8) :
    ByteArray.toList.loop bytes i taken = taken.reverse ++ bytes.data.toList.drop i := by
  fun_induction ByteArray.toList.loop bytes i taken with
  | case1 i taken hlt ih =>
    have hget : bytes.get! i = bytes.data.toList[i] := getElem!_pos bytes.data i hlt
    rw [ih, List.drop_eq_getElem_cons hlt, hget]
    simp
  | case2 i taken hge =>
    rw [List.drop_eq_nil_of_le (Nat.le_of_not_lt hge), List.append_nil]

theorem textBytes_eq (s : String) : textBytes s = s.toUTF8.data.toList :=
  toList_loop s.toUTF8 0 []

theorem length_textBytes (s : String) : (textBytes s).length = s.utf8ByteSize := by
  rw [textBytes_eq]
  rfl

theorem textBytes_flatMap (s : String) :
    textBytes s = s.toList.flatMap String.utf8EncodeChar := by
  obtain ⟨cs, rfl⟩ := s.exists_eq_ofList
  rw [textBytes_eq, String.toUTF8_eq_toByteArray, String.toByteArray_ofList, List.utf8Encode,
    List.toList_data_toByteArray, String.toList_ofList]

/-- The bytes of a text read as that text. -/
theorem decode_textBytes (s : String) : Utf8.decode (textBytes s) = s := by
  rw [Utf8.decode, textBytes_flatMap, Utf8.decodeSteps_encode s.toList _ (Nat.le_refl _),
    String.ofList_toList]

end VirtualMemory
