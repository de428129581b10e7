import GoMetadata.Text.Utf8

/-!
UTF-8 both ways: decoding gives back every text that was encoded, and bytes are decoded only to the
text that they encode, so the bytes that are decoded are exactly those that are UTF-8.
-/

namespace GoMetadata.Utf8

theorem toNat_ofNat_of_lt {n : Nat} (small : n < 256) : (UInt8.ofNat n).toNat = n := by
  rw [UInt8.toNat_ofNat']
  exact Nat.mod_eq_of_lt small

theorem isContinuation_iff {b : UInt8} :
    isContinuation b = true ↔ 0x80 ≤ b.toNat ∧ b.toNat < 0xc0 := by
  simp [isContinuation, UInt8.lt_iff_toNat_lt, UInt8.le_iff_toNat_le]

theorem isSecond_iff {first b : UInt8} :
    isSecond first b = true ↔ (0x80 ≤ b.toNat ∧ b.toNat < 0xc0) ∧
      (first.toNat = 0xe0 → 0xa0 ≤ b.toNat) ∧ (first.toNat = 0xed → b.toNat < 0xa0) ∧
      (first.toNat = 0xf0 → 0x90 ≤ b.toNat) ∧ (first.toNat = 0xf4 → b.toNat < 0x90) := by
  rw [isSecond, Bool.and_eq_true, isContinuation_iff]
  have values : ∀ value : UInt8, first = value ↔ first.toNat = value.toNat := fun value =>
    UInt8.toNat_inj.symm
  refine and_congr_right fun _ => ?_
  simp only [values, UInt8.reduceToNat]
  split
  · simp [UInt8.le_iff_toNat_le, *]
  split
  · simp [UInt8.lt_iff_toNat_lt, *]
  split
  · simp [UInt8.le_iff_toNat_le, *]
  split
  · simp [UInt8.lt_iff_toNat_lt, *]
  · simp [*]

theorem toNat_scalar {lead : Nat} {continuations : List UInt8} {code : Nat}
    (value : continuations.foldl (fun code b => code * 0x40 + (b.toNat - 0x80)) lead = code)
    (valid : code < 0xd800 ∨ 0xdfff < code ∧ code < 0x110000) :
    (scalar lead continuations).toNat = code := by
  rw [scalar, value, Char.ofNat, dif_pos valid]
  rfl

theorem encodeChar_of_lt_80 {c : Char} (below : c.toNat < 0x80) :
    encodeChar c = [UInt8.ofNat c.toNat] := by
  simp only [encodeChar, if_pos below, List.map_cons, List.map_nil]

theorem encodeChar_of_lt_800 {c : Char} (above : ¬c.toNat < 0x80) (below : c.toNat < 0x800) :
    encodeChar c =
      [UInt8.ofNat (0xc0 + c.toNat / 0x40), UInt8.ofNat (0x80 + c.toNat % 0x40)] := by
  simp only [encodeChar, if_neg above, if_pos below, List.map_cons, List.map_nil]

theorem encodeChar_of_lt_10000 {c : Char} (above : ¬c.toNat < 0x800) (below : c.toNat < 0x10000) :
    encodeChar c =
      [UInt8.ofNat (0xe0 + c.toNat / 0x1000), UInt8.ofNat (0x80 + c.toNat / 0x40 % 0x40),
        UInt8.ofNat (0x80 + c.toNat % 0x40)] := by
  have beyond : ¬c.toNat < 0x80 := by omega
  simp only [encodeChar, if_neg beyond, if_neg above, if_pos below, List.map_cons, List.map_nil]

theorem encodeChar_of_not_lt_10000 {c : Char} (above : ¬c.toNat < 0x10000) :
    encodeChar c =
      [UInt8.ofNat (0xf0 + c.toNat / 0x40000), UInt8.ofNat (0x80 + c.toNat / 0x1000 % 0x40),
        UInt8.ofNat (0x80 + c.toNat / 0x40 % 0x40), UInt8.ofNat (0x80 + c.toNat % 0x40)] := by
  have beyond : ¬c.toNat < 0x800 := by omega
  have beyondOne : ¬c.toNat < 0x80 := by omega
  simp only [encodeChar, if_neg beyondOne, if_neg beyond, if_neg above, List.map_cons, List.map_nil]

/-- The character that one decoding step takes from the front, by the number of its bytes. -/
theorem decodeAt_one {position : Nat} {a : UInt8} {rest : Bytes} (ascii : a < 0x80) :
    decodeAt position (a :: rest) =
      (decodeAt (position + 1) rest).map (Char.ofNat a.toNat :: ·) := by
  rw [decodeAt.eq_def]
  simp only [if_pos ascii]

theorem decodeAt_two {position : Nat} {a b : UInt8} {rest : Bytes} (low : ¬a < 0xc2)
    (high : a < 0xe0) (second : isContinuation b = true) :
    decodeAt position (a :: b :: rest) =
      (decodeAt (position + 2) rest).map (scalar (a.toNat - 0xc0) [b] :: ·) := by
  have ascii : ¬a < 0x80 := fun small => low (UInt8.lt_trans small (by decide))
  rw [decodeAt.eq_def]
  simp only [if_neg ascii, if_neg low, if_pos high, if_pos second]

theorem decodeAt_three {position : Nat} {a b c : UInt8} {rest : Bytes} (low : ¬a < 0xe0)
    (high : a < 0xf0) (second : isSecond a b = true) (third : isContinuation c = true) :
    decodeAt position (a :: b :: c :: rest) =
      (decodeAt (position + 3) rest).map (scalar (a.toNat - 0xe0) [b, c] :: ·) := by
  have ascii : ¬a < 0x80 := fun small => low (UInt8.lt_trans small (by decide))
  have start : ¬a < 0xc2 := fun small => low (UInt8.lt_trans small (by decide))
  rw [decodeAt.eq_def]
  simp only [if_neg ascii, if_neg start, if_neg low, if_pos high, if_pos second, if_pos third]

theorem decodeAt_four {position : Nat} {a b c d : UInt8} {rest : Bytes} (low : ¬a < 0xf0)
    (high : a < 0xf5) (second : isSecond a b = true) (third : isContinuation c = true)
    (fourth : isContinuation d = true) :
    decodeAt position (a :: b :: c :: d :: rest) =
      (decodeAt (position + 4) rest).map (scalar (a.toNat - 0xf0) [b, c, d] :: ·) := by
  have ascii : ¬a < 0x80 := fun small => low (UInt8.lt_trans small (by decide))
  have start : ¬a < 0xc2 := fun small => low (UInt8.lt_trans small (by decide))
  have three : ¬a < 0xe0 := fun small => low (UInt8.lt_trans small (by decide))
  rw [decodeAt.eq_def]
  simp only [if_neg ascii, if_neg start, if_neg three, if_neg low, if_pos high, if_pos second,
    if_pos third, if_pos fourth]

theorem scalar_eq {c : Char} {lead : Nat} {continuations : List UInt8}
    (value : continuations.foldl (fun code b => code * 0x40 + (b.toNat - 0x80)) lead = c.toNat) :
    scalar lead continuations = c := by
  rw [scalar, value, Char.ofNat_toNat]

theorem decodeAt_encodeChar (position : Nat) (c : Char) (rest : Bytes) :
    decodeAt position (encodeChar c ++ rest) =
      (decodeAt (position + (encodeChar c).length) rest).map (c :: ·) := by
  have valid : c.toNat < 0xd800 ∨ 0xdfff < c.toNat ∧ c.toNat < 0x110000 := c.valid
  by_cases one : c.toNat < 0x80
  · have first : (UInt8.ofNat c.toNat).toNat = c.toNat := toNat_ofNat_of_lt (by omega)
    rw [encodeChar_of_lt_80 one, List.singleton_append, List.length_singleton,
      decodeAt_one (by rw [UInt8.lt_iff_toNat_lt, first]; exact one), first, Char.ofNat_toNat]
  by_cases two : c.toNat < 0x800
  · have first := toNat_ofNat_of_lt (show 0xc0 + c.toNat / 0x40 < 256 by omega)
    have second := toNat_ofNat_of_lt (show 0x80 + c.toNat % 0x40 < 256 by omega)
    rw [encodeChar_of_lt_800 one two]
    generalize UInt8.ofNat (0xc0 + c.toNat / 0x40) = a at *
    generalize UInt8.ofNat (0x80 + c.toNat % 0x40) = b at *
    rw [List.cons_append, List.singleton_append, decodeAt_two, scalar_eq]
    · rfl
    · simp only [List.foldl_cons, List.foldl_nil]; omega
    · rw [UInt8.lt_iff_toNat_lt]; simp; omega
    · rw [UInt8.lt_iff_toNat_lt]; simp; omega
    · rw [isContinuation_iff]; omega
  by_cases three : c.toNat < 0x10000
  · have first := toNat_ofNat_of_lt (show 0xe0 + c.toNat / 0x1000 < 256 by omega)
    have second := toNat_ofNat_of_lt (show 0x80 + c.toNat / 0x40 % 0x40 < 256 by omega)
    have third := toNat_ofNat_of_lt (show 0x80 + c.toNat % 0x40 < 256 by omega)
    rw [encodeChar_of_lt_10000 two three]
    generalize UInt8.ofNat (0xe0 + c.toNat / 0x1000) = x at *
    generalize UInt8.ofNat (0x80 + c.toNat / 0x40 % 0x40) = y at *
    generalize UInt8.ofNat (0x80 + c.toNat % 0x40) = z at *
    rw [List.cons_append, List.cons_append, List.singleton_append, decodeAt_three, scalar_eq]
    · rfl
    · simp only [List.foldl_cons, List.foldl_nil]; omega
    · rw [UInt8.lt_iff_toNat_lt]; simp; omega
    · rw [UInt8.lt_iff_toNat_lt]; simp; omega
    · rw [isSecond_iff]; omega
    · rw [isContinuation_iff]; omega
  · have first := toNat_ofNat_of_lt (show 0xf0 + c.toNat / 0x40000 < 256 by omega)
    have second := toNat_ofNat_of_lt (show 0x80 + c.toNat / 0x1000 % 0x40 < 256 by omega)
    have third := toNat_ofNat_of_lt (show 0x80 + c.toNat / 0x40 % 0x40 < 256 by omega)
    have fourth := toNat_ofNat_of_lt (show 0x80 + c.toNat % 0x40 < 256 by omega)
    rw [encodeChar_of_not_lt_10000 three]
    generalize UInt8.ofNat (0xf0 + c.toNat / 0x40000) = x at *
    generalize UInt8.ofNat (0x80 + c.toNat / 0x1000 % 0x40) = y at *
    generalize UInt8.ofNat (0x80 + c.toNat / 0x40 % 0x40) = z at *
    generalize UInt8.ofNat (0x80 + c.toNat % 0x40) = w at *
    rw [List.cons_append, List.cons_append, List.cons_append, List.singleton_append,
      decodeAt_four, scalar_eq]
    · rfl
    · simp only [List.foldl_cons, List.foldl_nil]; omega
    · rw [UInt8.lt_iff_toNat_lt]; simp; omega
    · rw [UInt8.lt_iff_toNat_lt]; simp; omega
    · rw [isSecond_iff]; omega
    · rw [isContinuation_iff]; omega
    · rw [isContinuation_iff]; omega

theorem ofNat_eq {n : Nat} {b : UInt8} (same : n = b.toNat) : UInt8.ofNat n = b := by
  rw [same, UInt8.ofNat_toNat]

theorem encodeChar_ofNat {a : UInt8} (ascii : a < 0x80) :
    encodeChar (Char.ofNat a.toNat) = [a] := by
  rw [UInt8.lt_iff_toNat_lt] at ascii
  simp only [UInt8.reduceToNat] at ascii
  have code : (scalar a.toNat []).toNat = a.toNat := toNat_scalar rfl (by omega)
  have whole : Char.ofNat a.toNat = scalar a.toNat [] := rfl
  rw [whole, encodeChar_of_lt_80 (by omega), code, UInt8.ofNat_toNat]

theorem encodeChar_scalar_two {a b : UInt8} (low : ¬a < 0xc2) (high : a < 0xe0)
    (second : isContinuation b = true) : encodeChar (scalar (a.toNat - 0xc0) [b]) = [a, b] := by
  rw [UInt8.lt_iff_toNat_lt] at low high
  simp only [UInt8.reduceToNat] at low high
  rw [isContinuation_iff] at second
  have code : (scalar (a.toNat - 0xc0) [b]).toNat = (a.toNat - 0xc0) * 0x40 + (b.toNat - 0x80) :=
    toNat_scalar rfl (by omega)
  rw [encodeChar_of_lt_800 (by omega) (by omega), code, ofNat_eq (show _ = a.toNat by omega),
    ofNat_eq (show _ = b.toNat by omega)]

theorem encodeChar_scalar_three {a b c : UInt8} (low : ¬a < 0xe0) (high : a < 0xf0)
    (second : isSecond a b = true) (third : isContinuation c = true) :
    encodeChar (scalar (a.toNat - 0xe0) [b, c]) = [a, b, c] := by
  rw [UInt8.lt_iff_toNat_lt] at low high
  simp only [UInt8.reduceToNat] at low high
  rw [isSecond_iff] at second
  rw [isContinuation_iff] at third
  have code : (scalar (a.toNat - 0xe0) [b, c]).toNat =
      ((a.toNat - 0xe0) * 0x40 + (b.toNat - 0x80)) * 0x40 + (c.toNat - 0x80) :=
    toNat_scalar rfl (by omega)
  rw [encodeChar_of_lt_10000 (by omega) (by omega), code, ofNat_eq (show _ = a.toNat by omega),
    ofNat_eq (show _ = b.toNat by omega), ofNat_eq (show _ = c.toNat by omega)]

theorem encodeChar_scalar_four {a b c d : UInt8} (low : ¬a < 0xf0) (high : a < 0xf5)
    (second : isSecond a b = true) (third : isContinuation c = true)
    (fourth : isContinuation d = true) :
    encodeChar (scalar (a.toNat - 0xf0) [b, c, d]) = [a, b, c, d] := by
  rw [UInt8.lt_iff_toNat_lt] at low high
  simp only [UInt8.reduceToNat] at low high
  rw [isSecond_iff] at second
  rw [isContinuation_iff] at third fourth
  have code : (scalar (a.toNat - 0xf0) [b, c, d]).toNat =
      (((a.toNat - 0xf0) * 0x40 + (b.toNat - 0x80)) * 0x40 + (c.toNat - 0x80)) * 0x40 +
        (d.toNat - 0x80) :=
    toNat_scalar rfl (by omega)
  rw [encodeChar_of_not_lt_10000 (by omega), code, ofNat_eq (show _ = a.toNat by omega),
    ofNat_eq (show _ = b.toNat by omega), ofNat_eq (show _ = c.toNat by omega),
    ofNat_eq (show _ = d.toNat by omega)]

theorem decodeAt_encodeChars (position : Nat) (text : List Char) :
    decodeAt position (encodeChars text) = .ok text := by
  induction text generalizing position with
  | nil => rw [encodeChars, List.flatMap_nil, decodeAt]
  | cons c text ih =>
    rw [encodeChars, List.flatMap_cons, decodeAt_encodeChar, ← encodeChars, ih]
    rfl

theorem map_cons_eq_ok {c : Char} {decoded : Except Fault (List Char)} {text : List Char}
    (mapped : decoded.map (c :: ·) = .ok text) : ∃ tail, decoded = .ok tail ∧ text = c :: tail := by
  cases decoded with
  | error fault => cases mapped
  | ok tail => cases mapped; exact ⟨tail, rfl, rfl⟩

theorem eq_encodeChars_of_decodeAt {position : Nat} {bytes : Bytes} {text : List Char}
    (decoded : decodeAt position bytes = .ok text) : bytes = encodeChars text := by
  fun_induction decodeAt position bytes generalizing text
  case case1 =>
    cases decoded
    rfl
  case case2 position a rest ascii ih =>
    obtain ⟨tail, inner, rfl⟩ := map_cons_eq_ok decoded
    rw [encodeChars, List.flatMap_cons, encodeChar_ofNat ascii, ← encodeChars, ← ih inner]
    rfl
  case case5 position a _ low high b rest second ih =>
    obtain ⟨tail, inner, rfl⟩ := map_cons_eq_ok decoded
    rw [encodeChars, List.flatMap_cons, encodeChar_scalar_two low high second, ← encodeChars,
      ← ih inner]
    rfl
  case case9 position a _ _ low high b second c rest third ih =>
    obtain ⟨tail, inner, rfl⟩ := map_cons_eq_ok decoded
    rw [encodeChars, List.flatMap_cons, encodeChar_scalar_three low high second third,
      ← encodeChars, ← ih inner]
    rfl
  case case15 position a _ _ _ low high b second c third d rest fourth ih =>
    obtain ⟨tail, inner, rfl⟩ := map_cons_eq_ok decoded
    rw [encodeChars, List.flatMap_cons, encodeChar_scalar_four low high second third fourth,
      ← encodeChars, ← ih inner]
    rfl
  all_goals exact nomatch decoded

theorem decode_eq_ok_iff {bytes : Bytes} {text : String} :
    decode bytes = .ok text ↔ bytes = encode text := by
  constructor
  · intro decoded
    cases inner : decodeAt 0 bytes with
    | error fault => simp [decode, inner, Except.map] at decoded
    | ok chars =>
      simp only [decode, inner, Except.map, Except.ok.injEq] at decoded
      rw [eq_encodeChars_of_decodeAt inner, encode, ← decoded, String.toList_ofList]
  · rintro rfl
    simp only [decode, encode, decodeAt_encodeChars, Except.map, String.ofList_toList]

theorem encodeChar_eq_utf8EncodeChar (c : Char) : encodeChar c = String.utf8EncodeChar c := by
  have valid : c.toNat < 0xd800 ∨ 0xdfff < c.toNat ∧ c.toNat < 0x110000 := c.valid
  have unfolded : String.utf8EncodeChar c =
      if c.toNat ≤ 0x7f then [UInt8.ofNat c.toNat]
      else if c.toNat ≤ 0x7ff then
        [UInt8.ofNat (c.toNat / 0x40 % 0x20 + 0xc0), UInt8.ofNat (c.toNat % 0x40 + 0x80)]
      else if c.toNat ≤ 0xffff then
        [UInt8.ofNat (c.toNat / 0x1000 % 0x10 + 0xe0), UInt8.ofNat (c.toNat / 0x40 % 0x40 + 0x80),
          UInt8.ofNat (c.toNat % 0x40 + 0x80)]
      else
        [UInt8.ofNat (c.toNat / 0x40000 % 0x08 + 0xf0),
          UInt8.ofNat (c.toNat / 0x1000 % 0x40 + 0x80), UInt8.ofNat (c.toNat / 0x40 % 0x40 + 0x80),
          UInt8.ofNat (c.toNat % 0x40 + 0x80)] := rfl
  rw [unfolded]
  by_cases one : c.toNat < 0x80
  · rw [encodeChar_of_lt_80 one, if_pos (by omega)]
  by_cases two : c.toNat < 0x800
  · rw [encodeChar_of_lt_800 one two, if_neg (by omega), if_pos (by omega)]
    simp only [Nat.add_comm 0xc0, Nat.add_comm 0x80]
    rw [Nat.mod_eq_of_lt (show c.toNat / 0x40 < 0x20 by omega)]
  by_cases three : c.toNat < 0x10000
  · rw [encodeChar_of_lt_10000 two three, if_neg (by omega), if_neg (by omega), if_pos (by omega)]
    simp only [Nat.add_comm 0xe0, Nat.add_comm 0x80]
    rw [Nat.mod_eq_of_lt (show c.toNat / 0x1000 < 0x10 by omega)]
  · rw [encodeChar_of_not_lt_10000 three, if_neg (by omega), if_neg (by omega), if_neg (by omega)]
    simp only [Nat.add_comm 0xf0, Nat.add_comm 0x80]
    rw [Nat.mod_eq_of_lt (show c.toNat / 0x40000 < 0x08 by omega)]

def IsText (content : Bytes) : Prop :=
  content.toByteArray.IsValidUTF8

theorem isText_iff {content : Bytes} : IsText content ↔ ∃ text, decode content = .ok text := by
  have chars : encodeChar = String.utf8EncodeChar := funext encodeChar_eq_utf8EncodeChar
  constructor
  · rintro ⟨text, same⟩
    refine ⟨String.ofList text, decode_eq_ok_iff.2 ?_⟩
    rw [encode, String.toList_ofList, encodeChars, chars]
    have lists := congrArg (fun bytes => bytes.data.toList) same
    simpa [List.utf8Encode] using lists
  · rintro ⟨text, decoded⟩
    refine ⟨text.toList, ?_⟩
    rw [decode_eq_ok_iff.1 decoded, encode, encodeChars, chars]
    rfl

end GoMetadata.Utf8
