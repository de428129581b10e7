import GoMetadata.Wire
import Mathlib.Algebra.Group.Nat.Defs

/-!
The bytes that a varint may be written with, and the reader held to them: it accepts exactly the
spellings of at most ten bytes, whatever follows them, and so reads back every number below
`2 ^ 70` that is written. A spelling that is cut off is never taken for a shorter one.
-/

namespace GoMetadata.Wire.Varint

/-- Spellings of numbers in base 128, which need not be the shortest. -/
inductive Spells : Bytes → Nat → Prop where
  | last {byte : UInt8} : byte < 0x80 → Spells [byte] byte.toNat
  | more {byte : UInt8} {rest : Bytes} {high : Nat} : ¬byte < 0x80 → Spells rest high →
      Spells (byte :: rest) (byte.toNat - 0x80 + 0x80 * high)

structure IsVarint (bytes : Bytes) (value : Nat) : Prop where
  spells : Spells bytes value
  short : bytes.length ≤ maxLength

theorem decodeWithin_of_spells {digits : Bytes} {value : Nat} (spells : Spells digits value)
    {room : Nat} (short : digits.length ≤ room) (rest : Bytes) :
    decodeWithin room (digits ++ rest) = .ok (value, rest) := by
  induction spells generalizing room with
  | last low =>
    cases room with
    | zero => simp at short
    | succ room => simp only [List.singleton_append, decodeWithin, if_pos low]
  | more high _ ih =>
    cases room with
    | zero => simp at short
    | succ room =>
      have shorter := Nat.le_of_succ_le_succ short
      simp only [List.cons_append, decodeWithin, if_neg high, ih shorter, Except.map]

theorem spells_of_decodeWithin {room : Nat} {bytes rest : Bytes} {value : Nat}
    (read : decodeWithin room bytes = .ok (value, rest)) :
    ∃ digits, bytes = digits ++ rest ∧ Spells digits value ∧ digits.length ≤ room := by
  induction room generalizing bytes value with
  | zero => simp [decodeWithin] at read
  | succ room ih =>
    cases bytes with
    | nil => simp [decodeWithin] at read
    | cons byte tail =>
      by_cases low : byte < 0x80
      · simp only [decodeWithin, if_pos low, Except.ok.injEq, Prod.mk.injEq] at read
        obtain ⟨rfl, rfl⟩ := read
        exact ⟨[byte], rfl, .last low, by simp⟩
      · cases deeper : decodeWithin room tail with
        | error fault => simp [decodeWithin, low, deeper, Except.map] at read
        | ok found =>
          simp only [decodeWithin, if_neg low, deeper, Except.map, Except.ok.injEq,
            Prod.mk.injEq] at read
          obtain ⟨rfl, rfl⟩ := read
          obtain ⟨digits, rfl, spells, short⟩ := ih deeper
          exact ⟨byte :: digits, rfl, .more low spells, Nat.succ_le_succ short⟩

/-- The reader accepts exactly the spellings that are short enough, whatever follows them. -/
theorem decode_eq_ok_iff {bytes rest : Bytes} {value : Nat} :
    decode bytes = .ok (value, rest) ↔
      ∃ digits, bytes = digits ++ rest ∧ IsVarint digits value := by
  constructor
  · intro read
    obtain ⟨digits, same, spells, short⟩ := spells_of_decodeWithin read
    exact ⟨digits, same, spells, short⟩
  · rintro ⟨digits, rfl, varint⟩
    exact decodeWithin_of_spells varint.spells varint.short rest

example : decode [0xac, 0x02, 0x07] = .ok (300, [0x07]) :=
  rfl

theorem IsVarint.decode_append {digits : Bytes} {value : Nat} (varint : IsVarint digits value)
    (rest : Bytes) : decode (digits ++ rest) = .ok (value, rest) :=
  decode_eq_ok_iff.2 ⟨digits, rfl, varint⟩

theorem decodeWithin_of_cut {digits part : Bytes} {value room : Nat} (spells : Spells digits value)
    (fits : digits.length ≤ room) (cut : part <+: digits) (short : part ≠ digits) :
    decodeWithin room part = .error .truncatedVarint := by
  induction spells generalizing part room with
  | last low =>
    cases room with
    | zero => simp at fits
    | succ room =>
      cases part with
      | nil => rfl
      | cons head tail =>
        obtain ⟨rfl, nothing⟩ := List.cons_prefix_cons.1 cut
        have whole : tail = [] := List.prefix_nil.1 nothing
        exact absurd (whole ▸ rfl) short
  | @more byte rest high large _ ih =>
    cases room with
    | zero => simp at fits
    | succ room =>
      cases part with
      | nil => rfl
      | cons head tail =>
        obtain ⟨rfl, tailCut⟩ := List.cons_prefix_cons.1 cut
        have tailShort : tail ≠ rest := fun same => short (same ▸ rfl)
        have deeper := ih (Nat.le_of_succ_le_succ fits) tailCut tailShort
        simp only [decodeWithin, if_neg large, deeper, Except.map]

theorem IsVarint.decode_of_cut {digits part : Bytes} {value : Nat} (varint : IsVarint digits value)
    (cut : part <+: digits) (short : part ≠ digits) : decode part = .error .truncatedVarint :=
  decodeWithin_of_cut varint.spells varint.short cut short

theorem encode_spells (value : Nat) : Spells (encode value) value := by
  induction value using Nat.strongRecOn with
  | ind value ih =>
    rw [encode]
    split
    next small =>
      have byte : (UInt8.ofNat value).toNat = value := by
        rw [UInt8.toNat_ofNat']
        omega
      have low : UInt8.ofNat value < 0x80 := by
        rw [UInt8.lt_iff_toNat_lt, byte]
        exact small
      have last := Spells.last low
      rwa [byte] at last
    next large =>
      have byte : (UInt8.ofNat (0x80 + value % 0x80)).toNat = 0x80 + value % 0x80 := by
        rw [UInt8.toNat_ofNat']
        omega
      have high : ¬UInt8.ofNat (0x80 + value % 0x80) < 0x80 := by
        rw [UInt8.lt_iff_toNat_lt, byte]
        simp
      have more := Spells.more high (ih (value / 0x80) (by omega))
      rw [byte] at more
      have whole : 0x80 + value % 0x80 - 0x80 + 0x80 * (value / 0x80) = value := by omega
      rwa [whole] at more

theorem length_encode_le {value : Nat} (length : Nat) (small : value < 0x80 ^ (length + 1)) :
    (encode value).length ≤ length + 1 := by
  induction length generalizing value with
  | zero =>
    have digit : value < 0x80 := by simpa using small
    rw [encode, if_pos digit]
    simp
  | succ length ih =>
    rw [encode]
    split
    · simp
    · have quotient : value / 0x80 < 0x80 ^ (length + 1) := by
        rw [Nat.div_lt_iff_lt_mul (by decide), ← Nat.pow_succ]
        exact small
      have shorter := ih quotient
      simp only [List.length_cons]
      omega

theorem isVarint_encode {value : Nat} (small : value < 2 ^ 70) : IsVarint (encode value) value :=
  ⟨encode_spells value, length_encode_le 9 (by simpa using small)⟩

end GoMetadata.Wire.Varint
