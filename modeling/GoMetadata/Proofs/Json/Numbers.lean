import GoMetadata.Json.Reader
import GoMetadata.Json.Writer
import Mathlib.Algebra.Group.Nat.Defs
import Mathlib.Data.List.Induction
import Mathlib.Data.List.TakeDrop

/-!
JSON integers read back. An integer that is written has no needless zero in front, and what follows
a value in a text does not go on with its digits, so the reader takes all of them and nothing more.
-/

namespace GoMetadata

namespace Numeral

theorem value_toDigits (number : Nat) : value (Nat.toDigits 10 number) = number :=
  Nat.ofDigitChars_toDigits (by decide) (by decide)

theorem length_toDigits_le {number : Nat} (small : number < 10 ^ maxDigits) :
    (Nat.toDigits 10 number).length ≤ maxDigits :=
  (Nat.length_toDigits_le_iff (by decide) (by decide)).2 small

theorem lt_pow_maxDigits {number : Nat} (single : number < 10) : number < 10 ^ maxDigits :=
  calc
    number < 10 ^ 1 := single
    _ ≤ 10 ^ maxDigits := Nat.pow_le_pow_right (by decide) (by decide)

theorem all_isDigit_toDigits (number : Nat) :
    ∀ c ∈ Nat.toDigits 10 number, c.isDigit = true := by
  intro c member
  exact Nat.isDigit_of_mem_toDigits (by decide) (by decide) member

theorem toDigits_pow (zeros : Nat) :
    Nat.toDigits 10 (10 ^ zeros) = '1' :: List.replicate zeros '0' := by
  induction zeros with
  | zero => rfl
  | succ zeros ih =>
    have positive : 0 < 10 ^ zeros := Nat.pow_pos (by decide)
    rw [Nat.toDigits_eq_if (by decide), if_neg (by omega : ¬10 ^ (zeros + 1) < 10), Nat.pow_succ,
      Nat.mul_div_cancel _ (by decide), Nat.mul_mod_left, ih, List.replicate_succ']
    rfl

theorem value_lt {digits : List Char} (all : ∀ c ∈ digits, c.isDigit = true) :
    value digits < 10 ^ digits.length := by
  induction digits using List.reverseRecOn with
  | nil => exact Nat.one_pos
  | append_singleton digits c ih =>
    have last : c.toNat - 48 < 10 := by
      have digit := all c (by simp)
      have upper : c.toNat ≤ 57 := (Char.isDigit_iff_toNat.1 digit).2
      omega
    have first := ih fun d member => all d (List.mem_append_left _ member)
    have step : value (digits ++ [c]) = 10 * value digits + (c.toNat - 48) := by
      rw [value, List.foldl_append]
      rfl
    rw [step, List.length_append, List.length_singleton, Nat.pow_succ]
    omega

theorem head?_toDigits_ne {number : Nat} (positive : 0 < number) :
    (Nat.toDigits 10 number).head? ≠ some '0' := by
  induction number using Nat.strongRecOn with
  | ind number ih =>
    by_cases single : number < 10
    · have all : ∀ digit < 10, 0 < digit → Nat.digitChar digit ≠ '0' := by decide
      rw [Nat.toDigits_of_lt_base single]
      intro same
      exact all number single positive (Option.some.inj same)
    · have shorter := ih (number / 10) (by omega) (by omega)
      rw [Nat.toDigits_eq_if (by decide), if_neg single, List.head?_append]
      intro same
      rcases Option.or_eq_some_iff.1 same with first | ⟨none, -⟩
      · exact shorter first
      · exact Nat.toDigits_ne_nil (List.head?_eq_none_iff.1 none)

end Numeral

namespace Json

theorem toList_toString_int (value : Int) :
    (toString value).toList =
      (if value < 0 then ['-'] else []) ++ Nat.toDigits 10 value.natAbs := by
  rw [Int.toString_eq_repr, Int.repr_eq_if]
  by_cases negative : value < 0
  · have magnitude : (-value).toNat = value.natAbs := by omega
    rw [if_neg (by omega), if_pos negative, Nat.repr_eq_ofList_toDigits, magnitude,
      String.toList_append]
    exact congrArg ('-' :: ·) String.toList_ofList
  · have magnitude : value.toNat = value.natAbs := by omega
    rw [if_pos (by omega), if_neg negative, Nat.repr_eq_ofList_toDigits, magnitude,
      String.toList_ofList]
    rfl

/-- What may follow a value: nothing, or what ends an item or an entry. -/
def Ends (after : List Char) : Prop :=
  ∀ c ∈ after.head?, c = ',' ∨ c = ']' ∨ c = '\x7d'

theorem ends_cons {c : Char} (mark : c = ',' ∨ c = ']' ∨ c = '\x7d') (rest : List Char) :
    Ends (c :: rest) := by
  intro d head
  cases head
  exact mark

section

variable {after : List Char}

theorem Ends.not_isDigit (ends : Ends after) : ∀ c ∈ after.head?, c.isDigit = false := by
  intro c head
  obtain rfl | rfl | rfl := ends c head <;> decide

theorem spanDigits_append {digits : List Char} (all : ∀ c ∈ digits, c.isDigit = true)
    (ends : Ends after) : spanDigits (digits ++ after) = (digits, after) := by
  have stop : after.takeWhile Char.isDigit = [] ∧ after.dropWhile Char.isDigit = after := by
    cases after with
    | nil => exact ⟨rfl, rfl⟩
    | cons c rest =>
      have other := ends.not_isDigit c rfl
      rw [List.takeWhile_cons, List.dropWhile_cons, other]
      exact ⟨rfl, rfl⟩
  rw [spanDigits, List.span_eq_takeWhile_dropWhile, List.takeWhile_append_of_pos all,
    List.dropWhile_append_of_pos all, stop.1, stop.2, List.append_nil]

theorem readWhole?_toDigits (number : Nat) (ends : Ends after) :
    readWhole? (Nat.toDigits 10 number ++ after) = some (Nat.toDigits 10 number, after) := by
  by_cases zero : number = 0
  · rw [zero]
    rfl
  have span := spanDigits_append (Numeral.all_isDigit_toDigits number) ends
  have first := Numeral.head?_toDigits_ne (Nat.pos_of_ne_zero zero)
  cases digits : Nat.toDigits 10 number with
  | nil => exact absurd digits Nat.toDigits_ne_nil
  | cons c rest =>
    rw [digits] at span first
    have other : c ≠ '0' := by
      intro same
      exact first (congrArg some same)
    rw [List.cons_append] at span ⊢
    rw [readWhole?, span]
    intro _ same
    exact absurd (List.cons.inj same).1 other

theorem readFraction?_eq_none (ends : Ends after) : readFraction? after = none := by
  cases after with
  | nil => rfl
  | cons c rest => obtain rfl | rfl | rfl := ends c rfl <;> rfl

theorem readExponent?_eq_none (ends : Ends after) : readExponent? after = none := by
  cases after with
  | nil => rfl
  | cons c rest => obtain rfl | rfl | rfl := ends c rfl <;> rfl

variable {index : Nat}

theorem readNumber_of_readWhole? (index : Nat) (negative : Bool) {c : Char} {digits : List Char}
    (unsigned : c ≠ '-')
    (read : readWhole? (c :: (digits ++ after)) = some (c :: digits, after)) (ends : Ends after) :
    readNumber ⟨(if negative then ['-'] else []) ++ c :: digits ++ after, index⟩ =
      if Numeral.maxDigits < (c :: digits).length then
        .error (.numeralTooLong (c :: digits).length)
      else
        .ok (.int (Numeral.signed negative (c :: digits)),
          ⟨after, index + (negative.toNat + (c :: digits).length)⟩) := by
  cases negative with
  | true => simp [readNumber, read, readFraction?_eq_none ends, readExponent?_eq_none ends]
  | false =>
    simp [readNumber, unsigned, read, readFraction?_eq_none ends, readExponent?_eq_none ends]

theorem exists_toDigits_eq_cons (number : Nat) :
    ∃ c digits, Nat.toDigits 10 number = c :: digits ∧ c.isDigit = true := by
  cases written : Nat.toDigits 10 number with
  | nil => exact absurd written Nat.toDigits_ne_nil
  | cons c digits =>
    refine ⟨c, digits, rfl, Numeral.all_isDigit_toDigits number c ?_⟩
    rw [written]
    exact List.mem_cons_self

theorem signed_toDigits (value : Int) :
    Numeral.signed (decide (value < 0)) (Nat.toDigits 10 value.natAbs) = value := by
  rw [Numeral.signed, Numeral.value_toDigits]
  by_cases negative : value < 0
  · rw [if_pos (decide_eq_true negative)]
    omega
  · rw [if_neg (by simpa using negative)]
    omega

/-- An integer is read back, unless it has too many digits. -/
theorem readNumber_toString (value : Int) (ends : Ends after) :
    readNumber ⟨(toString value).toList ++ after, index⟩ =
      if Numeral.maxDigits < (Nat.toDigits 10 value.natAbs).length then
        .error (.numeralTooLong (Nat.toDigits 10 value.natAbs).length)
      else .ok (.int value, ⟨after, index + (toString value).toList.length⟩) := by
  obtain ⟨c, digits, written, digit⟩ := exists_toDigits_eq_cons value.natAbs
  have unsigned : c ≠ '-' := by
    intro same
    rw [same] at digit
    cases digit
  have whole := readWhole?_toDigits value.natAbs ends
  have same := signed_toDigits value
  rw [written] at whole same
  have read := readNumber_of_readWhole? index (decide (value < 0)) unsigned whole ends
  rw [same] at read
  rw [toList_toString_int, written]
  by_cases negative : value < 0
  · simpa [negative, Nat.add_comm] using read
  · simpa [negative] using read

end

end Json

end GoMetadata
