import SpotMargin.Proofs.Numeral.Grammar

/-!
# Canonical numerals

Of the numerals of an integer one is canonical: it has no leading zero, no underscore and no plus
sign.  The written numeral is that one, at both ends of the range too, and it is read back
(`read_numeral`, `numeral_canonical`).
-/

namespace SpotMargin
namespace Numeral

open Fixed

variable {cs ds : List Char} {c : Char} {n : Int}

/-- The characters are digits, and the first of them is not zero. -/
structure Unpadded (ds : List Char) : Prop where
  nonempty : ds ≠ []
  isDigit : ∀ c ∈ ds, c.isDigit = true
  first : ds.head? ≠ some '0'

/-- The characters are the canonical numeral of the integer. -/
inductive Canonical : Int → List Char → Prop
  | zero : Canonical 0 ['0']
  | positive {ds : List Char} : Unpadded ds → Canonical (magnitude ds) ds
  | negative {ds : List Char} : Unpadded ds → Canonical (-magnitude ds) ('-' :: ds)

theorem body_of_isDigit (nonempty : ds ≠ []) (isDigit : ∀ c ∈ ds, c.isDigit = true) : Body ds where
  inBody := fun c mem => .inl (isDigit c mem)
  digit := by
    obtain ⟨c, mem⟩ := List.exists_mem_of_ne_nil ds nonempty
    exact ⟨c, mem, isDigit c mem⟩

theorem extend_of_isDigit (isDigit : ∀ c ∈ ds, c.isDigit = true) (start : Nat) :
    extend start ds = Nat.ofDigitChars 10 ds start := by
  rw [extend, List.filter_eq_self.mpr isDigit]

@[simp]
theorem magnitude_digits (n : Nat) : magnitude (digits n) = n := by
  rw [magnitude, extend_of_isDigit (fun _ => isDigit_of_mem_digits)]
  exact Nat.ofDigitChars_toDigits (by decide) (by decide)

/-- The digits of a positive number have no zero in front. -/
theorem head?_digits_ne_zero {n : Nat} (positive : 0 < n) : (digits n).head? ≠ some '0' := by
  induction n using Nat.strongRecOn with
  | ind n ih =>
      rw [digits, Nat.toDigits_eq_if (by decide)]
      by_cases small : n < 10
      · rw [if_pos small, List.head?_cons, Ne, Option.some.injEq, Nat.digitChar_eq_zero]
        omega
      · rw [if_neg small, ← digits]
        intro head
        obtain ⟨first, rest, quotient_eq⟩ := List.exists_cons_of_ne_nil (digits_ne_nil (n / 10))
        have quotient_head := ih (n / 10) (by omega) (by omega)
        rw [quotient_eq] at head quotient_head
        exact quotient_head head

theorem unpadded_digits {n : Nat} (positive : 0 < n) : Unpadded (digits n) where
  nonempty := digits_ne_nil n
  isDigit := fun _ => isDigit_of_mem_digits
  first := head?_digits_ne_zero positive

theorem digitValue_lt (digit : c.isDigit = true) : digitValue c < 10 := by
  have bounds : 48 ≤ c.toNat ∧ c.toNat ≤ 57 := Char.isDigit_iff_toNat.mp digit
  change c.toNat - 48 < 10
  omega

theorem digitChar_digitValue (digit : c.isDigit = true) : Nat.digitChar (digitValue c) = c := by
  have bounds : 48 ≤ c.toNat ∧ c.toNat ≤ 57 := Char.isDigit_iff_toNat.mp digit
  apply Char.toNat_inj.mp
  rw [Nat.toNat_digitChar_of_lt_ten (digitValue_lt digit)]
  change 48 + (c.toNat - 48) = c.toNat
  omega

theorem digitValue_pos (digit : c.isDigit = true) (nonzero : c ≠ '0') : 0 < digitValue c := by
  rw [Nat.pos_iff_ne_zero, Ne, ← Nat.digitChar_eq_zero, digitChar_digitValue digit]
  exact nonzero

theorem digits_digitValue (digit : c.isDigit = true) : digits (digitValue c) = [c] := by
  rw [digits, Nat.toDigits_of_lt_base (digitValue_lt digit), digitChar_digitValue digit]

/-- Digits that follow those of a positive number extend it. -/
theorem digits_append (isDigit : ∀ c ∈ ds, c.isDigit = true) {start : Nat} (positive : 0 < start) :
    digits start ++ ds = digits (extend start ds) := by
  induction ds generalizing start with
  | nil => exact List.append_nil _
  | cons c ds ih =>
      have digit := isDigit c List.mem_cons_self
      have step : digits start ++ [c] = digits (10 * start + digitValue c) := by
        rw [← digits_digitValue digit]
        exact Nat.toDigits_append_toDigits (by decide) positive (digitValue_lt digit)
      rw [extend_digit digit, List.append_cons, step]
      exact ih (fun d mem => isDigit d (List.mem_cons_of_mem c mem)) (by omega)

namespace Unpadded

theorem body (unpadded : Unpadded ds) : Body ds :=
  body_of_isDigit unpadded.nonempty unpadded.isDigit

theorem exists_cons (unpadded : Unpadded ds) :
    ∃ c rest, ds = c :: rest ∧ c.isDigit = true ∧ 0 < digitValue c ∧
      ∀ d ∈ rest, d.isDigit = true := by
  obtain ⟨c, rest, rfl⟩ := List.exists_cons_of_ne_nil unpadded.nonempty
  obtain ⟨digit, rest_digits⟩ := List.forall_mem_cons.mp unpadded.isDigit
  have nonzero : c ≠ '0' := fun zero => unpadded.first (congrArg some zero)
  exact ⟨c, rest, rfl, digit, digitValue_pos digit nonzero, rest_digits⟩

theorem magnitude_pos (unpadded : Unpadded ds) : 0 < magnitude ds := by
  obtain ⟨c, rest, rfl, digit, positive, -⟩ := unpadded.exists_cons
  rw [magnitude, extend_digit digit, Nat.mul_zero, Nat.zero_add]
  exact positive.trans_le (le_extend _ rest)

/-- Digits are those of the number that they name. -/
theorem digits_magnitude (unpadded : Unpadded ds) : digits (magnitude ds) = ds := by
  obtain ⟨c, rest, rfl, digit, positive, rest_digits⟩ := unpadded.exists_cons
  rw [magnitude, extend_digit digit, Nat.mul_zero, Nat.zero_add,
    ← digits_append rest_digits positive, digits_digitValue digit]
  rfl

end Unpadded

theorem canonical_chars (n : Int) : Canonical n (chars n) := by
  rcases lt_trichotomy n 0 with negative | rfl | positive
  · have canonical := Canonical.negative (unpadded_digits (Int.natAbs_pos.mpr negative.ne))
    rw [magnitude_digits, Int.ofNat_natAbs_of_nonpos negative.le, Int.neg_neg] at canonical
    rwa [chars_of_neg negative]
  · exact .zero
  · have canonical := Canonical.positive (unpadded_digits (Int.natAbs_pos.mpr positive.ne'))
    rw [magnitude_digits, Int.natAbs_of_nonneg positive.le] at canonical
    rwa [chars_of_nonneg positive.le]

/-- The written numeral is the only canonical one. -/
theorem Canonical.eq_chars (canonical : Canonical n cs) : cs = chars n := by
  cases canonical with
  | zero => rfl
  | positive unpadded =>
      rw [chars_of_nonneg (Int.natCast_nonneg _), Int.natAbs_natCast, unpadded.digits_magnitude]
  | negative unpadded =>
      have positive := unpadded.magnitude_pos
      rw [chars_of_neg (by omega), Int.natAbs_neg, Int.natAbs_natCast, unpadded.digits_magnitude]

theorem canonical_iff {text : String} {x : Fixed} :
    Canonical x.toInt text.toList ↔ text = x.numeral := by
  constructor
  · intro canonical
    rw [← String.toList_inj, Fixed.toList_numeral, canonical.eq_chars]
  · rintro rfl
    rw [Fixed.toList_numeral]
    exact canonical_chars x.toInt

/-- A canonical numeral is a numeral. -/
theorem Canonical.denotes (canonical : Canonical n cs) : Denotes cs n := by
  cases canonical with
  | zero =>
      exact .nonnegative (.unmarked (by decide) (by decide))
        (body_of_isDigit (by decide) (List.forall_mem_singleton.mpr rfl))
  | positive unpadded =>
      have unmarked {sign : Char} (special : sign.isDigit = false) : cs.head? ≠ some sign := by
        intro head
        rw [unpadded.isDigit sign (List.mem_of_head? head)] at special
        cases special
      exact .nonnegative (.unmarked (unmarked rfl) (unmarked rfl)) unpadded.body
  | negative unpadded => exact .negative (.minus _) unpadded.body

/-- Every fixed-point integer is read back from its numeral. -/
@[simp]
theorem read_numeral (x : Fixed) : read x.numeral = .ok x :=
  read_eq_ok_iff_denotes.mpr (canonical_iff.mpr rfl).denotes

/-- The numeral of a fixed-point integer is canonical and is read back.  Whatever text is read as
the integer denotes it and no other, and has this numeral for its only canonical form. -/
theorem numeral_canonical (x : Fixed) :
    Canonical x.toInt x.numeral.toList ∧ read x.numeral = .ok x ∧
      ∀ text, read text = .ok x → (∀ n, Denotes text.toList n ↔ n = x.toInt) ∧
        ∀ other : String, Canonical x.toInt other.toList ↔ other = x.numeral := by
  refine ⟨canonical_iff.mpr rfl, read_numeral x, fun text returned => ⟨fun n => ?_, ?_⟩⟩
  · have denotes := read_eq_ok_iff_denotes.mp returned
    constructor
    · intro other_denotes
      exact other_denotes.unique denotes
    · rintro rfl
      exact denotes
  · intro other
    exact canonical_iff

/-- The least integer, whose magnitude is out of range, from a text with leading zeros. -/
theorem numeral_canonical_of_padded_least :
    let text := "-000_170141183460469231731687303715884105728"
    let numeral := "-170141183460469231731687303715884105728"
    least.numeral = numeral ∧ read text = .ok least ∧
      (∀ n, Denotes text.toList n ↔ n = least.toInt) ∧
      ∀ other : String, Canonical least.toInt other.toList ↔ other = numeral := by
  intro text numeral
  have numeral_eq : least.numeral = numeral := by decide +kernel
  have returned : read text = .ok least := by decide +kernel
  have forms := (numeral_canonical least).2.2 text returned
  rw [numeral_eq] at forms
  exact ⟨numeral_eq, returned, forms.1, forms.2⟩

end Numeral
end SpotMargin
