import Mathlib.Tactic.Ring
import SpotMargin.Numeral.Reader

/-!
# The grammar of numerals

Which texts name an integer, and which one, without the reader: an optional sign, and then digits
and underscores, among them at least one digit.  The reader takes the numerals of the integers in
range and no other text.  Of the other texts, it says that their digits run out of range whenever
it comes to that before it comes to a character that does not belong (`read_grammar`).  A text is
any sequence of characters, so bytes count as the characters with their codes.
-/

namespace SpotMargin
namespace Numeral

open Fixed

variable {text : String} {chars body front rest : List Char} {c : Char} {negative : Bool}
  {value : Fixed} {start : Nat} {n : Int}

/-- The character may stand in the body of a numeral. -/
def InBody (c : Char) : Prop :=
  c.isDigit = true ∨ c = '_'

/-- The natural number that the digits of a body name when they follow the digits of `start`.
Underscores do not count. -/
def extend (start : Nat) (body : List Char) : Nat :=
  Nat.ofDigitChars 10 (body.filter Char.isDigit) start

/-- The natural number that the digits of a body name. -/
def magnitude (body : List Char) : Nat :=
  extend 0 body

/-- What follows the sign of a numeral. -/
structure Body (body : List Char) : Prop where
  inBody : ∀ c ∈ body, InBody c
  digit : ∃ c ∈ body, c.isDigit = true

/-- The characters are a sign, which is a minus sign when `negative` is true, and a body.  The plus
sign may be missing. -/
inductive Signed : List Char → Bool → List Char → Prop
  | minus (body : List Char) : Signed ('-' :: body) true body
  | plus (body : List Char) : Signed ('+' :: body) false body
  | unmarked {body : List Char} : body.head? ≠ some '-' → body.head? ≠ some '+' →
      Signed body false body

/-- The characters are a numeral of the integer, which need not be in range. -/
inductive Denotes (chars : List Char) : Int → Prop
  | negative {body : List Char} : Signed chars true body → Body body →
      Denotes chars (-magnitude body)
  | nonnegative {body : List Char} : Signed chars false body → Body body →
      Denotes chars (magnitude body)

/-- The digits run out of range. -/
inductive Exceeds (chars : List Char) : Prop
  /-- The digits at the beginning of the body are too many for either sign. -/
  | digits {negative : Bool} {front body : List Char} : Signed chars negative body →
      front <+: body → (∀ c ∈ front, InBody c) → 2 ^ 127 < magnitude front → Exceeds chars
  /-- Only with a minus sign would the integer be in range. -/
  | unmarked {body : List Char} : Signed chars false body → Body body →
      magnitude body = 2 ^ 127 → Exceeds chars

theorem extend_underscore (start : Nat) (rest : List Char) :
    extend start ('_' :: rest) = extend start rest :=
  rfl

theorem extend_digit (digit : c.isDigit = true) (start : Nat) (rest : List Char) :
    extend start (c :: rest) = extend (10 * start + digitValue c) rest := by
  rw [extend, List.filter_cons_of_pos digit, Nat.ofDigitChars_cons]
  rfl

/-- More digits do not make it less. -/
theorem le_extend (start : Nat) (body : List Char) : start ≤ extend start body := by
  induction body generalizing start with
  | nil => exact Nat.le_refl start
  | cons c rest ih =>
      by_cases digit : c.isDigit = true
      · rw [extend_digit digit]
        have step := ih (10 * start + digitValue c)
        omega
      · rw [extend, List.filter_cons_of_neg digit, ← extend]
        exact ih start

theorem inRange_neg_iff {m : Nat} : InRange (-m) ↔ m ≤ 2 ^ 127 := by
  rw [InRange]
  omega

theorem inRange_natCast_iff {m : Nat} : InRange m ↔ m < 2 ^ 127 := by
  rw [InRange]
  omega

/-- The reader starts from zero. -/
private theorem start_eq : (0 : Fixed).toInt = -(0 : Nat) :=
  rfl

/-- What the running value becomes by a digit. -/
private theorem next_eq (value_eq : value.toInt = -start) (c : Char) :
    10 * value.toInt - digitValue c = -(10 * start + digitValue c : Nat) := by
  rw [value_eq]
  push_cast
  ring

/-- The running value follows the digits as long as they are in range. -/
theorem descend_append (text : String) (inBody : ∀ c ∈ front, InBody c)
    (value_eq : value.toInt = -start) (within : extend start front ≤ 2 ^ 127) :
    ∃ next : Fixed, next.toInt = -extend start front ∧
      ∀ rest, descend text value (front ++ rest) = descend text next rest := by
  induction front generalizing value start with
  | nil => exact ⟨value, value_eq, fun _ => rfl⟩
  | cons c front ih =>
      have front_inBody := fun d mem => inBody d (List.mem_cons_of_mem c mem)
      rcases inBody c List.mem_cons_self with digit | rfl
      · rw [extend_digit digit] at within ⊢
        have next_inRange : InRange (-(10 * start + digitValue c : Nat)) :=
          inRange_neg_iff.mpr ((le_extend _ front).trans within)
        have moved_eq : Fixed.toInt ⟨_, next_inRange⟩ = -(10 * start + digitValue c : Nat) := rfl
        obtain ⟨next, next_toInt, descends⟩ := ih front_inBody moved_eq within
        refine ⟨next, next_toInt, fun rest => ?_⟩
        rw [List.cons_append, descend_digit digit, next_eq value_eq, ofInt?, dif_pos next_inRange]
        exact descends rest
      · rw [extend_underscore] at within ⊢
        obtain ⟨next, next_toInt, descends⟩ := ih front_inBody value_eq within
        refine ⟨next, next_toInt, fun rest => ?_⟩
        rw [List.cons_append, descend_underscore]
        exact descends rest

/-- A body in range is followed to its end. -/
theorem descend_body (text : String) (inBody : ∀ c ∈ body, InBody c)
    (within : magnitude body ≤ 2 ^ 127) :
    ∃ value : Fixed, descend text 0 body = .ok value ∧ value.toInt = -magnitude body := by
  obtain ⟨value, value_toInt, descends⟩ := descend_append text inBody start_eq within
  have descended := descends []
  rw [List.append_nil] at descended
  exact ⟨value, descended, value_toInt⟩

/-- The reader stops at the digit that leaves the range, whatever follows it. -/
theorem descend_outOfRange (text : String) (inBody : ∀ c ∈ front, InBody c)
    (value_eq : value.toInt = -start) (above : 2 ^ 127 < extend start front) (rest : List Char) :
    descend text value (front ++ rest) = .error (.outOfRange text) := by
  induction front generalizing value start with
  | nil =>
      have bounds := value.inRange
      rw [value_eq, inRange_neg_iff] at bounds
      exact absurd above (Nat.not_lt.mpr bounds)
  | cons c front ih =>
      have front_inBody := fun d mem => inBody d (List.mem_cons_of_mem c mem)
      rcases inBody c List.mem_cons_self with digit | rfl
      · rw [extend_digit digit] at above
        rw [List.cons_append, descend_digit digit, next_eq value_eq]
        by_cases inRange : InRange (-(10 * start + digitValue c : Nat))
        · rw [ofInt?, dif_pos inRange]
          exact ih front_inBody rfl above
        · rw [ofInt?, dif_neg inRange]
      · rw [extend_underscore] at above
        rw [List.cons_append, descend_underscore]
        exact ih front_inBody value_eq above

/-- The reader stops at a character that does not belong. -/
theorem descend_malformed (stray : ¬InBody c) (value : Fixed) (rest : List Char) :
    descend text value (c :: rest) = .error (.malformed text) := by
  rw [InBody, not_or] at stray
  rw [descend, if_neg stray.2, if_neg stray.1]

/-- Either all characters belong, or there is a first that does not. -/
theorem inBody_or_exists_first (chars : List Char) :
    (∀ c ∈ chars, InBody c) ∨
      ∃ front c rest, chars = front ++ c :: rest ∧ (∀ d ∈ front, InBody d) ∧ ¬InBody c := by
  induction chars with
  | nil => simp
  | cons c chars ih =>
      by_cases here : InBody c
      · rcases ih with inBody | ⟨front, stray, rest, rfl, inBody, out⟩
        · exact .inl (List.forall_mem_cons.mpr ⟨here, inBody⟩)
        · exact .inr ⟨c :: front, stray, rest, rfl, List.forall_mem_cons.mpr ⟨here, inBody⟩, out⟩
      · exact .inr ⟨[], c, chars, rfl, by simp, here⟩

theorem exists_signed (chars : List Char) : ∃ negative body, Signed chars negative body := by
  by_cases minus : chars.head? = some '-'
  · obtain ⟨body, rfl⟩ := List.head?_eq_some_iff.mp minus
    exact ⟨true, body, .minus body⟩
  by_cases plus : chars.head? = some '+'
  · obtain ⟨body, rfl⟩ := List.head?_eq_some_iff.mp plus
    exact ⟨false, body, .plus body⟩
  · exact ⟨false, chars, .unmarked minus plus⟩

theorem splitSign_eq (signed : Signed chars negative body) :
    splitSign chars = (negative, body) := by
  cases signed with
  | minus => rfl
  | plus => rfl
  | unmarked not_minus not_plus =>
      unfold splitSign
      split
      · exact absurd rfl not_minus
      · exact absurd rfl not_plus
      · rfl

theorem Signed.unique {other : Bool} {other_body : List Char} (signed : Signed chars negative body)
    (other_signed : Signed chars other other_body) : negative = other ∧ body = other_body :=
  Prod.mk.inj ((splitSign_eq signed).symm.trans (splitSign_eq other_signed))

theorem Denotes.unique {other : Int} (denotes : Denotes chars n)
    (other_denotes : Denotes chars other) : n = other := by
  cases denotes with
  | negative signed _ =>
      cases other_denotes with
      | negative other_signed _ => rw [(signed.unique other_signed).2]
      | nonnegative other_signed _ => cases (signed.unique other_signed).1
  | nonnegative signed _ =>
      cases other_denotes with
      | negative other_signed _ => cases (signed.unique other_signed).1
      | nonnegative other_signed _ => rw [(signed.unique other_signed).2]

theorem magnitude_le_of_not_exceeds (signed : Signed chars negative body) (begins : front <+: body)
    (inBody : ∀ c ∈ front, InBody c) (within : ¬Exceeds chars) : magnitude front ≤ 2 ^ 127 := by
  by_contra above
  exact within (.digits signed begins inBody (Nat.not_le.mp above))

/-- A numeral is out of range only when its digits are. -/
theorem named_or_exceeds (signed : Signed chars negative body) (numeral : Body body) :
    (∃ n, Denotes chars n ∧ InRange n) ∨ Exceeds chars := by
  by_cases within : Exceeds chars
  · exact .inr within
  · have total_le : magnitude body ≤ 2 ^ 127 :=
      magnitude_le_of_not_exceeds signed List.prefix_rfl numeral.inBody within
    cases negative with
    | true => exact .inl ⟨_, .negative signed numeral, inRange_neg_iff.mpr total_le⟩
    | false =>
        have not_limit : magnitude body ≠ 2 ^ 127 :=
          fun limit => within (.unmarked signed numeral limit)
        have below : magnitude body < 2 ^ 127 := Nat.lt_of_le_of_ne total_le not_limit
        exact .inl ⟨_, .nonnegative signed numeral, inRange_natCast_iff.mpr below⟩

private theorem isEmpty_eq_false (signed : Signed text.toList negative body)
    (nonempty : body ≠ []) : text.isEmpty = false := by
  rw [String.isEmpty_eq_false_iff, Ne, ← String.toList_eq_nil_iff]
  intro empty
  rw [empty] at signed
  cases signed
  exact nonempty rfl

theorem read_of_descend_eq_error {cause : NumeralError} (signed : Signed text.toList negative body)
    (descended : descend text 0 body = .error cause) : read text = .error cause := by
  have nonempty : body ≠ [] := by
    rintro rfl
    cases descended
  simp only [read, isEmpty_eq_false signed nonempty, splitSign_eq signed, descended,
    Bool.false_eq_true, if_false]

/-- The value of a body, with the sign that stands before it. -/
theorem read_of_body (signed : Signed text.toList negative body) (numeral : Body body)
    (descended : descend text 0 body = .ok value) :
    read text =
      if negative then .ok value
      else (ofInt? (-value.toInt)).elim
        (.error (.arithmetic (.overflow .neg (-value.toInt)))) .ok := by
  have some_digit : body.any Char.isDigit = true := List.any_eq_true.mpr numeral.digit
  have nonempty : body ≠ [] := by
    rintro rfl
    cases some_digit
  simp only [read, isEmpty_eq_false signed nonempty, splitSign_eq signed, descended, some_digit,
    Bool.not_true, Bool.false_eq_true, if_false]
  cases ofInt? (-value.toInt) <;> rfl

/-- Without a digit there is no value. -/
theorem read_of_no_digit (signed : Signed text.toList negative body)
    (descended : descend text 0 body = .ok value) (undigited : ¬∃ c ∈ body, c.isDigit = true) :
    ∃ fault, read text = .error fault ∧ fault.kind = .configuration := by
  have no_digit : body.any Char.isDigit = false := by
    rwa [← Bool.not_eq_true, List.any_eq_true]
  by_cases empty : text.isEmpty = true
  · exact ⟨.empty, by rw [read, if_pos empty], rfl⟩
  · refine ⟨.malformed text, ?_, rfl⟩
    rw [read, if_neg empty, splitSign_eq signed]
    simp only [descended, no_digit, Bool.not_false, if_true]

/-- A numeral of an integer in range is read. -/
theorem read_of_denotes (denotes : Denotes text.toList n) (inRange : InRange n) :
    read text = .ok ⟨n, inRange⟩ := by
  cases denotes with
  | @negative body signed numeral =>
      obtain ⟨value, descended, value_toInt⟩ :=
        descend_body text numeral.inBody (inRange_neg_iff.mp inRange)
      rw [read_of_body signed numeral descended, if_pos rfl, Except.ok.injEq]
      exact Fixed.ext value_toInt
  | @nonnegative body signed numeral =>
      have below := inRange_natCast_iff.mp inRange
      obtain ⟨value, descended, value_toInt⟩ :=
        descend_body text numeral.inBody (Nat.le_of_lt below)
      rw [read_of_body signed numeral descended, if_neg Bool.false_ne_true, value_toInt,
        Int.neg_neg, ofInt?, dif_pos inRange, Option.elim_some]

/-- A text whose digits run out of range is not read. -/
theorem read_of_exceeds (exceeds : Exceeds text.toList) :
    ∃ fault, read text = .error fault ∧ fault.kind = .overflow := by
  cases exceeds with
  | digits signed begins inBody above =>
      obtain ⟨rest, rfl⟩ := begins
      have descended := descend_outOfRange text inBody start_eq above rest
      exact ⟨_, read_of_descend_eq_error signed descended, rfl⟩
  | @unmarked body signed numeral limit =>
      obtain ⟨value, descended, value_toInt⟩ :=
        descend_body text numeral.inBody (Nat.le_of_eq limit)
      have out : ofInt? (-value.toInt) = none := by
        rw [ofInt?_eq_none_iff, value_toInt, Int.neg_neg, inRange_natCast_iff]
        exact Nat.not_lt.mpr (Nat.le_of_eq limit.symm)
      refine ⟨.arithmetic (.overflow .neg (-value.toInt)), ?_, rfl⟩
      rw [read_of_body signed numeral descended, if_neg Bool.false_ne_true, out, Option.elim_none]

/-- Any other text is malformed. -/
theorem read_of_malformed (unnamed : ¬∃ n, Denotes text.toList n ∧ InRange n)
    (within : ¬Exceeds text.toList) :
    ∃ fault, read text = .error fault ∧ fault.kind = .configuration := by
  obtain ⟨negative, body, signed⟩ := exists_signed text.toList
  rcases inBody_or_exists_first body with inBody | ⟨front, c, rest, rfl, inBody, stray⟩
  · have undigited : ¬∃ c ∈ body, c.isDigit = true := by
      intro digit
      rcases named_or_exceeds signed ⟨inBody, digit⟩ with named | exceeds
      · exact unnamed named
      · exact within exceeds
    have total_le : magnitude body ≤ 2 ^ 127 :=
      magnitude_le_of_not_exceeds signed List.prefix_rfl inBody within
    obtain ⟨value, descended, -⟩ := descend_body text inBody total_le
    exact read_of_no_digit signed descended undigited
  · have front_le : magnitude front ≤ 2 ^ 127 :=
      magnitude_le_of_not_exceeds signed (List.prefix_append front _) inBody within
    obtain ⟨value, -, descends⟩ := descend_append text inBody start_eq front_le
    have descended : descend text 0 (front ++ c :: rest) = .error (.malformed text) :=
      (descends _).trans (descend_malformed stray value rest)
    exact ⟨_, read_of_descend_eq_error signed descended, rfl⟩

/-- What is read is what the text denotes. -/
theorem read_eq_ok_iff_denotes {x : Fixed} : read text = .ok x ↔ Denotes text.toList x.toInt := by
  constructor
  · intro returned
    by_cases named : ∃ n, Denotes text.toList n ∧ InRange n
    · obtain ⟨n, denotes, inRange⟩ := named
      cases returned.symm.trans (read_of_denotes denotes inRange)
      exact denotes
    by_cases exceeds : Exceeds text.toList
    · obtain ⟨fault, failed, -⟩ := read_of_exceeds exceeds
      cases returned.symm.trans failed
    · obtain ⟨fault, failed, -⟩ := read_of_malformed named exceeds
      cases returned.symm.trans failed
  · intro denotes
    exact read_of_denotes denotes x.inRange

theorem exceeds_of_read_eq_error {fault : NumeralError} (failed : read text = .error fault)
    (kind_eq : fault.kind = .overflow) : Exceeds text.toList := by
  by_contra within
  by_cases named : ∃ n, Denotes text.toList n ∧ InRange n
  · obtain ⟨n, denotes, inRange⟩ := named
    cases failed.symm.trans (read_of_denotes denotes inRange)
  · obtain ⟨other, other_failed, other_kind⟩ := read_of_malformed named within
    cases failed.symm.trans other_failed
    cases kind_eq.symm.trans other_kind

theorem malformed_of_read_eq_error {fault : NumeralError} (failed : read text = .error fault)
    (kind_eq : fault.kind = .configuration) :
    (¬∃ n, Denotes text.toList n ∧ InRange n) ∧ ¬Exceeds text.toList := by
  constructor
  · rintro ⟨n, denotes, inRange⟩
    cases failed.symm.trans (read_of_denotes denotes inRange)
  · intro exceeds
    obtain ⟨other, other_failed, other_kind⟩ := read_of_exceeds exceeds
    cases failed.symm.trans other_failed
    cases kind_eq.symm.trans other_kind

/-- Reading gives the integer that a text denotes, when it denotes one in range.  It fails for the
range when the digits run out of it, even before a character that does not belong, and for the form
in every other case. -/
theorem read_grammar (text : String) :
    (∀ n, (∃ x, read text = .ok x ∧ x.toInt = n) ↔ Denotes text.toList n ∧ InRange n) ∧
    ((∃ fault, read text = .error fault ∧ fault.kind = .overflow) ↔ Exceeds text.toList) ∧
    ((∃ fault, read text = .error fault ∧ fault.kind = .configuration) ↔
      (¬∃ n, Denotes text.toList n ∧ InRange n) ∧ ¬Exceeds text.toList) := by
  refine ⟨fun n => ?_, ?_, ?_⟩
  · constructor
    · rintro ⟨x, returned, rfl⟩
      exact ⟨read_eq_ok_iff_denotes.mp returned, x.inRange⟩
    · rintro ⟨denotes, inRange⟩
      exact ⟨_, read_of_denotes denotes inRange, rfl⟩
  · constructor
    · rintro ⟨fault, failed, kind_eq⟩
      exact exceeds_of_read_eq_error failed kind_eq
    · exact read_of_exceeds
  · constructor
    · rintro ⟨fault, failed, kind_eq⟩
      exact malformed_of_read_eq_error failed kind_eq
    · rintro ⟨unnamed, within⟩
      exact read_of_malformed unnamed within

/-- The last digit is one too many, and the reader stops before the character that follows it. -/
example : read "1_70141183460469231731687303715884105729x" =
    .error (.outOfRange "1_70141183460469231731687303715884105729x") := by
  decide +kernel

end Numeral
end SpotMargin
