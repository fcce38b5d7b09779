/-!
# Fixed-point integers

Every quantity of the library (amounts, prices, values, weights) is an integer scaled by a fixed
precision and held in 128 bits.  `Fixed` is the type of those integers, with its order and the
arithmetic that wraps around at the ends of the range, for steps whose result is known to stay in
it.  The view is `Fixed.toInt`: a lemma for each operation says what it does to that integer.
-/

namespace SpotMargin

/-- The integer lies in the range of 128 bits in two's complement, from `-2 ^ 127` to
`2 ^ 127 - 1`. -/
def Fixed.InRange (n : Int) : Prop :=
  -0x8000_0000_0000_0000_0000_0000_0000_0000 ≤ n ∧ n < 0x8000_0000_0000_0000_0000_0000_0000_0000

instance (n : Int) : Decidable (Fixed.InRange n) :=
  inferInstanceAs (Decidable (_ ∧ _))

/-- An integer of 128 bits, scaled by the precision of the quantity that it stands for. -/
structure Fixed where
  toInt : Int
  inRange : Fixed.InRange toInt
  deriving DecidableEq

namespace Fixed

@[ext]
theorem ext {a b : Fixed} (h : a.toInt = b.toInt) : a = b := by
  cases a
  cases b
  simpa using h

/-- The integer as a fixed-point integer, when it is in range. -/
def ofInt? (n : Int) : Option Fixed :=
  if h : InRange n then some ⟨n, h⟩ else none

/-- The number of fixed-point integers, `2 ^ 128`. -/
def modulus : Nat :=
  0x1_0000_0000_0000_0000_0000_0000_0000_0000

/-- The fixed-point integer that agrees with `n` modulo `2 ^ 128`. -/
def ofInt (n : Int) : Fixed :=
  ⟨n.bmod modulus, by
    have low := Int.le_bmod (x := n) (m := modulus) (by decide)
    have high := Int.bmod_lt (x := n) (m := modulus) (by decide)
    simp only [InRange, modulus] at low high ⊢
    omega⟩

theorem ofInt?_eq_some_iff {n : Int} {x : Fixed} : ofInt? n = some x ↔ x.toInt = n := by
  unfold ofInt?
  split
  · rw [Option.some.injEq]
    exact ⟨fun h => h ▸ rfl, fun h => ext h.symm⟩
  · rename_i out
    constructor
    · simp
    · rintro rfl
      exact absurd x.inRange out

theorem ofInt?_eq_none_iff {n : Int} : ofInt? n = none ↔ ¬InRange n := by
  simp [ofInt?]

theorem toInt_ofInt (n : Int) : (ofInt n).toInt = n.bmod modulus :=
  rfl

theorem toInt_ofInt_of_inRange {n : Int} (h : InRange n) : (ofInt n).toInt = n := by
  rw [toInt_ofInt, modulus]
  simp only [InRange] at h
  exact Int.bmod_eq_of_le (by omega) (by omega)

@[simp]
theorem ofInt_toInt (x : Fixed) : ofInt x.toInt = x :=
  ext (toInt_ofInt_of_inRange x.inRange)

theorem ofInt?_toInt (x : Fixed) : ofInt? x.toInt = some x :=
  ofInt?_eq_some_iff.mpr rfl

instance (n : Nat) : OfNat Fixed n := ⟨ofInt n⟩

@[simp]
theorem toInt_ofNat {n : Nat} (h : InRange n) : (no_index (OfNat.ofNat n) : Fixed).toInt = n :=
  toInt_ofInt_of_inRange h

@[simp]
theorem toInt_zero : (0 : Fixed).toInt = 0 :=
  rfl

@[simp]
theorem toInt_one : (1 : Fixed).toInt = 1 :=
  rfl

instance : Inhabited Fixed := ⟨0⟩

/-- The least fixed-point integer, `-2 ^ 127`; its negation is out of range. -/
def least : Fixed := ⟨-0x8000_0000_0000_0000_0000_0000_0000_0000, by decide⟩

/-- The greatest fixed-point integer, `2 ^ 127 - 1`. -/
def greatest : Fixed := ⟨0x7fff_ffff_ffff_ffff_ffff_ffff_ffff_ffff, by decide⟩

instance : LT Fixed := ⟨fun a b => a.toInt < b.toInt⟩

instance : LE Fixed := ⟨fun a b => a.toInt ≤ b.toInt⟩

theorem lt_iff {a b : Fixed} : a < b ↔ a.toInt < b.toInt :=
  Iff.rfl

theorem le_iff {a b : Fixed} : a ≤ b ↔ a.toInt ≤ b.toInt :=
  Iff.rfl

instance (a b : Fixed) : Decidable (a < b) :=
  inferInstanceAs (Decidable (a.toInt < b.toInt))

instance (a b : Fixed) : Decidable (a ≤ b) :=
  inferInstanceAs (Decidable (a.toInt ≤ b.toInt))

instance : Max Fixed := ⟨fun a b => if a < b then b else a⟩

instance : Min Fixed := ⟨fun a b => if b < a then b else a⟩

@[simp]
theorem toInt_max (a b : Fixed) : (max a b).toInt = max a.toInt b.toInt := by
  simp only [Max.max, lt_iff]
  split <;> split <;> omega

@[simp]
theorem toInt_min (a b : Fixed) : (min a b).toInt = min a.toInt b.toInt := by
  simp only [Min.min, lt_iff]
  split <;> split <;> omega

instance : Add Fixed := ⟨fun a b => ofInt (a.toInt + b.toInt)⟩

instance : Sub Fixed := ⟨fun a b => ofInt (a.toInt - b.toInt)⟩

instance : Mul Fixed := ⟨fun a b => ofInt (a.toInt * b.toInt)⟩

instance : Neg Fixed := ⟨fun a => ofInt (-a.toInt)⟩

/-- Division truncates toward zero, and division by zero is zero. -/
instance : Div Fixed := ⟨fun a b => ofInt (a.toInt.tdiv b.toInt)⟩

theorem toInt_add (a b : Fixed) : (a + b).toInt = (a.toInt + b.toInt).bmod modulus :=
  rfl

theorem toInt_sub (a b : Fixed) : (a - b).toInt = (a.toInt - b.toInt).bmod modulus :=
  rfl

theorem toInt_mul (a b : Fixed) : (a * b).toInt = (a.toInt * b.toInt).bmod modulus :=
  rfl

theorem toInt_neg (a : Fixed) : (-a).toInt = (-a.toInt).bmod modulus :=
  rfl

theorem toInt_div (a b : Fixed) : (a / b).toInt = (a.toInt.tdiv b.toInt).bmod modulus :=
  rfl

theorem toInt_add_of_inRange {a b : Fixed} (h : InRange (a.toInt + b.toInt)) :
    (a + b).toInt = a.toInt + b.toInt :=
  toInt_ofInt_of_inRange h

theorem toInt_sub_of_inRange {a b : Fixed} (h : InRange (a.toInt - b.toInt)) :
    (a - b).toInt = a.toInt - b.toInt :=
  toInt_ofInt_of_inRange h

theorem toInt_mul_of_inRange {a b : Fixed} (h : InRange (a.toInt * b.toInt)) :
    (a * b).toInt = a.toInt * b.toInt :=
  toInt_ofInt_of_inRange h

theorem toInt_div_of_inRange {a b : Fixed} (h : InRange (a.toInt.tdiv b.toInt)) :
    (a / b).toInt = a.toInt.tdiv b.toInt :=
  toInt_ofInt_of_inRange h

end Fixed
end SpotMargin
