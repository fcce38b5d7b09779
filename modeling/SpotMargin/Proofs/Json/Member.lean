import SpotMargin.Json.Codec
import SpotMargin.Proofs.Numeral.Canonical
import SpotMargin.Proofs.Outcome

/-!
# The members of a record

A record is read from the members of an object.  What a member may hold, and what is wrong with any
other value, is said here without the readers, and so is the fault of the first member that is not
well-formed.  `Reads` says of a computation that it looks at members in order and fails with that
fault; `Reads.append` puts such computations together.
-/

namespace SpotMargin
namespace Json

/-- The value is the integer, of either class. -/
inductive IsInteger : Json → Int → Prop
  | signed (n : Int64) : IsInteger (.signed n) n.toInt
  | unsigned (n : UInt64) : IsInteger (.unsigned n) n.toNat

/-- The value is the fixed-point integer, by its numeral or as an integer. -/
inductive Denotes : Json → Fixed → Prop
  | numeral {text : String} {x : Fixed} : Numeral.read text = .ok x → Denotes (.string text) x
  | integer {json : Json} {x : Fixed} : json.IsInteger x.toInt → Denotes json x

/-- The value is the natural number, as an integer of the unsigned class. -/
inductive Counts : Json → Nat → Prop
  | unsigned (n : UInt64) : Counts (.unsigned n) n.toNat

/-- The value is the string. -/
def Spells (json : Json) (text : String) : Prop :=
  json = .string text

variable {α β : Type} {json value : Json} {key : String} {n : Int}

theorem IsInteger.inRange (integer : json.IsInteger n) : Fixed.InRange n := by
  simp only [Fixed.InRange]
  cases integer with
  | signed word =>
      have lower := word.le_toInt
      have upper := word.toInt_lt
      omega
  | unsigned word =>
      have upper := word.toNat_lt
      omega

theorem IsInteger.unique {m : Int} (integer : json.IsInteger n) (other : json.IsInteger m) :
    n = m := by
  cases integer <;> cases other <;> rfl

theorem IsInteger.iff_eq {m : Int} (integer : json.IsInteger n) : json.IsInteger m ↔ m = n :=
  ⟨fun other => other.unique integer, fun same => same ▸ integer⟩

theorem IsInteger.denotes (integer : json.IsInteger n) : json.Denotes (Fixed.ofInt n) := by
  refine .integer ?_
  rwa [Fixed.toInt_ofInt_of_inRange integer.inRange]

theorem Counts.isInteger {k : Nat} (counts : json.Counts k) : json.IsInteger k := by
  cases counts
  exact .unsigned _

theorem not_denotes_null {x : Fixed} : ¬null.Denotes x := by
  rintro (_ | ⟨⟨⟩⟩)

theorem Denotes.unique {x y : Fixed} (denotes : json.Denotes x) (other_denotes : json.Denotes y) :
    x = y := by
  cases denotes with
  | numeral read =>
      cases other_denotes with
      | numeral other_read =>
          cases read.symm.trans other_read
          rfl
      | integer other => cases other
  | integer integer =>
      cases other_denotes with
      | numeral => cases integer
      | integer other => exact Fixed.ext (integer.unique other)

theorem Counts.unique {k l : Nat} (counts : json.Counts k) (other_counts : json.Counts l) :
    k = l := by
  cases counts
  cases other_counts
  rfl

theorem Spells.unique {text other : String} (spells : json.Spells text)
    (other_spells : json.Spells other) : text = other := by
  cases spells.symm.trans other_spells
  rfl

/-- What a member may hold. -/
inductive Shape
  | fixed
  /-- A fixed-point integer, or `null` in the place of none. -/
  | fixedOrNull
  | natural (limit : Nat)
  | text
  | balanceType

namespace Shape

/-- The value is one that the member may hold. -/
def Takes : Shape → Json → Prop
  | fixed, json => ∃ x, json.Denotes x
  | fixedOrNull, json => json = .null ∨ ∃ x, json.Denotes x
  | natural limit, json => ∃ n, n ≤ limit ∧ json.Counts n
  | text, json => ∃ text, json.Spells text
  | balanceType, json => ∃ type : BalanceType, json.Spells type.name

/-- What is wrong with a value that the member with the key may not hold. -/
inductive Rejects (key : String) : Shape → Json → Error → Prop
  | numeral {text : String} {cause : NumeralError} : Numeral.read text = .error cause →
      Rejects key .fixed (.string text) (.numeral cause)
  | notFixed {json : Json} : (∀ text, json ≠ .string text) → (∀ n, ¬json.IsInteger n) →
      Rejects key .fixed json (.json (.notInteger key))
  | orNull {json : Json} {error : Error} : json ≠ .null → Rejects key .fixed json error →
      Rejects key .fixedOrNull json error
  | notNatural {limit : Nat} {json : Json} : (∀ n, ¬json.IsInteger n) →
      Rejects key (.natural limit) json (.json (.notInteger key))
  /-- The integer is of the signed class or above the limit. -/
  | outOfRange {limit : Nat} {json : Json} {n : Int} : json.IsInteger n →
      (∀ k ≤ limit, ¬json.Counts k) →
      Rejects key (.natural limit) json (.json (.outOfRange key n))
  | notText {json : Json} : (∀ text, json ≠ .string text) →
      Rejects key .text json (.json (.notString key))
  | notName {json : Json} : (∀ text, json ≠ .string text) →
      Rejects key .balanceType json (.json (.notString key))
  | unknownName {name : String} : (∀ type : BalanceType, name ≠ type.name) →
      Rejects key .balanceType (.string name) (.json (.unknownBalanceType name))

/-- What may be held is not rejected. -/
theorem Rejects.not_takes {shape : Shape} {error : Error} (rejects : shape.Rejects key json error) :
    ¬shape.Takes json := by
  induction rejects with
  | numeral failed =>
      rintro ⟨x, read⟩
      cases read with
      | numeral read => cases failed.symm.trans read
      | integer integer => cases integer
  | notFixed not_string not_number =>
      rintro ⟨x, numeral | integer⟩
      · exact not_string _ rfl
      · exact not_number _ integer
  | orNull not_null _ ih =>
      rintro (null | denotes)
      · exact not_null null
      · exact ih denotes
  | notNatural not_number =>
      rintro ⟨n, -, counts⟩
      exact not_number _ counts.isInteger
  | outOfRange _ out =>
      rintro ⟨n, n_le, counts⟩
      exact out n n_le counts
  | notText not_string => exact fun ⟨_, spells⟩ => not_string _ spells
  | notName not_string => exact fun ⟨_, spells⟩ => not_string _ spells
  | unknownName unknown =>
      rintro ⟨type, spells⟩
      cases spells
      exact unknown type rfl

/-- A value is rejected for one reason. -/
theorem Rejects.unique {shape : Shape} {error cause : Error}
    (rejects : shape.Rejects key json error) (other_rejects : shape.Rejects key json cause) :
    error = cause := by
  induction rejects with
  | numeral failed =>
      cases other_rejects with
      | numeral other_failed =>
          cases failed.symm.trans other_failed
          rfl
      | notFixed not_string => exact absurd rfl (not_string _)
  | notFixed not_string not_number =>
      cases other_rejects with
      | numeral => exact absurd rfl (not_string _)
      | notFixed => rfl
  | orNull not_null _ ih =>
      cases other_rejects with
      | orNull _ other_rejects => exact ih other_rejects
  | notNatural not_number =>
      cases other_rejects with
      | notNatural => rfl
      | outOfRange integer => exact absurd integer (not_number _)
  | outOfRange integer =>
      cases other_rejects with
      | notNatural not_number => exact absurd integer (not_number _)
      | outOfRange other => rw [integer.unique other]
  | notText not_string =>
      cases other_rejects
      rfl
  | notName not_string =>
      cases other_rejects with
      | notName => rfl
      | unknownName => exact absurd rfl (not_string _)
  | unknownName unknown =>
      cases other_rejects with
      | notName not_string => exact absurd rfl (not_string _)
      | unknownName => rfl

end Shape

theorem ensures_toFixed (key : String) (json : Json) :
    Ensures (Shape.fixed.Rejects key json)
      (fun x => Shape.fixed.Takes json ∧ json.Denotes x) (json.toFixed key) := by
  unfold toFixed
  split
  · rename_i text
    cases read : Numeral.read text with
    | ok x => exact ⟨⟨_, .numeral read⟩, .numeral read⟩
    | error cause => exact .numeral read
  · rename_i n
    have denotes := (IsInteger.unsigned n).denotes
    exact ⟨⟨_, denotes⟩, denotes⟩
  · rename_i n
    have denotes := (IsInteger.signed n).denotes
    exact ⟨⟨_, denotes⟩, denotes⟩
  · rename_i not_string not_unsigned not_signed
    refine .notFixed not_string ?_
    rintro n (word | word)
    · exact not_signed word rfl
    · exact not_unsigned word rfl

theorem ensures_toNat (key : String) (limit : Nat) (json : Json) :
    Ensures ((Shape.natural limit).Rejects key json)
      (fun n => (Shape.natural limit).Takes json ∧ n ≤ limit ∧ json.Counts n)
      (json.toNat key limit) := by
  unfold toNat
  split
  · rename_i n
    split
    · rename_i n_le
      exact ⟨⟨_, n_le, .unsigned n⟩, n_le, .unsigned n⟩
    · rename_i above
      refine .outOfRange (.unsigned n) ?_
      rintro _ k_le ⟨⟩
      exact above k_le
  · rename_i n
    refine .outOfRange (.signed n) ?_
    rintro _ - ⟨⟩
  · rename_i not_unsigned not_signed
    refine .notNatural ?_
    rintro n (word | word)
    · exact not_signed word rfl
    · exact not_unsigned word rfl

theorem ensures_toText (key : String) (json : Json) :
    Ensures (Shape.text.Rejects key json) (fun text => Shape.text.Takes json ∧ json.Spells text)
      (json.toText key) := by
  unfold toText
  split
  · exact ⟨⟨_, rfl⟩, rfl⟩
  · rename_i not_string
    exact .notText not_string

theorem member?_of_not_object (not_object : ∀ members, json ≠ .object members) (key : String) :
    json.member? key = none := by
  cases json with
  | object members => exact absurd rfl (not_object members)
  | _ => rfl

/-- A member of the object that a record is read from. -/
structure Member where
  key : String
  shape : Shape
  mandatory : Bool

namespace Member

/-- The member is there if it has to be, and if it is there it holds what it may. -/
def WellFormed (member : Member) (json : Json) : Prop :=
  match json.member? member.key with
  | some value => member.shape.Takes value
  | none => member.mandatory = false

/-- What is wrong with a member that is not well-formed. -/
inductive Rejects (member : Member) (json : Json) : Error → Prop
  | notObject : member.mandatory = true → (∀ members, json ≠ .object members) →
      Rejects member json (.json (.notObject member.key))
  | missing {members : List (String × Json)} : member.mandatory = true →
      json = .object members → json.member? member.key = none →
      Rejects member json (.json (.missing member.key))
  | malformed {value : Json} {error : Error} : json.member? member.key = some value →
      member.shape.Rejects member.key value error → Rejects member json error

theorem Rejects.not_wellFormed {member : Member} {error : Error}
    (rejects : member.Rejects json error) : ¬member.WellFormed json := by
  rw [WellFormed]
  cases rejects with
  | notObject mandatory not_object => simp [member?_of_not_object not_object, mandatory]
  | missing mandatory _ absent => simp [absent, mandatory]
  | malformed found rejects =>
      simp only [found]
      exact rejects.not_takes

theorem Rejects.unique {member : Member} {error cause : Error}
    (rejects : member.Rejects json error) (other_rejects : member.Rejects json cause) :
    error = cause := by
  cases rejects with
  | notObject mandatory not_object =>
      cases other_rejects with
      | notObject => rfl
      | missing _ object => exact absurd object (not_object _)
      | malformed found => cases (member?_of_not_object not_object _).symm.trans found
  | missing mandatory object absent =>
      cases other_rejects with
      | notObject _ not_object => exact absurd object (not_object _)
      | missing => rfl
      | malformed found => cases absent.symm.trans found
  | malformed found rejects =>
      cases other_rejects with
      | notObject _ not_object => cases (member?_of_not_object not_object _).symm.trans found
      | missing _ _ absent => cases absent.symm.trans found
      | malformed other_found other_rejects =>
          cases found.symm.trans other_found
          exact rejects.unique other_rejects

end Member

/-- The fault of the first of the members that is not well-formed. -/
def FirstFault (json : Json) (members : List Member) (error : Error) : Prop :=
  ∃ front member back, members = front ++ member :: back ∧
    (∀ earlier ∈ front, earlier.WellFormed json) ∧ member.Rejects json error

theorem FirstFault.not_wellFormed {members : List Member} {error : Error}
    (fault : FirstFault json members error) : ¬∀ member ∈ members, member.WellFormed json := by
  obtain ⟨front, member, back, rfl, -, rejects⟩ := fault
  exact fun wellFormed => rejects.not_wellFormed (wellFormed member (by simp))

theorem FirstFault.unique {members : List Member} {error cause : Error}
    (fault : FirstFault json members error) (other_fault : FirstFault json members cause) :
    error = cause := by
  obtain ⟨front, member, back, members_eq, wellFormed, rejects⟩ := fault
  obtain ⟨other_front, other, other_back, other_eq, other_wellFormed, other_rejects⟩ := other_fault
  subst members_eq
  induction front generalizing other_front with
  | nil =>
      cases other_front with
      | nil =>
          cases other_eq
          exact rejects.unique other_rejects
      | cons first rest =>
          cases other_eq
          exact absurd (other_wellFormed _ List.mem_cons_self) rejects.not_wellFormed
  | cons first front ih =>
      cases other_front with
      | nil =>
          cases other_eq
          exact absurd (wellFormed _ List.mem_cons_self) other_rejects.not_wellFormed
      | cons other_first rest =>
          refine ih (fun earlier mem => wellFormed earlier (List.mem_cons_of_mem _ mem)) rest
            (fun earlier mem => other_wellFormed earlier (List.mem_cons_of_mem _ mem)) ?_
          exact (List.cons.inj other_eq).2

/-- The computation looks at the members in order: it returns with `post` when all of them are
well-formed, and fails with the fault of the first that is not. -/
def Reads (json : Json) (members : List Member) (post : α → Prop) (x : Except Error α) : Prop :=
  Ensures (FirstFault json members)
    (fun a => (∀ member ∈ members, member.WellFormed json) ∧ post a) x

namespace Reads

variable {front back members : List Member} {first post : α → Prop} {last : β → Prop}
  {x : Except Error α} {next : α → Except Error β}

theorem nil {a : α} (holds : post a) : Reads json [] post (.ok a) :=
  ⟨by simp, holds⟩

theorem mono {weaker : α → Prop} (reads : Reads json members post x)
    (results : ∀ a, post a → weaker a) : Reads json members weaker x :=
  Ensures.mono reads fun a ⟨wellFormed, holds⟩ => ⟨wellFormed, results a holds⟩

/-- The members of the continuation come last. -/
theorem append (reads : Reads json front first x)
    (rest : ∀ a, first a → Reads json back last (next a)) :
    Reads json (front ++ back) last (x >>= next) := by
  have before : Ensures (FirstFault json (front ++ back))
      (fun a => (∀ member ∈ front, member.WellFormed json) ∧ first a) x := by
    refine Ensures.imp reads (fun _ same => same) ?_
    rintro error ⟨earlier, member, later, rfl, wellFormed, rejects⟩
    exact ⟨earlier, member, later ++ back, by simp, wellFormed, rejects⟩
  refine before.bind ?_
  rintro a ⟨front_wellFormed, holds⟩
  refine Ensures.imp (rest a holds) ?_ ?_
  · rintro b ⟨back_wellFormed, holds⟩
    exact ⟨fun member mem => (List.mem_append.mp mem).elim (front_wellFormed member)
      (back_wellFormed member), holds⟩
  · rintro error ⟨earlier, member, later, rfl, wellFormed, rejects⟩
    exact ⟨front ++ earlier, member, later, by simp, fun before mem =>
      (List.mem_append.mp mem).elim (front_wellFormed before) (wellFormed before), rejects⟩

end Reads

/-- The member with the key is there, and what it holds stands for `a`. -/
def Has (json : Json) (key : String) (standsFor : Json → α → Prop) (a : α) : Prop :=
  ∃ value, json.member? key = some value ∧ standsFor value a

/-- What the member with the key holds stands for `a`, which is the fallback when there is no such
member. -/
def HasOr (json : Json) (key : String) (standsFor : Json → α → Prop) (fallback a : α) : Prop :=
  match json.member? key with
  | some value => standsFor value a
  | none => a = fallback

variable {read : String → Json → Except Error α} {shape : Shape} {standsFor : Json → α → Prop}

/-- A member that is there is read from what it holds. -/
private theorem reads_found {member : Member} {post : α → Prop} {x : Except Error α}
    (found : json.member? member.key = some value)
    (reads : Ensures (member.shape.Rejects member.key value)
      (fun a => member.shape.Takes value ∧ post a) x) :
    Reads json [member] post x := by
  refine Ensures.imp reads ?_ ?_
  · rintro a ⟨takes, holds⟩
    exact ⟨by simpa [Member.WellFormed, found] using takes, holds⟩
  · intro error rejects
    exact ⟨[], member, [], rfl, by simp, .malformed found rejects⟩

/-- A mandatory member that is not there fails the reading. -/
private theorem reads_absent {member : Member} {post : α → Prop} {error : Error}
    (rejects : member.Rejects json error) : Reads json [member] post (.error error) :=
  ⟨[], member, [], rfl, by simp, rejects⟩

/-- Reading a mandatory member, where `read` keeps to the shape of the member. -/
theorem reads_required
    (reads : ∀ value, Ensures (shape.Rejects key value)
      (fun a => shape.Takes value ∧ standsFor value a) (read key value)) (json : Json) :
    Reads json [⟨key, shape, true⟩] (json.Has key standsFor) (json.required read key) := by
  cases json with
  | object members =>
      cases found : members.reverse.lookup key with
      | none =>
          rw [required, Json.member, found]
          exact reads_absent (.missing rfl rfl found)
      | some value =>
          rw [required, Json.member, found]
          have here : Reads (.object members) [⟨key, shape, true⟩] (standsFor value)
            (read key value) := reads_found found (reads value)
          exact here.mono fun a stands => ⟨value, found, stands⟩
  | _ => exact reads_absent (.notObject rfl (by simp))

/-- Reading a member that may be left out. -/
theorem reads_optional
    (reads : ∀ value, Ensures (shape.Rejects key value)
      (fun a => shape.Takes value ∧ standsFor value a) (read key value)) (fallback : α)
    (json : Json) :
    Reads json [⟨key, shape, false⟩] (json.HasOr key standsFor fallback)
      (json.optional read fallback key) := by
  cases found : json.member? key with
  | none =>
      rw [Json.optional, found]
      exact ⟨by simp [Member.WellFormed, found], by simp [HasOr, found]⟩
  | some value =>
      rw [Json.optional, found]
      have here : Reads json [⟨key, shape, false⟩] (standsFor value) (read key value) :=
        reads_found found (reads value)
      exact here.mono fun a stands => by simpa [HasOr, found] using stands

theorem reads_natural (limit : Nat) (key : String) (json : Json) :
    Reads json [⟨key, .natural limit, true⟩] (fun n => n ≤ limit ∧ json.Has key Counts n)
      (json.required (toNat · limit) key) := by
  refine (reads_required (ensures_toNat key limit) json).mono ?_
  rintro n ⟨value, found, n_le, counts⟩
  exact ⟨n_le, value, found, counts⟩

theorem reads_naturalOr {limit fallback : Nat} (fallback_le : fallback ≤ limit) (key : String)
    (json : Json) :
    Reads json [⟨key, .natural limit, false⟩]
      (fun n => n ≤ limit ∧ json.HasOr key Counts fallback n)
      (json.optional (toNat · limit) fallback key) := by
  refine (reads_optional (ensures_toNat key limit) fallback json).mono ?_
  intro n has
  cases found : json.member? key with
  | none =>
      simp only [HasOr, found] at has ⊢
      exact ⟨has ▸ fallback_le, has⟩
  | some value =>
      simp only [HasOr, found] at has ⊢
      exact has

theorem Has.unique {a b : α} (functional : ∀ value, standsFor value a → standsFor value b → a = b)
    (has : json.Has key standsFor a) (other_has : json.Has key standsFor b) : a = b := by
  obtain ⟨value, found, stands⟩ := has
  obtain ⟨held, other_found, other_stands⟩ := other_has
  cases found.symm.trans other_found
  exact functional value stands other_stands

theorem HasOr.unique {fallback a b : α}
    (functional : ∀ value, standsFor value a → standsFor value b → a = b)
    (has : json.HasOr key standsFor fallback a) (other_has : json.HasOr key standsFor fallback b) :
    a = b := by
  cases found : json.member? key with
  | none =>
      simp only [HasOr, found] at has other_has
      rw [has, other_has]
  | some value =>
      simp only [HasOr, found] at has other_has
      exact functional value has other_has

end Json
end SpotMargin
