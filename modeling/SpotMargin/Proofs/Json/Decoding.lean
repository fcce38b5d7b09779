import SpotMargin.Proofs.Json.Member
import SpotMargin.Proofs.Numeral.Canonical

/-!
# Reading records exactly

Which records are read from JSON, which values their fields then have, and how reading fails, said
for each record by a list of its members and by the fields that an object describes.  `ofJson_exact`
states that positions, markets, prices and scenarios are read in just this way.
-/

namespace SpotMargin
namespace Json

variable {α : Type} {json other : Json} {key : String} {x : Fixed} {shape : Shape}
  {read : String → Json → Except Error α}

theorem toFixed_eq_ok_of_denotes (denotes : json.Denotes x) (key : String) :
    json.toFixed key = .ok x := by
  have ensured := ensures_toFixed key json
  cases read : json.toFixed key with
  | ok y =>
      rw [read] at ensured
      rw [ensured.2.unique denotes]
  | error error =>
      rw [read] at ensured
      exact absurd ⟨x, denotes⟩ ensured.not_takes

/-- An integer and its numeral are the same fixed-point integer. -/
theorem denotes_integer_and_numeral (integer : json.IsInteger x.toInt) :
    json.Denotes x ∧ (Json.string x.numeral).Denotes x :=
  ⟨.integer integer, .numeral (Numeral.read_numeral x)⟩

/-- The integer that the token stands for. -/
def tokenInteger (minus : Bool) (digits : Nat) : Int :=
  if minus then -digits else digits

/-- The integer is one that 64 bits hold, with or without a sign. -/
def InWord (n : Int) : Prop :=
  -0x8000_0000_0000_0000 ≤ n ∧ n < 0x1_0000_0000_0000_0000

instance (n : Int) : Decidable (InWord n) :=
  inferInstanceAs (Decidable (_ ∧ _))

/-- A token is an integer as far as 64 bits hold it. -/
theorem isInteger_ofToken_iff {minus : Bool} {digits : Nat} {n : Int} :
    (ofToken minus digits).IsInteger n ↔ n = tokenInteger minus digits ∧ InWord n := by
  unfold ofToken tokenInteger InWord
  split
  · split
    · have integer := IsInteger.signed (Int64.ofInt (-digits))
      rw [Int64.toInt_ofInt_of_le (by omega) (by omega)] at integer
      rw [integer.iff_eq]
      omega
    · refine iff_of_false (fun integer => by cases integer) ?_
      omega
  · split
    · rename_i narrow
      have integer := IsInteger.unsigned (UInt64.ofNat digits)
      rw [UInt64.toNat_ofNat_of_lt' narrow] at integer
      rw [integer.iff_eq]
      omega
    · refine iff_of_false (fun integer => by cases integer) ?_
      omega

/-- Only a token without a minus sign counts. -/
theorem counts_ofToken_iff {minus : Bool} {digits n : Nat} :
    (ofToken minus digits).Counts n ↔ minus = false ∧ n = digits ∧ InWord n := by
  constructor
  · intro counts
    obtain ⟨n_eq, word⟩ := isInteger_ofToken_iff.mp counts.isInteger
    cases minus with
    | false => exact ⟨rfl, Int.ofNat.inj n_eq, word⟩
    | true =>
        unfold ofToken at counts
        split at counts
        · split at counts <;> cases counts
        · contradiction
  · rintro ⟨rfl, rfl, -, narrow⟩
    have held : (UInt64.ofNat n).toNat = n := UInt64.toNat_ofNat_of_lt' (by exact_mod_cast narrow)
    have counts : (Json.unsigned (UInt64.ofNat n)).Counts (UInt64.ofNat n).toNat := .unsigned _
    rw [held] at counts
    simpa [ofToken, Int.ofNat_lt.mp narrow] using counts

/-- The values mean the same to the member: they are equal, or the same fixed-point integer where
the member holds one. -/
def Shape.Same : Shape → Json → Json → Prop
  | .fixed, value, held | .fixedOrNull, value, held =>
      value = held ∨ ∃ x, value.Denotes x ∧ held.Denotes x
  | .natural _, value, held | .text, value, held | .balanceType, value, held => value = held

/-- The member is there in both or in none, and means the same. -/
def Member.Same (member : Member) (json other : Json) : Prop :=
  match json.member? member.key, other.member? member.key with
  | some value, some held => member.shape.Same value held
  | none, none => True
  | _, _ => False

theorem toFixed_eq_of_same (value held : Json) (same : Shape.fixed.Same value held) :
    value.toFixed key = held.toFixed key := by
  rcases same with rfl | ⟨x, denotes, held_denotes⟩
  · rfl
  · rw [toFixed_eq_ok_of_denotes denotes, toFixed_eq_ok_of_denotes held_denotes]

section Same

variable {members others : List (String × Json)} {mandatory : Bool}

/-- Reading sees no difference between members that mean the same. -/
theorem required_eq_of_same (read : String → Json → Except Error α)
    (same : Member.Same ⟨key, shape, mandatory⟩ (.object members) (.object others))
    (reads : ∀ value held, shape.Same value held → read key value = read key held) :
    (object members).required read key = (object others).required read key := by
  simp only [Member.Same, member?] at same
  simp only [required, Json.member]
  cases found : members.reverse.lookup key <;> cases other_found : others.reverse.lookup key <;>
    simp only [found, other_found] at same
  · rfl
  · exact reads _ _ same

theorem optional_eq_of_same (read : String → Json → Except Error α)
    (fallback : α) (same : Member.Same ⟨key, shape, mandatory⟩ (.object members) (.object others))
    (reads : ∀ value held, shape.Same value held → read key value = read key held) :
    (object members).optional read fallback key = (object others).optional read fallback key := by
  simp only [Member.Same, member?] at same
  simp only [Json.optional, member?]
  cases found : members.reverse.lookup key <;> cases other_found : others.reverse.lookup key <;>
    simp only [found, other_found] at same
  · rfl
  · exact reads _ _ same

end Same

/-! ## Exactness -/

/-- The value is an object in which all the members are well-formed. -/
def WellFormed (members : List Member) (json : Json) : Prop :=
  (∃ entries, json = .object entries) ∧ ∀ member ∈ members, member.WellFormed json

/-- What reading records is to come to, where `Describes` tells which record an object describes,
and `check` which records are passed on. -/
structure ReadsExactly (members : List Member) (Describes : Json → α → Prop)
    (check : α → Except Error Unit) (read : Json → Except Error α) : Prop where
  /-- A well-formed object describes one record. -/
  described : ∀ json, WellFormed members json → ∃! record, Describes json record
  /-- This record is read if it passes the check, and nothing else is read. -/
  returns : ∀ json record, read json = .ok record ↔
    WellFormed members json ∧ Describes json record ∧ check record = .ok ()
  /-- The first member that is not well-formed decides the failure; the check does so only when
  there is none. -/
  fails : ∀ json error, read json = .error error ↔
    FirstFault json members error ∨
      WellFormed members json ∧ ∃ record, Describes json record ∧ check record = .error error
  /-- Nothing else in an object is looked at, and of the members only what they mean. -/
  same : ∀ entries others, (∀ member ∈ members, member.Same (.object entries) (.object others)) →
    read (.object entries) = read (.object others)

theorem wellFormed_of_mandatory {members : List Member}
    (mandatory : ∃ member ∈ members, member.mandatory = true)
    (wellFormed : ∀ member ∈ members, member.WellFormed json) : WellFormed members json := by
  obtain ⟨member, mem, mandatory⟩ := mandatory
  refine ⟨?_, wellFormed⟩
  cases json with
  | object entries => exact ⟨entries, rfl⟩
  | _ =>
      have absent := wellFormed member mem
      simp [Member.WellFormed, member?, mandatory] at absent

/-- Reading members in order ends with a record of well-formed members or with the first fault. -/
private theorem Reads.cases {members : List Member} {post : α → Prop} {x : Except Error α}
    (mandatory : ∃ member ∈ members, member.mandatory = true) (reads : Reads json members post x) :
    (∃ record, x = .ok record ∧ WellFormed members json ∧ post record) ∨
      ∃ error, x = .error error ∧ FirstFault json members error := by
  cases x with
  | ok record => exact .inl ⟨record, rfl, wellFormed_of_mandatory mandatory reads.1, reads.2⟩
  | error error => exact .inr ⟨error, rfl, reads⟩

section Exact

variable {members : List Member} {post : α → Prop} {x : Except Error α} {record : α} {error : Error}

private theorem Reads.eq_ok_iff (mandatory : ∃ member ∈ members, member.mandatory = true)
    (unique : ∀ record other, post record → post other → record = other)
    (reads : Reads json members post x) :
    x = .ok record ↔ WellFormed members json ∧ post record := by
  rcases reads.cases mandatory with ⟨read, rfl, wellFormed, holds⟩ | ⟨cause, rfl, fault⟩
  · constructor
    · rintro ⟨⟩
      exact ⟨wellFormed, holds⟩
    · rintro ⟨-, other_holds⟩
      rw [unique _ _ holds other_holds]
  · constructor
    · intro returned
      cases returned
    · rintro ⟨wellFormed, -⟩
      exact absurd wellFormed.2 fault.not_wellFormed

private theorem Reads.eq_error_iff (mandatory : ∃ member ∈ members, member.mandatory = true)
    (reads : Reads json members post x) : x = .error error ↔ FirstFault json members error := by
  rcases reads.cases mandatory with ⟨read, rfl, wellFormed, -⟩ | ⟨cause, rfl, fault⟩
  · constructor
    · intro failed
      cases failed
    · intro fault
      exact absurd wellFormed.2 fault.not_wellFormed
  · constructor
    · rintro ⟨⟩
      exact fault
    · intro other_fault
      rw [fault.unique other_fault]

end Exact

/-- Looking at the members in order, and then checking the record, reads exactly. -/
theorem readsExactly {members : List Member} {Describes : Json → α → Prop}
    {check : α → Except Error Unit} {decode read : Json → Except Error α}
    (mandatory : ∃ member ∈ members, member.mandatory = true)
    (reads : ∀ json, Reads json members (Describes json) (decode json))
    (unique : ∀ json record other, Describes json record → Describes json other → record = other)
    (same : ∀ entries others,
      (∀ member ∈ members, member.Same (.object entries) (.object others)) →
        decode (.object entries) = decode (.object others))
    (checks : ∀ json, read json = do
      let record ← decode json
      check record
      return record) :
    ReadsExactly members Describes check read where
  described := by
    intro json wellFormed
    rcases (reads json).cases mandatory with ⟨record, -, -, describes⟩ | ⟨error, -, fault⟩
    · exact ⟨record, describes, fun other other_describes =>
        unique json _ _ other_describes describes⟩
    · exact absurd wellFormed.2 fault.not_wellFormed
  returns := by
    intro json record
    rw [checks, passes_eq_ok_iff, (reads json).eq_ok_iff mandatory (unique json), and_assoc]
  fails := by
    intro json error
    rw [checks, passes_eq_error_iff, (reads json).eq_error_iff mandatory]
    simp only [(reads json).eq_ok_iff mandatory (unique json), and_assoc, exists_and_left]
  same := by
    intro entries others members_same
    rw [checks, checks, same entries others members_same]

end Json

open Json

theorem BalanceType.ensures_read (key : String) (json : Json) :
    Ensures (Shape.balanceType.Rejects key json)
      (fun type => Shape.balanceType.Takes json ∧ json.Spells type.name)
      (BalanceType.read key json) := by
  rw [BalanceType.read]
  cases json with
  | string name =>
      rw [Json.toText, ok_bind]
      cases found : ofName? name with
      | some type =>
          have spells : (Json.string name).Spells type.name :=
            congrArg Json.string (ofName?_eq_some_iff.mp found)
          exact ⟨⟨type, spells⟩, spells⟩
      | none =>
          refine .unknownName fun type same => ?_
          rw [ofName?_eq_some_iff.mpr same] at found
          cases found
  | _ => exact .notName (by simp)

theorem BalanceType.name_injective {a b : BalanceType} (same : a.name = b.name) : a = b :=
  Option.some.inj ((ofName?_eq_some_iff.mpr rfl).symm.trans (ofName?_eq_some_iff.mpr same))

namespace Position

/-- The members of a position, in the order in which they are looked at. -/
def members : List Member :=
  [⟨"market_index", .natural 65535, true⟩,
    ⟨"scaled_balance", .fixed, true⟩,
    ⟨"balance_type", .balanceType, true⟩,
    ⟨"open_bids", .fixed, false⟩,
    ⟨"open_asks", .fixed, false⟩,
    ⟨"open_orders", .natural 255, false⟩]

/-- The object describes the position. -/
structure DescribedBy (json : Json) (position : Position) : Prop where
  marketIndex : json.Has "market_index" Counts position.marketIndex.toNat
  scaledBalance : json.Has "scaled_balance" Denotes position.scaledBalance
  balanceType : json.Has "balance_type" Spells position.balanceType.name
  openBids : json.HasOr "open_bids" Denotes 0 position.openBids
  openAsks : json.HasOr "open_asks" Denotes 0 position.openAsks
  openOrders : json.HasOr "open_orders" Counts 0 position.openOrders.toNat

theorem reads_ofJson (json : Json) : Reads json members (DescribedBy json) (ofJson json) := by
  refine (reads_natural _ _ json).append fun marketIndex ⟨index_le, has_index⟩ => ?_
  refine (reads_required (ensures_toFixed _) json).append fun scaledBalance has_balance => ?_
  refine (reads_required (BalanceType.ensures_read _) json).append fun balanceType has_type => ?_
  refine (reads_optional (ensures_toFixed _) 0 json).append fun openBids has_bids => ?_
  refine (reads_optional (ensures_toFixed _) 0 json).append fun openAsks has_asks => ?_
  refine (reads_naturalOr (by decide) _ json).append
    fun openOrders ⟨orders_le, has_orders⟩ => .nil ?_
  have index_eq : marketIndex.toUInt16.toNat = marketIndex :=
    UInt16.toNat_ofNat_of_lt (Nat.lt_succ_of_le index_le)
  have orders_eq : openOrders.toUInt8.toNat = openOrders :=
    UInt8.toNat_ofNat_of_lt (Nat.lt_succ_of_le orders_le)
  exact
    { marketIndex := index_eq.symm ▸ has_index
      scaledBalance := has_balance
      balanceType := has_type
      openBids := has_bids
      openAsks := has_asks
      openOrders := orders_eq.symm ▸ has_orders }

theorem DescribedBy.unique (json : Json) (position other : Position)
    (describes : DescribedBy json position) (other_describes : DescribedBy json other) :
    position = other := by
  have index := describes.marketIndex.unique (fun _ => Counts.unique) other_describes.marketIndex
  have balance :=
    describes.scaledBalance.unique (fun _ => Denotes.unique) other_describes.scaledBalance
  have type := describes.balanceType.unique (fun _ => Spells.unique) other_describes.balanceType
  have bids := describes.openBids.unique (fun _ => Denotes.unique) other_describes.openBids
  have asks := describes.openAsks.unique (fun _ => Denotes.unique) other_describes.openAsks
  have orders := describes.openOrders.unique (fun _ => Counts.unique) other_describes.openOrders
  cases position
  cases other
  simp only [Position.mk.injEq]
  exact ⟨UInt16.toNat_inj.mp index, balance, BalanceType.name_injective type, bids, asks,
    UInt8.toNat_inj.mp orders⟩

theorem ofJson_eq_of_same {entries others : List (String × Json)}
    (same : ∀ member ∈ members, member.Same (.object entries) (.object others)) :
    ofJson (.object entries) = ofJson (.object others) := by
  simp only [members, List.forall_mem_cons] at same
  obtain ⟨index, balance, type, bids, asks, orders, -⟩ := same
  have index_eq := required_eq_of_same (toNat · 65535) index fun _ _ => congrArg _
  have balance_eq := required_eq_of_same toFixed balance toFixed_eq_of_same
  have type_eq := required_eq_of_same BalanceType.read type fun _ _ => congrArg _
  have bids_eq := optional_eq_of_same toFixed 0 bids toFixed_eq_of_same
  have asks_eq := optional_eq_of_same toFixed 0 asks toFixed_eq_of_same
  have orders_eq := optional_eq_of_same (toNat · 255) 0 orders fun _ _ => congrArg _
  rw [ofJson, ofJson, index_eq, balance_eq, type_eq, bids_eq, asks_eq, orders_eq]

theorem ofJson_readsExactly : ReadsExactly members DescribedBy (fun _ => .ok ()) ofJson :=
  readsExactly ⟨_, List.mem_cons_self, rfl⟩ reads_ofJson DescribedBy.unique
    (fun _ _ => ofJson_eq_of_same) fun json => by cases ofJson json <;> rfl

end Position

namespace Market

/-- The member of a parameter. -/
def Field.member (field : Field) : Member :=
  ⟨field.key, .fixed, field.isRequired⟩

/-- The members of a market, in the order in which they are looked at. -/
def members : List Member :=
  [⟨"market_index", .natural 65535, true⟩,
    ⟨"name", .text, false⟩,
    ⟨"decimals", .natural 4294967295, true⟩] ++
    Field.all.map Field.member

/-- The object gives the parameter its value, or leaves it at its default where it may. -/
def Field.GivenBy (json : Json) (field : Field) (x : Fixed) : Prop :=
  if field.isRequired then
    json.Has field.key Denotes x
  else
    json.HasOr field.key Denotes (get {} field) x

/-- The object describes the market, which need not be valid. -/
structure DescribedBy (json : Json) (market : Market) : Prop where
  index : json.Has "market_index" Counts market.index.toNat
  name : json.HasOr "name" Spells "" market.name
  decimals : json.Has "decimals" Counts market.decimals.toNat
  fields : ∀ field : Field, field.GivenBy json (market.get field)

theorem Field.reads_read (field : Field) (json : Json) :
    Reads json [field.member] (field.GivenBy json) (field.read json) := by
  unfold member GivenBy read
  cases field.isRequired with
  | true => exact reads_required (ensures_toFixed _) json
  | false => exact reads_optional (ensures_toFixed _) _ json

/-- Reading parameters gives each its value and leaves all else of the market as it is. -/
theorem reads_fields (json : Json) (fields : List Field) (start : Market) :
    Reads json (fields.map Field.member)
      (fun market => market.index = start.index ∧ market.name = start.name ∧
        market.decimals = start.decimals ∧
        (∀ field ∈ fields, field.GivenBy json (market.get field)) ∧
        ∀ field, field ∉ fields → market.get field = start.get field)
      (fields.foldlM (fun market field => return market.set field (← field.read json)) start) := by
  induction fields generalizing start with
  | nil => exact .nil (by simp)
  | cons first rest ih =>
      have step : Reads json [first.member]
          (fun next => ∃ x, first.GivenBy json x ∧ next = start.set first x)
          (do return start.set first (← first.read json)) := by
        refine (first.reads_read json).append ?_
        intro x given
        exact .nil ⟨x, given, rfl⟩
      rw [List.foldlM_cons]
      refine step.append ?_
      rintro next ⟨x, given, rfl⟩
      refine (ih _).mono ?_
      rintro market ⟨index_eq, name_eq, decimals_eq, givens, others⟩
      refine ⟨by simpa using index_eq, by simpa using name_eq, by simpa using decimals_eq, ?_, ?_⟩
      · intro field mem
        rcases List.mem_cons.mp mem with rfl | later
        · by_cases again : field ∈ rest
          · exact givens field again
          · rwa [others field again, get_set_self]
        · exact givens field later
      · intro field absent
        rw [List.mem_cons, not_or] at absent
        rw [others field absent.2, get_set_of_ne start x absent.1]

theorem reads_ofJsonUnchecked (json : Json) :
    Reads json members (DescribedBy json) (ofJsonUnchecked json) := by
  refine (reads_natural _ _ json).append fun index ⟨index_le, has_index⟩ => ?_
  refine (reads_optional (ensures_toText _) "" json).append fun name has_name => ?_
  refine (reads_natural _ _ json).append fun decimals ⟨decimals_le, has_decimals⟩ => ?_
  refine (reads_fields json Field.all _).mono ?_
  rintro market ⟨index_same, name_same, decimals_same, givens, -⟩
  have index_eq : index.toUInt16.toNat = index :=
    UInt16.toNat_ofNat_of_lt (Nat.lt_succ_of_le index_le)
  have decimals_eq : decimals.toUInt32.toNat = decimals :=
    UInt32.toNat_ofNat_of_lt (Nat.lt_succ_of_le decimals_le)
  exact
    { index := by rwa [index_same, index_eq]
      name := by rwa [name_same]
      decimals := by rwa [decimals_same, decimals_eq]
      fields := fun field => givens field field.mem_all }

theorem Field.GivenBy.unique {json : Json} {field : Field} {x y : Fixed}
    (given : field.GivenBy json x) (other_given : field.GivenBy json y) : x = y := by
  unfold GivenBy at given other_given
  split at given
  · rename_i required
    rw [if_pos required] at other_given
    exact given.unique (fun _ => Denotes.unique) other_given
  · rename_i optional
    rw [if_neg optional] at other_given
    exact given.unique (fun _ => Denotes.unique) other_given

theorem DescribedBy.unique (json : Json) (market other : Market)
    (describes : DescribedBy json market) (other_describes : DescribedBy json other) :
    market = other := by
  have index := describes.index.unique (fun _ => Counts.unique) other_describes.index
  have name := describes.name.unique (fun _ => Spells.unique) other_describes.name
  have decimals := describes.decimals.unique (fun _ => Counts.unique) other_describes.decimals
  have fields := fun field => (describes.fields field).unique (other_describes.fields field)
  cases market
  cases other
  simp only [Market.mk.injEq]
  exact ⟨UInt16.toNat_inj.mp index, name, UInt32.toNat_inj.mp decimals, fields .depositInterest,
    fields .borrowInterest, fields .depositBalance, fields .initialAssetWeight,
    fields .maintenanceAssetWeight, fields .initialLiabilityWeight,
    fields .maintenanceLiabilityWeight, fields .imfFactor, fields .scaleStart⟩

section Same

variable {entries others : List (String × Json)}

theorem Field.read_eq_of_same (field : Field)
    (same : field.member.Same (.object entries) (.object others)) :
    field.read (.object entries) = field.read (.object others) := by
  unfold read
  split
  · exact required_eq_of_same toFixed same toFixed_eq_of_same
  · exact optional_eq_of_same toFixed _ same toFixed_eq_of_same

theorem ofJsonUnchecked_eq_of_same
    (same : ∀ member ∈ members, member.Same (.object entries) (.object others)) :
    ofJsonUnchecked (.object entries) = ofJsonUnchecked (.object others) := by
  simp only [members, List.forall_mem_append, List.forall_mem_cons, List.forall_mem_map] at same
  obtain ⟨⟨index, name, decimals, -⟩, fields⟩ := same
  have index_eq := required_eq_of_same (toNat · 65535) index fun _ _ => congrArg _
  have name_eq := optional_eq_of_same toText "" name fun _ _ => congrArg _
  have decimals_eq := required_eq_of_same (toNat · 4294967295) decimals fun _ _ => congrArg _
  have fields_eq (field : Field) : field.read (.object entries) = field.read (.object others) :=
    field.read_eq_of_same (fields field field.mem_all)
  rw [ofJsonUnchecked, ofJsonUnchecked, index_eq, name_eq, decimals_eq]
  simp only [fields_eq]

end Same

theorem ofJson_readsExactly : ReadsExactly members DescribedBy check ofJson :=
  readsExactly ⟨_, List.mem_cons_self, rfl⟩ reads_ofJsonUnchecked DescribedBy.unique
    (fun _ _ => ofJsonUnchecked_eq_of_same) fun _ => rfl

end Market

namespace StrictPrice

/-- The members of a price, in the order in which they are looked at. -/
def members : List Member :=
  [⟨"current", .fixed, true⟩, ⟨"twap", .fixedOrNull, false⟩]

/-- The value is the average, where `null` is none. -/
inductive Averages : Json → Option Fixed → Prop
  | null : Averages .null none
  | fixed {json : Json} {twap : Fixed} : json.Denotes twap → Averages json (some twap)

/-- The object describes the price. -/
structure DescribedBy (json : Json) (price : StrictPrice) : Prop where
  current : json.Has "current" Denotes price.current
  twap : json.HasOr "twap" Averages none price.twap

theorem Averages.unique {json : Json} {twap other : Option Fixed} (averages : Averages json twap)
    (other_averages : Averages json other) : twap = other := by
  cases averages with
  | null =>
      cases other_averages with
      | null => rfl
      | fixed denotes => exact absurd denotes not_denotes_null
  | fixed denotes =>
      cases other_averages with
      | null => exact absurd denotes not_denotes_null
      | fixed other_denotes => rw [denotes.unique other_denotes]

theorem readTwap_of_ne_null (key : String) {json : Json} (not_null : json ≠ .null) :
    readTwap key json = some <$> json.toFixed key := by
  cases json with
  | null => exact absurd rfl not_null
  | _ => rfl

theorem ensures_readTwap (key : String) (json : Json) :
    Ensures (Shape.fixedOrNull.Rejects key json)
      (fun twap => Shape.fixedOrNull.Takes json ∧ Averages json twap) (readTwap key json) := by
  by_cases null : json = .null
  · subst null
    exact ⟨.inl rfl, .null⟩
  · rw [readTwap_of_ne_null key null]
    have ensured := ensures_toFixed key json
    cases read : json.toFixed key with
    | ok twap =>
        rw [read] at ensured
        exact ⟨.inr ensured.1, .fixed ensured.2⟩
    | error error =>
        rw [read] at ensured
        exact .orNull null ensured

theorem readTwap_eq_of_same {key : String} (value held : Json)
    (same : Shape.fixedOrNull.Same value held) : readTwap key value = readTwap key held := by
  rcases same with rfl | ⟨x, denotes, held_denotes⟩
  · rfl
  · rw [readTwap_of_ne_null, readTwap_of_ne_null, toFixed_eq_ok_of_denotes denotes,
      toFixed_eq_ok_of_denotes held_denotes]
    · rintro rfl
      exact not_denotes_null held_denotes
    · rintro rfl
      exact not_denotes_null denotes

theorem reads_ofJson (json : Json) : Reads json members (DescribedBy json) (ofJson json) := by
  refine (reads_required (ensures_toFixed _) json).append fun current has_current => ?_
  refine (reads_optional (ensures_readTwap _) none json).append fun twap has_twap => .nil ?_
  exact ⟨has_current, has_twap⟩

theorem DescribedBy.unique (json : Json) (price other : StrictPrice)
    (describes : DescribedBy json price) (other_describes : DescribedBy json other) :
    price = other := by
  have current := describes.current.unique (fun _ => Denotes.unique) other_describes.current
  have twap := describes.twap.unique (fun _ => Averages.unique) other_describes.twap
  cases price
  cases other
  simp only [StrictPrice.mk.injEq]
  exact ⟨current, twap⟩

theorem ofJson_eq_of_same {entries others : List (String × Json)}
    (same : ∀ member ∈ members, member.Same (.object entries) (.object others)) :
    ofJson (.object entries) = ofJson (.object others) := by
  simp only [members, List.forall_mem_cons] at same
  obtain ⟨current, twap, -⟩ := same
  have current_eq := required_eq_of_same toFixed current toFixed_eq_of_same
  have twap_eq := optional_eq_of_same readTwap none twap readTwap_eq_of_same
  rw [ofJson, ofJson, current_eq, twap_eq]

theorem ofJson_readsExactly : ReadsExactly members DescribedBy (fun _ => .ok ()) ofJson :=
  readsExactly ⟨_, List.mem_cons_self, rfl⟩ reads_ofJson DescribedBy.unique
    (fun _ _ => ofJson_eq_of_same) fun json => by cases ofJson json <;> rfl

end StrictPrice

namespace Scenario

/-- The members of a scenario, in the order in which they are looked at. -/
def members : List Member :=
  ["token_amount", "orders_value", "token_value", "weight", "weighted_token_value",
    "free_collateral_contribution"].map (⟨·, .fixed, true⟩)

/-- The object describes the scenario. -/
structure DescribedBy (json : Json) (scenario : Scenario) : Prop where
  tokenAmount : json.Has "token_amount" Denotes scenario.tokenAmount
  ordersValue : json.Has "orders_value" Denotes scenario.ordersValue
  tokenValue : json.Has "token_value" Denotes scenario.tokenValue
  weight : json.Has "weight" Denotes scenario.weight
  weightedTokenValue : json.Has "weighted_token_value" Denotes scenario.weightedTokenValue
  freeCollateral : json.Has "free_collateral_contribution" Denotes scenario.freeCollateral

theorem reads_ofJson (json : Json) : Reads json members (DescribedBy json) (ofJson json) := by
  refine (reads_required (ensures_toFixed _) json).append fun tokenAmount has_amount => ?_
  refine (reads_required (ensures_toFixed _) json).append fun ordersValue has_orders => ?_
  refine (reads_required (ensures_toFixed _) json).append fun tokenValue has_value => ?_
  refine (reads_required (ensures_toFixed _) json).append fun weight has_weight => ?_
  refine (reads_required (ensures_toFixed _) json).append fun weightedTokenValue has_weighted => ?_
  refine (reads_required (ensures_toFixed _) json).append fun freeCollateral has_free => .nil ?_
  exact ⟨has_amount, has_orders, has_value, has_weight, has_weighted, has_free⟩

theorem DescribedBy.unique (json : Json) (scenario other : Scenario)
    (describes : DescribedBy json scenario) (other_describes : DescribedBy json other) :
    scenario = other := by
  have same {key : String} {x y : Fixed} (has : json.Has key Denotes x)
      (other_has : json.Has key Denotes y) : x = y :=
    has.unique (fun _ => Denotes.unique) other_has
  obtain ⟨amount, orders, value, weight, weighted, free⟩ := describes
  obtain ⟨amount', orders', value', weight', weighted', free'⟩ := other_describes
  cases scenario
  cases other
  simp only [Scenario.mk.injEq]
  exact ⟨same amount amount', same orders orders', same value value', same weight weight',
    same weighted weighted', same free free'⟩

theorem ofJson_eq_of_same {entries others : List (String × Json)}
    (same : ∀ member ∈ members, member.Same (.object entries) (.object others)) :
    ofJson (.object entries) = ofJson (.object others) := by
  have required_eq (key : String) (mem : (⟨key, .fixed, true⟩ : Member) ∈ members) :
      (Json.object entries).required toFixed key = (Json.object others).required toFixed key :=
    required_eq_of_same toFixed (same _ mem) toFixed_eq_of_same
  have amount_eq := required_eq "token_amount" (by simp [members])
  have orders_eq := required_eq "orders_value" (by simp [members])
  have value_eq := required_eq "token_value" (by simp [members])
  have weight_eq := required_eq "weight" (by simp [members])
  have weighted_eq := required_eq "weighted_token_value" (by simp [members])
  have free_eq := required_eq "free_collateral_contribution" (by simp [members])
  rw [ofJson, ofJson, amount_eq, orders_eq, value_eq, weight_eq, weighted_eq, free_eq]

theorem ofJson_readsExactly : ReadsExactly members DescribedBy (fun _ => .ok ()) ofJson :=
  readsExactly ⟨_, List.mem_cons_self, rfl⟩ reads_ofJson DescribedBy.unique
    (fun _ _ => ofJson_eq_of_same) fun json => by cases ofJson json <;> rfl

end Scenario

/-- Positions, markets, prices and scenarios are read exactly, where a market has to pass its
check.  An integer of either class and its numeral are the same in every member that holds a
fixed-point integer; a member that holds a natural number takes tokens without a minus sign only. -/
theorem ofJson_exact :
    ReadsExactly Position.members Position.DescribedBy (fun _ => .ok ()) Position.ofJson ∧
    ReadsExactly Market.members Market.DescribedBy Market.check Market.ofJson ∧
    ReadsExactly StrictPrice.members StrictPrice.DescribedBy (fun _ => .ok ())
      StrictPrice.ofJson ∧
    ReadsExactly Scenario.members Scenario.DescribedBy (fun _ => .ok ()) Scenario.ofJson ∧
    (∀ (json : Json) (x : Fixed), json.IsInteger x.toInt →
      json.Denotes x ∧ (Json.string x.numeral).Denotes x) ∧
    ∀ minus digits,
      (∀ n, (ofToken minus digits).IsInteger n ↔ n = tokenInteger minus digits ∧ InWord n) ∧
      ∀ n : Nat, (ofToken minus digits).Counts n ↔ minus = false ∧ n = digits ∧ InWord n :=
  ⟨Position.ofJson_readsExactly, Market.ofJson_readsExactly, StrictPrice.ofJson_readsExactly,
    Scenario.ofJson_readsExactly, fun _ _ => denotes_integer_and_numeral,
    fun _ _ => ⟨fun _ => isInteger_ofToken_iff, fun _ => counts_ofToken_iff⟩⟩

/-- The greatest integer of 64 bits as a token beside a key that is no member, and as a numeral; a
market with two members that are not well-formed; and a zero with a minus sign, which is a price but
not a number of a market. -/
theorem ofJson_exact_at_the_bounds :
    StrictPrice.ofJson
        (.object [("slot", .bool true), ("current", .ofToken false 18446744073709551615)]) =
      .ok { current := .ofInt 18446744073709551615, twap := none } ∧
    StrictPrice.ofJson
        (.object [("slot", .bool true), ("current", .ofToken false 18446744073709551615)]) =
      StrictPrice.ofJson (.object [("current", .string "18446744073709551615")]) ∧
    Market.ofJson (.object [("market_index", .ofToken false 65536), ("decimals", .null)]) =
      .error (.json (.outOfRange "market_index" 65536)) ∧
    StrictPrice.ofJson (.object [("current", .ofToken true 0)]) =
      .ok { current := 0, twap := none } ∧
    Market.ofJson (.object [("market_index", .ofToken true 0)]) =
      .error (.json (.outOfRange "market_index" 0)) := by
  obtain ⟨-, market_exact, price_exact, -, forms, tokens⟩ := ofJson_exact
  have greatest := forms (.ofToken false 18446744073709551615) (.ofInt 18446744073709551615)
    (((tokens false _).1 _).mpr ⟨by decide, by decide⟩)
  have zero := forms (.ofToken true 0) 0 (((tokens true 0).1 0).mpr ⟨rfl, by decide⟩)
  have read {entries : List (String × Json)} {x : Fixed} {json : Json} (denotes : json.Denotes x)
      (found : (Json.object entries).member? "current" = some json)
      (alone : (Json.object entries).member? "twap" = none) :
      StrictPrice.ofJson (.object entries) = .ok { current := x, twap := none } := by
    refine (price_exact.returns _ _).mpr ⟨⟨⟨_, rfl⟩, ?_⟩, ⟨⟨_, found, denotes⟩, ?_⟩, rfl⟩
    · simp only [StrictPrice.members, List.forall_mem_cons, Member.WellFormed, found, alone]
      exact ⟨⟨_, denotes⟩, trivial, by simp⟩
    · simp [HasOr, alone]
  have refused (minus : Bool) (digits : Nat) {entries : List (String × Json)}
      (found : (Json.object entries).member? "market_index" = some (.ofToken minus digits))
      (word : InWord (tokenInteger minus digits)) (out : minus = true ∨ 65535 < digits) :
      Market.ofJson (.object entries) =
        .error (.json (.outOfRange "market_index" (tokenInteger minus digits))) := by
    refine (market_exact.fails _ _).mpr (.inl ⟨[], _, _, rfl, by simp, .malformed found ?_⟩)
    refine .outOfRange (((tokens minus digits).1 _).mpr ⟨rfl, word⟩) fun k k_le counts => ?_
    obtain ⟨plain, rfl, -⟩ := ((tokens minus digits).2 k).mp counts
    rcases out with signed | above
    · cases plain.symm.trans signed
    · omega
  refine ⟨read greatest.1 rfl rfl, price_exact.same _ _ ?_,
    refused false 65536 rfl (by decide) (.inr (by decide)), read zero.1 rfl rfl,
    refused true 0 rfl (by decide) (.inl rfl)⟩
  simp only [StrictPrice.members, List.forall_mem_cons]
  exact ⟨.inr ⟨_, greatest⟩, trivial, by simp⟩

end SpotMargin
