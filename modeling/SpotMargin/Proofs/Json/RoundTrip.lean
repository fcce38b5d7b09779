import SpotMargin.Json.Codec
import SpotMargin.Proofs.Numeral.Canonical
import SpotMargin.Proofs.Outcome

/-!
# Records are read back

What is written of a record is what reading needs: positions, prices and scenarios are read back as
they were, and so are the markets that are valid.  Reading any other market fails as its check does.
`ofJson_toJson` states it for the four records.
-/

namespace SpotMargin

namespace Json

variable {α : Type} {key other : String} {value : Json} {members : List (String × Json)}

@[simp]
theorem toFixed_ofFixed (key : String) (x : Fixed) : (ofFixed x).toFixed key = .ok x := by
  simp [ofFixed, toFixed]

theorem toNat_unsigned {n : UInt64} {limit : Nat} (n_le : n.toNat ≤ limit) (key : String) :
    (unsigned n).toNat key limit = .ok n.toNat := by
  rw [toNat, if_pos n_le]

@[simp]
theorem toText_string (key text : String) : (string text).toText key = .ok text :=
  rfl

theorem lookup_reverse_of_ne (h : key ≠ other) :
    ((other, value) :: members).reverse.lookup key = members.reverse.lookup key := by
  have := beq_eq_false_iff_ne.mpr h
  simp [List.lookup_append, List.lookup_cons, this]

theorem lookup_reverse_self (last : ∀ member ∈ members, member.1 ≠ key) :
    ((key, value) :: members).reverse.lookup key = some value := by
  have absent : members.reverse.lookup key = none := by
    rw [List.lookup_eq_none_iff]
    intro member mem
    exact bne_iff_ne.mpr (last member (List.mem_reverse.mp mem)).symm
  rw [List.reverse_cons, List.lookup_append, absent]
  simp

theorem required_object_self (read : String → Json → Except Error α)
    (last : ∀ member ∈ members, member.1 ≠ key) :
    required read (.object ((key, value) :: members)) key = read key value := by
  rw [required, member, lookup_reverse_self last]
  rfl

theorem required_object_of_ne (read : String → Json → Except Error α) (h : key ≠ other) :
    required read (.object ((other, value) :: members)) key =
      required read (.object members) key := by
  rw [required, member, lookup_reverse_of_ne h, required, member]

theorem optional_object_self (read : String → Json → Except Error α) (fallback : α)
    (last : ∀ member ∈ members, member.1 ≠ key) :
    optional read fallback (.object ((key, value) :: members)) key = read key value := by
  rw [optional, member?, lookup_reverse_self last]

theorem optional_object_of_ne (read : String → Json → Except Error α) (fallback : α)
    (h : key ≠ other) :
    optional read fallback (.object ((other, value) :: members)) key =
      optional read fallback (.object members) key := by
  rw [optional, member?, lookup_reverse_of_ne h, optional, member?]

theorem optional_object_nil (read : String → Json → Except Error α) (fallback : α) :
    optional read fallback (.object []) key = .ok fallback :=
  rfl

end Json

open Json

theorem BalanceType.read_name (key : String) (type : BalanceType) :
    BalanceType.read key (.string type.name) = .ok type := by
  have found : ofName? type.name = some type := ofName?_eq_some_iff.mpr rfl
  simp only [read, toText_string, ok_bind, found]
  rfl

theorem Position.ofJson_toJson_self (position : Position) :
    ofJson position.toJson = .ok position := by
  have index_le : position.marketIndex.toNat ≤ 65535 :=
    Nat.le_of_lt_succ position.marketIndex.toNat_lt
  have count_le : position.openOrders.toNat ≤ 255 :=
    Nat.le_of_lt_succ position.openOrders.toNat_lt
  simp [ofJson, toJson, required_object_self, required_object_of_ne, optional_object_self,
    optional_object_of_ne, toNat_unsigned, index_le, count_le, BalanceType.read_name]

theorem StrictPrice.readTwap_ofFixed (key : String) (twap : Fixed) :
    readTwap key (ofFixed twap) = .ok (some twap) := by
  change some <$> (ofFixed twap).toFixed key = _
  rw [toFixed_ofFixed]
  rfl

theorem StrictPrice.ofJson_toJson_self (price : StrictPrice) : ofJson price.toJson = .ok price := by
  obtain ⟨current, twap⟩ := price
  cases twap with
  | none =>
      simp [ofJson, toJson, required_object_self, optional_object_of_ne, optional_object_nil]
  | some twap =>
      simp [ofJson, toJson, required_object_self, optional_object_of_ne, optional_object_self,
        readTwap_ofFixed]

theorem Scenario.ofJson_toJson_self (scenario : Scenario) :
    ofJson scenario.toJson = .ok scenario := by
  simp [ofJson, toJson, required_object_self, required_object_of_ne]

namespace Market

theorem Field.read_toJson (field : Field) (market : Market) :
    field.read market.toJson = .ok (market.get field) := by
  cases field <;>
    simp [Field.read, Field.isRequired, toJson, Field.all, Field.key, required_object_self,
      required_object_of_ne, optional_object_self, optional_object_of_ne]

/-- Reading parameters from what was written of a market sets each to its value there. -/
theorem foldlM_read_toJson (market : Market) (fields : List Field) (start : Market) :
    fields.foldlM (fun read field => return read.set field (← field.read market.toJson)) start =
      (.ok (fields.foldl (fun read field => read.set field (market.get field)) start) :
        Except Error Market) := by
  induction fields generalizing start with
  | nil => rfl
  | cons field rest ih =>
      rw [List.foldlM_cons, field.read_toJson, List.foldl_cons]
      exact ih _

theorem ofJsonUnchecked_toJson (market : Market) : ofJsonUnchecked market.toJson = .ok market := by
  have index_le : market.index.toNat ≤ 65535 := Nat.le_of_lt_succ market.index.toNat_lt
  have decimals_le : market.decimals.toNat ≤ 4294967295 :=
    Nat.le_of_lt_succ market.decimals.toNat_lt
  have index_eq : market.toJson.required (Json.toNat · 65535) "market_index" =
      .ok market.index.toNat := by
    simp [toJson, Field.all, Field.key, required_object_self, toNat_unsigned, index_le]
  have name_eq : market.toJson.optional Json.toText "" "name" = .ok market.name := by
    simp [toJson, Field.all, Field.key, optional_object_self, optional_object_of_ne]
  have decimals_eq : market.toJson.required (Json.toNat · 4294967295) "decimals" =
      .ok market.decimals.toNat := by
    simp [toJson, Field.all, Field.key, required_object_self, required_object_of_ne,
      toNat_unsigned, decimals_le]
  rw [ofJsonUnchecked, index_eq, name_eq, decimals_eq]
  simp only [ok_bind, foldlM_read_toJson]
  cases market
  simp [Field.all, set, get]

theorem ofJson_toJson_eq (market : Market) :
    ofJson market.toJson = do
      market.check
      return market := by
  rw [ofJson, ofJsonUnchecked_toJson]
  rfl

end Market

/-- Every position, price and scenario is read back from what is written of it.  A valid market is
read back too, and reading any other fails with the fault that its check finds. -/
theorem ofJson_toJson :
    (∀ position : Position, Position.ofJson position.toJson = .ok position) ∧
    (∀ price : StrictPrice, StrictPrice.ofJson price.toJson = .ok price) ∧
    (∀ scenario : Scenario, Scenario.ofJson scenario.toJson = .ok scenario) ∧
    ∀ market : Market,
      (market.check = .ok () → Market.ofJson market.toJson = .ok market) ∧
      ∀ error, market.check = .error error →
        Market.ofJson market.toJson = .error error ∧ error.kind = .configuration := by
  refine ⟨Position.ofJson_toJson_self, StrictPrice.ofJson_toJson_self, Scenario.ofJson_toJson_self,
    ?_⟩
  intro market
  rw [Market.ofJson_toJson_eq]
  refine ⟨?_, ?_⟩
  · intro passed
    rw [passed]
    rfl
  · intro error failed
    rw [failed]
    exact ⟨rfl, Market.kind_of_check_eq_error failed⟩

/-- Both ends of the range, in a position, and in a market that has more decimal places than
balances keep. -/
theorem ofJson_toJson_at_the_ends :
    Position.ofJson (Position.toJson
        { marketIndex := 65535, scaledBalance := Fixed.least, balanceType := .borrow
          openBids := Fixed.greatest, openOrders := 255 }) =
      .ok { marketIndex := 65535, scaledBalance := Fixed.least, balanceType := .borrow
            openBids := Fixed.greatest, openOrders := 255 } ∧
    Market.ofJson (Market.toJson { borrowInterest := Fixed.greatest }) =
      .ok { borrowInterest := Fixed.greatest } ∧
    Market.ofJson (Market.toJson { decimals := 20, depositBalance := Fixed.least }) =
      .error (.market "market 0" (.decimals 20)) :=
  ⟨ofJson_toJson.1 _, (ofJson_toJson.2.2.2 _).1 (by decide),
    ((ofJson_toJson.2.2.2 _).2 _ (by decide +kernel)).1⟩

end SpotMargin
