import SpotMargin.Market.Basic

/-!
# Tables of markets

A table holds markets under distinct names.  The view of a table is `find?`, and `find?_insert` says
what an insertion does to it.  The entries stand in the order in which the names were first used,
but a table does not promise an order: which of several markets with one number is found by it, and
which of several that are not valid fails a check, is up to the table.
-/

namespace SpotMargin

/-- Markets under distinct names. -/
structure Markets where
  entries : List (String × Market)
  distinct : (entries.map Prod.fst).Nodup
  deriving DecidableEq

namespace Markets

def empty : Markets where
  entries := []
  distinct := List.nodup_nil

instance : Inhabited Markets := ⟨empty⟩

def names (markets : Markets) : List String :=
  markets.entries.map Prod.fst

def find? (markets : Markets) (name : String) : Option Market :=
  markets.entries.lookup name

private theorem lookup_entry (name key : String) (market : Market)
    (rest : List (String × Market)) :
    ((key, market) :: rest).lookup name = if name = key then some market else rest.lookup name := by
  cases h : name == key with
  | true => simp [beq_iff_eq.mp h]
  | false => simp [List.lookup_cons, h, beq_eq_false_iff_ne.mp h]

private theorem mem_iff_lookup {entries : List (String × Market)} {name : String}
    {market : Market} (distinct : (entries.map Prod.fst).Nodup) :
    (name, market) ∈ entries ↔ entries.lookup name = some market := by
  induction entries with
  | nil => simp
  | cons entry rest ih =>
      obtain ⟨key, old⟩ := entry
      rw [List.map_cons, List.nodup_cons] at distinct
      rw [lookup_entry, List.mem_cons, Prod.mk.injEq]
      split
      · rename_i same
        subst same
        rw [Option.some.injEq]
        constructor
        · rintro (⟨-, here⟩ | later)
          · exact here.symm
          · exact absurd (List.mem_map.mpr ⟨_, later, rfl⟩) distinct.1
        · exact fun here => Or.inl ⟨rfl, here.symm⟩
      · rename_i other
        rw [← ih distinct.2]
        exact ⟨fun h => h.elim (fun here => absurd here.1 other) id, Or.inr⟩

/-- The table lists each market under the name that finds it. -/
theorem mem_entries_iff {markets : Markets} {name : String} {market : Market} :
    (name, market) ∈ markets.entries ↔ markets.find? name = some market :=
  mem_iff_lookup markets.distinct

theorem mem_names_iff {markets : Markets} {name : String} :
    name ∈ markets.names ↔ ∃ market, markets.find? name = some market := by
  simp [names, ← mem_entries_iff]

/-- A market with the given number, if there is one: here the first of them. -/
def findIndex? (markets : Markets) (index : UInt16) : Option Market :=
  (markets.entries.find? fun entry => entry.2.index = index).map Prod.snd

theorem findIndex?_eq_none_iff {markets : Markets} {index : UInt16} :
    markets.findIndex? index = none ↔ ∀ entry ∈ markets.entries, entry.2.index ≠ index := by
  simp [findIndex?]

theorem exists_of_findIndex?_eq_some {markets : Markets} {index : UInt16} {market : Market}
    (found : markets.findIndex? index = some market) :
    ∃ name, (name, market) ∈ markets.entries ∧ market.index = index := by
  obtain ⟨⟨name, held⟩, first, rfl⟩ := Option.map_eq_some_iff.mp found
  exact ⟨name, List.mem_of_find?_eq_some first, by simpa using List.find?_some first⟩

/-- Replaces the market under a name, or adds it behind all others. -/
def put (name : String) (market : Market) : List (String × Market) → List (String × Market)
  | [] => [(name, market)]
  | entry :: rest =>
      if entry.1 = name then (name, market) :: rest else entry :: put name market rest

theorem map_fst_put (name : String) (market : Market) (entries : List (String × Market)) :
    (put name market entries).map Prod.fst =
      if name ∈ entries.map Prod.fst then entries.map Prod.fst
      else entries.map Prod.fst ++ [name] := by
  induction entries with
  | nil => simp [put]
  | cons entry rest ih =>
      by_cases same : entry.1 = name
      · simp [put, same]
      · have other : ¬name = entry.1 := fun h => same h.symm
        simp only [put, same, if_false, List.map_cons, ih, List.mem_cons, other, false_or]
        split <;> rfl

theorem nodup_put {name : String} {market : Market} {entries : List (String × Market)}
    (distinct : (entries.map Prod.fst).Nodup) :
    ((put name market entries).map Prod.fst).Nodup := by
  rw [map_fst_put]
  split
  · exact distinct
  · rename_i fresh
    rw [List.nodup_append]
    refine ⟨distinct, List.nodup_cons.mpr ⟨List.not_mem_nil, List.nodup_nil⟩, ?_⟩
    intro a old b new
    rw [List.mem_singleton] at new
    rintro rfl
    exact fresh (new ▸ old)

theorem lookup_put (name other : String) (market : Market) (entries : List (String × Market)) :
    (put name market entries).lookup other =
      if other = name then some market else entries.lookup other := by
  induction entries with
  | nil => rw [put, lookup_entry]
  | cons entry rest ih =>
      obtain ⟨key, old⟩ := entry
      by_cases same : key = name
      · subst same
        simp only [put, if_true, lookup_entry]
        split <;> rfl
      · simp only [put, same, if_false, lookup_entry, ih]
        by_cases here : other = key
        · simp [here, same]
        · simp [here]

theorem put_put (name : String) (first second : Market) (entries : List (String × Market)) :
    put name second (put name first entries) = put name second entries := by
  induction entries with
  | nil => simp [put]
  | cons entry rest ih =>
      by_cases same : entry.1 = name
      · simp [put, same]
      · simp [put, same, ih]

def insert (markets : Markets) (name : String) (market : Market) : Markets where
  entries := put name market markets.entries
  distinct := nodup_put markets.distinct

theorem find?_insert (markets : Markets) (name other : String) (market : Market) :
    (markets.insert name market).find? other =
      if other = name then some market else markets.find? other :=
  lookup_put name other market markets.entries

@[simp]
theorem find?_insert_self (markets : Markets) (name : String) (market : Market) :
    (markets.insert name market).find? name = some market := by
  simp [find?_insert]

/-- What is put under a name twice is there as it was put last. -/
theorem insert_insert (markets : Markets) (name : String) (first second : Market) :
    (markets.insert name first).insert name second = markets.insert name second := by
  simp [insert, put_put]

theorem names_insert (markets : Markets) (name : String) (market : Market) :
    (markets.insert name market).names =
      if name ∈ markets.names then markets.names else markets.names ++ [name] :=
  map_fst_put name market markets.entries

@[simp]
theorem mem_names_insert {markets : Markets} {name other : String} {market : Market} :
    other ∈ (markets.insert name market).names ↔ other = name ∨ other ∈ markets.names := by
  rw [names_insert]
  split
  · rename_i old
    exact ⟨Or.inr, fun h => h.elim (fun same => same ▸ old) id⟩
  · simp [or_comm]

/-- The table with the market under the name changed; a name that is new starts from the default
market. -/
def update (markets : Markets) (name : String) (change : Market → Market) : Markets :=
  markets.insert name (change ((markets.find? name).getD {}))

theorem find?_update (markets : Markets) (name other : String) (change : Market → Market) :
    (markets.update name change).find? other =
      if other = name then some (change ((markets.find? name).getD {}))
      else markets.find? other :=
  find?_insert _ _ _ _

@[simp]
theorem mem_names_update {markets : Markets} {name other : String} {change : Market → Market} :
    other ∈ (markets.update name change).names ↔ other = name ∨ other ∈ markets.names :=
  mem_names_insert

/-- Passes a table of valid markets, and fails with the fault of the first that is not valid. -/
def check (markets : Markets) : Except Error Unit :=
  markets.entries.forM fun entry => entry.2.check

theorem check_insert_empty (name : String) (market : Market) :
    (empty.insert name market).check = market.check := by
  change (market.check >>= fun _ => .ok ()) = market.check
  cases market.check <;> rfl

end Markets
end SpotMargin
