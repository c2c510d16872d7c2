import Mathlib.Data.Set.Lattice
import Mathlib.Order.CompletePartialOrder
import TabularSql.Proofs.Lowering.Qualifiers

/-!
# Names that never collide

The store is addressed by names only, so two tables or two columns under one name would be one. All names but
those of the metadata columns are built around a number: no digit stands in front of it, and what stands
behind it does not start with one. The three parts can therefore be told from the name, and two names are
equal only if they agree in all of them.
-/

namespace TabularSql

set_option autoImplicit false

/-! ## Numbers inside a name -/

namespace Number

/-- The name is a text without digits, a number, and a text that does not continue the number. -/
structure Enclosed (name : String) (front : String) (value : Nat) (back : List Char) : Prop where
  chars : name.toList = front.toList ++ (Nat.toDigits 10 value ++ back)
  ahead : front.toList.any Char.isDigit = false
  behind : back.head?.any Char.isDigit = false

namespace Enclosed

variable {name front front' : String} {value value' : Nat} {back back' : List Char}

theorem takeWhile_digits (enclosed : Enclosed name front value back) :
    (Nat.toDigits 10 value ++ back).takeWhile Char.isDigit = Nat.toDigits 10 value := by
  rw [List.takeWhile_append_of_pos fun _ => Physical.isDigit_of_mem]
  cases back with
  | nil => simp
  | cons char rest =>
    have other : char.isDigit = false := by simpa using enclosed.behind
    simp [other]

theorem takeWhile_front (enclosed : Enclosed name front value back) :
    name.toList.takeWhile (fun char => !char.isDigit) = front.toList := by
  have letters : ∀ char ∈ front.toList, (!char.isDigit) = true := by
    simpa using enclosed.ahead
  obtain ⟨digit, rest, digits⟩ := List.exists_cons_of_ne_nil (@Nat.toDigits_ne_nil value 10)
  have isDigit : digit.isDigit = true :=
    Physical.isDigit_of_mem (digits ▸ List.mem_cons_self)
  rw [enclosed.chars, List.takeWhile_append_of_pos letters, digits]
  simp [isDigit]

/-- The parts can be told from the name. -/
theorem unique (enclosed : Enclosed name front value back) (other : Enclosed name front' value' back') :
    front = front' ∧ value = value' ∧ back = back' := by
  have fronts : front = front' := by
    apply String.toList_inj.mp
    rw [← enclosed.takeWhile_front, other.takeWhile_front]
  subst fronts
  have rest : Nat.toDigits 10 value ++ back = Nat.toDigits 10 value' ++ back' :=
    List.append_cancel_left (enclosed.chars.symm.trans other.chars)
  have digits : Nat.toDigits 10 value = Nat.toDigits 10 value' := by
    rw [← enclosed.takeWhile_digits, rest, other.takeWhile_digits]
  exact ⟨rfl, toDigits_injective digits, List.append_cancel_left (digits ▸ rest)⟩

/-- A name without digits is no such name. -/
theorem ne_letters (enclosed : Enclosed name front value back) {word : String}
    (letters : word.toList.any Char.isDigit = false) : name ≠ word := by
  rintro rfl
  obtain ⟨digit, rest, digits⟩ := List.exists_cons_of_ne_nil (@Nat.toDigits_ne_nil value 10)
  have listed : digit ∈ Nat.toDigits 10 value := digits ▸ List.mem_cons_self
  have member : digit ∈ name.toList := by
    rw [enclosed.chars]
    exact List.mem_append_right _ (List.mem_append_left _ listed)
  exact List.any_eq_false.mp letters digit member (Physical.isDigit_of_mem listed)

end Enclosed

end Number

/-! ## The names of the store -/

/-- What is kept for a column: its values and their shadows in the table, and in the side table the elements
and the rows they belong to. -/
inductive Kept where
  | value
  | shadow
  | element
  | elementRow
  deriving DecidableEq

namespace Kept

open Number (Enclosed)

def name : Kept → ColumnId → String
  | value => Physical.column
  | shadow => Physical.shadow
  | element => Physical.element
  | elementRow => Physical.elementRow

def front : Kept → String
  | value | element => "_C"
  | shadow => "_DBL_C"
  | elementRow => "ROW_ID_REF_C"

def back : Kept → List Char
  | element => "__UNNEST".toList
  | value | shadow | elementRow => ['_']

theorem enclosed (kept : Kept) (id : ColumnId) : Enclosed (kept.name id) kept.front id.toNat kept.back where
  chars := by
    cases kept with
    | value =>
      show (Physical.column id).toList = "_C".toList ++ (Nat.toDigits 10 id.toNat ++ ['_'])
      simp [Physical.column, Number.decimal]
    | shadow =>
      show (Physical.shadow id).toList = "_DBL_C".toList ++ (Nat.toDigits 10 id.toNat ++ ['_'])
      simp [Physical.shadow, Number.decimal]
    | element =>
      show (Physical.element id).toList = "_C".toList ++ (Nat.toDigits 10 id.toNat ++ "__UNNEST".toList)
      simp [Physical.element, Physical.column, Number.decimal]
    | elementRow =>
      show (Physical.elementRow id).toList = "ROW_ID_REF_C".toList ++ (Nat.toDigits 10 id.toNat ++ ['_'])
      simp [Physical.elementRow, Number.decimal]
  ahead := by cases kept <;> decide
  behind := by cases kept <;> decide

variable {kept other : Kept} {id id' : ColumnId}

/-- The elements differ from the values only behind the number. -/
theorem eq_of_parts (fronts : kept.front = other.front) (backs : kept.back = other.back) :
    kept = other := by
  revert fronts backs
  cases kept <;> cases other <;> decide

theorem name_unique (same : kept.name id = other.name id') : kept = other ∧ id = id' := by
  obtain ⟨fronts, numbers, backs⟩ := (kept.enclosed id).unique (same ▸ other.enclosed id')
  exact ⟨eq_of_parts fronts backs, UInt64.toNat_inj.mp numbers⟩

theorem name_injective (kept : Kept) : Function.Injective kept.name := fun _ _ same => (name_unique same).2

theorem disjoint_names (different : kept ≠ other) :
    Disjoint (Set.range kept.name) (Set.range other.name) :=
  Set.disjoint_range_iff.mpr fun _ _ same => different (name_unique same).1

theorem disjoint_metadata (kept : Kept) : Disjoint (Set.range kept.name) (Set.range MetadataName.text) := by
  refine Set.disjoint_range_iff.mpr fun id metadata => (kept.enclosed id).ne_letters ?_
  cases metadata <;> decide

theorem disjoint_search (kept : Kept) : Disjoint (Set.range kept.name) {"ROW_SEARCH_CONTENT"} := by
  refine Set.disjoint_left.mpr ?_
  rintro _ ⟨id, rfl⟩ same
  exact (kept.enclosed id).ne_letters (by decide) same

end Kept

namespace Physical

open Number (Enclosed)

theorem enclosed_correlation (index : Nat) : Enclosed (correlation index) "_A" index [] where
  chars := by simp [correlation, Number.decimal]
  ahead := by decide
  behind := rfl

theorem enclosed_table (id : TableId) : ∃ back, Enclosed (table id) "T" id.number.toNat back := by
  refine ⟨_, table_chars id, by decide, ?_⟩
  cases id.version with
  | none => rfl
  | some version => exact (by decide : '_'.isDigit = false)

theorem correlation_ne_table (index : Nat) (id : TableId) : correlation index ≠ table id := by
  intro same
  obtain ⟨back, enclosed⟩ := enclosed_table id
  exact absurd ((same ▸ enclosed_correlation index).unique enclosed).1 (by decide)

theorem disjoint_tables :
    [Set.range table, Set.range (Function.uncurry sideTable), Set.range correlation].Pairwise Disjoint := by
  have aside : Disjoint (Set.range table) (Set.range (Function.uncurry sideTable)) :=
    Set.disjoint_range_iff.mpr fun id side => table_ne_sideTable id side.1 side.2
  have numbered : Disjoint (Set.range table) (Set.range correlation) :=
    Set.disjoint_range_iff.mpr fun id index => (correlation_ne_table index id).symm
  have both : Disjoint (Set.range (Function.uncurry sideTable)) (Set.range correlation) :=
    Set.disjoint_range_iff.mpr fun side index => (correlation_ne_sideTable index side.1 side.2).symm
  simp [aside, numbered, both]

/-- The names that a column gives rise to are apart from each other and from those of the metadata columns and
of the column that searches read. -/
theorem disjoint_columns :
    [Set.range column, Set.range shadow, Set.range element, Set.range elementRow,
      Set.range MetadataName.text, {"ROW_SEARCH_CONTENT"}].Pairwise Disjoint := by
  have own : ([.value, .shadow, .element, .elementRow].map fun kept : Kept =>
      Set.range kept.name).Pairwise Disjoint :=
    List.pairwise_map.mpr (.imp Kept.disjoint_names (by decide))
  have fixed : [Set.range MetadataName.text, {"ROW_SEARCH_CONTENT"}].Pairwise Disjoint := by
    refine List.pairwise_pair.mpr (Set.disjoint_left.mpr ?_)
    rintro _ ⟨metadata, rfl⟩ same
    have other : metadata.text ≠ "ROW_SEARCH_CONTENT" := by cases metadata <;> decide
    exact other same
  refine List.pairwise_append.mpr ⟨own, fixed, fun names member others listed => ?_⟩
  obtain ⟨kept, -, rfl⟩ := List.mem_map.mp member
  rcases List.mem_pair.mp listed with rfl | rfl
  · exact kept.disjoint_metadata
  · exact kept.disjoint_search

/-- Different tables, columns, positions and placeholders never share a name, and no name serves two purposes
where the store or a statement could confuse them. -/
theorem names_never_collide :
    Function.Injective table ∧ Function.Injective (Function.uncurry sideTable) ∧
    Function.Injective correlation ∧
    [Set.range table, Set.range (Function.uncurry sideTable), Set.range correlation].Pairwise Disjoint ∧
    Function.Injective column ∧ Function.Injective shadow ∧ Function.Injective element ∧
    Function.Injective elementRow ∧
    [Set.range column, Set.range shadow, Set.range element, Set.range elementRow,
      Set.range MetadataName.text, {"ROW_SEARCH_CONTENT"}].Pairwise Disjoint ∧
    Function.Injective placeholderName := by
  have sides : Function.Injective (Function.uncurry sideTable) := by
    rintro ⟨owner, id⟩ ⟨owner', id'⟩ same
    obtain ⟨rfl, rfl⟩ := sideTable_injective same
    rfl
  exact ⟨fun _ _ => table_injective, sides, fun _ _ => correlation_injective, disjoint_tables,
    Kept.name_injective .value, Kept.name_injective .shadow, Kept.name_injective .element,
    Kept.name_injective .elementRow, disjoint_columns, fun _ _ => placeholderName_injective⟩

end Physical

end TabularSql
