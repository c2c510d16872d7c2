import TabularSql.Proofs.Wire.Text
import TabularSql.Wire.Format

/-!
# Wire formats read back

What the models of requests and answers are written as is read back as the same model. Each field is
looked up by its name among the fields that were written: one without a value was left out and is found
missing, and the forms of a request are told apart by a field of their own. The texts of the formats are
read back as well, so nothing is lost on the way of a model through JSON.
-/

namespace TabularSql

set_option autoImplicit false

open WireFields WireValue

/-! ## Fields -/

namespace WireFields

variable {α : Type} {fields : WireFields} {name : String} {write : α → WireValue}
  {read : WireValue → Option α}

@[simp] theorem lookup_present (value : Option α) :
    (present name write value).lookup name = value.map write := by
  cases value <;> simp [present]

@[simp] theorem lookup_present_other {key : String} (other : key ≠ name) (value : Option α) :
    (present name write value).lookup key = none := by
  cases value <;> simp [present, other]

theorem required_of_lookup {value : α} (reads : ∀ value, read (write value) = some value)
    (listed : fields.lookup name = some (write value)) : required fields name read = some value := by
  simp [required, listed, reads]

theorem optional_of_lookup {value : Option α} (reads : ∀ value, read (write value) = some value)
    (solid : ∀ value, write value ≠ .null) (listed : fields.lookup name = value.map write) :
    optional fields name read = some value := by
  cases value with
  | none => simp [optional, listed]
  | some value =>
    have other := solid value
    simp only [optional, listed, Option.map_some, reads]

theorem names_present (value : Option α) : ((present name write value).map Prod.fst).Sublist [name] := by
  cases value <;> simp [present]

theorem forall_mem_present {property : WireValue → Prop} (each : ∀ value, property (write value))
    (value : Option α) : ∀ field ∈ present name write value, property field.2 := by
  cases value <;> simp [present, each]

end WireFields

namespace WireValue

theorem asString_string (value : String) : (string value).asString? = some value := rfl

theorem string_ne_null (value : String) : string value ≠ null := by simp

theorem word_ne_null (value : UInt64) : word value ≠ null := by simp [word, natural]

theorem asWord_word (value : UInt64) : (word value).asWord? = some value := by
  have fits : value.toNat < UInt64.size := value.toNat_lt
  simp [word, natural, asWord?, Number.toUnsigned, fits]

theorem asMember_string {α : Type} {members : List α} {name : α → String} {member : α}
    (found : members.find? (fun other => name other == name member) = some member) :
    asMember? members name (.string (name member)) = some member :=
  found

theorem asList_map {α : Type} {read : WireValue → Option α} {write : α → WireValue}
    (reads : ∀ value, read (write value) = some value) (values : List α) :
    asList? read (.array (values.map write)) = some values := by
  have each : (values.map write).mapM read = some values := by
    induction values with
    | nil => rfl
    | cons value values ih => simp [reads, ih]
  exact each

theorem asStrings_strings (values : List String) : asList? asString? (strings values) = some values :=
  asList_map asString_string values

end WireValue

/-! ## Values with a text of their own -/

namespace WireValue

/-- The value is read back from its text, at the given depth or deeper. -/
def Fits (depth : Nat) (value : WireValue) : Prop := value.Exact ∧ value.depth ≤ depth

theorem fits_string (depth : Nat) (value : String) : (string value).Fits depth :=
  ⟨trivial, Nat.zero_le depth⟩

theorem fits_boolean (depth : Nat) (value : Bool) : (boolean value).Fits depth :=
  ⟨trivial, Nat.zero_le depth⟩

theorem fits_word (depth : Nat) (value : UInt64) : (word value).Fits depth := by
  have high := value.toNat_lt
  have low : Int64.minValue.toInt = -9223372036854775808 := by decide
  refine ⟨⟨?_, ?_⟩, Nat.zero_le depth⟩
  · rw [low]
    omega
  · simp only [UInt64.size]
    omega

theorem fits_array {items : List WireValue} {depth : Nat} (each : ∀ item ∈ items, item.Fits depth) :
    (array items).Fits (depth + 1) :=
  ⟨exactItems_iff.mpr fun item member => (each item member).1,
    Nat.succ_le_succ (itemsDepth_le.mpr fun item member => (each item member).2)⟩

theorem fits_strings (depth : Nat) (values : List String) : (strings values).Fits (depth + 1) := by
  apply fits_array
  intro item member
  obtain ⟨value, _, rfl⟩ := List.mem_map.mp member
  exact fits_string depth value

theorem fits_object {fields : WireFields} {depth : Nat} (names : List String)
    (listed : (fields.map Prod.fst).Sublist names) (distinct : names.Nodup)
    (each : ∀ field ∈ fields, field.2.Fits depth) : (object fields).Fits (depth + 1) :=
  ⟨⟨distinct.sublist listed, exactFields_iff.mpr fun field member => (each field member).1⟩,
    Nat.succ_le_succ (fieldsDepth_le.mpr fun field member => (each field member).2)⟩

/-- No value is lost on its way through JSON: the wire value is read back from its text, and the value
from the wire value. -/
def Restores {α : Type} (write : α → WireValue) (read : WireValue → Option α) : Prop :=
  ∀ value, Json.parse? (Json.text (write value)) = some (write value) ∧ read (write value) = some value

theorem restores_of_fits {α : Type} {write : α → WireValue} {read : WireValue → Option α} {depth : Nat}
    (shallow : depth ≤ Json.depthLimit) (fits : ∀ value, (write value).Fits depth)
    (reads : ∀ value, read (write value) = some value) : Restores write read := by
  intro value
  obtain ⟨exact, below⟩ := fits value
  exact ⟨Json.parse_text exact (Nat.le_trans below shallow), reads value⟩

end WireValue

/-! ## Columns -/

theorem ColumnType.ofWire_toWire (type : ColumnType) : ofWire? type.toWire = some type :=
  asMember_string (by cases type <;> decide)

theorem FacetKind.ofWire_toWire (kind : FacetKind) : ofWire? kind.toWire = some kind :=
  asMember_string (by cases kind <;> decide)

theorem SubColumn.ofWire_toWire (column : SubColumn) : ofWire? column.toWire = some column := by
  simp [ofWire?, toWire, asObject?, required, List.lookup_cons, asString?, ColumnType.ofWire_toWire,
    FacetKind.ofWire_toWire]

theorem SubColumn.fits_toWire (column : SubColumn) : column.toWire.Fits 1 := by
  apply fits_object ["name", "jsonPath", "columnType", "facetType"] (List.Sublist.refl _) (by decide)
  simp [ColumnType.toWire, FacetKind.toWire, fits_string]

namespace ColumnModel

variable (column : ColumnModel)

theorem wireFields_eq : column.wireFields =
    present "id" word column.id ++
      [("name", .string column.name), ("columnType", column.type.toWire)] ++
      present "maxSize" word column.maxSize ++ present "maxListLength" word column.maxListLength ++
      present "facetType" FacetKind.toWire column.facet ++
      present "jsonSubColumns" (fun list => .array (list.map SubColumn.toWire))
        (if column.subColumns.isEmpty then none else some column.subColumns) := by
  unfold wireFields
  split <;> rfl

theorem subColumns_of_wire :
    defaulted column.wireFields "jsonSubColumns" [] (asList? SubColumn.ofWire?) =
      some column.subColumns := by
  have listed : column.wireFields.lookup "jsonSubColumns" =
      (if column.subColumns.isEmpty then none else some column.subColumns).map
        fun list => .array (list.map SubColumn.toWire) := by
    simp [wireFields_eq, List.lookup_append, List.lookup_cons]
  rw [defaulted, listed]
  cases column.subColumns with
  | nil => rfl
  | cons first rest => exact asList_map SubColumn.ofWire_toWire (first :: rest)

theorem ofWire_toWire : ofWire? column.toWire = some column := by
  have id : optional column.wireFields "id" asWord? = some column.id :=
    optional_of_lookup asWord_word word_ne_null (by simp [wireFields_eq, List.lookup_append, List.lookup_cons])
  have name : required column.wireFields "name" asString? = some column.name :=
    required_of_lookup asString_string (by simp [wireFields_eq, List.lookup_append])
  have type : required column.wireFields "columnType" ColumnType.ofWire? = some column.type :=
    required_of_lookup ColumnType.ofWire_toWire (by simp [wireFields_eq, List.lookup_append, List.lookup_cons])
  have maxSize : optional column.wireFields "maxSize" asWord? = some column.maxSize :=
    optional_of_lookup asWord_word word_ne_null (by simp [wireFields_eq, List.lookup_append, List.lookup_cons])
  have maxListLength : optional column.wireFields "maxListLength" asWord? = some column.maxListLength :=
    optional_of_lookup asWord_word word_ne_null (by simp [wireFields_eq, List.lookup_append, List.lookup_cons])
  have facet : optional column.wireFields "facetType" FacetKind.ofWire? = some column.facet :=
    optional_of_lookup FacetKind.ofWire_toWire (fun kind => string_ne_null kind.name)
      (by simp [wireFields_eq, List.lookup_append, List.lookup_cons])
  simp [ofWire?, toWire, asObject?, id, name, type, maxSize, maxListLength, facet, subColumns_of_wire]

theorem fits_toWire : column.toWire.Fits 3 := by
  have listed : (column.wireFields.map Prod.fst).Sublist
      (["id"] ++ ["name", "columnType"] ++ ["maxSize"] ++ ["maxListLength"] ++ ["facetType"] ++
        ["jsonSubColumns"]) := by
    simp only [wireFields_eq, List.map_append]
    exact (((((names_present _).append (.refl _)).append (names_present _)).append
      (names_present _)).append (names_present _)).append (names_present _)
  apply fits_object _ listed (by decide)
  have inner (list : List SubColumn) : (array (list.map SubColumn.toWire)).Fits 2 :=
    fits_array (by simpa using fun column _ => SubColumn.fits_toWire column)
  simp only [wireFields_eq, List.forall_mem_append]
  refine ⟨⟨⟨⟨⟨?_, ?_⟩, ?_⟩, ?_⟩, ?_⟩, ?_⟩
  · exact forall_mem_present (fits_word 2) _
  · simp [ColumnType.toWire, fits_string]
  · exact forall_mem_present (fits_word 2) _
  · exact forall_mem_present (fits_word 2) _
  · exact forall_mem_present (fun kind : FacetKind => fits_string 2 kind.name) _
  · exact forall_mem_present inner _

end ColumnModel

namespace SelectColumn

theorem ofWire_toWire (column : SelectColumn) : ofWire? column.toWire = some column := by
  have id : optional ([("name", .string column.name), ("columnType", column.type.toWire)] ++
      present "id" word column.id) "id" asWord? = some column.id :=
    optional_of_lookup asWord_word word_ne_null (by simp [List.lookup_cons])
  simp only [ofWire?, toWire, asObject?, Option.bind_eq_bind, Option.bind_some, id]
  simp [required, List.lookup_cons, asString?, ColumnType.ofWire_toWire]

theorem fits_toWire (column : SelectColumn) : column.toWire.Fits 1 := by
  apply fits_object ["name", "columnType", "id"] (by simpa using names_present column.id) (by decide)
  rw [List.forall_mem_append]
  exact ⟨by simp [ColumnType.toWire, fits_string], forall_mem_present (fits_word 0) _⟩

end SelectColumn

namespace TableId

theorem ofWire_toWire (table : TableId) : ofWire? table.toWire = some table := by
  obtain ⟨number, version⟩ := table
  have versionOf : WireFields.optional [("id", word number), ("version", .option word version)]
      "version" asWord? = some version := by
    cases version with
    | none => rfl
    | some version => exact optional_of_lookup asWord_word word_ne_null rfl
  simp [ofWire?, toWire, asObject?, required, asWord_word, versionOf]

theorem fits_toWire (table : TableId) : table.toWire.Fits 1 := by
  apply fits_object ["id", "version"] (List.Sublist.refl _) (by decide)
  have version : (WireValue.option word table.version).Fits 0 := by
    cases table.version with
    | none => exact ⟨trivial, Nat.le_refl 0⟩
    | some version => exact fits_word 0 version
  simp [fits_word, version]

end TableId

/-! ## Requests -/

theorem SortDirection.ofWire_toWire (direction : SortDirection) :
    ofWire? direction.toWire = some direction :=
  asMember_string (by cases direction <;> decide)

namespace SortItem

theorem ofWire_toWire (item : SortItem) : ofWire? item.toWire = some item := by
  have direction : WireFields.optional (("column", .string item.column) ::
      present "direction" SortDirection.toWire item.direction) "direction" SortDirection.ofWire? =
        some item.direction :=
    optional_of_lookup SortDirection.ofWire_toWire (fun direction => string_ne_null direction.text)
      (by simp [List.lookup_cons])
  simp [ofWire?, toWire, asObject?, direction, required, asString?]

theorem fits_toWire (item : SortItem) : item.toWire.Fits 1 := by
  apply fits_object ["column", "direction"] (by simpa using names_present item.direction) (by decide)
  rw [List.forall_mem_cons]
  exact ⟨fits_string 0 _, forall_mem_present (fun direction : SortDirection =>
    fits_string 0 direction.text) _⟩

end SortItem

namespace FacetRequest

/-- The fields that both forms have, before those of the selection. -/
def fieldsBefore (form column : String) (path : Option String) (rest : WireFields) : WireFields :=
  (formField, .string form) :: ("columnName", .string column) :: present "jsonPath" .string path ++ rest

section

variable {form column : String} {path : Option String} {rest : WireFields}

theorem lookup_rest {key : String} (other : key ∉ [formField, "columnName", "jsonPath"]) :
    (fieldsBefore form column path rest).lookup key = rest.lookup key := by
  simp only [List.mem_cons, not_or] at other
  obtain ⟨form, column, path, _⟩ := other
  simp [fieldsBefore, List.lookup_append, List.lookup_cons, beq_false_of_ne form,
    beq_false_of_ne column, path]

theorem ofWire_before {selection : FacetSelection} (apart : rest.lookup "jsonPath" = none)
    (selected : selectionOfWire? form (fieldsBefore form column path rest) = some selection) :
    ofWire? (.object (fieldsBefore form column path rest)) = some ⟨column, path, selection⟩ := by
  have formOf : required (fieldsBefore form column path rest) formField asString? = some form :=
    required_of_lookup asString_string (by simp [fieldsBefore])
  have columnOf : required (fieldsBefore form column path rest) "columnName" asString? = some column :=
    required_of_lookup asString_string (by simp [fieldsBefore, List.lookup_cons, formField])
  have pathOf : WireFields.optional (fieldsBefore form column path rest) "jsonPath" asString? =
      some path :=
    optional_of_lookup asString_string string_ne_null
      (by simp [fieldsBefore, List.lookup_append, List.lookup_cons, formField, apart])
  simp [ofWire?, asObject?, formOf, columnOf, pathOf, selected]

theorem fits_before (names : List String) (listed : (rest.map Prod.fst).Sublist names)
    (distinct : ([formField, "columnName", "jsonPath"] ++ names).Nodup)
    (each : ∀ field ∈ rest, field.2.Fits 1) :
    (object (fieldsBefore form column path rest)).Fits 2 := by
  refine fits_object _ ?_ distinct ?_
  · simpa [fieldsBefore] using (names_present path).append listed
  · simp only [fieldsBefore, List.cons_append, List.forall_mem_cons, List.forall_mem_append]
    exact ⟨fits_string 1 _, fits_string 1 _, forall_mem_present (fits_string 1) _, each⟩

end

theorem ofWire_toWire (request : FacetRequest) : ofWire? request.toWire = some request := by
  obtain ⟨column, path, selection⟩ := request
  cases selection with
  | values values =>
    apply ofWire_before (by simp [List.lookup_cons])
    simp [selectionOfWire?, defaulted, lookup_rest, formField, asStrings_strings]
  | range least most =>
    simp only [toWire, List.append_assoc]
    apply ofWire_before (by simp [List.lookup_append])
    have leastOf : WireFields.optional (fieldsBefore "FacetColumnRangeRequest" column path
        (present "min" .string least ++ present "max" .string most)) "min" asString? = some least :=
      optional_of_lookup asString_string string_ne_null
        (by simp [lookup_rest, formField, List.lookup_append])
    have mostOf : WireFields.optional (fieldsBefore "FacetColumnRangeRequest" column path
        (present "min" .string least ++ present "max" .string most)) "max" asString? = some most :=
      optional_of_lookup asString_string string_ne_null
        (by simp [lookup_rest, formField, List.lookup_append])
    simp [selectionOfWire?, leastOf, mostOf]

theorem fits_toWire (request : FacetRequest) : request.toWire.Fits 2 := by
  obtain ⟨column, path, selection⟩ := request
  cases selection with
  | values values =>
    exact fits_before ["facetValues"] (List.Sublist.refl _) (by decide) (by simp [fits_strings])
  | range least most =>
    simp only [toWire, List.append_assoc]
    apply fits_before ["min", "max"]
      (by simpa using (names_present least).append (names_present most)) (by decide)
    rw [List.forall_mem_append]
    exact ⟨forall_mem_present (fits_string 1) _, forall_mem_present (fits_string 1) _⟩

end FacetRequest

theorem ValueOperator.ofWire_wireName (operator : ValueOperator) :
    ofWire? (.string operator.wireName) = some operator :=
  asMember_string (by cases operator <;> decide)

theorem ListFunction.ofWire_wireName (function : ListFunction) :
    ofWire? (.string function.wireName) = some function :=
  asMember_string (by cases function <;> decide)

namespace QueryFilter

theorem ofWire_toWire (filter : QueryFilter) : ofWire? filter.toWire = some filter := by
  cases filter
  -- The fields are looked up before any of them is read.
  all_goals simp only [ofWire?, toWire, asObject?, required, defaulted, formField, Option.bind_eq_bind,
    Option.bind_some, List.lookup_cons, String.reduceBEq]
  all_goals simp [asString?, asBoolean?, asStrings_strings, ValueOperator.ofWire_wireName,
    ListFunction.ofWire_wireName]

theorem fits_toWire (filter : QueryFilter) : filter.toWire.Fits 2 := by
  cases filter with
  | value column operator values defining =>
    apply fits_object [formField, "columnName", "operator", "values", "isDefiningCondition"]
      (List.Sublist.refl _) (by decide)
    simp [fits_string, fits_strings, fits_boolean]
  | list column function values defining =>
    apply fits_object [formField, "columnName", "function", "values", "isDefiningCondition"]
      (List.Sublist.refl _) (by decide)
    simp [fits_string, fits_strings, fits_boolean]
  | textMatches search defining =>
    apply fits_object [formField, "searchExpression", "isDefiningCondition"] (List.Sublist.refl _)
      (by decide)
    simp [fits_string, fits_boolean]

end QueryFilter

/-- The wire formats of columns, tables and requests are read back: what a value is written as is read
as that value, from the wire value and from its text. -/
theorem wire_formats_read_back :
    Restores ColumnModel.toWire ColumnModel.ofWire? ∧ Restores SelectColumn.toWire SelectColumn.ofWire? ∧
      Restores FacetRequest.toWire FacetRequest.ofWire? ∧ Restores QueryFilter.toWire QueryFilter.ofWire? ∧
      Restores SortItem.toWire SortItem.ofWire? ∧ Restores TableId.toWire TableId.ofWire? :=
  ⟨restores_of_fits (by decide) ColumnModel.fits_toWire ColumnModel.ofWire_toWire,
    restores_of_fits (by decide) SelectColumn.fits_toWire SelectColumn.ofWire_toWire,
    restores_of_fits (by decide) FacetRequest.fits_toWire FacetRequest.ofWire_toWire,
    restores_of_fits (by decide) QueryFilter.fits_toWire QueryFilter.ofWire_toWire,
    restores_of_fits (by decide) SortItem.fits_toWire SortItem.ofWire_toWire,
    restores_of_fits (by decide) TableId.fits_toWire TableId.ofWire_toWire⟩

end TabularSql
