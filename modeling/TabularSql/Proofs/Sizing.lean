import TabularSql.Output
import TabularSql.Proofs.Outcome

/-!
# Sizes of the rows of a union

The columns of a union are those of its first part, and the size of each is the largest that any part
declares at its position. A part fits into the columns of the union where these have its type and its list
length, and where the sizes of strings are declared. Where the size of a string is not declared, the size
that another part declares takes the place of the one that is assumed, be it smaller or larger.
-/

namespace TabularSql

set_option autoImplicit false

/-! ## Arithmetic that stops at the largest word -/

namespace Number

theorem toNat_le_largest (word : UInt64) : word.toNat ≤ largest.toNat :=
  Nat.le_of_lt_succ word.toNat_lt

theorem toNat_clamp (value : Nat) : (clamp value).toNat = min value largest.toNat := by
  have bound : min value largest.toNat < UInt64.size :=
    Nat.lt_of_le_of_lt (Nat.min_le_right _ _) largest.toNat_lt
  exact UInt64.toNat_ofNat_of_lt' bound

@[simp] theorem toNat_addClamped (left right : UInt64) :
    (addClamped left right).toNat = min (left.toNat + right.toNat) largest.toNat :=
  toNat_clamp _

@[simp] theorem toNat_mulClamped (left right : UInt64) :
    (mulClamped left right).toNat = min (left.toNat * right.toNat) largest.toNat :=
  toNat_clamp _

@[simp] theorem toNat_subClamped (left right : UInt64) :
    (subClamped left right).toNat = left.toNat - right.toNat := by
  have bound := toNat_le_largest left
  rw [subClamped, toNat_clamp]
  omega

theorem addClamped_le {left right above beside : UInt64} (first : left ≤ above) (second : right ≤ beside) :
    addClamped left right ≤ addClamped above beside := by
  rw [UInt64.le_iff_toNat_le] at first second ⊢
  simp only [toNat_addClamped]
  omega

theorem mulClamped_le {left right above beside : UInt64} (first : left ≤ above) (second : right ≤ beside) :
    mulClamped left right ≤ mulClamped above beside := by
  rw [UInt64.le_iff_toNat_le] at first second ⊢
  simp only [toNat_mulClamped]
  have product := Nat.mul_le_mul first second
  omega

instance lawfulMax : Std.LawfulOrderMax UInt64 where
  max_le_iff one two bound := by
    rw [UInt64.max_def]
    grind
  max_eq_or one two := by
    rw [UInt64.max_def]
    grind

end Number

/-! ## Bounds of columns and rows -/

namespace Size

/-- The characters that a string of the column is taken to have. -/
def characters (column : ColumnModel) : UInt64 :=
  column.maxSize.getD
    (if column.id.isNone && column.type == .string then largestString else defaultString)

/-- The elements that a list of the column is taken to have. -/
def elements (column : ColumnModel) : UInt64 :=
  column.maxListLength.getD defaultListLength

theorem ofScalar_le {type : ColumnType} {one two : UInt64} (wider : type = .string → one ≤ two) :
    ofScalar (some one) type ≤ ofScalar (some two) type := by
  cases type with
  | string => exact Number.mulClamped_le (UInt64.le_refl _) (wider rfl)
  | _ => exact UInt64.le_refl _

theorem ofColumn_eq (column : ColumnModel) : ofColumn column =
    if column.type.isList then
      Number.mulClamped (ofScalar (some (characters column)) column.type.element) (elements column)
    else ofScalar (some (characters column)) column.type := by
  obtain ⟨id, name, type, maxSize, maxListLength, facet, subColumns⟩ := column
  cases maxSize with
  | some size => simp [ofColumn, ofType, characters, elements]
  | none => cases id <;> cases type <;> rfl

theorem ofColumn_le {own wide : ColumnModel} (type : wide.type = own.type)
    (longer : own.type.isList = true → elements own ≤ elements wide)
    (wider : own.type.element = .string → characters own ≤ characters wide) :
    ofColumn own ≤ ofColumn wide := by
  rw [ofColumn_eq, ofColumn_eq, type]
  split
  · next list => exact Number.mulClamped_le (ofScalar_le wider) (longer list)
  · next scalar =>
      refine ofScalar_le fun string => wider ?_
      rw [string]
      rfl

theorem ofRow_le {one two : List ColumnModel}
    (each : List.Forall₂ (fun own wide => ofColumn own ≤ ofColumn wide) one two) :
    ofRow one ≤ ofRow two := by
  suffices general : ∀ start above : UInt64, start ≤ above →
      one.foldl (fun total column => Number.addClamped total (ofColumn column)) start ≤
        two.foldl (fun total column => Number.addClamped total (ofColumn column)) above from
    general 0 0 (UInt64.le_refl _)
  induction each with
  | nil => exact fun _ _ below => below
  | cons own _ ih => exact fun start above below => ih _ _ (Number.addClamped_le below own)

end Size

/-! ## Columns of a union -/

namespace Output

/-- The size that a part declares for the column at a position. -/
def declaredSize (part : List ColumnModel) (index : Nat) : Option UInt64 :=
  part[index]?.bind ColumnModel.maxSize

/-- The sizes that the parts of a union declare for the column at a position. -/
def declaredSizes (parts : List (List ColumnModel)) (index : Nat) : List UInt64 :=
  parts.flatMap fun part => (declaredSize part index).toList

theorem widerSize_eq (one two : Option UInt64) : widerSize one two = (one.toList ++ two.toList).max? := by
  cases one with
  | none => cases two <;> rfl
  | some current =>
    cases two with
    | none => rfl
    | some other =>
      have larger : (if current < other then other else current) = max current other := by
        rw [UInt64.max_def]
        grind
      exact congrArg some larger

theorem max?_append_max? (front behind : List UInt64) :
    (front.max?.toList ++ behind).max? = (front ++ behind).max? := by
  cases front with
  | nil => rfl
  | cons first rest => simp [List.max?, List.foldl_append]

theorem getElem?_widenBy (columns other : List ColumnModel) (index : Nat) :
    (widenBy columns other)[index]? = columns[index]?.map fun model =>
      { model with maxSize := widerSize model.maxSize (declaredSize other index) } := by
  rw [widenBy, List.getElem?_map, List.getElem?_zipIdx, Option.map_map]
  simp [Function.comp_def, declaredSize]

/-- A column of the first part, with the largest size that is declared at its position. -/
theorem getElem?_widen (first : List ColumnModel) (rest : List (List ColumnModel)) (index : Nat) :
    (widen (first :: rest))[index]? = first[index]?.map fun model =>
      { model with maxSize := (declaredSizes (first :: rest) index).max? } := by
  show (rest.foldl widenBy first)[index]? = _
  induction rest generalizing first with
  | nil =>
    cases found : first[index]? with
    | none => simp [found]
    | some model =>
      have own : (declaredSizes [first] index).max? = model.maxSize := by
        cases size : model.maxSize <;> simp [declaredSizes, declaredSize, found, size]
      simp [found, own]
  | cons other rest ih =>
    rw [List.foldl_cons, ih, getElem?_widenBy]
    cases found : first[index]? with
    | none => rfl
    | some model =>
      have own : declaredSize first index = model.maxSize := by rw [declaredSize, found]; rfl
      have wider : declaredSize (widenBy first other) index =
          ((declaredSize first index).toList ++ (declaredSize other index).toList).max? := by
        rw [← widerSize_eq, own, declaredSize, getElem?_widenBy, found]
        rfl
      have sizes : (declaredSizes (widenBy first other :: rest) index).max? =
          (declaredSizes (first :: other :: rest) index).max? := by
        simp only [declaredSizes, List.flatMap_cons, wider, max?_append_max?, List.append_assoc]
      rw [sizes]
      rfl

theorem length_widen (first : List ColumnModel) (rest : List (List ColumnModel)) :
    (widen (first :: rest)).length = first.length := by
  show (rest.foldl widenBy first).length = _
  induction rest generalizing first with
  | nil => rfl
  | cons other rest ih => rw [List.foldl_cons, ih, widenBy, List.length_map, List.length_zipIdx]

/-- The first part has what the bound of the column rests on: its type, no shorter lists, and for strings a
size that is declared, or that no part declares. -/
structure Comparable (parts : List (List ColumnModel)) (index : Nat) (base own : ColumnModel) : Prop where
  type : own.type = base.type
  longer : own.type.isList = true → Size.elements own ≤ Size.elements base
  sized : own.type.element = .string → own.maxSize.isSome = true ∨
    (∃ size ∈ declaredSizes parts index, Size.characters own ≤ size) ∨
    declaredSizes parts index = [] ∧ (own.type = .string → own.id = none → base.id = none)

variable {parts : List (List ColumnModel)} {index : Nat} {part : List ColumnModel} {own base : ColumnModel}

theorem mem_declaredSizes (member : part ∈ parts) (placed : part[index]? = some own) {size : UInt64}
    (declared : own.maxSize = some size) : size ∈ declaredSizes parts index :=
  List.mem_flatMap.mpr ⟨part, member, by simp [declaredSize, placed, declared]⟩

theorem le_max? {sizes : List UInt64} {size : UInt64} (member : size ∈ sizes) :
    ∃ largest, sizes.max? = some largest ∧ size ≤ largest := by
  obtain ⟨largest, found⟩ := Option.isSome_iff_exists.mp (List.isSome_max?_of_mem member)
  exact ⟨largest, found, (List.max?_eq_some_iff.mp found).2 size member⟩

theorem Comparable.characters_le (comparable : Comparable parts index base own) (member : part ∈ parts)
    (placed : part[index]? = some own) (string : own.type.element = .string) :
    Size.characters own ≤ Size.characters { base with maxSize := (declaredSizes parts index).max? } := by
  have declared {size : UInt64} (listed : size ∈ declaredSizes parts index)
      (below : Size.characters own ≤ size) :
      Size.characters own ≤ Size.characters { base with maxSize := (declaredSizes parts index).max? } := by
    obtain ⟨largest, found, above⟩ := le_max? listed
    simpa [Size.characters, found] using UInt64.le_trans below above
  cases given : own.maxSize with
  | some size =>
    exact declared (mem_declaredSizes member placed given) (by simp [Size.characters, given])
  | none =>
    rcases comparable.sized string with sized | ⟨size, listed, below⟩ | ⟨none, computed⟩
    · simp [given] at sized
    · exact declared listed below
    · -- No size is declared, so both are assumed: the larger one is that of computed strings.
      have same := comparable.type
      simp only [Size.characters, given, none, List.max?_nil, Option.getD_none, ← same]
      split
      · next assumed =>
          simp only [Bool.and_eq_true, Option.isNone_iff_eq_none, beq_iff_eq] at assumed
          rw [if_pos (by simp [computed assumed.2 assumed.1, assumed.2])]
          exact UInt64.le_refl _
      · split <;> decide

theorem Comparable.ofColumn_le (comparable : Comparable parts index base own) (member : part ∈ parts)
    (placed : part[index]? = some own) :
    Size.ofColumn own ≤ Size.ofColumn { base with maxSize := (declaredSizes parts index).max? } :=
  Size.ofColumn_le comparable.type.symm comparable.longer (comparable.characters_le member placed)

/-- The columns of a union are those of its first part, each with the largest size that a part declares at
its position. The bound of a column of any part is no larger than that of the column of the union, if the
first part is comparable there; if it is at every position, the same holds of the rows. -/
theorem union_bounds_parts (first : List ColumnModel) (rest : List (List ColumnModel))
    (equal : ∀ part ∈ first :: rest, part.length = first.length) (part : List ColumnModel)
    (member : part ∈ first :: rest) :
    (∀ index own, part[index]? = some own → ∃ base wide, first[index]? = some base ∧
      (widen (first :: rest))[index]? = some wide ∧
      wide = { base with maxSize := (declaredSizes (first :: rest) index).max? } ∧
      (Comparable (first :: rest) index base own → Size.ofColumn own ≤ Size.ofColumn wide)) ∧
    ((∀ index own base, part[index]? = some own → first[index]? = some base →
      Comparable (first :: rest) index base own) →
      Size.ofRow part ≤ Size.ofRow (widen (first :: rest))) := by
  have column (index : Nat) (own : ColumnModel) (placed : part[index]? = some own) :
      ∃ base, first[index]? = some base ∧ (widen (first :: rest))[index]? =
        some { base with maxSize := (declaredSizes (first :: rest) index).max? } := by
    have bound : index < first.length := equal part member ▸ (List.getElem?_eq_some_iff.mp placed).1
    exact ⟨_, List.getElem?_eq_getElem bound, by
      rw [getElem?_widen, List.getElem?_eq_getElem bound]
      rfl⟩
  constructor
  · intro index own placed
    obtain ⟨base, found, widened⟩ := column index own placed
    exact ⟨base, _, found, widened, rfl, fun comparable => comparable.ofColumn_le member placed⟩
  · intro comparable
    apply Size.ofRow_le
    rw [List.forall₂_iff_get]
    refine ⟨by rw [length_widen, equal part member], fun index inside within => ?_⟩
    have placed : part[index]? = some (part.get ⟨index, inside⟩) := List.getElem?_eq_getElem inside
    obtain ⟨base, found, widened⟩ := column index _ placed
    have wide : (widen (first :: rest)).get ⟨index, within⟩ =
        { base with maxSize := (declaredSizes (first :: rest) index).max? } :=
      Option.some.inj ((List.getElem?_eq_getElem within).symm.trans widened)
    rw [wide]
    exact (comparable index _ base placed found).ofColumn_le member placed

/-- Two parts with a string and a list of strings each; the longer string is that of the second part. -/
def sizedParts : List (List ColumnModel) :=
  [[{ id := some 1, name := "label", type := .string, maxSize := some 10 },
    { id := some 2, name := "tags", type := .stringList, maxSize := some 50, maxListLength := some 5 }],
   [{ name := "CONCAT(label,label)", type := .string, maxSize := some 40 },
    { id := some 3, name := "words", type := .stringList, maxSize := some 8, maxListLength := some 4 }]]

theorem union_bounds_parts_sized :
    ∃ first second, sizedParts = [first, second] ∧
      (widen sizedParts).map Size.ofColumn = [160, 1000] ∧ second.map Size.ofColumn = [160, 128] ∧
      Size.ofRow second ≤ Size.ofRow (widen sizedParts) := by
  refine ⟨_, _, rfl, by decide, by decide, ?_⟩
  refine (union_bounds_parts _ _ (by decide) _ (by decide)).2 ?_
  intro index own base placed found
  rcases index with _ | _ | index
  · cases placed
    cases found
    exact ⟨rfl, by decide, fun _ => .inl rfl⟩
  · cases placed
    cases found
    exact ⟨rfl, by decide, fun _ => .inl rfl⟩
  · cases placed

/-- The size that one part declares takes the place of the larger size that is assumed for a string of another
part, and neither the type nor the list length of another part is looked at. -/
theorem union_underestimates_part :
    let unsized : ColumnModel := { id := some 4, name := "raw", type := .string }
    let short : ColumnModel := { id := some 5, name := "code", type := .string, maxSize := some 5 }
    let number : ColumnModel := { id := some 6, name := "count", type := .integer }
    let list (most : UInt64) : ColumnModel :=
      { id := some 7, name := "flags", type := .booleanList, maxListLength := some most }
    (Size.ofRow (widen [[unsized], [short]]) = 20 ∧ Size.ofRow [unsized] = 200) ∧
      (Size.ofRow (widen [[number], [unsized]]) = 20 ∧ Size.ofRow [unsized] = 200) ∧
      Size.ofRow (widen [[list 1], [list 9]]) = 5 ∧ Size.ofRow [list 9] = 45 := by
  decide

end Output

end TabularSql
