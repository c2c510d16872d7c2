import TabularSql.Proofs.Lowering.Forms
import TabularSql.Proofs.Lowering.Names
import TabularSql.Proofs.Settled
import TabularSql.Query.Equality

/-!
# Precedence in compiled statements

A lowered expression stands where the logical one stood, without parentheses of its own. It can stand there
because it binds as tightly and starts with a minus only if the other does. So the text of a statement is
read as the statement that was compiled, in its settled form: a physical type with the name of a logical one
is read as that, and a minus becomes the sign of the number behind it. Patterns of HAS_LIKE are put behind
LIKE as they are, which holds them together only if they bind more tightly than LIKE does.
-/

namespace TabularSql

set_option autoImplicit false

/-! ## Expressions of the store -/

/-- The names that lowered references are qualified with can open a reference. -/
def Binding.Spelled (binding : Binding) : Prop :=
  ∀ bound ∈ binding.tables, ∀ name ∈ bound.correlation, Token.OpensColumn name

theorem Binding.spelled_of_ok {schemas : Schemas} {source : Source} {binding : Binding}
    (ok : ofSource schemas source = .ok binding) : binding.Spelled := by
  refine forall₂_right (forall₂_of_ofSource ok) fun pair _ bound own => ?_
  obtain ⟨id, _, own⟩ := Except.of_bind own
  obtain ⟨columns, _, own⟩ := Except.of_bind own
  cases own
  intro name given
  simp only at given
  split at given <;> cases given
  exact (Physical.numbered_correlation _).opensColumn

namespace Expr

/-- The expression can be read at every depth, perhaps in its settled form. -/
abbrev Readable (whole : Expr) : Prop := Fragment.Everywhere Fragment.Legible (.expr whole)

theorem readable_of {whole : Expr} (own : whole.Legible)
    (inside : ∀ part ∈ whole.inside, Fragment.Everywhere Fragment.Legible part) : whole.Readable :=
  Fragment.everywhere_iff.mpr ⟨own, inside⟩

theorem readable_plain {qualifier : Option String} {name : String}
    (qualified : ∀ word ∈ qualifier, Token.OpensColumn word) (named : Token.OpensColumn name) :
    (column (.plain qualifier name)).Readable := by
  refine readable_of ⟨⟨⟨?_, ?_⟩, fun _ => ?_⟩, trivial⟩ (by simp)
  · intro word given
    obtain ⟨own, written, rfl⟩ := Option.map_eq_some_iff.mp given
    exact Token.isPlainWord_iff.mp (qualified own written).plain
  · exact Token.isPlainWord_iff.mp named.plain
  · cases qualifier with
    | none => exact named.opens
    | some word => exact (qualified word rfl).opens

theorem readable_placeholder (index : Nat) : (parameter (placeholderName index)).Readable :=
  readable_of ⟨trivial, (Physical.numbered_placeholder index).plain⟩ (by simp)

theorem readable_string (value : String) : (string value).Readable :=
  readable_of ⟨trivial, trivial⟩ (by simp [string])

theorem readable_integer (value : Int) : (integer value).Readable := by
  refine readable_of ⟨?_, trivial⟩ (by simp [integer])
  show (Literal.number (Number.signedDecimal value)).Grammatical
  unfold Number.signedDecimal
  split
  · refine .inr ⟨(Number.decimal value.natAbs).toList, by simp, ?_⟩
    exact decimal_numeral _
  · exact .inl (decimal_numeral _)

end Expr

namespace Physical

open TabularSql.Expr

variable {qualifier : Option String} (qualified : ∀ word ∈ qualifier, Token.OpensColumn word)

include qualified

theorem readable_column (id : ColumnId) : (Expr.column (columnRef qualifier id)).Readable :=
  readable_plain qualified (numbered_column id).opensColumn

theorem readable_shadow (id : ColumnId) : (shadowExpr qualifier id).Readable :=
  readable_plain qualified (numbered_shadow id).opensColumn

theorem readable_metadata (name : MetadataName) : (Expr.column (metadataRef qualifier name)).Readable :=
  readable_plain qualified (opensColumn_metadata name)

theorem readable_isNull (id : ColumnId) (negated : Bool) :
    (Expr.isNull (shadowExpr qualifier id) negated).Readable :=
  readable_of ⟨Nat.zero_le _, trivial⟩ (by simpa using readable_shadow qualified id)

theorem readable_guarded (id : ColumnId) : (guardedDouble qualifier id).Readable := by
  refine readable_of ⟨by simp [Grammatical, guardedDouble, level, shadowExpr], trivial⟩ ?_
  simpa [guardedDouble] using
    ⟨readable_isNull qualified id false, readable_column qualified id, readable_shadow qualified id⟩

theorem readable_shadowTest (id : ColumnId) {test : Expr} (readable : test.Readable)
    (tight : test.level < 6) : (nested (.and (.isNull (shadowExpr qualifier id) true) test)).Readable := by
  have both : (Expr.and (.isNull (shadowExpr qualifier id) true) test).Readable :=
    readable_of ⟨⟨show 4 ≤ 6 by decide, tight⟩, trivial⟩
      (by simpa [Expr.and] using ⟨readable_isNull qualified id true, readable⟩)
  exact readable_of ⟨show 6 ≤ 7 by decide, trivial⟩ (by simpa using both)

theorem readable_nanTest (id : ColumnId) : (nanTest qualifier id).Readable := by
  apply readable_shadowTest qualified
  · refine readable_of ⟨⟨Nat.zero_le _, show 0 < 4 by decide⟩, trivial⟩ ?_
    simpa [equals] using ⟨readable_shadow qualified id, readable_string "NaN"⟩
  · show 4 < 6
    decide

theorem readable_infinityTest (id : ColumnId) : (infinityTest qualifier id).Readable := by
  apply readable_shadowTest qualified
  · refine readable_of ⟨by simp [Grammatical, level, shadowExpr, string], trivial⟩ ?_
    simpa using ⟨readable_shadow qualified id, readable_string "-Infinity",
      readable_string "Infinity"⟩
  · show 4 < 6
    decide

end Physical

theorem TableName.writable_numbered {table : TableName} (numbered : Token.Numbered table.name)
    (spelled : ∀ name ∈ table.alias?, name.Spelled)
    (free : ∀ name ∈ table.alias?, name.quote = none → isReserved name.name = false) :
    table.Grammatical ∧ table.Restorable := by
  refine ⟨⟨⟨table.name.toList, [], by simp, Token.isPlainWord_iff.mp numbered.plain, ?_, by simp⟩, spelled⟩,
    ⟨⟨table.name, numbered.plain, .inl rfl⟩, free⟩⟩
  rw [String.ofList_toList]
  exact numbered.free

namespace ListColumn

open TabularSql.Expr

variable {column : ListColumn}

theorem readable_element : column.elementExpr.Readable :=
  @readable_plain none _ (by simp) (Physical.numbered_element column.id).opensColumn

theorem readable_anyOf {list : List Expr} {whole : Expr} (any : anyOf list = some whole)
    (each : ∀ expr ∈ list, expr.Readable ∧ expr.level < 7) : whole.Readable ∧ whole.level ≤ 7 := by
  cases list with
  | nil => cases any
  | cons first rest =>
    cases any
    obtain ⟨⟨readable, tight⟩, others⟩ := List.forall_mem_cons.mp each
    apply List.foldlRecOn rest Expr.or (motive := fun chain => chain.Readable ∧ chain.level ≤ 7)
      ⟨readable, Nat.le_of_lt tight⟩
    rintro left ⟨chain, level⟩ right listed
    refine ⟨readable_of ⟨⟨level, (others right listed).2⟩, trivial⟩ ?_, show 7 ≤ 7 by decide⟩
    simpa [Expr.or] using ⟨chain, (others right listed).1⟩

/-- The values of a list stand between commas; patterns stand behind LIKE and have to bind more tightly. -/
theorem readable_matching {pattern : Bool} {values : List Expr} {condition : Expr} (some : values ≠ [])
    (readable : ∀ value ∈ values, value.Readable) (levels : ∀ value ∈ values, value.level ≤ 7)
    (tight : pattern = true → ∀ value ∈ values, value.level ≤ 3)
    (ok : column.matching pattern values = .ok condition) : condition.Readable ∧ condition.level ≤ 7 := by
  rcases matching_of_ok ok with rfl | ⟨patterns, any⟩
  · refine ⟨readable_of ⟨⟨Nat.zero_le _, some, levels⟩, trivial⟩ ?_, show 4 ≤ 7 by decide⟩
    exact List.forall_mem_cons.mpr ⟨readable_element, List.forall_mem_map.mpr readable⟩
  · apply readable_anyOf any
    intro expr member
    obtain ⟨value, listed, rfl⟩ := List.mem_map.mp member
    refine ⟨readable_of ⟨⟨Nat.zero_le _, tight patterns value listed, nofun⟩, trivial⟩ ?_,
      show 4 < 7 by decide⟩
    simpa using ⟨readable_element, readable value listed⟩

theorem readable_rowsWith (qualified : ∀ word ∈ column.qualifier, Token.OpensColumn word)
    {condition : Expr} (readable : condition.Readable) (level : condition.level ≤ 7) (negated : Bool) :
    (column.rowsWith condition negated).Readable := by
  have row : (Expr.column (Physical.metadataRef column.qualifier .rowId)).Readable :=
    Physical.readable_metadata qualified .rowId
  have reference : (Expr.named (Physical.elementRow column.id)).Readable :=
    @readable_plain none _ (by simp) (Physical.numbered_elementRow column.id).opensColumn
  have table := @TableName.writable_numbered ⟨column.sideTable, none⟩
    (Physical.numbered_sideTable column.table column.id) (by simp) (by simp)
  refine readable_of ⟨Nat.zero_le _, trivial⟩ ?_
  rw [rowsWith, inside, List.forall_mem_cons, List.forall_mem_singleton]
  refine ⟨row, Fragment.everywhere_single.mpr ⟨⟨⟨?_, ?_⟩, trivial⟩, ?_⟩⟩
  · simp [Query.single]
  · simp [Query.single, Query.elements]
  refine Fragment.everywhere_select.mpr ⟨⟨⟨⟨by simp, by simp⟩, ?_, ?_, ?_⟩, ?_⟩, ?_⟩
  · simpa [Select.simple, Source.named, Source.tables] using table.1
  · simpa [Select.exprs, Select.simple, Projection.itemList, Source.named, Source.conditions,
      named, Expr.level] using level
  · simp [Select.simple]
  · simpa [Fragment.Restorable, Select.simple, Source.named, Source.tables] using table.2
  · simpa [Select.exprs, Select.simple, Projection.itemList, Source.named, Source.conditions] using
      ⟨reference, readable⟩

end ListColumn

/-! ## Lowered expressions -/

namespace Expr

/-- The values of a HAS_LIKE bind more tightly than LIKE does. -/
def TightPatterns : Expr → Prop
  | has _ values pattern _ => pattern = true → ∀ value ∈ values, value.level ≤ 3
  | _ => True

instance : DecidablePred TightPatterns
  | has _ values pattern _ =>
    inferInstanceAs (Decidable (pattern = true → ∀ value ∈ values, value.level ≤ 3))
  | literal _ | column _ | parameter _ | currentUser | wildcard | call _ _ _ | cast _ _ | caseWhen _ _ _
  | binary _ _ _ | unary _ _ | nested _ | isNull _ _ | isTruth _ _ _ | between _ _ _ _ | inList _ _ _
  | inQuery _ _ _ | like _ _ _ _ | doubleTest _ _ | textMatches _ | matchAgainst _ | unnest _ =>
    isTrue trivial

/-- What is asked of a logical expression: its text keeps it, and its patterns are held together. A delimited
name may be any, since it is back-quoted where it is left to the store. -/
def Sound : Expr → Prop
  | column reference => reference.name.isDelimited = true ∨ reference.Grammatical
  | whole => whole.Grammatical ∧ whole.Restorable ∧ whole.TightPatterns

/-- The lowered expression can stand where the other stood: it binds as tightly, and it starts with a minus
only if the other does. -/
structure Fits (expr lowered : Expr) : Prop where
  level : lowered.level = expr.level
  minus : lowered.leadsMinus = true → expr.leadsMinus = true
  readable : lowered.Readable

namespace Fits

variable {expr lowered : Expr}

theorem le (fits : expr.Fits lowered) {bound : Nat} (level : expr.level ≤ bound) : lowered.level ≤ bound :=
  fits.level ▸ level

theorem lt (fits : expr.Fits lowered) {bound : Nat} (level : expr.level < bound) : lowered.level < bound :=
  fits.level ▸ level

/-- An operand whose text does not start with a minus has none in front when it is lowered. -/
theorem unsigned (fits : expr.Fits lowered) (plain : expr.text.toList.head? ≠ some '-') :
    lowered.leadsMinus = false :=
  Bool.eq_false_iff.mpr fun leads => plain (head_of_leadsMinus expr (fits.minus leads))

/-- Without an operator in front of it, an expression that starts with no minus fits in. -/
theorem of_primary (level : lowered.level = expr.level) (minus : lowered.leadsMinus = false)
    (readable : lowered.Readable) : expr.Fits lowered :=
  ⟨level, fun leads => absurd leads (by simp [minus]), readable⟩

theorem levels {list results : List Expr} (pairs : List.Forall₂ Fits list results) {bound : Nat}
    (each : ∀ expr ∈ list, expr.level ≤ bound) : ∀ result ∈ results, result.level ≤ bound :=
  forall₂_right pairs fun expr listed _ fits => fits.le (each expr listed)

theorem readables {list results : List Expr} (pairs : List.Forall₂ Fits list results) :
    ∀ result ∈ results, result.Readable :=
  forall₂_right pairs fun _ _ _ fits => fits.readable

theorem nonempty {list results : List Expr} (pairs : List.Forall₂ Fits list results) (some : list ≠ []) :
    results ≠ [] := by
  rintro rfl
  cases pairs
  exact some rfl

theorem optional {clause result : Option Expr} (pair : Option.Rel Fits clause result) {bound : Nat}
    (each : ∀ expr ∈ clause, expr.level ≤ bound) : ∀ expr ∈ result, expr.level ≤ bound ∧ expr.Readable := by
  intro expr given
  cases pair with
  | none => cases given
  | some fits =>
    cases given
    exact ⟨fits.le (each _ rfl), fits.readable⟩

end Fits

end Expr

namespace ColumnRef

open TabularSql.Expr

theorem fits_lowersTo {scope : Scope} {position : Position} {reference : ColumnRef} {lowered : Expr}
    (spelled : scope.binding.Spelled) (sound : (Expr.column reference).Sound)
    (lowers : reference.LowersTo scope position lowered) : (Expr.column reference).Fits lowered := by
  cases lowers with
  | @physical resolved found =>
    obtain ⟨member, _⟩ := Binding.resolve_table found
    refine .of_primary rfl rfl ?_
    unfold ResolvedColumn.physical
    split
    · exact Physical.readable_column (spelled _ member) _
    · exact Physical.readable_metadata (spelled _ member) _
  | guarded found stored =>
    obtain ⟨member, _⟩ := Binding.resolve_table found
    exact .of_primary rfl rfl (Physical.readable_guarded (spelled _ member) _)
  | unresolved nothing kept =>
    cases kept with
    | delimited bare quoted place =>
      exact .of_primary rfl rfl (readable_of ⟨⟨⟨nofun, .inr rfl⟩, nofun⟩, trivial⟩ (by simp))
    | named bare plain listed place =>
      rcases sound with quoted | grammatical
      · rw [plain] at quoted
        cases quoted
      · exact .of_primary rfl rfl (readable_of ⟨grammatical, trivial⟩ (by simp))

end ColumnRef

/-- A converted value is of a physical type whose name is a word in upper case. -/
theorem CastTarget.plain_of_lower {schemas : Schemas} {target known : CastTarget}
    (converts : target.lower schemas = .ok known)
    (own : ∀ name, target = .physical name → Text.upper name = name ∧ Token.IsPlainWord name) :
    ∃ name, known = .physical name ∧ Text.upper name = name ∧ Token.IsPlainWord name := by
  cases target with
  | type logical =>
    cases converts
    exact ⟨_, rfl, logical.plain_physicalCast⟩
  | column id =>
    simp only [CastTarget.lower] at converts
    split at converts <;> cases converts
    exact ⟨_, rfl, ColumnType.plain_physicalCast _⟩
  | physical name =>
    cases converts
    exact ⟨name, rfl, own name rfl⟩

theorem ListColumn.Of.qualified {binding : Binding} {column : ListColumn} (of : column.Of binding)
    (spelled : binding.Spelled) : ∀ word ∈ column.qualifier, Token.OpensColumn word := by
  obtain ⟨bound, member, _, qualifier, _⟩ := of
  rw [qualifier]
  exact spelled bound member

namespace Expr

theorem leadsMinus_integer {value : Int} (positive : 0 ≤ value) : (integer value).leadsMinus = false := by
  obtain ⟨first, rest, same, start⟩ := Lexeme.numeral_first (decimal_numeral value.natAbs)
  rw [integer, Number.signedDecimal, if_neg (by omega)]
  apply decide_eq_false
  rw [same]
  rintro ⟨⟩
  rcases start with digit | point
  · exact absurd digit (by decide)
  · exact absurd point (by decide)

theorem eq_wildcard {expr : Expr} (level : expr.level = 8) : expr = wildcard := by
  cases expr with
  | wildcard => rfl
  | binary operator => cases operator <;> cases level
  | unary operator => cases operator <;> cases level
  | _ => cases level

theorem arguments_of_fits {distinct : Bool} {arguments results : List Expr}
    (pairs : List.Forall₂ Fits arguments results) (grammatical : ArgumentsGrammatical distinct arguments) :
    ArgumentsGrammatical distinct results := by
  rcases grammatical with ⟨plain, rfl⟩ | ⟨levels, some⟩
  · cases pairs with
    | cons fits rest =>
      cases rest
      rw [eq_wildcard fits.level]
      exact .inl ⟨plain, rfl⟩
  · exact .inr ⟨Fits.levels pairs levels, fun repeated => Fits.nonempty pairs (some repeated)⟩

theorem fits_caseWhen {operand first otherwise last : Option Expr} {branches results : List (Expr × Expr)}
    (before : Option.Rel Fits operand first)
    (pairs : List.Forall₂ (fun branch result => branch.1.Fits result.1 ∧ branch.2.Fits result.2) branches
      results)
    (behind : Option.Rel Fits otherwise last)
    (grammatical : (caseWhen operand branches otherwise).Grammatical) :
    (caseWhen operand branches otherwise).Fits (caseWhen first results last) := by
  obtain ⟨operands, some, levels, others⟩ := grammatical
  have front := Fits.optional before operands
  have back := Fits.optional behind others
  have middle : ∀ result ∈ results, (result.1.level ≤ 7 ∧ result.2.level ≤ 7) ∧ result.1.Readable ∧
      result.2.Readable := by
    refine forall₂_right pairs fun branch listed result fits => ?_
    exact ⟨⟨fits.1.le (levels branch listed).1, fits.2.le (levels branch listed).2⟩, fits.1.readable,
      fits.2.readable⟩
  refine .of_primary rfl rfl (readable_of ⟨⟨fun expr given => (front expr given).1, ?_,
    fun result listed => (middle result listed).1, fun expr given => (back expr given).1⟩, trivial⟩ ?_)
  · rintro rfl
    cases pairs
    exact some rfl
  · intro part member
    simp only [inside, List.mem_append, List.mem_map, Option.mem_toList, List.mem_flatMap,
      List.mem_cons, List.not_mem_nil, or_false] at member
    rcases member with (⟨expr, given, rfl⟩ | ⟨branch, listed, rfl | rfl⟩) | ⟨expr, given, rfl⟩
    · exact (front expr given).2
    · exact (middle branch listed).2.1
    · exact (middle branch listed).2.2
    · exact (back expr given).2

section

variable {scope : Scope} {user : Int64} {whole lowered : Expr}

theorem fits_of_becomes (spelled : scope.binding.Spelled) (positive : 0 ≤ user.toInt)
    (sound : whole.Sound) (becomes : Becomes scope user Fits whole lowered) : whole.Fits lowered := by
  cases becomes with
  | literal value => exact ⟨rfl, id, readable_of ⟨sound.1, trivial⟩ (by simp)⟩
  | bound value index => exact .of_primary rfl rfl (readable_placeholder index)
  | column own => exact ColumnRef.fits_lowersTo spelled sound own
  | parameter name => exact .of_primary rfl rfl (readable_of ⟨trivial, sound.2.1⟩ (by simp))
  | wildcard => exact .of_primary rfl rfl (readable_of ⟨trivial, trivial⟩ (by simp))
  | user => exact .of_primary rfl (leadsMinus_integer positive) (readable_integer _)
  | boundUser index => exact .of_primary rfl rfl (readable_placeholder index)
  | call name distinct pairs =>
    obtain ⟨plain, opens, arguments⟩ := sound.1
    refine .of_primary rfl rfl (readable_of ⟨⟨plain, opens, arguments_of_fits pairs arguments⟩, trivial⟩ ?_)
    exact List.forall_mem_map.mpr (Fits.readables pairs)
  | cast own converts =>
    obtain ⟨⟨level, grammatical⟩, restorable, _⟩ := sound
    obtain ⟨name, rfl, upper, plain⟩ := CastTarget.plain_of_lower converts (by
      rintro name rfl
      exact ⟨grammatical.1, restorable⟩)
    refine .of_primary rfl rfl (readable_of ⟨own.le level, upper, plain⟩ ?_)
    simpa using own.readable
  | caseWhen before pairs behind => exact fits_caseWhen before pairs behind sound.1
  | @binary operator left right first second one two =>
    obtain ⟨⟨leftLevel, rightLevel⟩, restorable, _⟩ := sound
    refine ⟨rfl, one.minus, readable_of ?_ (by simpa using ⟨one.readable, two.readable⟩)⟩
    cases operator with
    | subtract => exact ⟨one.le leftLevel, two.lt rightLevel, two.unsigned restorable⟩
    | _ => exact ⟨⟨one.le leftLevel, two.lt rightLevel⟩, trivial⟩
  | unary operator own =>
    refine ⟨by cases operator <;> rfl, ?_, readable_of ?_ (by simpa using own.readable)⟩
    · cases operator <;> exact id
    · obtain ⟨grammatical, restorable, _⟩ := sound
      cases operator with
      | not => exact ⟨own.le grammatical, trivial⟩
      | negate => exact ⟨own.le grammatical.1, own.unsigned restorable⟩
      | plus => exact ⟨own.le grammatical, trivial⟩
  | nested own =>
    refine .of_primary rfl rfl (readable_of ⟨own.le sound.1, trivial⟩ ?_)
    simpa using own.readable
  | isNull negated own | isTruth value negated own =>
    refine ⟨rfl, own.minus, readable_of ⟨own.le sound.1, trivial⟩ ?_⟩
    simpa using own.readable
  | between negated one two three =>
    obtain ⟨⟨first, second, third⟩, _⟩ := sound
    refine ⟨rfl, one.minus, readable_of ⟨⟨one.le first, two.le second, three.le third⟩, trivial⟩ ?_⟩
    simpa using ⟨one.readable, two.readable, three.readable⟩
  | inList negated own pairs =>
    obtain ⟨⟨tested, some, candidates⟩, _⟩ := sound
    refine ⟨rfl, own.minus, readable_of ⟨⟨own.le tested, Fits.nonempty pairs some,
      Fits.levels pairs candidates⟩, trivial⟩ ?_⟩
    exact List.forall_mem_cons.mpr ⟨own.readable, List.forall_mem_map.mpr (Fits.readables pairs)⟩
  | like negated one two three =>
    obtain ⟨⟨first, second, third⟩, _⟩ := sound
    have escape := Fits.optional three third
    refine ⟨rfl, one.minus, readable_of ⟨⟨one.le first, two.le second,
      fun expr given => (escape expr given).1⟩, trivial⟩ ?_⟩
    simpa using ⟨one.readable, two.readable, fun expr given => (escape expr given).2⟩
  | @has negated tested condition values results pattern form column listed pairs matched =>
    obtain ⟨⟨_, some, levels⟩, _, patterns⟩ := sound
    obtain ⟨reference, rfl, own⟩ := testedList_of_ok listed
    obtain ⟨readable, level⟩ := ListColumn.readable_matching (Fits.nonempty pairs some)
      (Fits.readables pairs) (Fits.levels pairs levels)
      (fun like => Fits.levels pairs (patterns like)) matched
    refine .of_primary rfl rfl (ListColumn.readable_rowsWith ?_ readable level negated)
    exact (ColumnRef.of_listColumn own).qualified spelled
  | doubleTest own =>
    obtain ⟨resolved, stored, resolves, _, _, rfl | rfl⟩ := DoubleTest.lower_of_ok own
    · obtain ⟨member, _⟩ := Binding.resolve_table resolves
      exact .of_primary rfl rfl (Physical.readable_nanTest (spelled _ member) _)
    · obtain ⟨member, _⟩ := Binding.resolve_table resolves
      exact .of_primary rfl rfl (Physical.readable_infinityTest (spelled _ member) _)
  | textMatches own | matchAgainst own =>
    refine .of_primary rfl rfl (readable_of ⟨own.le sound.1, trivial⟩ ?_)
    simpa using own.readable
  | unnest listed => exact .of_primary rfl rfl ListColumn.readable_element

end

end Expr

/-! ## Lowered parts -/

namespace Fragment

def TightPatterns : Fragment → Prop
  | expr whole => whole.TightPatterns
  | _ => True

instance : DecidablePred TightPatterns
  | expr whole => inferInstanceAs (Decidable whole.TightPatterns)
  | select _ | query _ => isTrue trivial

def Sound : Fragment → Prop
  | expr whole => whole.Sound
  | _ => True

end Fragment

/-- An expression that is sound at every depth fits in when it is lowered. -/
def Expr.FitsIn (expr lowered : Expr) : Prop :=
  Fragment.Everywhere Fragment.Sound (.expr expr) → expr.Fits lowered

theorem Expr.fitsIn_of_becomes {scope : Scope} {user : Int64} (spelled : scope.binding.Spelled)
    (positive : 0 ≤ user.toInt) {whole lowered : Expr}
    (becomes : Expr.Becomes scope user Expr.FitsIn whole lowered) : whole.FitsIn lowered := by
  intro sound
  obtain ⟨own, inside⟩ := Fragment.everywhere_iff.mp sound
  apply fits_of_becomes spelled positive own
  exact becomes.imp fun part member result fits => fits (inside _ member)

theorem Token.OpensColumn.free {name : String} (opens : OpensColumn name) : isReserved name = false := by
  have column := opens.opens
  cases reserved : isReserved name with
  | false => rfl
  | true =>
    unfold Grammar.opening at column
    simp only [Bool.false_and, reserved, if_true] at column
    split_ifs at column

theorem Identifier.spelled_asOutput {name : Identifier} (spelled : name.Spelled) : name.asOutput.Spelled := by
  unfold asOutput
  split
  · exact .inr rfl
  · exact spelled

/-- A star stands for at least one column. -/
theorem Binding.star_nonempty {binding : Binding} {items : List SelectItem} (some : binding.tables ≠ [])
    (ok : binding.star = .ok items) : items ≠ [] := by
  unfold star at ok
  split at ok
  · next none => exact absurd none some
  · next first rest tables =>
      split at ok <;> cases ok
      next columns =>
        simp only [List.all_eq_true, not_forall] at columns
        obtain ⟨table, listed, column⟩ := columns
        intro none
        simp only [starItems, List.flatMap_eq_nil_iff, List.map_eq_nil_iff] at none
        simp [none table (tables ▸ listed)] at column

theorem Source.tables_nonempty (source : Source) : source.tables ≠ [] := by
  cases source <;> simp [Source.tables]

namespace RowMetadata

open TabularSql.Expr

theorem readable_expr {binding : Binding} (spelled : binding.Spelled) (column : RowMetadata) :
    (column.expr binding).Readable ∧ (column.expr binding).level ≤ 7 := by
  have first (name : MetadataName) : (ofFirst binding name).Readable := by
    apply Physical.readable_metadata
    cases head : binding.tables.head? with
    | none => simp
    | some bound => exact spelled bound (List.mem_of_mem_head? head)
  cases column with
  | id => exact ⟨first .rowId, Nat.zero_le _⟩
  | version => exact ⟨first .rowVersion, Nat.zero_le _⟩
  | etag => exact ⟨first .rowEtag, Nat.zero_le _⟩
  | benefactor view =>
    simp only [RowMetadata.expr]
    split
    · next table found =>
        have own := Physical.readable_metadata (spelled table (List.mem_of_find?_eq_some found))
          .rowBenefactor
        refine ⟨readable_of ⟨⟨by decide +kernel, by decide +kernel, .inr ⟨?_, by simp⟩⟩, trivial⟩ ?_,
          Nat.zero_le _⟩
        · simp [level, integer]
        · simpa [Physical.benefactor, apply] using ⟨own, readable_integer (-1)⟩
    · exact ⟨readable_integer (-1), Nat.zero_le _⟩

end RowMetadata

theorem ListColumn.readable_joined {binding : Binding} (spelled : binding.Spelled) {column : ListColumn}
    (of : column.Of binding) : column.joined.Readable := by
  have owner : ∀ word ∈ some column.owner, Token.OpensColumn word := by
    rintro word ⟨⟩
    unfold ListColumn.owner
    cases qualifier : column.qualifier with
    | none => exact (Physical.numbered_table column.table).opensColumn
    | some name => exact of.qualified spelled name qualifier
  have side : ∀ word ∈ some column.sideTable, Token.OpensColumn word := by
    rintro word ⟨⟩
    exact (Physical.numbered_sideTable column.table column.id).opensColumn
  have reference := Expr.readable_plain side (Physical.numbered_elementRow column.id).opensColumn
  refine Expr.readable_of ⟨⟨Nat.zero_le _, show 0 < 4 by decide⟩, trivial⟩ ?_
  simpa [ListColumn.joined, Expr.equals] using
    ⟨Physical.readable_metadata owner .rowId, reference⟩

namespace Select

variable {schemas : Schemas} {part lowered : Select}

theorem writable_tables (compiles : part.Compiles Expr.FitsIn schemas lowered) :
    ∀ table ∈ lowered.source.tables, table.Grammatical ∧ table.Restorable := by
  obtain ⟨⟨binding, select⟩, metadata, boundAs, _, becomes⟩ := compiles
  obtain ⟨binds, projection, page, rfl, _⟩ := boundAs
  obtain ⟨clause, columns, source, conditions, _⟩ := becomes.source
  have spelled := Binding.spelled_of_ok binds
  rw [source, Source.tables_withSideTables, ← conditions.tables, Binding.tables_lowerTables binds]
  intro table member
  rcases List.mem_append.mp member with own | side
  · obtain ⟨bound, listed, rfl⟩ := List.mem_map.mp own
    refine TableName.writable_numbered (Physical.numbered_table bound.id) ?_ ?_
    · intro name given
      obtain ⟨word, written, rfl⟩ := Option.map_eq_some_iff.mp given
      exact Token.isPlainWord_iff.mp (spelled bound listed word written).plain
    · intro name given _
      obtain ⟨word, written, rfl⟩ := Option.map_eq_some_iff.mp given
      exact (spelled bound listed word written).free
  · obtain ⟨column, listed, rfl⟩ := List.mem_map.mp side
    exact TableName.writable_numbered (Physical.numbered_sideTable column.table column.id) (by simp) (by simp)

/-- The select list of a lowered part is not empty, and its aliases can be read. -/
theorem grammatical_projection (compiles : part.Compiles Expr.FitsIn schemas lowered)
    (grammatical : part.projection.Grammatical) : lowered.projection.Grammatical := by
  obtain ⟨⟨binding, select⟩, metadata, boundAs, _, becomes⟩ := compiles
  obtain ⟨binds, projection, page, rfl, spelled⟩ := boundAs
  obtain ⟨items, same, listed⟩ := becomes.items
  have known : projection.itemList ≠ [] ∧
      ∀ item ∈ projection.itemList, ∀ name ∈ item.alias?, name.Spelled := by
    rcases spelled with ⟨rfl, notAll⟩ | ⟨stars, star, _, rfl⟩
    · cases projected : part.projection with
      | all => exact absurd projected notAll
      | items own =>
        rw [projected] at grammatical
        exact grammatical
    · have tables : binding.tables ≠ [] := by
        intro none
        have count := Binding.length_tables binds
        rw [none] at count
        exact part.source.tables_nonempty (List.length_eq_zero_iff.mp count.symm)
      refine ⟨Binding.star_nonempty tables star, fun item member => ?_⟩
      obtain ⟨table, _, column, _, rfl⟩ := Binding.star_columns star item member
      exact nofun
  rw [same]
  refine ⟨fun none => ?_, fun item member name given => ?_⟩
  · rw [(List.append_eq_nil_iff.mp none).1] at listed
    exact known.1 (List.forall₂_nil_right_iff.mp listed)
  · rcases List.mem_append.mp member with own | added
    · obtain ⟨before, inPart, _, output⟩ := forall₂_origin listed item own
      rw [output] at given
      obtain ⟨word, written, rfl⟩ := Option.map_eq_some_iff.mp given
      exact Identifier.spelled_asOutput (known.2 before inPart word written)
    · obtain ⟨column, _, rfl⟩ := List.mem_map.mp added
      cases given

theorem readable_exprs (compiles : part.Compiles Expr.FitsIn schemas lowered)
    (undefined : part.definingFilter = none)
    (sound : ∀ expr ∈ part.exprs, expr.level ≤ 7 ∧ Fragment.Everywhere Fragment.Sound (.expr expr)) :
    ∀ expr ∈ lowered.exprs, expr.Readable ∧ expr.level ≤ 7 := by
  obtain ⟨bound, metadata, boundAs, _, becomes⟩ := compiles
  have spelled := Binding.spelled_of_ok boundAs.1
  have plain : bound.2.definingFilter = none := boundAs.definingFilter.trans undefined
  intro expr member
  rcases becomes.exprs plain member with ⟨own, inPart, fits⟩ | ⟨column, _, rfl⟩ | ⟨column, of, _, rfl⟩ |
    ⟨index, rfl⟩
  · have fine : own.level ≤ 7 ∧ Fragment.Everywhere Fragment.Sound (.expr own) := by
      rcases boundAs.clauses.2 own inPart with written | ⟨qualifier, name, rfl⟩
      · exact sound own (mem_exprs_iff.mpr (.inl written))
      · exact ⟨Nat.zero_le _, Fragment.everywhere_iff.mpr ⟨.inl rfl, by simp [Fragment.inside]⟩⟩
    exact ⟨(fits fine.2).readable, (fits fine.2).le fine.1⟩
  · exact column.readable_expr spelled
  · exact ⟨column.readable_joined spelled of, show 4 ≤ 7 by decide⟩
  · exact ⟨Expr.readable_placeholder index, Nat.zero_le _⟩

/-- A lowered part can be read if the part was read, and what it holds is sound. -/
theorem legible_of_compiles (compiles : part.Compiles Expr.FitsIn schemas lowered)
    (undefined : part.definingFilter = none) (grammatical : part.Grammatical)
    (sound : ∀ expr ∈ part.exprs, Fragment.Everywhere Fragment.Sound (.expr expr)) :
    Fragment.Everywhere Fragment.Legible (.select lowered) := by
  obtain ⟨projected, _, levels, _⟩ := grammatical
  have tables := writable_tables compiles
  have readable := readable_exprs compiles undefined fun expr member =>
    ⟨levels expr member, sound expr member⟩
  have counts : ∀ page ∈ lowered.page, ∀ expr ∈ page.exprs, expr.level ≤ 3 := by
    obtain ⟨_, _, _, _, becomes⟩ := compiles
    intro page given expr member
    obtain ⟨_, _, limit, offset⟩ := Option.rel_right becomes.page page given
    rcases List.mem_cons.mp member with rfl | behind
    · obtain ⟨_, index, same⟩ := limit
      rw [same]
      exact Nat.zero_le _
    · obtain ⟨_, _, _, index, rfl⟩ := Option.rel_right offset expr (Option.mem_toList.mp behind)
      exact Nat.zero_le _
  refine Fragment.everywhere_select.mpr ⟨?_, fun expr member => (readable expr member).1⟩
  exact ⟨⟨grammatical_projection compiles projected, fun table member => (tables table member).1,
    fun expr member => (readable expr member).2, counts⟩, fun table member => (tables table member).2⟩

end Select

/-! ## Compiled statements -/

namespace Query

variable {schemas : Schemas} {query lowered : Query}

/-- A compiled query can be read if its query was read and is sound. -/
theorem legible_of_compiles (compiles : query.Compiles (Select.Compiles Expr.FitsIn schemas) lowered)
    (grammatical : Fragment.Everywhere Fragment.Grammatical (.query query))
    (sound : Fragment.Everywhere Fragment.Sound (.query query)) :
    Fragment.Everywhere Fragment.Legible (.query lowered) := by
  have selects {query lowered : Query}
      (grammatical : Fragment.Everywhere Fragment.Grammatical (.query query))
      (sound : Fragment.Everywhere Fragment.Sound (.query query))
      (undefined : ∀ part ∈ query.parts, part.definingFilter = none)
      (parts : List.Forall₂ (Select.Compiles Expr.FitsIn schemas) query.parts lowered.parts) :
      ∀ part ∈ lowered.parts, Fragment.Everywhere Fragment.Legible (.select part) := by
    intro part member
    obtain ⟨own, listed, compiles⟩ := forall₂_origin parts part member
    have read := (Fragment.everywhere_query.mp grammatical).2.2 own listed
    have sounds := (Fragment.everywhere_query.mp sound).2.2 own listed
    exact Select.legible_of_compiles compiles (undefined own listed)
      (Fragment.everywhere_select.mp read).1 (Fragment.everywhere_select.mp sounds).2
  induction compiles with
  | @plain query lowered clause also undefined parts =>
    have none : lowered.elements = [] := by rw [Query.elements, also, Option.getD_none]
    refine Fragment.everywhere_query.mpr ⟨⟨⟨by simp [also], by simp [none]⟩, trivial⟩, by simp [none], ?_⟩
    exact selects grammatical sound undefined parts
  | @layered query lowered element compiled clause also puts _ undefined parts ih =>
    have single : lowered.elements = [compiled] := by rw [Query.elements, also, Option.getD_some]
    have listed : element ∈ query.elements := by simp [Query.elements, clause]
    obtain ⟨own, elements, _⟩ := Fragment.everywhere_query.mp grammatical
    have inner := ih (elements element listed) ((Fragment.everywhere_query.mp sound).2.1 element listed)
    have named : compiled.name.Spelled := by
      rcases puts.1 with same | ⟨id, same⟩
      · rw [same]
        exact (own.2 element listed).1
      · rw [same]
        exact Token.isPlainWord_iff.mp (Physical.numbered_table id).plain
    have columns : ∀ column ∈ compiled.columns, column.Spelled := by
      intro column member
      obtain ⟨id, rfl⟩ := puts.2 column member
      exact Token.isPlainWord_iff.mp (Physical.numbered_column id).plain
    refine Fragment.everywhere_query.mpr ⟨⟨⟨by simp [also], ?_⟩, trivial⟩, ?_, ?_⟩
    · simpa [single] using ⟨named, columns⟩
    · simpa [single] using inner
    · exact selects grammatical sound undefined parts

end Query

/-! ## Queries that are compiled -/

namespace Fragment

def IsExpr : Fragment → Prop
  | expr _ => True
  | _ => False

def Identified : Fragment → Prop
  | select whole => ∀ table ∈ whole.source.tables, ∃ id, TableId.ofText? table.name = some id
  | _ => True

end Fragment

def Expr.Flat (expr _lowered : Expr) : Prop := Fragment.Everywhere Fragment.IsExpr (.expr expr)

theorem Expr.flat_of_becomes {scope : Scope} {user : Int64} {whole lowered : Expr}
    (becomes : Expr.Becomes scope user Expr.Flat whole lowered) : whole.Flat lowered := by
  refine Fragment.everywhere_iff.mpr ⟨trivial, fun part member => ?_⟩
  obtain ⟨expr, rfl, ⟨reference, rfl⟩ | ⟨result, flat⟩⟩ := becomes.inside part member
  · exact Fragment.everywhere_iff.mpr ⟨trivial, by simp [Fragment.inside]⟩
  · exact flat

theorem Binding.identified_of_ok {schemas : Schemas} {source : Source} {binding : Binding}
    (ok : ofSource schemas source = .ok binding) :
    ∀ table ∈ source.tables, ∃ id, TableId.ofText? table.name = some id := by
  intro table member
  rw [← List.zipIdx_map_fst 0 source.tables] at member
  obtain ⟨pair, listed, rfl⟩ := List.mem_map.mp member
  obtain ⟨bound, _, own⟩ := forall₂_left (forall₂_of_ofSource ok) pair listed
  obtain ⟨id, parsed, _⟩ := Except.of_bind own
  exact ⟨id, TableId.ofText?_of_parse parsed⟩

theorem Select.identified_of_compiles {schemas : Schemas} {part lowered : Select}
    (compiles : part.Compiles Expr.Flat schemas lowered) (undefined : part.definingFilter = none) :
    Fragment.Everywhere Fragment.Identified (.select part) := by
  obtain ⟨bound, metadata, boundAs, counted, becomes⟩ := compiles
  have plain : bound.2.definingFilter = none := boundAs.definingFilter.trans undefined
  have flat : ∀ expr ∈ part.exprs, Fragment.Everywhere Fragment.IsExpr (.expr expr) := by
    intro expr member
    rcases mem_exprs_iff.mp member with clause | ⟨page, given, count⟩
    · obtain ⟨_, _, flat⟩ := becomes.lowers plain (boundAs.clauses.1 expr clause)
      exact flat
    · have counts : ∃ count, Page.rowCount expr = .ok count := by
        rcases List.mem_cons.mp count with rfl | behind
        · exact (counted page given).1
        · exact (counted page given).2 expr (Option.mem_toList.mp behind)
      obtain ⟨count, ok⟩ := counts
      unfold Page.rowCount at ok
      split at ok
      · exact Fragment.everywhere_iff.mpr ⟨trivial, by simp [Fragment.inside]⟩
      · cases ok
  refine Fragment.everywhere_select.mpr ⟨Binding.identified_of_ok boundAs.1, ?_⟩
  intro expr listed inner within
  have isExpr := flat expr listed inner within
  cases inner with
  | expr => trivial
  | select | query => exact isExpr.elim

namespace Query

variable {schemas : Schemas} {query lowered : Query}

/-- Every table of a query that is compiled is identified, at every depth. -/
theorem identified_of_compiles (compiles : query.Compiles (Select.Compiles Expr.Flat schemas) lowered) :
    Fragment.Everywhere Fragment.Identified (.query query) := by
  have selects {query lowered : Query} (undefined : ∀ part ∈ query.parts, part.definingFilter = none)
      (parts : List.Forall₂ (Select.Compiles Expr.Flat schemas) query.parts lowered.parts) :
      ∀ part ∈ query.parts, Fragment.Everywhere Fragment.Identified (.select part) := by
    intro part listed
    obtain ⟨_, _, compiles⟩ := forall₂_left parts part listed
    exact Select.identified_of_compiles compiles (undefined part listed)
  induction compiles with
  | @plain query lowered clause also undefined parts =>
    have none : query.elements = [] := by rw [Query.elements, clause, Option.getD_none]
    exact Fragment.everywhere_query.mpr ⟨trivial, by simp [none], selects undefined parts⟩
  | @layered query lowered element compiled clause also puts _ undefined parts ih =>
    have single : query.elements = [element] := by rw [Query.elements, clause, Option.getD_some]
    exact Fragment.everywhere_query.mpr ⟨trivial, by simpa [single] using ih, selects undefined parts⟩

/-- A query that is read from its own text is sound if its tables are identified. -/
theorem sound_of_reread (reread : parse query.text = .ok query)
    (identified : Fragment.Everywhere Fragment.Identified (.query query))
    (tight : Fragment.Everywhere Fragment.TightPatterns (.query query)) :
    Fragment.Everywhere Fragment.Sound (.query query) := by
  have grammatical := grammatical_of_parse reread
  have tables : ∀ select, Fragment.Within (.select select) (.query query) →
      ∀ table ∈ select.source.tables, (Lexeme.table table.name).Spelled := by
    intro select within table member
    obtain ⟨id, known⟩ := identified (.select select) within table member
    have own : select.Grammatical := grammatical (.select select) within
    exact TableName.spelled_of_identified (own.2.1 table member)
      (tables_of_reread reread within table member) known
  intro fragment within
  cases fragment with
  | expr expr =>
    have own : expr.Grammatical := grammatical (.expr expr) within
    have restorable := restorable_of_reread reread tables within
    have patterns : expr.TightPatterns := tight (.expr expr) within
    cases expr with
    | column reference => exact .inr own
    | _ => exact ⟨own, restorable, patterns⟩
  | select | query => trivial

end Query

namespace Compiler

/-- A compiled statement is legible if its query is read from its own text. -/
theorem legible_of_ok {compiler : Compiler} {query : Query} {statement : Statement}
    (reread : Query.parse query.text = .ok query) (stored : compiler.description.isVirtual = false)
    (positive : 0 ≤ compiler.userId)
    (tight : Fragment.Everywhere Fragment.TightPatterns (.query query))
    (ok : compiler.compileQuery query = .ok statement) :
    Fragment.Everywhere Fragment.Legible (.query statement.compiled.query) := by
  have flat : query.Compiles (Select.Compiles Expr.Flat compiler.schemas) statement.compiled.query :=
    compiles_of_ok (fun _ _ _ _ _ _ => Expr.flat_of_becomes) stored rfl ok
  have fits : query.Compiles (Select.Compiles Expr.FitsIn compiler.schemas) statement.compiled.query :=
    compiles_of_ok (fun _ _ _ binds _ _ => Expr.fitsIn_of_becomes (Binding.spelled_of_ok binds)
      (by simpa using Int64.le_iff_toInt_le.mp positive)) stored rfl ok
  apply Query.legible_of_compiles fits (Query.grammatical_of_parse reread)
  exact Query.sound_of_reread reread (Query.identified_of_compiles flat) tight

/-- The text of a compiled statement is read as the statement in its settled form, and as the statement
itself exactly if that is settled: no CAST names a logical type, and no minus stands in front of a number. -/
theorem statement_text_reread (compiler : Compiler) (text : String) (query : Query) (statement : Statement)
    (read : Query.parse text = .ok query) (reread : Query.parse query.text = .ok query)
    (stored : compiler.description.isVirtual = false) (asks : 0 ≤ compiler.userId)
    (tight : Fragment.Everywhere Fragment.TightPatterns (.query query))
    (compiled : compiler.compileText text = .ok statement) :
    Query.parse statement.text = .ok statement.compiled.query.settled ∧
      (Query.parse statement.text = .ok statement.compiled.query ↔
        Fragment.Everywhere Fragment.IsSettled (.query statement.compiled.query)) := by
  have ok : compiler.compileQuery query = .ok statement := by
    rw [compileText, read] at compiled
    exact compiled
  have legible := legible_of_ok reread stored asks tight ok
  exact ⟨Query.parse_text_settled legible, Query.parse_text_iff legible⟩

/-- `SELECT -weight*( 2-3 ) FROM syn2 WHERE NOT ( tags HAS_LIKE ( 'a', 'b' ) OR weight-1 > 2 )` -/
def mixedQuery : Query :=
  .single { Select.simple (.items [⟨.binary .multiply (.unary .negate (.named "weight"))
      (.nested (.binary .subtract (.natural 2) (.natural 3))), none⟩]) (.named "syn2") with
    filter := some (.unary .not (.nested (.or (.has (.named "tags") [.string "a", .string "b"] true false)
      (.binary .greater (.binary .subtract (.named "weight") (.natural 1)) (.natural 2))))) }

def mixedStatement : String :=
  "SELECT -CASE WHEN _DBL_C13_ IS NULL THEN _C13_ ELSE _DBL_C13_ END*( 2-3 ), ROW_ID, ROW_VERSION FROM T2 " ++
    "WHERE NOT ( ROW_ID IN ( SELECT ROW_ID_REF_C12_ FROM T2_INDEX_C12_ WHERE _C12__UNNEST LIKE :b0 " ++
    "OR _C12__UNNEST LIKE :b1 ) OR _C13_-:b2 > :b3 )"

theorem statement_text_reread_mixed : ∃ statement, Query.parse mixedQuery.text = .ok mixedQuery ∧
    weighedCompiler.description.isVirtual = false ∧ 0 ≤ weighedCompiler.userId ∧
      Fragment.Everywhere Fragment.TightPatterns (.query mixedQuery) ∧
      weighedCompiler.compileText mixedQuery.text = .ok statement ∧ statement.text = mixedStatement ∧
      Query.parse mixedStatement = .ok statement.compiled.query := by
  have read : Query.parse mixedQuery.text = .ok mixedQuery := by decide +kernel
  have tight : Fragment.Everywhere Fragment.TightPatterns (.query mixedQuery) := by decide +kernel
  obtain ⟨statement, compiled, written, settled⟩ : ∃ statement,
      weighedCompiler.compileQuery mixedQuery = .ok statement ∧ statement.text = mixedStatement ∧
        Fragment.Everywhere Fragment.IsSettled (.query statement.compiled.query) :=
    compiles_within 1 (by decide +kernel)
  rw [← compileText_eq weighedCompiler read] at compiled
  refine ⟨statement, read, rfl, by decide, tight, compiled, written, ?_⟩
  rw [← written]
  exact (statement_text_reread weighedCompiler mixedQuery.text mixedQuery statement read read rfl
    (by decide) tight compiled).2.mpr settled

/-- Whether the fragment is one that no text is read as. -/
def isUnread : Fragment → Bool
  | .expr (.like _ pattern _ _) => 3 < pattern.level
  | .expr whole => !decide whole.IsSettled
  | _ => false

theorem read_of_parse {text : String} {query : Query} (parsed : Query.parse text = .ok query) :
    Fragment.Everywhere (fun fragment => isUnread fragment = false) (.query query) := by
  intro fragment within
  have grammatical := Query.grammatical_of_parse parsed fragment within
  unfold isUnread
  split
  · simpa using grammatical.2.1
  · simpa using Expr.isSettled_of_grammatical grammatical
  · rfl

/-- Queries whose statements are read differently: the type of a CAST, the sign of a number, and a pattern
that falls apart behind LIKE. -/
def changedQueries : List Query :=
  [.single (Select.simple (.items [⟨.cast (.named "name") (.type .double), none⟩]) (.named "syn2")),
    .single (Select.simple (.items [⟨.unary .negate .currentUser, none⟩]) (.named "syn2")),
    .single { Select.simple (.items [⟨.named "name", none⟩]) (.named "syn2") with
      filter := some (.has (.named "tags") [.or (.string "a") (.string "b")] true false) }]

theorem statement_text_changed : weighedCompiler.description.isVirtual = false ∧
    0 ≤ weighedCompiler.userId ∧ ∀ query ∈ changedQueries, Query.parse query.text = .ok query ∧
      ∃ statement, weighedCompiler.compileText query.text = .ok statement ∧
        Query.parse statement.text ≠ .ok statement.compiled.query := by
  have shown : ∀ query ∈ changedQueries, Query.parse query.text = .ok query ∧
      ((weighedCompiler.compileWithin 1 query).bind Except.toOption).any (fun statement =>
        ¬ Fragment.Everywhere (fun fragment => isUnread fragment = false)
          (.query statement.compiled.query)) = true := by
    decide +kernel
  refine ⟨rfl, by decide, fun query listed => ?_⟩
  obtain ⟨read, view⟩ := shown query listed
  obtain ⟨statement, compiled, unread⟩ := compiles_within 1 view
  rw [← compileText_eq weighedCompiler read] at compiled
  exact ⟨read, statement, compiled, fun same => unread (read_of_parse same)⟩

end Compiler

end TabularSql
