import TabularSql.Proofs.Built
import TabularSql.Proofs.Reading.Fragment
import TabularSql.Query.Equality

/-!
# Round trip of canonical text

The canonical text of a tree that reading has built, or that is built like one, is read back to the same
tree.
-/

namespace TabularSql

set_option autoImplicit false

open Reader Grammar Lexeme

/-! ## Writable trees -/

namespace Token

theorem scan_blank {chars : List Char} (blank : chars.all Text.isBlank = true) :
    scan chars = .ok [] := by
  induction chars with
  | nil => rw [scan]
  | cons char rest ih =>
    simp only [List.all_cons, Bool.and_eq_true] at blank
    have skipped : step char rest = .ok (none, rest) := if_pos blank.1
    rw [scan_skipped skipped, ih blank.2]

theorem ofText_of_scan {text : String} {tokens : List Token}
    (scanned : scan text.toList = .ok tokens) (some : tokens ≠ []) :
    Token.ofText text = .ok tokens := by
  have notBlank : ¬ text.toList.all Text.isBlank = true := by
    intro blank
    rw [scan_blank blank] at scanned
    cases scanned
    exact some rfl
  rw [Token.ofText, if_neg notBlank, scanned]

end Token

namespace Grammar

theorem complete_ok {α : Type} {read : Reader α} {tokens : List Token} {value : α}
    (given : read tokens = .ok (value, [])) : (complete read).run' tokens = .ok value := by
  have whole : complete read tokens = .ok (value, []) := by
    rw [complete, bind_ok given]
    rfl
  rw [Reader.run', whole]

theorem read_text {α : Type} (read : Nat → Reader α) {text : String} {lexemes : List Lexeme} {value : α}
    (spelled : text = String.ofList (spelling lexemes)) (sealed_ : Sealed false lexemes)
    (some : tokensOf lexemes ≠ [])
    (reads : read (tokensOf lexemes).length (tokensOf lexemes) = .ok (value, [])) :
    (do
      let tokens ← Token.ofText text
      (complete (read tokens.length)).run' tokens) = .ok value := by
  have scanned : Token.scan text.toList = .ok (tokensOf lexemes) := by
    rw [spelled, String.toList_ofList]
    exact scan_spelling sealed_.clean
  rw [Token.ofText_of_scan scanned some]
  exact complete_ok reads

end Grammar

namespace Expr

theorem tokens_ne_nil {whole : Expr} (writable : Fragment.Everywhere Fragment.Writable (.expr whole))
    (level : whole.level ≤ 7) : whole.tokens ≠ [] := by
  obtain ⟨token, behind, starts⟩ := Expr.startsWith writable level
  rw [starts.tokens]
  exact List.cons_ne_nil _ _

theorem parse_text {whole : Expr} (writable : Fragment.Everywhere Fragment.Writable (.expr whole))
    (level : whole.level ≤ 7) : Expr.parse whole.text = .ok whole := by
  have read := (Fragment.readBack (.expr whole) writable whole.tokens.length (Nat.le_refl _) level).reads
    7 level (by decide) [] (Stops.nil 7)
  rw [List.append_nil] at read
  exact read_text (fun depth => Grammar.expr (Grammar.nested depth)) (Expr.text_eq whole)
    (Fragment.sealed (.expr whole) writable level) (tokens_ne_nil writable level) read

end Expr

namespace Query

theorem parse_text {whole : Query}
    (writable : Fragment.Everywhere Fragment.Writable (.query whole)) :
    Query.parse whole.text = .ok whole := by
  obtain ⟨name, behind, starts, _⟩ := query_starts whole
  have some : whole.tokens ≠ [] := by
    rw [starts]
    exact List.cons_ne_nil _ _
  have read := Fragment.readBack (.query whole) writable whole.tokens.length (Nat.le_refl _) []
    (Stops.nil 17)
  rw [List.append_nil] at read
  exact read_text (fun depth => Grammar.query (Grammar.nested depth)) (Query.text_eq whole)
    (Fragment.sealed (.query whole) writable) some read

end Query

/-! ## Trees that were read -/

/-- Whatever text a query or an expression was read from, its canonical text is read as the same tree,
as long as that text keeps all of the tree. -/
theorem parse_canonical_text :
    (∀ (text : String) (query : Query), Query.parse text = .ok query →
      Fragment.Everywhere Fragment.Restorable (.query query) →
        Query.parse query.text = .ok query) ∧
    ∀ (text : String) (expr : Expr), Expr.parse text = .ok expr →
      Fragment.Everywhere Fragment.Restorable (.expr expr) → Expr.parse expr.text = .ok expr := by
  constructor
  · intro text query parsed restorable
    exact Query.parse_text ((Query.grammatical_of_parse parsed).and restorable)
  · intro text expr parsed restorable
    have built := Expr.built_of_parse parsed
    exact Expr.parse_text (built.1.and restorable) built.2

/-- A query with a join, a subquery, a union, quotes inside quotes and signs inside brackets. -/
def sampleText : String :=
  "select \"a \"\"b\" from t.2 as x join u on a-(-b)<>:p where d in (select 'it''s' from v) " ++
    "union select - +1.5e3 from w"

def sampleQuery : Query :=
  let select (item : Expr) (source : Source) (filter : Option Expr) : Select :=
    ⟨false, .items [⟨item, none⟩], source, none, filter, [], [], none⟩
  let source : Source := .join (.table ⟨"t.2", some ⟨"x", none⟩⟩) .join ⟨"u", none⟩ <|
    .binary .notEqual (.binary .subtract (.named "a") (.nested (.unary .negate (.named "b"))))
      (.parameter "p")
  let candidates : Query := ⟨none, select (.string "it's") (.table ⟨"v", none⟩) none, []⟩
  ⟨none, select (.quoted "a \"b") source (some (.inQuery (.named "d") candidates false)),
    [⟨false, select (.unary .negate (.unary .plus (.literal (.number "1.5e3"))))
      (.table ⟨"w", none⟩) none⟩]⟩

theorem parse_canonical_text_sample :
    (Query.parse sampleText = .ok sampleQuery ∧ Query.parse sampleQuery.text = .ok sampleQuery) ∧
    Expr.parse (Expr.unary .negate (.unary .plus (.literal (.number "1.5e3")))).text =
      .ok (.unary .negate (.unary .plus (.literal (.number "1.5e3")))) := by
  have parsed : Query.parse sampleText = .ok sampleQuery := by decide +kernel
  exact ⟨⟨parsed, parse_canonical_text.1 sampleText sampleQuery parsed (by decide +kernel)⟩,
    parse_canonical_text.2 "- +1.5e3" _ (by decide +kernel) (by decide +kernel)⟩

end TabularSql
