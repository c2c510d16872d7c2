import TabularSql.Proofs.Rereading
import TabularSql.Proofs.RoundTrip

/-!
# Stable text

Canonical text is handed back to the reader in several places, so it should be read again and come out the
same. It does as long as the names that it leaves without quotes are words and no minus stands directly in
front of another one: two minus signs open a comment, and whatever the rest of the line says is lost. A
query whose text comes out the same is read as the same query.
-/

namespace TabularSql

set_option autoImplicit false

open Lexeme

/-! ## What can be lost -/

namespace Expr

/-- The expression that is written directly behind a minus. -/
def behindMinus? : Expr → Option Expr
  | unary .negate operand => some operand
  | binary .subtract _ right => some right
  | _ => none

/-- The name that is written without quotes, whatever it was read from. -/
def bareName? : Expr → Option String
  | parameter name => some name
  | cast _ (.physical name) => some name
  | _ => none

theorem restorable_iff {whole : Expr} : whole.Restorable ↔
    (∀ operand ∈ whole.behindMinus?, operand.text.toList.head? ≠ some '-') ∧
      ∀ name ∈ whole.bareName?, Token.IsPlainWord name := by
  unfold Restorable
  split
  · simp [behindMinus?, bareName?]
  · simp [behindMinus?, bareName?]
  · simp [behindMinus?, bareName?]
  · simp [behindMinus?, bareName?]
  · next notNegated notSubtracted notParameter notPhysical =>
      have signs : whole.behindMinus? = none := by
        unfold behindMinus?
        split
        · next operand => exact absurd rfl (notNegated operand)
        · next left right => exact absurd rfl (notSubtracted left right)
        · rfl
      have names : whole.bareName? = none := by
        unfold bareName?
        split
        · next name => exact absurd rfl (notParameter name)
        · next operand name => exact absurd rfl (notPhysical operand name)
        · rfl
      simp [signs, names]

end Expr

namespace Fragment

/-- No minus is written directly in front of another one. -/
def SignsApart : Fragment → Prop
  | expr whole => ∀ operand ∈ whole.behindMinus?, operand.text.toList.head? ≠ some '-'
  | select _ | query _ => True

/-- What is written without quotes is still one name: placeholders, physical types and tables are words, a
version is a whole number, and the alias of a table is not reserved. -/
def NamesKept : Fragment → Prop
  | expr whole => ∀ name ∈ whole.bareName?, Token.IsPlainWord name
  | select whole => ∀ table ∈ whole.source.tables, table.Restorable
  | query _ => True

instance : DecidablePred SignsApart
  | expr whole =>
    inferInstanceAs (Decidable (∀ operand ∈ whole.behindMinus?, operand.text.toList.head? ≠ some '-'))
  | select _ | query _ => isTrue trivial

instance : DecidablePred NamesKept
  | expr whole => inferInstanceAs (Decidable (∀ name ∈ whole.bareName?, Token.IsPlainWord name))
  | select whole => inferInstanceAs (Decidable (∀ table ∈ whole.source.tables, table.Restorable))
  | query _ => isTrue trivial

theorem restorable_of_kept {whole : Fragment} (apart : whole.SignsApart) (names : whole.NamesKept) :
    whole.Restorable := by
  cases whole with
  | expr whole => exact Expr.restorable_iff.mpr ⟨apart, names⟩
  | select whole => exact names
  | query whole => trivial

theorem scannable_of_names {whole : Fragment} (grammatical : whole.Grammatical) (names : whole.NamesKept) :
    whole.Scannable true := by
  cases whole with
  | expr whole =>
    show whole.Scannable true
    unfold Expr.Scannable
    split
    · simp
    · simp
    · next notNegated notSubtracted =>
        refine Expr.restorable_iff.mpr ⟨?_, names⟩
        unfold Expr.behindMinus?
        split
        · next operand => exact absurd rfl (notNegated operand)
        · next left right => exact absurd rfl (notSubtracted left right)
        · simp
  | select whole => exact Writable.scannable ⟨grammatical, names⟩
  | query whole => trivial

end Fragment

/-! ## Reading canonical text again -/

namespace Query

variable {query : Query}

/-- The text of the query is read, and what it is read as has the same text. -/
def IsStable (query : Query) : Prop := ∃ again, parse query.text = .ok again ∧ again.text = query.text

theorem isStable_iff : query.IsStable ↔ (parse query.text).toOption.map text = some query.text := by
  unfold IsStable
  cases parse query.text <;> simp [Except.toOption]

instance : DecidablePred IsStable := fun _ => decidable_of_iff _ isStable_iff.symm

/-- Reading pays for every sign of the text that it gives, so stable text has lost none. -/
theorem signsApart_of_stable (grammatical : Fragment.Everywhere Fragment.Grammatical (.query query))
    (names : Fragment.Everywhere Fragment.NamesKept (.query query)) (stable : query.IsStable) :
    Fragment.Everywhere Fragment.SignsApart (.query query) := by
  obtain ⟨again, reread, same⟩ := stable
  obtain ⟨_, tokens, scanned, kept⟩ := signs_of_again reread same
  have clean : Clean false query.lexemes := by
    refine clean_of_kept (fun fragment within => ?_) scanned kept
    have own := grammatical fragment within
    exact ⟨own, Fragment.scannable_of_names own (names fragment within)⟩
  intro fragment within
  cases fragment with
  | expr whole =>
    exact (Expr.restorable_iff.mp (Expr.restorable_of_clean (clean.part (Fragment.infix_within within)))).1
  | select whole => trivial
  | query whole => trivial

end Query

/-- Where the names without quotes are words, canonical text is read again and comes out the same exactly if
no minus stands directly in front of another one, and then it is read as the same query. -/
theorem canonical_text_stable (text : String) (query : Query) (parsed : Query.parse text = .ok query)
    (names : Fragment.Everywhere Fragment.NamesKept (.query query)) :
    (query.IsStable ↔ Fragment.Everywhere Fragment.SignsApart (.query query)) ∧
      (query.IsStable ↔ Query.parse query.text = .ok query) := by
  have grammatical := Query.grammatical_of_parse parsed
  have apart := Query.signsApart_of_stable grammatical names
  have reread (signs : Fragment.Everywhere Fragment.SignsApart (.query query)) :
      Query.parse query.text = .ok query :=
    Query.parse_text <| grammatical.and fun fragment within =>
      Fragment.restorable_of_kept (signs fragment within) (names fragment within)
  have stable (same : Query.parse query.text = .ok query) : query.IsStable := ⟨query, same, rfl⟩
  exact ⟨⟨apart, fun signs => stable (reread signs)⟩, fun known => reread (apart known), stable⟩

/-- `SELECT a-<right> FROM t.2 x WHERE CAST(a AS CHAR) = :p` -/
def differenceQuery (right : Expr) : Query :=
  .single { Select.simple (.items [⟨.binary .subtract (.named "a") right, none⟩])
      (.table ⟨"t.2", some ⟨"x", none⟩⟩) with
    filter := some (.equals (.cast (.named "a") (.physical "CHAR")) (.parameter "p")) }

theorem canonical_text_stable_difference :
    (Query.parse "select a - +(-1) from t.2 as x where cast(a as char) = :p" =
        .ok (differenceQuery (.unary .plus (.nested (.literal (.number "-1"))))) ∧
      (differenceQuery (.unary .plus (.nested (.literal (.number "-1"))))).IsStable) ∧
    Query.parse "select a - -1 from t.2 as x where cast(a as char) = :p" =
        .ok (differenceQuery (.literal (.number "-1"))) ∧
      ¬ (differenceQuery (.literal (.number "-1"))).IsStable := by
  have parsed : Query.parse "select a - +(-1) from t.2 as x where cast(a as char) = :p" =
      .ok (differenceQuery (.unary .plus (.nested (.literal (.number "-1"))))) := by decide +kernel
  have also : Query.parse "select a - -1 from t.2 as x where cast(a as char) = :p" =
      .ok (differenceQuery (.literal (.number "-1"))) := by decide +kernel
  exact ⟨⟨parsed, (canonical_text_stable _ _ parsed (by decide +kernel)).1.mpr (by decide +kernel)⟩,
    also, fun stable =>
      absurd ((canonical_text_stable _ _ also (by decide +kernel)).1.mp stable) (by decide +kernel)⟩

/-- A minus in front of a minus, a placeholder and a type that need their quotes, an alias that is reserved,
and a version with a second point. -/
def refusedTexts : List String :=
  ["select - -a from t", "select :\"a b c\" from t", "select cast(a as \"b c\") from t",
    "select a from t as where", "select a from t . 1.2"]

/-- Texts that are read, but whose canonical text is not, and one whose canonical text is read as another
query. -/
theorem canonical_text_lost :
    (∀ text ∈ refusedTexts, ∃ query, Query.parse text = .ok query ∧
      ∀ again, Query.parse query.text ≠ .ok again) ∧
    ∃ query again, Query.parse "select :\"a b\" from t" = .ok query ∧
      Query.parse query.text = .ok again ∧ query.text = "SELECT :a b FROM t" ∧
        again.text = "SELECT :a AS b FROM t" := by
  have refused : ∀ text ∈ refusedTexts, (Query.parse text).toOption.map (fun query =>
      (Query.parse query.text).toOption.isNone) = some true := by decide +kernel
  have changed : (Query.parse "select :\"a b\" from t").toOption.map (fun query =>
      (query.text, (Query.parse query.text).toOption.map Query.text)) =
        some ("SELECT :a b FROM t", some "SELECT :a AS b FROM t") := by decide +kernel
  constructor
  · intro text listed
    obtain ⟨query, parsed, none⟩ := Except.of_shown (refused text listed)
    refine ⟨query, parsed, fun again reread => ?_⟩
    rw [reread] at none
    cases none
  · obtain ⟨query, parsed, view⟩ := Except.of_shown changed
    obtain ⟨written, view⟩ := Prod.mk.inj view
    obtain ⟨again, reread, other⟩ := Except.of_shown view
    exact ⟨query, again, parsed, reread, written, other⟩

end TabularSql
