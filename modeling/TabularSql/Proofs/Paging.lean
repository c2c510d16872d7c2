import TabularSql.Page
import TabularSql.Proofs.Reading.Expr
import TabularSql.Proofs.Sizing

/-!
# Pages of pages

A page inside a window is a window again, and a page inside that page is a page inside the first window:
the offsets add up, and the limit is the smallest of what is left of each. As long as the offset does not
go beyond the largest word, a page has exactly the rows of the window that were asked for.
-/

namespace TabularSql

set_option autoImplicit false

namespace Page

/-! ## Row counts as text -/

theorem rowCount_natural (count : UInt64) : rowCount (.natural count.toNat) = .ok count := by
  simp [rowCount, Expr.natural, Grammar.readUnsigned_decimal]

theorem window_ofCounts (limit : UInt64) (offset : Option UInt64) :
    window (some (ofCounts limit offset)) = .ok (some limit, offset) := by
  have limited : rowCount (ofCounts limit offset).limit = .ok limit := rowCount_natural limit
  have skipped : (ofCounts limit offset).offset.mapM rowCount = .ok offset := by
    cases offset with
    | none => rfl
    | some offset =>
      show some <$> rowCount (.natural offset.toNat) = _
      rw [rowCount_natural]
      rfl
  rw [window, limited, skipped]
  rfl

theorem within_of_window {page : Option Page} {ownLimit ownOffset : Option UInt64}
    (counted : window page = .ok (ownLimit, ownOffset)) (offset limit : UInt64) :
    within page (some offset) (some limit) = .ok (some (ofCounts
      (min limit (Number.subClamped (ownLimit.getD unbounded) offset))
      (some (Number.addClamped (ownOffset.getD 0) offset)))) := by
  simp only [within, counted, Option.getD_some]
  rfl

/-! ## Rows of a window -/

/-- The window has the row, counted from zero over all rows. -/
def Shows (page : Page) (row : Nat) : Prop :=
  ∃ limit offset, window (some page) = .ok (some limit, offset) ∧
    (offset.getD 0).toNat ≤ row ∧ row < (offset.getD 0).toNat + limit.toNat

theorem shows_iff {page : Page} {limit : UInt64} {offset : Option UInt64}
    (counted : window (some page) = .ok (some limit, offset)) (row : Nat) :
    page.Shows row ↔ (offset.getD 0).toNat ≤ row ∧ row < (offset.getD 0).toNat + limit.toNat := by
  constructor
  · rintro ⟨_, _, same, inside⟩
    rw [counted] at same
    cases same
    exact inside
  · exact fun inside => ⟨limit, offset, counted, inside⟩

theorem limit_of_window {page : Page} {ownLimit ownOffset : Option UInt64}
    (counted : window (some page) = .ok (ownLimit, ownOffset)) : ∃ limit, ownLimit = some limit := by
  obtain ⟨limit, _, counted⟩ := Except.of_bind counted
  obtain ⟨offset, _, counted⟩ := Except.of_bind counted
  cases counted
  exact ⟨limit, rfl⟩

theorem counts_compose (ownLimit ownOffset offset limit next most : UInt64) :
    min most (Number.subClamped (min limit (Number.subClamped ownLimit offset)) next) =
        min (min most (Number.subClamped limit next))
          (Number.subClamped ownLimit (Number.addClamped offset next)) ∧
      Number.addClamped (Number.addClamped ownOffset offset) next =
        Number.addClamped ownOffset (Number.addClamped offset next) := by
  have own := Number.toNat_le_largest ownLimit
  constructor
  · apply UInt64.toNat_inj.mp
    simp only [UInt64.toNat_min, Number.toNat_subClamped, Number.toNat_addClamped]
    omega
  · apply UInt64.toNat_inj.mp
    simp only [Number.toNat_addClamped]
    omega

/-- Pages compose and never go beyond the window. For a query without a window, or with one that is made of
row counts, the page inside a page is one page, at the sum of the offsets and with what is left of the limits.
If the query has a window and the sum of its offset and the offset of the page is a word, then the page has
exactly the rows of the window that it asks for, by their position in the window. -/
theorem pages_compose (page : Option Page) (ownLimit ownOffset : Option UInt64)
    (counted : window page = .ok (ownLimit, ownOffset)) (offset limit next most : UInt64) :
    (∃ narrowed,
      (within page (some offset) (some limit) >>= fun first => within first (some next) (some most)) =
        .ok (some narrowed) ∧
      within page (some (Number.addClamped offset next))
          (some (min most (Number.subClamped limit next))) = .ok (some narrowed)) ∧
    ∀ own, page = some own → (ownOffset.getD 0).toNat + offset.toNat < UInt64.size →
      ∃ narrowed, within page (some offset) (some limit) = .ok (some narrowed) ∧
        ∀ row, narrowed.Shows row ↔ own.Shows row ∧
          offset.toNat ≤ row - (ownOffset.getD 0).toNat ∧
          row - (ownOffset.getD 0).toNat < offset.toNat + limit.toNat := by
  constructor
  · obtain ⟨limits, offsets⟩ := counts_compose (ownLimit.getD unbounded) (ownOffset.getD 0) offset limit
      next most
    refine ⟨_, ?_, within_of_window counted _ _⟩
    rw [within_of_window counted]
    show within (some _) (some next) (some most) = _
    rw [within_of_window (window_ofCounts _ _), Option.getD_some, Option.getD_some, limits, offsets]
  · rintro own rfl fits
    obtain ⟨ownLimit, rfl⟩ := limit_of_window counted
    refine ⟨_, within_of_window counted _ _, fun row => ?_⟩
    rw [shows_iff (window_ofCounts _ _), shows_iff counted]
    have largest : Number.largest.toNat + 1 = UInt64.size := rfl
    simp only [Option.getD_some, UInt64.toNat_min, Number.toNat_subClamped, Number.toNat_addClamped]
    omega

/-- The last rows of a window at the end of the range, of which a page asks for more than there are. -/
theorem pages_compose_last :
    let page : Page := .ofCounts 18446744073709551615 (some 9223372036854775808)
    ∃ first second, within (some page) (some 9223372036854775807) (some 20) = .ok (some first) ∧
      within (some first) (some 5) (some 18446744073709551615) = .ok (some second) ∧
      within (some page) (some 9223372036854775812) (some 15) = .ok (some second) ∧
      ∀ row, first.Shows row ↔ page.Shows row ∧
        9223372036854775807 ≤ row - 9223372036854775808 ∧
        row - 9223372036854775808 < 9223372036854775827 := by
  intro page
  obtain ⟨⟨second, twice, once⟩, rows⟩ := pages_compose (some page) _ _
    (window_ofCounts 18446744073709551615 (some 9223372036854775808)) 9223372036854775807 20 5
    18446744073709551615
  obtain ⟨first, paged, shown⟩ := rows page rfl (by decide)
  rw [paged] at twice
  exact ⟨first, second, paged, twice, once, shown⟩

end Page

end TabularSql
