import ChartTemplate.Proofs.Spec.Verified
import ChartTemplate.Proofs.Table.Views

/-!
# What is bound where no column is named

The rows of a table that was read have cells for its columns and no others (`Table.Built.get?_eq_none`).
So a source field that holds a text other than the name of a column fills its field with nulls. A source
field that holds no text stands for the column without a name, which a table may have:
`Table.Built.bindings_fallback` says what each of them fills in.
-/

namespace ChartTemplate

open Entries (keys get?)

namespace Table

variable {t : Table}

/-! ## Cells of other names -/

theorem Built.get?_eq_none (hbuilt : t.Built) {name : String} (hname : name ∉ t.names) {r : Row}
    (hr : r ∈ t.rows) : r.get? name = none :=
  Entries.get?_eq_none_iff.2 fun hkey => hname ((hbuilt.rowsFor.mem_keys r hr name).1 hkey)

end Table

/-! ## Fallbacks -/

def nullColumn (t : Table) : Json :=
  .arr (List.replicate t.rows.length .null)

theorem columnOf_eq_nullColumn_iff (t : Table) (name : String) :
    columnOf t name = nullColumn t ↔
      ∀ r ∈ t.rows, ∀ cell, r.get? name = some cell → cell.toJson = .null := by
  have hnull (r : Row) : ((r.get? name).getD .null).toJson = .null ↔
      ∀ cell, r.get? name = some cell → cell.toJson = .null := by
    cases r.get? name with
    | none => simp [Cell.toJson]
    | some cell => simp
  rw [columnOf, nullColumn, Json.arr.injEq, List.eq_replicate_iff, List.length_map]
  simp [hnull]

/-- **Binding what names no column.** A source field that does not hold the name of a column fills its
field with a null for each row exactly if it holds a text, or no row has anything to show in a column
without a name. If it holds no text, it fills in that column. -/
theorem Table.Built.bindings_fallback {t : Table} (hbuilt : t.Built) {spec : Json}
    (hspec : spec.Distinct) :
    ∃ made, bindRun spec t = some (made, bind spec t) ∧
      ∀ b ∈ made, ∃ held, b.held = some held ∧ ((∀ name ∈ t.names, held ≠ .str name) →
        (b.vector = some (nullColumn t) ↔ (∃ text, held = .str text) ∨
          ∀ r ∈ t.rows, ∀ cell, r.get? "" = some cell → cell.toJson = .null) ∧
        ((∀ text, held ≠ .str text) → b.vector = some (columnOf t ""))) := by
  rw [bind_eq t hspec, bindRun_eq t hspec]
  refine ⟨_, rfl, fun b hb => ?_⟩
  obtain ⟨m, -, hb⟩ := List.mem_flatMap.1 hb
  obtain ⟨base, -, rfl⟩ := Option.map_eq_some_iff.1 (Option.mem_toList.1 hb)
  refine ⟨m.value, rfl, fun hcolumn => ?_⟩
  dsimp only
  rw [Option.some.injEq, columnOf_eq_nullColumn_iff]
  match hvalue : m.value with
  | .str text =>
    have htext : text ∉ t.names := fun htext => hcolumn text htext hvalue
    have hnone : ∀ r ∈ t.rows, ∀ cell, r.get? text = some cell → cell.toJson = .null := by
      intro r hr cell hcell
      rw [hbuilt.get?_eq_none htext hr] at hcell
      cases hcell
    exact ⟨iff_of_true hnone (.inl ⟨text, rfl⟩), fun h => absurd rfl (h text)⟩
  | .null | .bool _ | .num _ | .arr _ | .obj _ =>
    refine ⟨?_, fun _ => rfl⟩
    simp [columnNamed]

/-- A table with a column without a name. -/
def nameless : Table where
  columns := [⟨"", 0, none⟩]
  rows := [⟨[("", .text "North")], some "row:0"⟩]
  distinct := by decide
  covered := by decide

theorem built_nameless : nameless.Built :=
  .json (.arr [.obj [("", .str "North")]]) rfl

/-- Source fields with an unknown name and with no name at all. -/
def misnamedChart : Json :=
  .obj [("xSrc", .str "Region"), ("ySrc", .num (.int 5))]

theorem distinct_misnamedChart : misnamedChart.Distinct := by
  simp [misnamedChart, DistinctMembers, Json.Distinct]

/-- The unknown name is bound to a null. -/
theorem bindings_misnamedChart :
    nameless.Built ∧ misnamedChart.Distinct ∧
      (∃ made, bindRun misnamedChart nameless = some (made, bind misnamedChart nameless) ∧
        ∀ b ∈ made, ∃ held, b.held = some held ∧ ((∀ name ∈ nameless.names, held ≠ .str name) →
          (b.vector = some (nullColumn nameless) ↔ (∃ text, held = .str text) ∨
            ∀ r ∈ nameless.rows, ∀ cell, r.get? "" = some cell → cell.toJson = .null) ∧
          ((∀ text, held ≠ .str text) → b.vector = some (columnOf nameless "")))) ∧
      (bindRun misnamedChart nameless).map (·.1.map Binding.vector) =
        some [some (.arr [.null]), some (.arr [.str "North"])] := by
  refine ⟨built_nameless, distinct_misnamedChart,
    built_nameless.bindings_fallback distinct_misnamedChart, ?_⟩
  rw [bindRun_eq nameless distinct_misnamedChart]
  rfl

/-- A number is no name of a column, but it is bound to the column without a name. -/
theorem number_binds_nameless :
    nameless.Built ∧ bind (.obj [("xSrc", .num (.int 5))]) nameless =
      .obj [("xSrc", .num (.int 5)), ("options", .obj []), ("series", .arr []),
        ("x", .arr [.str "North"])] := by
  have hspec : (Json.obj [("xSrc", .num (.int 5))]).Distinct := by
    simp [DistinctMembers, Json.Distinct]
  exact ⟨built_nameless, (bind_eq nameless hspec).trans rfl⟩

end ChartTemplate
