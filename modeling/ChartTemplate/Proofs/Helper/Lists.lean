import Mathlib
import ChartTemplate.Helper.Call
import ChartTemplate.Proofs.Json.Quoted
import ChartTemplate.Proofs.Numeric.Order

/-!
# Helpers that list texts

`column`, `distinct`, `select` and `jsonArray` answer with texts in quotes. `Helper.parse?_lists_iff`
says what JSON reads in their answers: the texts, exactly if all of them are plain. The texts of
`distinct` are those of the values that no earlier one equals (`distinct_eq_firstSeen`), since equality
without coercion is transitive.
-/

namespace ChartTemplate

/-! ## Values that no earlier one equals -/

namespace Value

theorem strictEq_trans {u v w : Value} (huv : u.strictEq v = true) (hvw : v.strictEq w = true) :
    u.strictEq w = true := by
  cases u with
  | number x =>
    cases v with
    | number y =>
      cases w with
      | number z => exact Float.beq_trans huv hvw
      | _ => cases hvw
    | _ => cases huv
  | _ =>
    cases v <;> cases w <;> simp_all [strictEq]

/-- The values that no earlier one equals, in order. -/
def firstSeen (vs : List Value) : List Value :=
  (vs.zipIdx.filter fun p => !(vs.take p.2).any fun u => u.strictEq p.1).map Prod.fst

theorem firstSeen_concat (vs : List Value) (v : Value) :
    firstSeen (vs ++ [v]) =
      if vs.any fun u => u.strictEq v then firstSeen vs else firstSeen vs ++ [v] := by
  have hearlier : (vs.zipIdx.filter fun p => !((vs ++ [v]).take p.2).any fun u => u.strictEq p.1) =
      vs.zipIdx.filter fun p => !(vs.take p.2).any fun u => u.strictEq p.1 := by
    refine List.filter_congr fun p hp => ?_
    have hlt : p.2 < vs.length := by simpa using (List.mem_zipIdx hp).2.1
    rw [List.take_append_of_le_length hlt.le]
  rw [firstSeen, List.zipIdx_append, List.filter_append, hearlier, List.map_append, ← firstSeen]
  cases hany : vs.any fun u => u.strictEq v <;> simp [hany]

theorem distinct_concat (vs : List Value) (v : Value) :
    distinct (vs ++ [v]) =
      if (distinct vs).any fun u => u.strictEq v then distinct vs else distinct vs ++ [v] := by
  rw [distinct, List.foldl_append]
  rfl

theorem any_distinct (vs : List Value) (v : Value) :
    ((distinct vs).any fun u => u.strictEq v) = vs.any fun u => u.strictEq v := by
  induction vs using List.reverseRecOn with
  | nil => rfl
  | append_singleton vs w ih =>
    rw [distinct_concat]
    split
    · rename_i hseen
      rw [ih, List.any_append, List.any_cons, List.any_nil, Bool.or_false, eq_comm,
        Bool.or_eq_left_iff_imp]
      intro hw
      rw [← ih]
      obtain ⟨u, hu, huw⟩ := List.any_eq_true.1 hseen
      exact List.any_eq_true.2 ⟨u, hu, strictEq_trans huw hw⟩
    · rw [List.any_append, List.any_append, ih]

theorem distinct_eq_firstSeen (vs : List Value) : distinct vs = firstSeen vs := by
  induction vs using List.reverseRecOn with
  | nil => rfl
  | append_singleton vs v ih => rw [distinct_concat, firstSeen_concat, any_distinct, ih]

end Value

/-! ## Cells of declared columns -/

def Row.value (r : Row) (name : String) : Value :=
  ((r.get? name).getD .null).toValue

theorem Table.columnValues_eq (t : Table) (name : String) :
    t.columnValues name = t.rows.map fun r => r.value name := by
  rw [columnValues, column, List.map_map]
  rfl

theorem Table.selectRow_eq {t : Table} {names : List String}
    (hnames : ∀ name ∈ names, t.hasColumn name = true) {r : Row} (hr : r ∈ t.rows) :
    selectRow names r = names.map r.value := by
  refine List.map_congr_left fun name hname => ?_
  obtain ⟨c, hc, hcolumn⟩ := List.any_eq_true.1 (hnames name hname)
  obtain rfl : c.name = name := by simpa using hcolumn
  obtain ⟨cell, hcell⟩ := Option.isSome_iff_exists.1 (t.covered r hr c hc)
  rw [Row.value, Row.get?, hcell]
  rfl

/-! ## Answers that are read again -/

namespace Helper

open Value (toText firstSeen)

variable {σ : Type} [HostServices σ] (t : Table) (s : HelperState σ)

theorem call_column {v : Value} (h : t.hasColumn v.toText = true) (args : List Value) :
    column.call t s (v :: args) =
      pure (s, .text (Value.quotedList (t.rows.map fun r => (r.value v.toText).toText))) := by
  show pure (s, t.columnText v.toText) = _
  rw [Table.columnText, if_pos h, Value.quotedValues, Table.columnValues_eq, List.map_map]
  rfl

theorem call_distinct {v : Value} (h : t.hasColumn v.toText = true) (args : List Value) :
    distinct.call t s (v :: args) =
      pure (s, .text (Value.quotedList
        ((firstSeen (t.rows.map fun r => r.value v.toText)).map toText))) := by
  show pure (s, t.distinctText v.toText) = _
  rw [Table.distinctText, if_pos h, Value.quotedValues, Value.distinct_eq_firstSeen,
    Table.columnValues_eq]

theorem call_select {args : List Value} (h : ∀ v ∈ args, t.hasColumn v.toText = true) :
    select.call t s args =
      pure (s, .text ("[" ++ Value.joinTexts ","
        ((t.rows.map fun r => args.map fun v => (r.value v.toText).toText).map Value.quotedList) ++
          "]")) := by
  have hnames : ∀ name ∈ args.map toText, t.hasColumn name = true := by
    intro name hname
    obtain ⟨v, hv, rfl⟩ := List.mem_map.1 hname
    exact h v hv
  have hmissing : ((args.map toText).filter fun name => !t.hasColumn name) = [] :=
    List.filter_eq_nil_iff.2 fun name hname => by simp [hnames name hname]
  have hrows : (t.rows.map fun r => Value.quotedValues (Table.selectRow (args.map toText) r)) =
      (t.rows.map fun r => args.map fun v => (r.value v.toText).toText).map Value.quotedList := by
    rw [List.map_map]
    refine List.map_congr_left fun r hr => ?_
    rw [Table.selectRow_eq hnames hr, Value.quotedValues, List.map_map, List.map_map]
    rfl
  show pure (s, t.selectText (args.map toText)) = _
  rw [Table.selectText, hmissing, hrows]
  rfl

theorem call_jsonArray {args items : List Value} (h : args.getLast? = some (.array items)) :
    jsonArray.call t s args = pure (s, .text (Value.quotedList (items.map toText))) := by
  have hlast : args.getLastD .undefined = .array items := by
    rw [List.getLastD_eq_getLast?, h, Option.getD_some]
  show (do return (s, .text (Value.quotedValues (← itemsOf jsonArray (args.getLastD .undefined)))) :
    Checked HelperError (HelperState σ × Value)) = _
  rw [hlast]
  rfl

/-- **What JSON reads in lists of texts.** For declared columns, and for the items of an array, the
answer of each helper that lists texts is read as these texts, in order, exactly if all of them are
plain. -/
theorem parse?_lists_iff :
    (∀ v args, t.hasColumn v.toText = true → ∃ text,
      column.call t s (v :: args) = pure (s, .text text) ∧
      (Json.parse? text = some (textsJson (t.rows.map fun r => (r.value v.toText).toText)) ↔
        ∀ r ∈ t.rows, Plain (r.value v.toText).toText)) ∧
    (∀ args items, args.getLast? = some (.array items) → ∃ text,
      jsonArray.call t s args = pure (s, .text text) ∧
      (Json.parse? text = some (textsJson (items.map toText)) ↔ ∀ v ∈ items, Plain v.toText)) ∧
    (∀ v args, t.hasColumn v.toText = true → ∃ text,
      distinct.call t s (v :: args) = pure (s, .text text) ∧
      (Json.parse? text =
          some (textsJson ((firstSeen (t.rows.map fun r => r.value v.toText)).map toText)) ↔
        ∀ u ∈ firstSeen (t.rows.map fun r => r.value v.toText), Plain u.toText)) ∧
    ∀ args, (∀ v ∈ args, t.hasColumn v.toText = true) → ∃ text,
      select.call t s args = pure (s, .text text) ∧
      (Json.parse? text = some (.arr (t.rows.map fun r =>
          textsJson (args.map fun v => (r.value v.toText).toText))) ↔
        ∀ r ∈ t.rows, ∀ v ∈ args, Plain (r.value v.toText).toText) := by
  refine ⟨fun v args h => ⟨_, call_column t s h args, ?_⟩,
    fun args items h => ⟨_, call_jsonArray t s h, ?_⟩,
    fun v args h => ⟨_, call_distinct t s h args, ?_⟩,
    fun args h => ⟨_, call_select t s h, ?_⟩⟩
  · rw [parse?_quotedList_iff, List.forall_mem_map]
  · rw [parse?_quotedList_iff, List.forall_mem_map]
  · rw [parse?_quotedList_iff, List.forall_mem_map]
  · have h := parse?_quotedRows_iff (t.rows.map fun r => args.map fun v => (r.value v.toText).toText)
    simp only [List.forall_mem_map, List.map_map] at h ⊢
    exact h

/-- Offices by region; not of all of them it is known whether they are open. -/
def offices : Table where
  columns := [⟨"Region", 0, none⟩, ⟨"Open", 1, none⟩]
  rows := [⟨[("Region", .text "South"), ("Open", .bool true)], none⟩,
    ⟨[("Open", .null), ("Region", .text "North")], none⟩, ⟨[("Region", .text "South"), ("Open", .null)], none⟩]
  distinct := by decide
  covered := by decide

/-- The regions, once for each office and once each, and the offices themselves. -/
theorem parse?_lists_offices :
    let t := offices
    let s : HelperState := ⟨.empty, .ofColors []⟩
    t.hasColumn "Region" = true ∧ t.hasColumn "Open" = true ∧
    (∃ text, column.call t s [.text "Region"] = pure (s, .text text) ∧
      Json.parse? text = some (textsJson ["South", "North", "South"])) ∧
    (∃ text, jsonArray.call t s [.array [.text "West", .bool false, .null]] = pure (s, .text text) ∧
      Json.parse? text = some (textsJson ["West", "false", "null"])) ∧
    (∃ text, distinct.call t s [.text "Region"] = pure (s, .text text) ∧
      Json.parse? text = some (textsJson ["South", "North"])) ∧
    ∃ text, select.call t s [.text "Open", .text "Region"] = pure (s, .text text) ∧
      Json.parse? text = some (.arr [textsJson ["true", "South"], textsJson ["null", "North"],
        textsJson ["null", "South"]]) := by
  intro t s
  have hregion : t.hasColumn "Region" = true := by decide
  have hopen : t.hasColumn "Open" = true := by decide
  obtain ⟨hcolumn, harray, hdistinct, hselect⟩ := parse?_lists_iff t s
  obtain ⟨text₁, hcall₁, hread₁⟩ := hcolumn (.text "Region") [] hregion
  obtain ⟨text₂, hcall₂, hread₂⟩ := harray [.array [.text "West", .bool false, .null]] _ rfl
  obtain ⟨text₃, hcall₃, hread₃⟩ := hdistinct (.text "Region") [] hregion
  obtain ⟨text₄, hcall₄, hread₄⟩ := hselect [.text "Open", .text "Region"]
    (by decide)
  exact ⟨hregion, hopen, ⟨text₁, hcall₁, hread₁.2 (by decide)⟩, ⟨text₂, hcall₂, hread₂.2 (by decide)⟩,
    ⟨text₃, hcall₃, hread₃.2 (by decide)⟩, ⟨text₄, hcall₄, hread₄.2 (by decide)⟩⟩

def oneCell (cell : String) : Table where
  columns := [⟨"a", 0, none⟩]
  rows := [⟨[("a", .text cell)], none⟩]
  distinct := by decide
  covered := by simp [Entries.get?]

/-- A quote in a text ends it. -/
theorem quotes_are_not_escaped :
    let s : HelperState := ⟨.empty, .ofColors []⟩
    (∃ text, jsonArray.call .empty s [.array [.text "a\"b"]] = pure (s, .text text) ∧
      Json.parse? text = none) ∧
    ∃ text, column.call (oneCell "a\"b") s [.text "a"] = pure (s, .text text) ∧
      Json.parse? text = none :=
  ⟨⟨_, rfl, by cbv⟩, ⟨_, rfl, by cbv⟩⟩

end Helper

end ChartTemplate
