import ChartTemplate.Proofs.Spec.Fallback
import ChartTemplate.Proofs.Table.Checks

/-!
# When a table can be read

`Table.ofJson` and `Table.ofRaw` go over their input row by row and stop at the first thing that does
not fit. `errorOf?` is the error of a computation, and of a row or of rows it is the first error in them
(`errorOf?_step`), so each function has one equation that says in which order it looks:

* `errorOf?_objectRows`: the first cell that is an array or object, row by row and in each row in the
  order of the columns;
* `errorOf?_rawRows`: the first row that has the wrong width or such a cell.

What the rows hold is said by `Table.HoldsObjects` and `Table.HoldsData`, and the last checks find
nothing but repeated names, since all rows are complete.
-/

namespace ChartTemplate

open Entries (keys get?)

/-! ## Errors of steps -/

section Errors

variable {ε α β γ : Type} {x : Except ε α} {e : ε}

def errorOf? : Except ε α → Option ε
  | .ok _ => none
  | .error e => some e

theorem errorOf?_eq_some_iff : errorOf? x = some e ↔ x = .error e := by
  cases x <;> simp [errorOf?]

theorem errorOf?_eq_none_iff : errorOf? x = none ↔ ∃ a, x = .ok a := by
  cases x <;> simp [errorOf?]

theorem errorOf?_step (x : Except ε α) (y : Except ε β) (g : α → β → γ) :
    errorOf? (do
      let a ← x
      let b ← y
      pure (g a b)) = (errorOf? x).or (errorOf? y) := by
  cases x <;> cases y <;> rfl

end Errors

theorem errorOf?_ofJson (kind : Option ColumnKind) (j : Json) :
    errorOf? (Cell.ofJson kind j) = if j.isComposite then some (.unsupportedValue j) else none := by
  cases j <;> rfl

namespace Table

variable {columns : List Column} {rows : List Row} {t : Table}

/-! ## Arrays of objects -/

/-- The names of all members of objects, in the order in which they first come. -/
def memberNames (items : List Members) : List String :=
  (items.flatMap keys).eraseDups

/-- The members of objects, row by row and in each row in the order of the columns. -/
def memberGrid (items : List Members) : List Json :=
  items.flatMap fun ms => (memberNames items).filterMap (get? ms)

/-- A table of objects: its columns are all their names, and its rows are the objects, with nulls for
the members that they lack. -/
structure HoldsObjects (t : Table) (items : List Members) : Prop where
  names_eq : t.names = memberNames items
  untyped : ∀ (k : Nat) (c : Column), t.columns[k]? = some c → c.index = k ∧ c.kind = none
  rows_hold : List.Forall₂ (fun ms r => ∀ name ∈ t.names, r.get? name = cellUnder ms name) items t.rows
  numbered : Numbered 0 t.rows

theorem objects_eq_ok_iff {js : List Json} {items : List Members} :
    objects js = .ok items ↔ js = items.map Json.obj := by
  induction js generalizing items with
  | nil =>
    cases items with
    | nil => exact iff_of_true rfl rfl
    | cons ms items => exact iff_of_false (fun h => by cases h) (fun h => by cases h)
  | cons j js ih =>
    cases j with
    | obj ms =>
      constructor
      · intro h
        obtain ⟨rest, hrest, h⟩ := exists_of_bind_eq_ok h
        cases h
        rw [ih.1 hrest, List.map_cons]
      · intro h
        cases items with
        | nil => cases h
        | cons m items =>
          obtain ⟨hm, hjs⟩ := List.cons.inj h
          cases hm
          rw [objects, ih.2 hjs]
          rfl
    | _ =>
      refine iff_of_false (fun h => by cases h) ?_
      intro h
      cases items with
      | nil => cases h
      | cons m items => cases (List.cons.inj h).1

theorem objects_eq_error {js : List Json} {e : TableError} (h : objects js = .error e) :
    e = .notAnArray := by
  induction js with
  | nil => cases h
  | cons j js ih =>
    cases j with
    | obj ms => exact ih ((bind_pure_eq_error_iff _ _).1 h)
    | _ =>
      cases h
      rfl

/-! ### Columns -/

theorem nodup_addNames {names : List String} (h : names.Nodup) (new : List String) :
    (addNames names new).Nodup := by
  induction new generalizing names with
  | nil => exact h
  | cons n new ih =>
    refine ih ?_
    dsimp only
    split
    · exact h
    · rename_i hn
      have hdisjoint : List.Disjoint names [n] := List.disjoint_singleton.2 (by simpa using hn)
      exact h.append (List.nodup_singleton n) hdisjoint

theorem addNames_eq (names new : List String) :
    addNames names new = names ++ (new.filter fun n => n ∉ names).eraseDups := by
  induction new generalizing names with
  | nil => simp [addNames]
  | cons n new ih =>
    by_cases hn : n ∈ names
    · have hstep : addNames names (n :: new) = addNames names new := by simp [addNames, hn]
      rw [hstep, ih]
      simp [hn]
    · have hstep : addNames names (n :: new) = addNames (names ++ [n]) new := by simp [addNames, hn]
      have hfilter : (new.filter fun m => m ∉ names ++ [n]) =
          (new.filter fun m => m ∉ names).filter fun m => !m == n := by
        rw [List.filter_filter]
        refine List.filter_congr fun m _ => ?_
        by_cases hm : m ∈ names <;> by_cases hmn : m = n <;> simp [hm, hmn]
      rw [hstep, ih, hfilter]
      simp [hn, List.eraseDups_cons]

theorem foldl_addNames (items : List Members) :
    items.foldl (fun acc ms => addNames acc (keys ms)) [] = memberNames items := by
  have hall : items.foldl (fun acc ms => addNames acc (keys ms)) [] =
      addNames [] (items.flatMap keys) := by
    rw [addNames, List.foldl_flatMap]
    rfl
  rw [hall, addNames_eq, memberNames]
  simp

theorem nodup_memberNames (items : List Members) : (memberNames items).Nodup := by
  have h := nodup_addNames List.nodup_nil (items.flatMap keys)
  rw [addNames_eq] at h
  simpa [memberNames] using h

theorem mem_memberNames {items : List Members} {name : String} :
    name ∈ memberNames items ↔ ∃ ms ∈ items, name ∈ keys ms := by
  rw [memberNames, List.mem_eraseDups, List.mem_flatMap]

theorem names_untypedColumns (i : Nat) (names : List String) :
    (untypedColumns i names).map Column.name = names := by
  induction names generalizing i with
  | nil => rfl
  | cons n names ih => rw [untypedColumns, List.map_cons, ih]

theorem untypedColumns_plain {i k : Nat} {names : List String} {c : Column}
    (h : (untypedColumns i names)[k]? = some c) : c.index = i + k ∧ c.kind = none := by
  induction names generalizing i k with
  | nil => simp [untypedColumns] at h
  | cons n names ih =>
    cases k with
    | zero =>
      obtain rfl : (⟨n, i, none⟩ : Column) = c := by simpa [untypedColumns] using h
      exact ⟨rfl, rfl⟩
    | succ k =>
      obtain ⟨hindex, hkind⟩ := ih h
      exact ⟨by omega, hkind⟩

/-! ### Rows -/

theorem errorOf?_objectCells (ms : Members) (columns : List Column) :
    errorOf? (objectCells ms columns) =
      (((columns.map Column.name).filterMap (get? ms)).find? Json.isComposite).map
        .unsupportedValue := by
  induction columns with
  | nil => rfl
  | cons c columns ih =>
    rw [objectCells, errorOf?_step, ih, errorOf?_ofJson, List.map_cons]
    cases hget : get? ms c.name with
    | none => simp [hget, Json.isComposite]
    | some v => cases hv : v.isComposite <;> simp [hget, hv]

theorem errorOf?_objectRows (columns : List Column) (i : Nat) (items : List Members) :
    errorOf? (objectRows columns i items) =
      ((items.flatMap fun ms => (columns.map Column.name).filterMap (get? ms)).find?
        Json.isComposite).map .unsupportedValue := by
  induction items generalizing i with
  | nil => rfl
  | cons ms items ih =>
    rw [objectRows, errorOf?_step, errorOf?_objectCells, ih, List.flatMap_cons, List.find?_append,
      Option.map_or]

theorem covers_objectRows {i : Nat} {items : List Members}
    (h : objectRows columns i items = .ok rows) : Covers columns rows :=
  (rowsMade_objectRows h).covers fun _ _ hcells => (objectCells_eq_ok hcells).1

theorem get?_of_objectCells (hnodup : (columns.map Column.name).Nodup) {ms : Members} {r : Row}
    (h : ∃ cells, objectCells ms columns = .ok cells ∧ r.cells = Entries.ofList cells) {name : String}
    (hname : name ∈ columns.map Column.name) : r.get? name = cellUnder ms name := by
  obtain ⟨cells, hcells, hr⟩ := h
  obtain ⟨hkeys, hvalues⟩ := objectCells_eq_ok hcells
  rw [← hkeys] at hnodup hname
  rw [Row.get?, hr, Entries.ofList_eq_self hnodup]
  obtain ⟨cell, hcell⟩ := Option.isSome_iff_exists.1 (Entries.get?_isSome_iff.2 hname)
  rw [hcell, hvalues _ (Entries.mem_of_get? hcell)]

/-! ### Outcomes -/

theorem ofJson_objects (items : List Members) :
    ofJson (.arr (items.map Json.obj)) =
      objectRows (untypedColumns 0 (memberNames items)) 0 items >>=
        make (untypedColumns 0 (memberNames items)) := by
  rw [ofJson, objects_eq_ok_iff.2 rfl, ok_bind, foldl_addNames]

theorem ofJson_objects_eq_error_iff {items : List Members} {e : TableError} :
    ofJson (.arr (items.map Json.obj)) = .error e ↔
      ∃ v, e = .unsupportedValue v ∧ (memberGrid items).find? Json.isComposite = some v := by
  have hrows := errorOf?_objectRows (untypedColumns 0 (memberNames items)) 0 items
  rw [names_untypedColumns] at hrows
  rw [ofJson_objects, bind_eq_error_iff, ← errorOf?_eq_some_iff, hrows, or_iff_left]
  · rw [Option.map_eq_some_iff, memberGrid]
    exact exists_congr fun v => by rw [and_comm, eq_comm]
  · rintro ⟨rows, hrows, hmake⟩
    obtain ⟨name, -, hname⟩ := (make_eq_error_iff (covers_objectRows hrows)).1 hmake
    rw [names_untypedColumns] at hname
    exact hname.not_nodup (nodup_memberNames items)

theorem find?_memberGrid_eq_none_iff {items : List Members} :
    (memberGrid items).find? Json.isComposite = none ↔
      ∀ ms ∈ items, ∀ name v, get? ms name = some v → v.isComposite = false := by
  rw [List.find?_eq_none]
  constructor
  · intro h ms hms name v hv
    have hname : name ∈ memberNames items := by
      refine mem_memberNames.2 ⟨ms, hms, Entries.get?_isSome_iff.1 ?_⟩
      rw [hv, Option.isSome_some]
    simpa using h v (List.mem_flatMap.2 ⟨ms, hms, List.mem_filterMap.2 ⟨name, hname, hv⟩⟩)
  · intro h v hv
    obtain ⟨ms, hms, hv⟩ := List.mem_flatMap.1 hv
    obtain ⟨name, -, hv⟩ := List.mem_filterMap.1 hv
    simp [h ms hms name v hv]

theorem holdsObjects_of_ofJson {items : List Members}
    (h : ofJson (.arr (items.map Json.obj)) = .ok t) : t.HoldsObjects items := by
  have hnumbered : Numbered 0 t.rows := (Built.json _ h).rowsFor.numbered
  rw [ofJson_objects] at h
  obtain ⟨rows, hrows, hmake⟩ := exists_of_bind_eq_ok h
  obtain ⟨hnodup, -, hcolumns, hr⟩ := make_eq_ok_iff.1 hmake
  have hnames : t.names = memberNames items := by rw [names, hcolumns, names_untypedColumns]
  refine ⟨hnames, ?_, ?_, hnumbered⟩
  · intro k c hc
    rw [hcolumns] at hc
    simpa using untypedColumns_plain hc
  · rw [hr]
    refine (rowsMade_objectRows hrows).forall₂.imp fun ms r hcells name hname => ?_
    refine get?_of_objectCells hnodup hcells ?_
    rwa [names_untypedColumns, ← hnames]

/-! ## Positional rows -/

/-- What is wrong with the `i`th positional row: its width, or else its first array or object. -/
def rowFault? (columns : List Column) (i : Nat) (js : List Json) : Option TableError :=
  if js.length ≠ columns.length then some (.rowWidth i js.length columns.length)
  else (js.find? Json.isComposite).map .unsupportedValue

/-- What is wrong with the first positional row that does not fit. -/
def firstFault? (columns : List Column) (data : List (List Json)) : Option TableError :=
  data.zipIdx.findSome? fun p => rowFault? columns p.2 p.1

/-- A table of positional rows: its cells are theirs, read as their columns say. -/
structure HoldsData (t : Table) (columns : List Column) (data : List (List Json)) : Prop where
  columns_eq : t.columns = columns
  rows_hold : List.Forall₂ (fun js r =>
    List.Forall₂ (fun (c : Column) v => r.get? c.name = Cell.ofJson? c.kind v) columns js) data t.rows
  numbered : Numbered 0 t.rows

theorem errorOf?_rawCells {columns : List Column} {js : List Json} (h : js.length = columns.length) :
    errorOf? (rawCells columns js) = (js.find? Json.isComposite).map .unsupportedValue := by
  induction columns generalizing js with
  | nil =>
    obtain rfl := List.length_eq_zero_iff.1 h
    rfl
  | cons c columns ih =>
    cases js with
    | nil => cases h
    | cons j js =>
      rw [rawCells, errorOf?_step, ih (Nat.succ.inj h), errorOf?_ofJson]
      cases hj : j.isComposite <;> simp [hj]

theorem errorOf?_rawRows (columns : List Column) (i : Nat) (data : List (List Json)) :
    errorOf? (rawRows columns i data) =
      (data.zipIdx i).findSome? fun p => rowFault? columns p.2 p.1 := by
  induction data generalizing i with
  | nil => rfl
  | cons js data ih =>
    rw [rawRows, List.zipIdx_cons, List.findSome?_cons, rowFault?]
    by_cases hwidth : js.length = columns.length
    · simp only [hwidth, ne_eq, not_true, if_false]
      show errorOf? (do
        let cells ← rawCells columns js
        let rows ← rawRows columns (i + 1) data
        pure (⟨Entries.ofList cells, some (selectionName i)⟩ :: rows)) = _
      rw [errorOf?_step, errorOf?_rawCells hwidth, ih]
      cases js.find? Json.isComposite <;> rfl
    · simp only [ne_eq, hwidth, not_false_eq_true, if_true]
      rfl

theorem covers_rawRows {i : Nat} {data : List (List Json)} (h : rawRows columns i data = .ok rows) :
    Covers columns rows :=
  (rowsMade_rawRows h).covers fun _ _ hcells => (rawCells_eq_ok hcells.1 hcells.2).1

theorem ofRaw_eq_error_iff {data : List (List Json)} {e : TableError} :
    ofRaw columns data = .error e ↔
      firstFault? columns data = some e ∨ firstFault? columns data = none ∧
        ∃ name, e = .duplicateColumn name ∧ ComesTwice (columns.map Column.name) name := by
  rw [ofRaw, bind_eq_error_iff, firstFault?, ← errorOf?_rawRows, errorOf?_eq_some_iff,
    errorOf?_eq_none_iff]
  refine or_congr_right ⟨?_, ?_⟩
  · rintro ⟨rows, hrows, hmake⟩
    exact ⟨⟨rows, hrows⟩, (make_eq_error_iff (covers_rawRows hrows)).1 hmake⟩
  · rintro ⟨⟨rows, hrows⟩, hname⟩
    exact ⟨rows, hrows, (make_eq_error_iff (covers_rawRows hrows)).2 hname⟩

theorem holdsData_of_ofRaw {data : List (List Json)} (h : ofRaw columns data = .ok t) :
    t.HoldsData columns data := by
  have hnumbered : Numbered 0 t.rows := (Built.raw _ _ h).rowsFor.numbered
  obtain ⟨rows, hrows, hmake⟩ := exists_of_bind_eq_ok h
  obtain ⟨hnodup, -, hcolumns, hr⟩ := make_eq_ok_iff.1 hmake
  refine ⟨hcolumns, ?_, hnumbered⟩
  rw [hr]
  refine (rowsMade_rawRows hrows).forall₂.imp ?_
  rintro js r ⟨cells, ⟨hwidth, hcells⟩, hr⟩
  obtain ⟨hkeys, hvalues⟩ := rawCells_eq_ok hwidth hcells
  rw [← hkeys] at hnodup
  refine hvalues.imp ?_
  rintro c v ⟨cell, hmem, hv⟩
  rw [Row.get?, hr, Entries.ofList_eq_self hnodup, Entries.get?_of_mem hnodup hmem, hv]

theorem exists_ofRaw_iff {data : List (List Json)} :
    (∃ t, ofRaw columns data = .ok t) ↔
      firstFault? columns data = none ∧ (columns.map Column.name).Nodup := by
  rw [firstFault?, ← errorOf?_rawRows, errorOf?_eq_none_iff]
  constructor
  · rintro ⟨t, h⟩
    obtain ⟨rows, hrows, hmake⟩ := exists_of_bind_eq_ok h
    exact ⟨⟨rows, hrows⟩, (make_eq_ok_iff.1 hmake).1⟩
  · rintro ⟨⟨rows, hrows⟩, hnodup⟩
    obtain ⟨t, hmake, -⟩ := exists_make hnodup (covers_rawRows hrows)
    refine ⟨t, ?_⟩
    rw [ofRaw, hrows, ok_bind, hmake]

/-! ## Main statement -/

theorem ofJson_eq_notAnArray_iff (j : Json) :
    ofJson j = .error .notAnArray ↔ ∀ items : List Members, j ≠ .arr (items.map Json.obj) := by
  constructor
  · rintro h items rfl
    obtain ⟨v, hv, -⟩ := ofJson_objects_eq_error_iff.1 h
    cases hv
  · intro h
    cases j with
    | arr js =>
      cases hjs : objects js with
      | ok items => exact absurd (by rw [objects_eq_ok_iff.1 hjs]) (h items)
      | error e =>
        obtain rfl := objects_eq_error hjs
        show (objects js >>= _) = _
        rw [hjs]
        rfl
    | _ => rfl

theorem ofJson_eq_error {j : Json} {e : TableError} (h : ofJson j = .error e) :
    e = .notAnArray ∨ ∃ v, e = .unsupportedValue v := by
  by_cases hj : ∃ items : List Members, j = .arr (items.map Json.obj)
  · obtain ⟨items, rfl⟩ := hj
    obtain ⟨v, hv, -⟩ := ofJson_objects_eq_error_iff.1 h
    exact .inr ⟨v, hv⟩
  · rw [(ofJson_eq_notAnArray_iff j).2 (not_exists.1 hj)] at h
    cases h
    exact .inl rfl

theorem exists_ofJson_iff {items : List Members} :
    (∃ t, ofJson (.arr (items.map Json.obj)) = .ok t) ↔
      ∀ ms ∈ items, ∀ name v, get? ms name = some v → v.isComposite = false := by
  rw [← find?_memberGrid_eq_none_iff, ← errorOf?_eq_none_iff, Option.eq_none_iff_forall_ne_some,
    Option.eq_none_iff_forall_ne_some]
  simp only [ne_eq, errorOf?_eq_some_iff, ofJson_objects_eq_error_iff]
  constructor
  · intro h v hv
    exact h _ ⟨v, rfl, hv⟩
  · rintro h e ⟨v, -, hv⟩
    exact h v hv

theorem missingValue_ne_rowFault? (columns : List Column) (i : Nat) (js : List Json) (row : Nat)
    (name : String) : rowFault? columns i js ≠ some (.missingValue row name) := by
  unfold rowFault?
  split <;> simp

theorem ofRaw_ne_missingValue (columns : List Column) (data : List (List Json)) (row : Nat)
    (name : String) : ofRaw columns data ≠ .error (.missingValue row name) := by
  intro h
  rcases ofRaw_eq_error_iff.1 h with h | ⟨-, other, h, -⟩
  · obtain ⟨p, -, hp⟩ := List.exists_of_findSome?_eq_some h
    exact missingValue_ne_rowFault? columns p.2 p.1 row name hp
  · cases h

/-- **When a table can be read.** A document is not an array of objects exactly if it is no array or an
item is no object. Otherwise the first cell that is an array or object is refused, row by row and in each
row in the order of the columns, and if there is none, the table holds the objects. Of positional rows
the first that has the wrong width or an array or object is refused, then the first column name that
comes twice, and otherwise the table holds their cells. No other error comes out. -/
theorem outcomes :
    (∀ j, ofJson j = .error .notAnArray ↔ ∀ items : List Members, j ≠ .arr (items.map Json.obj)) ∧
    (∀ items v, ofJson (.arr (items.map Json.obj)) = .error (.unsupportedValue v) ↔
      (memberGrid items).find? Json.isComposite = some v) ∧
    (∀ items, (∃ t, ofJson (.arr (items.map Json.obj)) = .ok t ∧ t.HoldsObjects items) ↔
      ∀ ms ∈ items, ∀ name v, get? ms name = some v → v.isComposite = false) ∧
    (∀ j e, ofJson j = .error e → e = .notAnArray ∨ ∃ v, e = .unsupportedValue v) ∧
    (∀ columns data e, ofRaw columns data = .error e ↔
      firstFault? columns data = some e ∨ firstFault? columns data = none ∧
        ∃ name, e = .duplicateColumn name ∧ ComesTwice (columns.map Column.name) name) ∧
    (∀ columns data, (∃ t, ofRaw columns data = .ok t ∧ t.HoldsData columns data) ↔
      firstFault? columns data = none ∧ (columns.map Column.name).Nodup) ∧
    ∀ columns data row name, ofRaw columns data ≠ .error (.missingValue row name) := by
  refine ⟨ofJson_eq_notAnArray_iff, ?_, ?_, fun _ _ => ofJson_eq_error, fun _ _ _ => ofRaw_eq_error_iff,
    ?_, ofRaw_ne_missingValue⟩
  · intro items v
    rw [ofJson_objects_eq_error_iff]
    simp
  · intro items
    rw [← exists_ofJson_iff]
    exact exists_congr fun t => and_iff_left_of_imp holdsObjects_of_ofJson
  · intro columns data
    rw [← exists_ofRaw_iff]
    exact exists_congr fun t => and_iff_left_of_imp holdsData_of_ofRaw

/-- The columns decide which cell of a row comes first, not the row itself. -/
example : ofJson (.arr [.obj [("a", .null)], .obj [("b", .arr []), ("a", .obj [])]]) =
    .error (.unsupportedValue (.obj [])) := rfl

end Table

end ChartTemplate
