import ChartTemplate.Table.Basic
import Mathlib.Data.List.Nodup

/-!
# What a table is checked for

`Table.make` refuses the first name that comes a second time, and then the first row without a cell for
some column. `Table.make_eq_ok_iff` says what it accepts, and `Table.make_eq_error_iff` what it refuses
when all rows are complete, as they are wherever a table is read.
-/

namespace ChartTemplate.Table

variable {columns : List Column} {rows : List Row} {t : Table}

/-- The first of some names that comes a second time. -/
def ComesTwice (names : List String) (name : String) : Prop :=
  ∃ before after, names = before ++ name :: after ∧ before.Nodup ∧ name ∈ before

theorem ComesTwice.not_nodup {names : List String} {name : String} (h : ComesTwice names name) :
    ¬ names.Nodup := by
  obtain ⟨before, after, rfl, -, hmem⟩ := h
  intro hnodup
  exact (List.nodup_append.1 hnodup).2.2 name hmem name List.mem_cons_self rfl

theorem firstRepeated?_eq_some_iff {seen names : List String} {name : String} :
    firstRepeated? seen names = some name ↔
      ∃ before after, names = before ++ name :: after ∧ before.Nodup ∧ (∀ n ∈ before, n ∉ seen) ∧
        (name ∈ seen ∨ name ∈ before) := by
  induction names generalizing seen with
  | nil => simp [firstRepeated?]
  | cons n names ih =>
    rw [firstRepeated?]
    by_cases hn : n ∈ seen
    · rw [if_pos (by simpa using hn), Option.some.injEq]
      constructor
      · rintro rfl
        exact ⟨[], names, rfl, List.nodup_nil, by simp, .inl hn⟩
      · rintro ⟨before, after, heq, -, hbefore, -⟩
        cases before with
        | nil => exact (List.cons.inj heq).1
        | cons b before =>
          obtain ⟨rfl, -⟩ := List.cons.inj heq
          exact absurd hn (hbefore n List.mem_cons_self)
    · rw [if_neg (by simpa using hn), ih]
      constructor
      · rintro ⟨before, after, rfl, hnodup, hbefore, hname⟩
        refine ⟨n :: before, after, rfl, ?_, ?_, ?_⟩
        · exact List.nodup_cons.2 ⟨fun hmem => hbefore n hmem List.mem_cons_self, hnodup⟩
        · intro m hm
          rcases List.mem_cons.1 hm with rfl | hm
          · exact hn
          · exact fun hseen => hbefore m hm (List.mem_cons_of_mem _ hseen)
        · simpa [or_comm, or_assoc, or_left_comm] using hname
      · rintro ⟨before, after, heq, hnodup, hbefore, hname⟩
        cases before with
        | nil =>
          obtain ⟨rfl, -⟩ := List.cons.inj heq
          exact absurd (by simpa using hname) hn
        | cons b before =>
          obtain ⟨rfl, rfl⟩ := List.cons.inj heq
          rw [List.nodup_cons] at hnodup
          refine ⟨before, after, rfl, hnodup.2, ?_, ?_⟩
          · intro m hm hseen
            rcases List.mem_cons.1 hseen with rfl | hseen
            · exact hnodup.1 hm
            · exact hbefore m (List.mem_cons_of_mem _ hm) hseen
          · simpa [or_comm, or_assoc, or_left_comm] using hname

theorem firstRepeated?_eq_comesTwice {names : List String} {name : String} :
    firstRepeated? [] names = some name ↔ ComesTwice names name := by
  simp [firstRepeated?_eq_some_iff, ComesTwice]

theorem firstRepeated?_eq_none_iff {names : List String} :
    firstRepeated? [] names = none ↔ names.Nodup := by
  constructor
  · exact fun h => (nodup_of_firstRepeated?_eq_none h).1
  · intro hnodup
    by_contra h
    obtain ⟨name, hname⟩ := Option.ne_none_iff_exists'.1 h
    exact (firstRepeated?_eq_comesTwice.1 hname).not_nodup hnodup

def Covers (columns : List Column) (rows : List Row) : Prop :=
  ∀ r ∈ rows, ∀ c ∈ columns, (r.get? c.name).isSome

theorem firstGap?_eq_none_iff {i : Nat} :
    firstGap? columns i rows = none ↔ Covers columns rows := by
  constructor
  · exact covered_of_firstGap?_eq_none
  · intro h
    induction rows generalizing i with
    | nil => rfl
    | cons r rows ih =>
      have hfind : columns.find? (fun c => (r.get? c.name).isNone) = none := by
        rw [List.find?_eq_none]
        intro c hc
        have := h r List.mem_cons_self c hc
        simpa [Option.isSome_iff_ne_none] using this
      rw [firstGap?, hfind]
      exact ih fun r' hr' => h r' (List.mem_cons_of_mem _ hr')

theorem make_eq_ok_iff :
    make columns rows = .ok t ↔
      (columns.map Column.name).Nodup ∧ Covers columns rows ∧ t.columns = columns ∧ t.rows = rows := by
  unfold make
  split
  · rename_i name hname
    have hnodup := (firstRepeated?_eq_comesTwice.1 hname).not_nodup
    simp [hnodup]
  · rename_i hnames
    split
    · rename_i i name hgap
      have hcovers : ¬ Covers columns rows := by
        rw [← firstGap?_eq_none_iff (i := 0), hgap]
        simp
      simp [hcovers]
    · rename_i hgap
      have hnodup := firstRepeated?_eq_none_iff.1 hnames
      have hcovers := firstGap?_eq_none_iff.1 hgap
      constructor
      · intro h
        cases h
        exact ⟨hnodup, hcovers, rfl, rfl⟩
      · rintro ⟨-, -, rfl, rfl⟩
        rfl

theorem make_eq_error_iff (hcovers : Covers columns rows) {e : TableError} :
    make columns rows = .error e ↔
      ∃ name, e = .duplicateColumn name ∧ ComesTwice (columns.map Column.name) name := by
  unfold make
  split
  · rename_i name hname
    have htwice := firstRepeated?_eq_comesTwice.1 hname
    constructor
    · intro h
      cases h
      exact ⟨name, rfl, htwice⟩
    · rintro ⟨other, rfl, hother⟩
      rw [firstRepeated?_eq_comesTwice.2 hother] at hname
      rw [Option.some.inj hname]
  · rename_i hnames
    split
    · rename_i i name hgap
      rw [firstGap?_eq_none_iff.2 hcovers] at hgap
      cases hgap
    · have hnodup := firstRepeated?_eq_none_iff.1 hnames
      constructor
      · intro h
        cases h
      · rintro ⟨name, -, hname⟩
        exact absurd hnodup hname.not_nodup

theorem exists_make (hnodup : (columns.map Column.name).Nodup) (hcovers : Covers columns rows) :
    ∃ t, make columns rows = .ok t ∧ t.columns = columns ∧ t.rows = rows :=
  ⟨⟨columns, rows, hnodup, hcovers⟩, make_eq_ok_iff.2 ⟨hnodup, hcovers, rfl, rfl⟩, rfl, rfl⟩

end ChartTemplate.Table
