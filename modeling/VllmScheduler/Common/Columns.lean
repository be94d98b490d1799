import Mathlib.Data.List.Basic
/-!
# Columns of a table

The transpose of a table whose rows have one length, column by column.
-/

namespace VllmScheduler

universe u

variable {α : Type u}

/-- Column `j` of a table, with `d` where a row is too short. -/
def column (d : α) (rows : List (List α)) (j : ℕ) : List α := rows.map fun row => row.getD j d

/-- What `List.transpose` does with a row that is as long as the columns so
far. -/
theorem mapM_pop {row : List α} {cols : List (List α)} (h : cols.length = row.length) :
    (cols.mapM List.transpose.pop : StateM (List α) (List (List α))) row =
      (List.zipWith List.cons row cols, []) := by
  induction cols generalizing row with
  | nil =>
    cases row with
    | nil => rfl
    | cons a row => cases h
  | cons col cols ih =>
    cases row with
    | nil => cases h
    | cons a row =>
      rw [List.mapM_cons]
      have hrest : (cols.mapM List.transpose.pop : StateM (List α) (List (List α))) row =
          (List.zipWith List.cons row cols, []) := ih (by simpa using h)
      show (do
        let x ← List.transpose.pop col
        let xs ← cols.mapM List.transpose.pop
        pure (x :: xs) : StateM (List α) (List (List α))) (a :: row) = _
      simp only [bind, StateT.bind, List.transpose.pop, hrest]
      rfl

/-- A row in front of a table with columns as long as it. -/
theorem transpose_cons {row : List α} {rows : List (List α)}
    (h : rows.transpose.length = row.length) :
    (row :: rows).transpose = List.zipWith List.cons row rows.transpose := by
  have hgo : (row :: rows).transpose =
      (List.transpose.go row (rows.foldr List.transpose.go #[])).toList := rfl
  rw [hgo]
  generalize hcols : rows.foldr List.transpose.go #[] = cols
  have hlist : rows.transpose = cols.toList := congrArg Array.toList hcols
  rw [hlist] at h ⊢
  have hpop : ((cols.mapM List.transpose.pop : StateM (List α) (Array (List α))) row) =
      (⟨List.zipWith List.cons row cols.toList⟩, []) := by
    set result := (cols.mapM List.transpose.pop : StateM (List α) (Array (List α))) row
    have hmap : (result.1.toList, result.2) = (List.zipWith List.cons row cols.toList, []) :=
      (congrFun (Array.toList_mapM (m := StateM (List α))) row).trans (mapM_pop h)
    obtain ⟨hfst, hsnd⟩ := Prod.mk.inj hmap
    exact Prod.ext (Array.ext' hfst) hsnd
  simp only [List.transpose.go, hpop, List.foldl_nil]

theorem transpose_singleton {row : List α} : [row].transpose = row.map fun a => [a] := by
  have hpop : (((#[] : Array (List α)).mapM List.transpose.pop :
      StateM (List α) (Array (List α))) row) = (#[], row) := by
    rw [Array.mapM_empty]
    rfl
  simp [List.transpose, List.transpose.go, hpop]

/-- **The transpose of a table, column by column.** -/
theorem transpose_eq_map_column (d : α) {n : ℕ} {rows : List (List α)} (hne : rows ≠ [])
    (h : ∀ row ∈ rows, row.length = n) :
    rows.transpose = (List.range n).map (column d rows) := by
  induction rows with
  | nil => exact absurd rfl hne
  | cons row rows ih =>
    have hrow : row.length = n := h row List.mem_cons_self
    rcases rows with - | ⟨row', rows⟩
    · rw [transpose_singleton]
      refine List.ext_getElem (by simp [hrow]) fun j hj hj' => ?_
      rw [List.length_map] at hj
      simp [column, hj]
    · have hrest := ih (List.cons_ne_nil _ _) fun r hr => h r (List.mem_cons_of_mem _ hr)
      rw [transpose_cons (by rw [hrest, List.length_map, List.length_range, hrow]), hrest]
      refine List.ext_getElem (by simp [hrow]) fun j hj hj' => ?_
      have hlt : j < row.length := by
        rw [List.length_zipWith] at hj
        omega
      simp [column, hlt]

end VllmScheduler
