import Mathlib

/-!
# Serpentines

The cells of a grid with the columns `0 .. last` and a number of rows, row by row, in
alternating directions.  `serpentine` is the list in closed form; `walk` goes from cell
to cell and knows only its cell and its direction.  The two agree (`walk_serpentine`),
up to the number of cells that the walk has room for.
-/

namespace MpmtTestStand.Verified.Serpentine

/-- The columns of row `k` in the order in which they are visited. -/
def columns (last k : Nat) : List Nat :=
  if k % 2 = 0 then List.range (last + 1) else (List.range (last + 1)).reverse

/-- Row `k`; a cell is a column and a row. -/
def row (last k : Nat) : List (Nat × Nat) := (columns last k).map fun j => (j, k)

/-- The rows `k .. k + n - 1`. -/
def rows (last k n : Nat) : List (Nat × Nat) := (List.range' k n).flatMap (row last)

/-- The whole grid. -/
def serpentine (last count : Nat) : List (Nat × Nat) := rows last 0 count

/-- One walk through the grid, `forward` or not, from column `j` of row `k` on, with
`room` for so many cells. -/
def walk (last count : Nat) : Nat → Bool → Nat → Nat → List (Nat × Nat)
  | 0, _, _, _ => []
  | room + 1, forward, j, k =>
      if k < count then
        (j, k) ::
          if forward then
            if j < last then walk last count room true (j + 1) k
            else walk last count room false j (k + 1)
          else
            if 0 < j then walk last count room false (j - 1) k
            else walk last count room true j (k + 1)
      else []

variable {last count : Nat}

/-! ## Rows -/

theorem rows_succ (last k n : Nat) : rows last k (n + 1) = row last k ++ rows last (k + 1) n := by
  rw [rows, List.range'_succ, List.flatMap_cons]
  rfl

theorem mem_columns {k j : Nat} : j ∈ columns last k ↔ j ≤ last := by
  unfold columns
  split
  · rw [List.mem_range]
    omega
  · rw [List.mem_reverse, List.mem_range]
    omega

theorem columns_nodup (last k : Nat) : (columns last k).Nodup := by
  unfold columns
  split
  · exact List.nodup_range
  · exact List.nodup_reverse.mpr List.nodup_range

theorem columns_length (last k : Nat) : (columns last k).length = last + 1 := by
  unfold columns
  split
  · exact List.length_range
  · rw [List.length_reverse, List.length_range]

theorem mem_row {k : Nat} {cell : Nat × Nat} :
    cell ∈ row last k ↔ cell.1 ≤ last ∧ cell.2 = k := by
  simp only [row, List.mem_map, mem_columns]
  constructor
  · rintro ⟨j, hj, rfl⟩
    exact ⟨hj, rfl⟩
  · rintro ⟨hj, rfl⟩
    exact ⟨cell.1, hj, rfl⟩

theorem row_nodup (last k : Nat) : (row last k).Nodup := by
  refine (columns_nodup last k).map ?_
  intro j j' h
  exact (Prod.mk.inj h).1

/-! ## The closed form -/

/-- No cell is missed. -/
theorem mem_serpentine {cell : Nat × Nat} :
    cell ∈ serpentine last count ↔ cell.1 ≤ last ∧ cell.2 < count := by
  simp only [serpentine, rows, List.mem_flatMap, List.mem_range'_1, mem_row]
  constructor
  · rintro ⟨k, ⟨-, hk⟩, hj, rfl⟩
    omega
  · rintro ⟨hj, hk⟩
    exact ⟨cell.2, by omega, hj, rfl⟩

/-- No cell is repeated. -/
theorem serpentine_nodup (last count : Nat) : (serpentine last count).Nodup := by
  rw [serpentine, rows, List.nodup_flatMap]
  refine ⟨fun k _ => row_nodup last k, ?_⟩
  refine List.Nodup.pairwise_of_forall_ne (List.nodup_range' ..) ?_
  intro k _ k' _ hne cell hcell hcell'
  rw [mem_row] at hcell hcell'
  exact hne (hcell.2.symm.trans hcell'.2)

theorem rows_length (last k n : Nat) : (rows last k n).length = n * (last + 1) := by
  induction n generalizing k with
  | zero =>
      rw [Nat.zero_mul]
      rfl
  | succ n ih =>
      rw [rows_succ, List.length_append, ih, row, List.length_map, columns_length, Nat.add_mul]
      omega

theorem serpentine_length (last count : Nat) :
    (serpentine last count).length = count * (last + 1) :=
  rows_length last 0 count

/-! ## The walk -/

/-- What is left of row `k` from column `j` on. -/
def rowFrom (last : Nat) (forward : Bool) (j k : Nat) : List (Nat × Nat) :=
  (if forward then List.range' j (last + 1 - j) else (List.range (j + 1)).reverse).map
    fun j => (j, k)

theorem rowFrom_forward {j k : Nat} (h : j < last) :
    rowFrom last true j k = (j, k) :: rowFrom last true (j + 1) k := by
  have hlen : last + 1 - j = last + 1 - (j + 1) + 1 := by omega
  rw [rowFrom, if_pos rfl, hlen, List.range'_succ]
  rfl

theorem rowFrom_backward {j k : Nat} (h : 0 < j) :
    rowFrom last false j k = (j, k) :: rowFrom last false (j - 1) k := by
  obtain ⟨i, rfl⟩ := Nat.exists_eq_add_of_le' h
  rw [rowFrom, List.range_succ, List.reverse_append]
  rfl

/-- The end of a row. -/
theorem rowFrom_last (last k : Nat) : rowFrom last true last k = [(last, k)] := by
  have hlen : last + 1 - last = 1 := by omega
  rw [rowFrom, if_pos rfl, hlen]
  rfl

theorem rowFrom_zero (last k : Nat) : rowFrom last false 0 k = [(0, k)] := rfl

/-- A row is entered at the side that its direction leaves from. -/
theorem rowFrom_even {k : Nat} (h : k % 2 = 0) : rowFrom last true 0 k = row last k := by
  rw [rowFrom, if_pos rfl, row, columns, if_pos h, List.range_eq_range']
  rfl

theorem rowFrom_odd {k : Nat} (h : k % 2 = 1) : rowFrom last false last k = row last k := by
  have hodd : ¬k % 2 = 0 := by omega
  rw [row, columns, if_neg hodd]
  rfl

/-- What is left from column `j` of row `k` on: the rest of the row, and the rows after
it. -/
def remaining (last count : Nat) (forward : Bool) (j k : Nat) : List (Nat × Nat) :=
  if k < count then rowFrom last forward j k ++ rows last (k + 1) (count - (k + 1)) else []

/-- At its entrance all of a row is left. -/
theorem remaining_enter {forward : Bool} {j k : Nat} (h : rowFrom last forward j k = row last k) :
    remaining last count forward j k = rows last k (count - k) := by
  unfold remaining
  by_cases hk : k < count
  · have hcount : count - k = count - (k + 1) + 1 := by omega
    rw [if_pos hk, h, hcount, rows_succ]
  · have hcount : count - k = 0 := by omega
    rw [if_neg hk, hcount]
    rfl

/-- **A walk visits what is left, in this order**, if it goes forward in even rows and
backward in odd ones. -/
theorem walk_eq_take (room : Nat) {forward : Bool} {j k : Nat} (hj : j ≤ last)
    (hdir : forward = true ↔ k % 2 = 0) :
    walk last count room forward j k = (remaining last count forward j k).take room := by
  induction room generalizing forward j k with
  | zero => rfl
  | succ room ih =>
      rw [walk]
      by_cases hk : k < count
      · rw [if_pos hk, remaining, if_pos hk]
        have hstay {forward : Bool} {i : Nat} :
            remaining last count forward i k =
              rowFrom last forward i k ++ rows last (k + 1) (count - (k + 1)) := if_pos hk
        cases forward with
        | true =>
            have heven : k % 2 = 0 := hdir.mp rfl
            by_cases hlast : j < last
            · rw [if_pos rfl, if_pos hlast, ih hlast hdir, rowFrom_forward hlast, hstay]
              rfl
            · obtain rfl : j = last := by omega
              have hodd : (k + 1) % 2 = 1 := by omega
              have hturn : false = true ↔ (k + 1) % 2 = 0 := by
                rw [hodd]
                exact ⟨nofun, nofun⟩
              rw [if_pos rfl, if_neg hlast, ih hj hturn, remaining_enter (rowFrom_odd hodd), rowFrom_last]
              rfl
        | false =>
            have hodd : k % 2 ≠ 0 := fun heven => Bool.false_ne_true (hdir.mpr heven)
            by_cases hfirst : 0 < j
            · have hj' : j - 1 ≤ last := by omega
              rw [if_neg Bool.false_ne_true, if_pos hfirst, ih hj' hdir, rowFrom_backward hfirst,
                hstay]
              rfl
            · obtain rfl : j = 0 := by omega
              have heven : (k + 1) % 2 = 0 := by omega
              have hturn : true = true ↔ (k + 1) % 2 = 0 := ⟨fun _ => heven, fun _ => rfl⟩
              rw [if_neg Bool.false_ne_true, if_neg hfirst, ih hj hturn,
                remaining_enter (rowFrom_even heven), rowFrom_zero]
              rfl
      · rw [if_neg hk, remaining, if_neg hk]
        rfl

/-- **The walk from the first cell is the serpentine.** -/
theorem walk_serpentine (last count room : Nat) :
    walk last count room true 0 0 = (serpentine last count).take room := by
  rw [walk_eq_take room (Nat.zero_le last) ⟨fun _ => rfl, fun _ => rfl⟩,
    remaining_enter (rowFrom_even rfl)]
  rfl

/-! ## Neighbours -/

/-- The second cell is next to the first one in its row, or below it. -/
def Neighbours (a b : Nat × Nat) : Prop :=
  (b.2 = a.2 ∧ (b.1 = a.1 + 1 ∨ a.1 = b.1 + 1)) ∨ (b.1 = a.1 ∧ b.2 = a.2 + 1)

theorem walk_head {room : Nat} {forward : Bool} {j k : Nat} {cell : Nat × Nat}
    (h : cell ∈ (walk last count room forward j k).head?) : cell = (j, k) := by
  cases room with
  | zero => cases h
  | succ room =>
      rw [walk] at h
      split at h
      · exact (Option.mem_some.mp h).symm
      · cases h

/-- A walk goes from neighbour to neighbour. -/
theorem walk_isChain (room : Nat) (forward : Bool) (j k : Nat) :
    (walk last count room forward j k).IsChain Neighbours := by
  induction room generalizing forward j k with
  | zero => exact .nil
  | succ room ih =>
      rw [walk]
      split
      · rw [List.isChain_cons]
        constructor
        · intro cell hcell
          split at hcell
          · split at hcell
            · rw [walk_head hcell]
              exact .inl ⟨rfl, .inl rfl⟩
            · rw [walk_head hcell]
              exact .inr ⟨rfl, rfl⟩
          · split at hcell
            · rename_i hfirst
              rw [walk_head hcell]
              exact .inl ⟨rfl, .inr (Nat.sub_add_cancel hfirst).symm⟩
            · rw [walk_head hcell]
              exact .inr ⟨rfl, rfl⟩
        · split
          · split
            · exact ih true (j + 1) k
            · exact ih false j (k + 1)
          · split
            · exact ih false (j - 1) k
            · exact ih true j (k + 1)
      · exact .nil

end MpmtTestStand.Verified.Serpentine
