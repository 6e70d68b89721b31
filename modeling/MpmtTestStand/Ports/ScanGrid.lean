import MpmtTestStand.Ports.FeScan
import MpmtTestStand.Verified.Serpentine
import Mathlib

/-!
# The scan points

The loop of `begin_of_run` decides about the next point by two comparisons of
positions.  Read as exact rationals these are comparisons of column and row numbers
(`scanLoop_eq_walk`), so that the points are those of a serpentine
(`scanGrid_serpentine`), as far as there is room for them.
-/

namespace MpmtTestStand.Ports

open MpmtTestStand.Verified.Serpentine

/-! ## The loop as written -/

/-- The variables of the loop. -/
structure GridLoop where
  movingForward : Bool
  currentX : Rat
  currentY : Rat
  scanPoints : List (Rat × Rat)

namespace GridLoop

/-- The variables before the loop. -/
def start (set : ScanSettings) : GridLoop where
  movingForward := true
  currentX := set.startPosition.1
  currentY := set.startPosition.2
  scanPoints := []

/-- The condition of the loop. -/
def Continues (set : ScanSettings) (l : GridLoop) : Prop :=
  l.currentY < set.startPosition.2 + set.distance.2 ∧ l.scanPoints.length < maxScanPoints

/-- The body of the loop. -/
def body (set : ScanSettings) (l : GridLoop) : GridLoop :=
  let l := { l with scanPoints := l.scanPoints ++ [(l.currentX, l.currentY)] }
  if l.movingForward then
    if l.currentX + set.stepSize - set.startPosition.1 > set.distance.1 then
      { l with movingForward := false, currentY := l.currentY + set.stepSize }
    else { l with currentX := l.currentX + set.stepSize }
  else
    if l.currentX - set.stepSize - set.startPosition.1 < 0 then
      { l with movingForward := true, currentY := l.currentY + set.stepSize }
    else { l with currentX := l.currentX - set.stepSize }

/-- The loop ends after `n` rounds. -/
def EndsAfter (set : ScanSettings) (l : GridLoop) (n : Nat) : Prop :=
  (∀ i < n, ((body set)^[i] l).Continues set) ∧ ¬((body set)^[n] l).Continues set

/-- A round adds one point. -/
theorem body_scanPoints (set : ScanSettings) (l : GridLoop) :
    (l.body set).scanPoints = l.scanPoints ++ [(l.currentX, l.currentY)] := by
  unfold body
  dsimp only
  split_ifs <;> rfl

/-- A round of the loop is a step of `scanLoop`. -/
theorem scanLoop_body {set : ScanSettings} {l : GridLoop} (room : Nat)
    (hy : l.currentY < set.startPosition.2 + set.distance.2) :
    scanLoop set (room + 1) l.movingForward l.currentX l.currentY =
      (l.currentX, l.currentY) :: scanLoop set room (l.body set).movingForward
        (l.body set).currentX (l.body set).currentY := by
  obtain ⟨forward, x, y, points⟩ := l
  rw [scanLoop, if_pos hy]
  unfold body
  cases forward with
  | true =>
      by_cases hfar : x + set.stepSize - set.startPosition.1 > set.distance.1
      · simp only [if_pos hfar, if_true]
      · simp only [if_neg hfar, if_true]
  | false =>
      by_cases hnear : x - set.stepSize - set.startPosition.1 < 0
      · simp only [if_pos hnear, Bool.false_eq_true, if_false]
      · simp only [if_neg hnear, Bool.false_eq_true, if_false]

/-- One round more. -/
theorem EndsAfter.succ {set : ScanSettings} {l : GridLoop} {n : Nat} (hl : l.Continues set)
    (h : (l.body set).EndsAfter set n) : l.EndsAfter set (n + 1) := by
  constructor
  · intro i hi
    cases i with
    | zero => exact hl
    | succ i => exact h.1 i (by omega)
  · exact h.2

/-- **The loop ends**, and has added the points of `scanLoop`. -/
theorem endsAfter_scanLoop (set : ScanSettings) (room : Nat) (l : GridLoop)
    (hroom : l.scanPoints.length + room = maxScanPoints) :
    ∃ n, l.EndsAfter set n ∧
      ((body set)^[n] l).scanPoints =
        l.scanPoints ++ scanLoop set room l.movingForward l.currentX l.currentY := by
  induction room generalizing l with
  | zero =>
      refine ⟨0, ⟨fun i hi => absurd hi (Nat.not_lt_zero i), fun h => ?_⟩, ?_⟩
      · have hlt := h.2
        rw [Function.iterate_zero, id_eq] at hlt
        omega
      · exact (List.append_nil _).symm
  | succ room ih =>
      by_cases hy : l.currentY < set.startPosition.2 + set.distance.2
      · have hlen : (l.body set).scanPoints.length = l.scanPoints.length + 1 := by
          rw [body_scanPoints, List.length_append]
          rfl
        obtain ⟨n, hends, hpoints⟩ := ih (l.body set) (by omega)
        refine ⟨n + 1, hends.succ ⟨hy, by omega⟩, ?_⟩
        rw [Function.iterate_succ_apply, hpoints, body_scanPoints, List.append_assoc,
          scanLoop_body room hy]
        rfl
      · refine ⟨0, ⟨fun i hi => absurd hi (Nat.not_lt_zero i), fun h => hy h.1⟩, ?_⟩
        rw [scanLoop, if_neg hy, List.append_nil]
        rfl

end GridLoop

/-! ## Columns and rows -/

namespace ScanSettings

/-- The last column, `max(0, floor(dx / s))`. -/
def lastColumn (set : ScanSettings) : Nat := (max 0 ⌊set.distance.1 / set.stepSize⌋).toNat

/-- The number of rows, `max(0, ceil(dy / s))`. -/
def rowCount (set : ScanSettings) : Nat := (max 0 ⌈set.distance.2 / set.stepSize⌉).toNat

/-- The position of a cell. -/
def point (set : ScanSettings) (cell : Nat × Nat) : Rat × Rat :=
  (set.startPosition.1 + cell.1 * set.stepSize, set.startPosition.2 + cell.2 * set.stepSize)

variable {set : ScanSettings}

theorem lt_lastColumn (hs : 0 < set.stepSize) (j : Nat) :
    j < set.lastColumn ↔ (j + 1 : Rat) * set.stepSize ≤ set.distance.1 := by
  rw [← le_div_iff₀ hs]
  have hcast : (j + 1 : Rat) = ((j + 1 : Int) : Rat) := by push_cast; rfl
  rw [hcast, ← Int.le_floor, lastColumn]
  omega

theorem lt_rowCount (hs : 0 < set.stepSize) (k : Nat) :
    k < set.rowCount ↔ k * set.stepSize < set.distance.2 := by
  rw [← lt_div_iff₀ hs]
  have hcast : (k : Rat) = ((k : Int) : Rat) := by push_cast; rfl
  rw [hcast, ← Int.lt_ceil, rowCount]
  omega

/-! ## Its comparisons of positions -/

/-- The condition of the loop. -/
theorem y_lt_final (hs : 0 < set.stepSize) (j k : Nat) :
    (set.point (j, k)).2 < set.startPosition.2 + set.distance.2 ↔ k < set.rowCount := by
  rw [lt_rowCount hs, point, add_lt_add_iff_left]

/-- In the last column the next position would be too far. -/
theorem x_too_far (hs : 0 < set.stepSize) (j k : Nat) :
    (set.point (j, k)).1 + set.stepSize - set.startPosition.1 > set.distance.1 ↔
      ¬j < set.lastColumn := by
  have hdist : (set.point (j, k)).1 + set.stepSize - set.startPosition.1 =
      (j + 1 : Rat) * set.stepSize := by
    rw [point]
    ring
  rw [lt_lastColumn hs, hdist, gt_iff_lt, not_le]

/-- In the first column the next position would lie before the start. -/
theorem x_too_near (hs : 0 < set.stepSize) (j k : Nat) :
    (set.point (j, k)).1 - set.stepSize - set.startPosition.1 < 0 ↔ ¬0 < j := by
  have hdist : (set.point (j, k)).1 - set.stepSize - set.startPosition.1 =
      (j - 1 : Rat) * set.stepSize := by
    rw [point]
    ring
  rw [hdist, sub_one_mul, sub_neg, mul_lt_iff_lt_one_left hs]
  norm_cast
  omega

theorem point_right (j k : Nat) :
    (set.point (j, k)).1 + set.stepSize = (set.point (j + 1, k)).1 := by
  simp only [point]
  push_cast
  ring

theorem point_left {j : Nat} (h : 0 < j) (k : Nat) :
    (set.point (j, k)).1 - set.stepSize = (set.point (j - 1, k)).1 := by
  simp only [point]
  rw [Nat.cast_pred h]
  ring

theorem point_up (j k : Nat) :
    (set.point (j, k)).2 + set.stepSize = (set.point (j, k + 1)).2 := by
  simp only [point]
  push_cast
  ring

/-- The two coordinates of a point determine its cell. -/
theorem point_injective (hs : 0 < set.stepSize) : Function.Injective set.point := by
  rintro ⟨j, k⟩ ⟨j', k'⟩ h
  have hne : set.stepSize ≠ 0 := hs.ne'
  simp only [point, Prod.mk.injEq, add_right_inj, mul_eq_mul_right_iff, hne, or_false,
    Nat.cast_inj] at h
  exact Prod.ext h.1 h.2

end ScanSettings

/-- **The loop walks through the grid.** -/
theorem scanLoop_eq_walk {set : ScanSettings} (hs : 0 < set.stepSize) (room : Nat)
    (forward : Bool) (j k : Nat) :
    scanLoop set room forward (set.point (j, k)).1 (set.point (j, k)).2 =
      (walk set.lastColumn set.rowCount room forward j k).map set.point := by
  induction room generalizing forward j k with
  | zero => rfl
  | succ room ih =>
      rw [scanLoop, walk]
      by_cases hk : k < set.rowCount
      · rw [if_pos hk, if_pos ((ScanSettings.y_lt_final hs j k).mpr hk), List.map_cons]
        congr 1
        cases forward with
        | true =>
            rw [if_pos rfl, if_pos rfl]
            by_cases hlast : j < set.lastColumn
            · rw [if_pos hlast, if_neg (not_not.mpr hlast ∘ (ScanSettings.x_too_far hs j k).mp),
                ScanSettings.point_right]
              exact ih true (j + 1) k
            · rw [if_neg hlast, if_pos ((ScanSettings.x_too_far hs j k).mpr hlast),
                ScanSettings.point_up]
              exact ih false j (k + 1)
        | false =>
            rw [if_neg Bool.false_ne_true, if_neg Bool.false_ne_true]
            by_cases hfirst : 0 < j
            · rw [if_pos hfirst,
                if_neg (not_not.mpr hfirst ∘ (ScanSettings.x_too_near hs j k).mp),
                ScanSettings.point_left hfirst]
              exact ih false (j - 1) k
            · rw [if_neg hfirst, if_pos ((ScanSettings.x_too_near hs j k).mpr hfirst),
                ScanSettings.point_up]
              exact ih true j (k + 1)
      · rw [if_neg hk, if_neg (mt (ScanSettings.y_lt_final hs j k).mp hk)]
        rfl

/-- The loop starts at the first cell. -/
theorem scanGrid_eq_walk {set : ScanSettings} (hs : 0 < set.stepSize) :
    scanGrid set = (walk set.lastColumn set.rowCount maxScanPoints true 0 0).map set.point := by
  have horigin : set.point (0, 0) = set.startPosition := by
    simp [ScanSettings.point]
  rw [← scanLoop_eq_walk hs, horigin]
  rfl

/-- Next to each other in the grid, one step apart. -/
theorem ScanSettings.point_next {set : ScanSettings} (hs : 0 < set.stepSize) {a b : Nat × Nat}
    (h : Neighbours a b) :
    ((set.point b).2 = (set.point a).2 ∧ |(set.point b).1 - (set.point a).1| = set.stepSize) ∨
      ((set.point b).1 = (set.point a).1 ∧
        |(set.point b).2 - (set.point a).2| = set.stepSize) := by
  obtain ⟨j, k⟩ := a
  obtain ⟨j', k'⟩ := b
  rcases h with ⟨hrow, hcolumn⟩ | ⟨hcolumn, hrow⟩
  · left
    simp only at hrow hcolumn
    rcases hcolumn with rfl | rfl
    · rw [hrow, ← ScanSettings.point_right, add_sub_cancel_left, abs_of_pos hs]
      exact ⟨rfl, rfl⟩
    · rw [hrow, ← ScanSettings.point_right, sub_add_cancel_left, abs_neg, abs_of_pos hs]
      exact ⟨rfl, rfl⟩
  · right
    simp only at hrow hcolumn
    rw [hrow, hcolumn, ← ScanSettings.point_up, add_sub_cancel_left, abs_of_pos hs]
    exact ⟨rfl, rfl⟩

/-- The points lie in the rectangle. -/
theorem ScanSettings.point_mem {set : ScanSettings} (hs : 0 < set.stepSize) {cell : Nat × Nat}
    (hj : cell.1 ≤ set.lastColumn) (hk : cell.2 < set.rowCount) :
    set.startPosition.1 ≤ (set.point cell).1 ∧
      (set.point cell).1 ≤ set.startPosition.1 + set.lastColumn * set.stepSize ∧
      set.startPosition.2 ≤ (set.point cell).2 ∧
      (set.point cell).2 < set.startPosition.2 + set.distance.2 := by
  have hcolumn : (cell.1 : Rat) ≤ set.lastColumn := Nat.cast_le.mpr hj
  refine ⟨?_, ?_, ?_, (ScanSettings.y_lt_final hs cell.1 cell.2).mpr hk⟩
  · have hoffset : 0 ≤ (cell.1 : Rat) * set.stepSize := by positivity
    exact le_add_of_nonneg_right hoffset
  · exact add_le_add_right (mul_le_mul_of_nonneg_right hcolumn hs.le) _
  · have hoffset : 0 ≤ (cell.2 : Rat) * set.stepSize := by positivity
    exact le_add_of_nonneg_right hoffset

/-- **The scan points are a serpentine.**  The loop ends, and its points are those of
the serpentine of `R` rows with the columns `0 .. J`, up to the bound on their number.
None is missed or repeated, all of them lie in the rectangle, and two consecutive
points differ by one step in one coordinate. -/
theorem scanGrid_serpentine (set : ScanSettings) (hs : 0 < set.stepSize) :
    let J := set.lastColumn
    let R := set.rowCount
    let grid := (serpentine J R).map set.point
    (∃ n, (GridLoop.start set).EndsAfter set n ∧
      ((GridLoop.body set)^[n] (GridLoop.start set)).scanPoints = scanGrid set) ∧
    scanGrid set = grid.take (min maxScanPoints (R * (J + 1))) ∧
    (scanGrid set).length = min maxScanPoints (R * (J + 1)) ∧
    (scanGrid set).Nodup ∧
    (R * (J + 1) ≤ maxScanPoints → ∀ j ≤ J, ∀ k < R, set.point (j, k) ∈ scanGrid set) ∧
    (∀ p ∈ scanGrid set,
      set.startPosition.1 ≤ p.1 ∧ p.1 ≤ set.startPosition.1 + J * set.stepSize ∧
        set.startPosition.2 ≤ p.2 ∧ p.2 < set.startPosition.2 + set.distance.2) ∧
    (scanGrid set).IsChain fun p q =>
      (q.2 = p.2 ∧ |q.1 - p.1| = set.stepSize) ∨ (q.1 = p.1 ∧ |q.2 - p.2| = set.stepSize) := by
  intro J R grid
  have hlength : grid.length = R * (J + 1) := by
    rw [List.length_map, serpentine_length]
  have htake : scanGrid set = grid.take maxScanPoints := by
    rw [scanGrid_eq_walk hs, walk_serpentine, List.map_take]
  refine ⟨?_, ?_, ?_, ?_, ?_, ?_, ?_⟩
  · obtain ⟨n, hends, hpoints⟩ :=
      GridLoop.endsAfter_scanLoop set maxScanPoints (GridLoop.start set) (Nat.zero_add _)
    exact ⟨n, hends, hpoints⟩
  · rw [htake, ← hlength, List.take_eq_take_min]
  · rw [htake, List.length_take, hlength]
  · rw [htake]
    exact ((serpentine_nodup J R).map (ScanSettings.point_injective hs)).sublist
      (List.take_sublist _ _)
  · intro hfits j hj k hk
    rw [htake, List.take_of_length_le (hlength.le.trans hfits)]
    exact List.mem_map_of_mem (mem_serpentine.mpr ⟨hj, hk⟩)
  · intro p hp
    rw [htake] at hp
    obtain ⟨cell, hcell, rfl⟩ := List.mem_map.mp (List.mem_of_mem_take hp)
    obtain ⟨hj, hk⟩ := mem_serpentine.mp hcell
    exact ScanSettings.point_mem hs hj hk
  · rw [scanGrid_eq_walk hs]
    exact List.isChain_map_of_isChain set.point (fun a b h => ScanSettings.point_next hs h)
      (walk_isChain maxScanPoints true 0 0)

/-- Three columns and two rows. -/
theorem scanGrid_serpentine_six :
    scanGrid ⟨1, (0, 0), (2, 2), 0⟩ = [(0, 0), (1, 0), (2, 0), (2, 1), (1, 1), (0, 1)] := by
  have hgrid := (scanGrid_serpentine ⟨1, (0, 0), (2, 2), 0⟩ (by decide +kernel)).2.1
  rw [hgrid]
  decide +kernel

end MpmtTestStand.Ports
