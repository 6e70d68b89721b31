import MpmtTestStand.Ports.FeScan

/-!
# The order in which scan points are visited

`frontend_loop` compares the index of the current point with the number of
points before it increments it.  Up to the last point this is harmless: the
points are requested in order, each once (`Progress`).  When the measurement at
the last point is over, the comparison still lets the loop through, and the
point behind the last one is read and requested.  `visitsInOrder_iff` says that
a run is as intended exactly as long as it does not get there.
-/

namespace MpmtTestStand.Ports

open MpmtTestStand.Verified.Run

namespace ScanState

/-- The first `k` indices. -/
def firstIndices (k : Nat) : List Int := (List.range k).map Int.ofNat

theorem firstIndices_succ (k : Nat) :
    firstIndices (k + 1) = firstIndices k ++ [(k : Int)] := by
  simp [firstIndices, List.range_succ]

theorem mem_firstIndices {i : Int} {k : Nat} (h : i ∈ firstIndices k) :
    0 ≤ i ∧ i < k := by
  obtain ⟨j, hj, rfl⟩ := List.mem_map.mp h
  have := List.mem_range.mp hj
  exact ⟨Int.natCast_nonneg j, Int.ofNat_lt.mpr this⟩

theorem firstIndices_length (k : Nat) : (firstIndices k).length = k := by
  simp [firstIndices]

/-! ## The intended sequence -/

/-- The accesses so far are in range, they are the points in order from the
first one on, and a stopped run has requested every point. -/
structure InOrder (s : ScanState) : Prop where
  inBounds : ∀ i ∈ s.requested, 0 ≤ i ∧ i < s.scanPoints.length
  ordered : ∃ k ≤ s.scanPoints.length, s.requested = firstIndices k
  complete : s.running = false → s.requested = firstIndices s.scanPoints.length

/-- Once every point has been requested, the next iteration that is neither
moving nor still measuring stops the run without another request. -/
def StopsAfterLast (s : ScanState) (input : LoopInput) : Prop :=
  s.requested = firstIndices s.scanPoints.length → s.ready input = true →
    (s.frontendLoop input).running = false ∧
      (s.frontendLoop input).requested = s.requested

/-- The intended behaviour at every iteration of a run. -/
def VisitsInOrder (s : ScanState) (inputs : List LoopInput) : Prop :=
  ∀ pre post, inputs = pre ++ post →
    (exec frontendLoop s pre).InOrder ∧
      ∀ input rest, post = input :: rest →
        (exec frontendLoop s pre).StopsAfterLast input

/-! ## One iteration -/

@[simp] theorem noteArrival_currentPoint (s : ScanState) (input : LoopInput) :
    (s.noteArrival input).currentPoint = s.currentPoint := by
  unfold noteArrival
  dsimp only
  split <;> rfl

@[simp] theorem noteArrival_scanPoints (s : ScanState) (input : LoopInput) :
    (s.noteArrival input).scanPoints = s.scanPoints := by
  unfold noteArrival
  dsimp only
  split <;> rfl

@[simp] theorem noteArrival_requested (s : ScanState) (input : LoopInput) :
    (s.noteArrival input).requested = s.requested := by
  unfold noteArrival
  dsimp only
  split <;> rfl

@[simp] theorem noteArrival_flags (s : ScanState) (input : LoopInput) :
    (s.noteArrival input).calledBor = s.calledBor ∧
      (s.noteArrival input).running = s.running := by
  unfold noteArrival
  dsimp only
  split <;> exact ⟨rfl, rfl⟩

/-- What an iteration does to the sequence of requests. -/
inductive LoopEffect (s : ScanState) (input : LoopInput) : ScanState → Prop
  /-- nothing is requested and the run goes on as it was -/
  | wait {s' : ScanState} (hready : s.ready input = false)
      (hflags : s'.calledBor = s.calledBor ∧ s'.running = s.running)
      (hpoint : s'.currentPoint = s.currentPoint)
      (hpoints : s'.scanPoints = s.scanPoints) (hreq : s'.requested = s.requested) :
      LoopEffect s input s'
  /-- the run is stopped -/
  | stop {s' : ScanState} (hready : s.ready input = true)
      (hpast : s.currentPoint ≥ s.scanPoints.length)
      (hflags : s'.calledBor = false ∧ s'.running = false)
      (hpoints : s'.scanPoints = s.scanPoints) (hreq : s'.requested = s.requested) :
      LoopEffect s input s'
  /-- the next point is requested -/
  | next {s' : ScanState} (hready : s.ready input = true)
      (hpast : s.currentPoint < s.scanPoints.length)
      (hflags : s'.calledBor = true ∧ s'.running = true)
      (hpoint : s'.currentPoint = s.currentPoint + 1)
      (hpoints : s'.scanPoints = s.scanPoints)
      (hreq : s'.requested = s.requested ++ [s.currentPoint + 1]) :
      LoopEffect s input s'

theorem frontendLoop_effect (s : ScanState) (input : LoopInput) :
    LoopEffect s input (s.frontendLoop input) := by
  have hflags := noteArrival_flags s input
  unfold frontendLoop
  split
  · rename_i hbor
    exact .wait (by simp_all [ready]) ⟨rfl, rfl⟩ rfl rfl rfl
  · rename_i hbor
    have hbor : s.calledBor = true := by simpa using hbor
    split
    · rename_i hrun
      exact .wait (by simp_all [ready]) ⟨rfl, rfl⟩ rfl rfl rfl
    · rename_i hrun
      have hrun : s.running = true := by simpa using hrun
      split
      · rename_i hmoving
        dsimp only
        split
        · rename_i hdone
          have hready : s.ready input = true := by simp_all [ready]
          split
          · rename_i hpast
            refine .stop hready (by simpa using hpast) ⟨rfl, rfl⟩ ?_ ?_
            · exact noteArrival_scanPoints s input
            · exact noteArrival_requested s input
          · rename_i hpast
            refine .next hready (by simpa using hpast) ?_ ?_ ?_ ?_
            · exact ⟨hflags.1.trans hbor, hflags.2.trans hrun⟩
            · simp [moveToNext]
            · simp [moveToNext]
            · simp [moveToNext]
        · rename_i hdone
          exact .wait (by simp_all [ready]) hflags (by simp) (by simp) (by simp)
      · rename_i hmoving
        exact .wait (by simp_all [ready]) ⟨rfl, rfl⟩ rfl rfl rfl

/-! ## Runs -/

/-- The shape of every run that has not been stopped: the requests so far are
the points up to the current one. -/
structure Shape (points : List (Rat × Rat)) (s : ScanState) : Prop where
  points_eq : s.scanPoints = points
  lower : -1 ≤ s.currentPoint ∨ s.calledBor = false
  requested : s.calledBor = true →
    s.requested = firstIndices (s.currentPoint + 1).toNat

theorem Shape.frontendLoop {points : List (Rat × Rat)} {s : ScanState}
    (h : Shape points s) (input : LoopInput) : Shape points (s.frontendLoop input) := by
  generalize hafter : s.frontendLoop input = after
  have heffect := s.frontendLoop_effect input
  rw [hafter] at heffect
  cases heffect with
  | wait _ hflags hpoint hpoints hreq =>
      exact
        { points_eq := hpoints.trans h.points_eq
          lower := by rw [hpoint, hflags.1]; exact h.lower
          requested := fun hbor => by
            rw [hreq, hpoint]
            exact h.requested (hflags.1.symm.trans hbor) }
  | stop _ _ hflags hpoints _ =>
      exact
        { points_eq := hpoints.trans h.points_eq
          lower := .inr hflags.1
          requested := fun hbor => by simp [hflags.1] at hbor }
  | next hready _ hflags hpoint hpoints hreq =>
      have hbor : s.calledBor = true := by
        simp only [ready, Bool.and_eq_true] at hready
        exact hready.1.1.1
      have hlower : -1 ≤ s.currentPoint := by
        rcases h.lower with hlower | hfalse
        · exact hlower
        · simp [hbor] at hfalse
      exact
        { points_eq := hpoints.trans h.points_eq
          lower := .inl (by rw [hpoint]; omega)
          requested := fun _ => by
            rw [hreq, hpoint, h.requested hbor,
              show (s.currentPoint + 1 + 1).toNat = (s.currentPoint + 1).toNat + 1 by
                omega,
              firstIndices_succ]
            congr 2
            omega }

theorem begin_shape (s : ScanState) (points : List (Rat × Rat)) (scanTime : Rat) :
    Shape points (s.begin points scanTime) where
  points_eq := rfl
  lower := .inl (Int.le_refl _)
  requested _ := rfl

/-- A run that has never been ready with the last point current: it is still
going on, and no more than the scan points have been requested. -/
structure Progress (points : List (Rat × Rat)) (s : ScanState) : Prop extends
    Shape points s where
  calledBor : s.calledBor = true
  running : s.running = true
  upper : s.currentPoint + 1 ≤ points.length

theorem Progress.inOrder {points : List (Rat × Rat)} {s : ScanState}
    (h : Progress points s) : s.InOrder where
  inBounds i hi := by
    rw [h.requested h.calledBor] at hi
    have := mem_firstIndices hi
    have := h.upper
    rw [h.points_eq]
    omega
  ordered := by
    refine ⟨(s.currentPoint + 1).toNat, ?_, h.requested h.calledBor⟩
    have := h.upper
    rw [h.points_eq]
    omega
  complete hstopped := by simp [h.running] at hstopped

theorem Progress.frontendLoop {points : List (Rat × Rat)} {s : ScanState}
    (h : Progress points s) (input : LoopInput)
    (hlast : s.ready input = true → s.currentPoint + 1 ≠ points.length) :
    Progress points (s.frontendLoop input) := by
  have hshape := h.toShape.frontendLoop input
  generalize hafter : s.frontendLoop input = after at hshape
  have heffect := s.frontendLoop_effect input
  rw [hafter] at heffect
  cases heffect with
  | wait _ hflags hpoint _ _ =>
      exact
        { hshape with
          calledBor := hflags.1.trans h.calledBor
          running := hflags.2.trans h.running
          upper := by rw [hpoint]; exact h.upper }
  | stop _ hpast _ _ _ =>
      have := h.upper
      rw [h.points_eq] at hpast
      omega
  | next hready _ hflags hpoint _ _ =>
      have hne := hlast hready
      have hle := h.upper
      exact
        { hshape with
          calledBor := hflags.1
          running := hflags.2
          upper := by rw [hpoint]; omega }

theorem begin_progress (s : ScanState) (points : List (Rat × Rat)) (scanTime : Rat) :
    Progress points (s.begin points scanTime) :=
  { begin_shape s points scanTime with
    calledBor := rfl
    running := rfl
    upper := by
      show (-1 : Int) + 1 ≤ points.length
      omega }

/-- With the last point current, a ready iteration reads behind the list. -/
theorem Shape.not_stopsAfterLast {points : List (Rat × Rat)} {s : ScanState}
    (h : Shape points s) (input : LoopInput) (hready : s.ready input = true)
    (hlast : s.currentPoint + 1 = points.length) : ¬s.StopsAfterLast input := by
  intro hstops
  have hbor : s.calledBor = true := by
    simp only [ready, Bool.and_eq_true] at hready
    exact hready.1.1.1
  have hall : s.requested = firstIndices s.scanPoints.length := by
    rw [h.requested hbor, hlast, h.points_eq, Int.toNat_natCast]
  have hstopped := (hstops hall hready).1
  generalize hafter : s.frontendLoop input = after at hstopped
  have heffect := s.frontendLoop_effect input
  rw [hafter] at heffect
  cases heffect with
  | wait hwait _ _ _ _ => simp [hready] at hwait
  | stop _ hpast _ _ _ =>
      rw [h.points_eq] at hpast
      omega
  | next _ _ hflags _ _ _ => simp [hflags.2] at hstopped

/-- **When a scan visits its points in order.**  A run behaves as intended
exactly when no iteration that is neither moving nor still measuring finds the
last point current (or, for an empty list, when there is no such iteration). -/
theorem visitsInOrder_iff (s : ScanState) (points : List (Rat × Rat)) (scanTime : Rat)
    (inputs : List LoopInput) :
    VisitsInOrder (s.begin points scanTime) inputs ↔
      ∀ pre input post, inputs = pre ++ input :: post →
        (exec ScanState.frontendLoop (s.begin points scanTime) pre).ready input = true →
          (exec ScanState.frontendLoop (s.begin points scanTime) pre).currentPoint + 1 ≠
            points.length := by
  constructor
  · intro hvisits pre input post hsplit hready hlast
    have hshape : Shape points (exec ScanState.frontendLoop (s.begin points scanTime) pre) :=
      exec_invariant _ (fun _ input h => h.frontendLoop input) pre (begin_shape s points _)
    exact hshape.not_stopsAfterLast input hready hlast
      ((hvisits pre (input :: post) hsplit).2 input post rfl)
  · intro hlast pre post hsplit
    have hprogress :
        Progress points (exec ScanState.frontendLoop (s.begin points scanTime) pre) :=
      exec_invariant_along _
        (fun pre input post hsplit h => h.frontendLoop input (hlast pre input post hsplit))
        (begin_progress s points scanTime) pre post hsplit
    refine ⟨hprogress.inOrder, ?_⟩
    rintro input rest rfl hall hready
    -- with every point requested, the last one is current
    refine absurd ?_ (hlast pre input rest hsplit hready)
    have hlen := congrArg List.length hall
    rw [hprogress.requested hprogress.calledBor, firstIndices_length,
      firstIndices_length, hprogress.points_eq] at hlen
    have := hprogress.lower
    simp only [hprogress.calledBor, reduceCtorEq, or_false] at this
    omega

/-- Settings for a scan of a single point, measured for five seconds. -/
def singlePoint : ScanSettings := ⟨10, (50, 50), (0, 10), 5000⟩

/-- Move to the point, arrive, wait until the measurement is over. -/
def singlePointRun : List LoopInput :=
  [ ⟨false, 0, 0⟩
  , ⟨true, 0, 0⟩
  , ⟨false, 1000000000, 1000000000⟩
  , ⟨false, 0, 7000000000⟩ ]

/-- When the measurement at the only point is over, the point behind it is read
and requested. -/
theorem singlePoint_reads_past_end :
    (exec ScanState.frontendLoop (beginOfRun .init singlePoint)
        singlePointRun).scanPoints.length = 1 ∧
      (exec ScanState.frontendLoop (beginOfRun .init singlePoint)
        singlePointRun).requested = [0, 1] ∧
      ¬VisitsInOrder (beginOfRun .init singlePoint) singlePointRun := by
  have hlen : (exec ScanState.frontendLoop (beginOfRun .init singlePoint)
      singlePointRun).scanPoints.length = 1 := by decide +kernel
  have hreq : (exec ScanState.frontendLoop (beginOfRun .init singlePoint)
      singlePointRun).requested = [0, 1] := by decide +kernel
  refine ⟨hlen, hreq, fun hvisits => ?_⟩
  have hbound := (hvisits singlePointRun [] (List.append_nil _).symm).1.inBounds 1
    (by rw [hreq]; decide)
  rw [hlen] at hbound
  omega

end ScanState

end MpmtTestStand.Ports
