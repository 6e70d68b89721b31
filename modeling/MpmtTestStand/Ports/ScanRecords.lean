import MpmtTestStand.Ports.ScanMeasurement

/-!
# The records of a scan: `read_scan_state`

The readout writes a BONM bank when a move has been started, and an EOM bank when one has
ended.  Both carry the index that is current at the readout, not the one that was current when
the flag was raised.  What the flags have still to say (`due`) follows the index: it is right
as long as the flag of a point is read out before the index moves on.  `records_bracket` says
that this is all that is needed.
-/

namespace MpmtTestStand.Ports

open MpmtTestStand.Verified.Run

/-! ## `read_scan_state` -/

/-- `SCAN_STATUS_…` -/
def ScanStatus.toWord : ScanStatus → UInt32
  | .stopped => 0
  | .started => 1
  | .moving => 2
  | .measuring => 3

/-- The banks of an event. -/
inductive Bank
  /-- SCAN -/
  | scan (status point points : UInt32)
  /-- CYC0 -/
  | cyc0 (values : List Rat)
  /-- EOM, the end of a move -/
  | eom (point : Int)
  /-- BONM, the beginning of a new move -/
  | bonm (point : Int)
  deriving DecidableEq, Repr

namespace ScanState

/-- The records that the flags ask for. -/
def due (s : ScanState) : List Bank :=
  (if s.newScanningPoint then [.eom s.currentPoint] else []) ++
    if s.newMoveStarted then [.bonm s.currentPoint] else []

/-- `read_scan_state`, when the gantry is at this position. -/
def readScanState (s : ScanState) (position : Rat × Rat) : ScanState × List Bank :=
  ({ s with newScanningPoint := false, newMoveStarted := false },
    [ .scan s.scanStatus.toWord (.ofInt (s.currentPoint + 1)) (.ofNat s.scanPoints.length)
    , .cyc0
        [ s.currentPoint, position.1, position.2, 0, 0, 0
        , position.1, position.2, 0, 0, 0, 0 ] ] ++ s.due)

/-- The iteration raises one of the flags: `gNewScanningPoint` when it starts a measurement,
`gNewMoveStarted` when it requests a move. -/
def raises (s : ScanState) (input : LoopInput) : Bool :=
  (s.observes input).any fun
    | .reading _ => false
    | .startMeasurement _ => true
    | .requestMove _ => true

/-- The point is left, for the next one or at the end of the run, only after its measurement
has been started by an earlier iteration, and the end of the move to it has been read out. -/
def Settles (s : ScanState) (input : LoopInput) : Prop :=
  s.ready input = true → s.gantryWasMoving = false ∧ s.newScanningPoint = false

instance (s : ScanState) (input : LoopInput) : Decidable (s.Settles input) :=
  inferInstanceAs (Decidable (_ → _ ∧ _))

end ScanState

/-! ## Runs with readouts -/

/-- The gantry, as far as its readings show it. -/
inductive Gantry
  | resting
  /-- a move has been requested -/
  | started
  | moving
  deriving DecidableEq, Repr

/-- The gantry moves at requests only, and its readings show every move. -/
def Gantry.observe : Gantry → Observation → Option Gantry
  | _, .requestMove _ => some .started
  | gantry, .startMeasurement _ => some gantry
  | .resting, .reading false => some .resting
  | .resting, .reading true => none
  | .started, .reading false => none
  | .started, .reading true => some .moving
  | .moving, .reading false => some .resting
  | .moving, .reading true => some .moving

theorem Gantry.observe_true {gantry next : Gantry}
    (h : gantry.observe (.reading true) = some next) : gantry ≠ .resting ∧ next = .moving := by
  cases gantry <;> cases h <;> exact ⟨(fun h => by cases h), rfl⟩

theorem Gantry.observe_false {gantry next : Gantry}
    (h : gantry.observe (.reading false) = some next) : gantry ≠ .started ∧ next = .resting := by
  cases gantry <;> cases h <;> exact ⟨(fun h => by cases h), rfl⟩

/-- What happens during a run. -/
inductive RecordEvent
  | endOfRun
  /-- the run is paused, resumed or stopped -/
  | setRunning (running : Bool)
  | frontendLoop (input : LoopInput)
  | readScanState (position : Rat × Rat)

/-- A run with the banks written so far, the points at which a move has been seen to end, and
whether a flag has been raised since the last readout. -/
structure RecordedScan where
  state : ScanState
  banks : List Bank
  gantry : Gantry
  finished : List Int
  unread : Bool
  deriving DecidableEq, Repr

namespace RecordedScan

/-- A run begins, with the gantry at rest. -/
def begin (s : ScanState) (points : List (Rat × Rat)) (scanTime : Rat) : RecordedScan :=
  ⟨s.begin points scanTime, [], .resting, [], false⟩

/-- An event, unless the gantry does not behave like this, or a flag is raised before the last
one has been read out. -/
def apply (r : RecordedScan) : RecordEvent → Option RecordedScan
  | .endOfRun => some { r with state := Ports.endOfRun r.state }
  | .setRunning running => some { r with state := { r.state with running := running } }
  | .readScanState position =>
      let (state, banks) := r.state.readScanState position
      some { r with state := state, banks := r.banks ++ banks, unread := false }
  | .frontendLoop input =>
      if r.unread ∧ r.state.raises input then none
      else
        (run Gantry.observe r.gantry (r.state.observes input)).map fun gantry =>
          { r with
            state := r.state.frontendLoop input
            gantry := gantry
            finished :=
              if r.gantry = .moving ∧ .reading false ∈ r.state.observes input then
                r.finished ++ [r.state.currentPoint]
              else r.finished
            unread := r.unread || r.state.raises input }

end RecordedScan

/-! ## What is meant -/

namespace Bank

/-- A record of one of the first `n` points. -/
def brackets (n : Nat) : Bank → Bool
  | .bonm point => 0 ≤ point ∧ point < n
  | .eom point => 0 ≤ point ∧ point < n
  | _ => false

/-- The first record belongs before the second one. -/
def Before : Bank → Bank → Prop
  | .bonm i, .bonm j => i < j
  | .bonm i, .eom j => i ≤ j
  | .eom i, .bonm j => i < j
  | .eom i, .eom j => i < j
  | _, _ => False

end Bank

/-- Every scan point is bracketed: the records are in order, so that there are no two of a
kind for a point; and when the flags have been read out, there is one for every point that has
been requested, and one for every point at which the move has ended. -/
structure RecordedScan.Bracketed (r : RecordedScan) : Prop where
  ordered : (r.banks.filter (Bank.brackets r.state.scanPoints.length)).Pairwise Bank.Before
  started : r.unread = false → ∀ k < r.state.scanPoints.length,
    (k : Int) ∈ r.state.requested → r.banks.count (.bonm k) = 1
  ended : r.unread = false → ∀ k < r.state.scanPoints.length,
    (k : Int) ∈ r.finished → r.banks.count (.eom k) = 1

/-! ## The records in full -/

namespace Bank

/-- A BONM or an EOM bank. -/
def isRecord : Bank → Bool
  | .bonm _ => true
  | .eom _ => true
  | _ => false

/-- Both records of each of the first `n` points, in order. -/
def pairs : Nat → List Bank
  | 0 => []
  | n + 1 => pairs n ++ [.bonm n, .eom n]

/-- The records when `asked` moves have been requested and `done` of them have ended. -/
def written (asked done : Nat) : List Bank :=
  pairs done ++ if asked = done then [] else [.bonm done]

theorem written_self (n : Nat) : written n n = pairs n := by
  rw [written, if_pos rfl, List.append_nil]

theorem written_succ (n : Nat) : written (n + 1) n = pairs n ++ [.bonm n] := by
  rw [written, if_neg (Nat.succ_ne_self n)]

theorem mem_pairs {n : Nat} {bank : Bank} :
    bank ∈ pairs n ↔ ∃ k < n, bank = .bonm k ∨ bank = .eom k := by
  induction n with
  | zero => simp [pairs]
  | succ n ih =>
      rw [pairs, List.mem_append, ih]
      simp only [List.mem_cons, List.not_mem_nil, or_false]
      constructor
      · rintro (⟨k, hk, hbank⟩ | hbank)
        · exact ⟨k, by omega, hbank⟩
        · exact ⟨n, by omega, hbank⟩
      · rintro ⟨k, hk, hbank⟩
        by_cases hlast : k = n
        · exact .inr (hlast ▸ hbank)
        · exact .inl ⟨k, by omega, hbank⟩

theorem pairs_ordered (n : Nat) : (pairs n).Pairwise Before := by
  induction n with
  | zero => exact .nil
  | succ n ih =>
      refine List.pairwise_append.mpr ⟨ih, by simp [Before], fun first hfirst second hsecond => ?_⟩
      obtain ⟨k, hk, hbank⟩ := mem_pairs.mp hfirst
      simp only [List.mem_cons, List.not_mem_nil, or_false] at hsecond
      rcases hbank with rfl | rfl <;> rcases hsecond with rfl | rfl <;>
        simp only [Before] <;> omega

theorem written_prefix {asked done : Nat} (h : asked = done ∨ asked = done + 1) :
    written asked done <+: pairs asked := by
  rcases h with rfl | rfl
  · rw [written_self]
  · rw [written_succ, pairs]
    exact (List.prefix_append_right_inj _).mpr ⟨[_], rfl⟩

theorem not_before_self (bank : Bank) : ¬bank.Before bank := by
  cases bank <;> simp [Before]

/-- What is in order is written once at most. -/
theorem count_eq_one {banks : List Bank} (h : banks.Pairwise Before) {bank : Bank}
    (hmem : bank ∈ banks) : banks.count bank = 1 := by
  have hnodup : banks.Nodup := h.imp fun hbefore => by
    rintro rfl
    exact not_before_self _ hbefore
  exact List.count_eq_one_of_mem hnodup hmem

end Bank

/-! ## One iteration -/

namespace ScanState

/-- Only an iteration that is neither moving nor still measuring leaves the point. -/
theorem ready_of_leaves {s : ScanState} {input : LoopInput}
    (h : (s.frontendLoop input).calledBor ≠ s.calledBor ∨
      (s.frontendLoop input).requested ≠ s.requested) : s.ready input = true := by
  have heffect := s.frontendLoop_effect input
  generalize s.frontendLoop input = after at heffect h
  cases heffect with
  | wait _ hflags _ _ hreq =>
      rcases h with h | h
      · exact absurd hflags.1 h
      · exact absurd hreq h
  | stop hready _ _ _ _ => exact hready
  | next hready _ _ _ _ _ => exact hready

/-- Nothing is observed outside of a run. -/
theorem calledBor_of_observes {s : ScanState} {input : LoopInput} {o : Observation}
    (h : o ∈ s.observes input) : s.calledBor = true := by
  unfold observes at h
  by_cases hon : s.calledBor = true ∧ s.running = true
  · exact hon.1
  · rw [if_neg hon] at h
    cases h

theorem noteArrival_of_resting {s : ScanState} (h : s.gantryWasMoving = false)
    (input : LoopInput) : s.noteArrival input = s := by
  unfold noteArrival
  rw [if_neg (by simp [h])]
  dsimp only
  rw [← h]

theorem startNow_of_resting {s : ScanState} (h : s.gantryWasMoving = false)
    (input : LoopInput) : s.startNow input = [] := by
  rw [startNow, if_neg (by simp [h])]

theorem startNow_of_moving {s : ScanState} (h : s.gantryWasMoving = true)
    (input : LoopInput) : s.startNow input = [.startMeasurement input.startTime] := by
  rw [startNow, if_pos h]

theorem due_of_flags {s : ScanState} (hend : s.newScanningPoint = false)
    (hstart : s.newMoveStarted = false) : s.due = [] := by
  simp [due, hend, hstart]

theorem flags_of_due {s : ScanState} (h : s.due = []) :
    s.newScanningPoint = false ∧ s.newMoveStarted = false := by
  simpa [due] using h

theorem due_isRecord (s : ScanState) : s.due.filter Bank.isRecord = s.due := by
  rw [List.filter_eq_self, due]
  intro bank hbank
  rcases List.mem_append.mp hbank with h | h
  · split_ifs at h <;> simp_all [Bank.isRecord]
  · split_ifs at h <;> simp_all [Bank.isRecord]

end ScanState

/-! ## Runs -/

/-- The current point, the flags and the gantry while the run goes on. -/
inductive ScanState.Phase (s : ScanState) (gantry : Gantry) (asked done : Nat) : Prop
  /-- on the way to the point that has been requested last -/
  | travelling (hasked : asked = done + 1) (hpoint : s.currentPoint = done)
      (hmoving : s.gantryWasMoving = true) (hgantry : gantry ≠ .resting)
  /-- at this point, or before the first request -/
  | resting (hasked : asked = done) (hpoint : s.currentPoint = (done : Int) - 1)
      (hmoving : s.gantryWasMoving = false) (hgantry : gantry = .resting)
      (hstart : s.newMoveStarted = false)

/-- A run in which `asked` moves have been requested and `done` of them have ended. -/
structure RecordedScan.Recorded (r : RecordedScan) (asked done : Nat) : Prop where
  requested : r.state.requested = ScanState.firstIndices asked
  finished : r.finished = ScanState.firstIndices done
  order : asked = done ∨ asked = done + 1
  written : r.banks.filter Bank.isRecord ++ r.state.due = Bank.written asked done
  unread : r.unread = false → r.state.due = []
  phase : r.state.calledBor = true → r.state.Phase r.gantry asked done

namespace RecordedScan

variable {r : RecordedScan} {asked done : Nat}

theorem begin_recorded (s : ScanState) (points : List (Rat × Rat)) (scanTime : Rat) :
    (begin s points scanTime).Recorded 0 0 where
  requested := rfl
  finished := rfl
  order := .inl rfl
  written := rfl
  unread _ := rfl
  phase _ := .resting rfl rfl rfl rfl rfl

/-- A readout writes what is due. -/
theorem Recorded.readScanState (h : r.Recorded asked done) (position : Rat × Rat) :
    ({ r with
      state := (r.state.readScanState position).1
      banks := r.banks ++ (r.state.readScanState position).2
      unread := false } : RecordedScan).Recorded asked done where
  requested := h.requested
  finished := h.finished
  order := h.order
  written := by
    show (r.banks ++ (_ ++ r.state.due)).filter Bank.isRecord ++ [] = _
    rw [List.append_nil, List.filter_append, List.filter_append, r.state.due_isRecord]
    exact h.written
  unread _ := rfl
  phase hon := by
    cases h.phase hon with
    | travelling hasked hpoint hmoving hgantry => exact .travelling hasked hpoint hmoving hgantry
    | resting hasked hpoint hmoving hgantry _ => exact .resting hasked hpoint hmoving hgantry rfl

/-- An iteration that happens. -/
theorem apply_frontendLoop {input : LoopInput} {after : RecordedScan}
    (h : r.apply (.frontendLoop input) = some after) :
    (r.unread = true → r.state.raises input = false) ∧
      ∃ gantry, run Gantry.observe r.gantry (r.state.observes input) = some gantry ∧
        after =
          { r with
            state := r.state.frontendLoop input
            gantry := gantry
            finished :=
              if r.gantry = .moving ∧ .reading false ∈ r.state.observes input then
                r.finished ++ [r.state.currentPoint]
              else r.finished
            unread := r.unread || r.state.raises input } := by
  rw [apply] at h
  by_cases hraised : r.unread = true ∧ r.state.raises input = true
  · rw [if_pos hraised] at h
    cases h
  · rw [if_neg hraised] at h
    obtain ⟨gantry, hgantry, hafter⟩ := Option.map_eq_some_iff.mp h
    exact ⟨fun hunread => by simpa [hunread] using hraised, gantry, hgantry, hafter.symm⟩

/-- When nothing is raised, requested or finished, the records stay as they are. -/
theorem Recorded.keep (h : r.Recorded asked done) {after : ScanState} {gantry : Gantry}
    (hrequested : after.requested = r.state.requested) (hdue : after.due = r.state.due)
    (hphase : after.calledBor = true → after.Phase gantry asked done) :
    ({ r with state := after, gantry := gantry } : RecordedScan).Recorded asked done where
  requested := hrequested.trans h.requested
  finished := h.finished
  order := h.order
  written := (congrArg _ hdue).trans h.written
  unread hread := hdue.trans (h.unread hread)
  phase := hphase

/-- The first reading that the gantry is at rest: the end of the move is due. -/
theorem Recorded.arrives (h : r.Recorded asked done) (hon : r.state.calledBor = true)
    (hmoving : r.state.gantryWasMoving = true) (hread : r.unread = false) (input : LoopInput) :
    ({ r with
      state := r.state.noteArrival input
      gantry := .resting
      finished := r.finished ++ [r.state.currentPoint]
      unread := true } : RecordedScan).Recorded asked (done + 1) := by
  cases h.phase hon with
  | resting _ _ hresting _ _ => simp [hmoving] at hresting
  | travelling hasked hpoint _ _ =>
      subst hasked
      obtain ⟨hend, hstart⟩ := ScanState.flags_of_due (h.unread hread)
      have hwritten := h.written
      rw [h.unread hread, List.append_nil, Bank.written_succ] at hwritten
      have hdue : (r.state.noteArrival input).due = [.eom done] := by
        simp [ScanState.due, ScanState.noteArrival, hmoving, hstart, hpoint]
      exact
        { requested := (ScanState.noteArrival_requested r.state input).trans h.requested
          finished := by
            show r.finished ++ [r.state.currentPoint] = _
            rw [h.finished, hpoint, ScanState.firstIndices_succ]
          order := .inl rfl
          written := by
            rw [hdue, hwritten, Bank.written_self, Bank.pairs, List.append_assoc]
            rfl
          unread := fun h => by cases h
          phase := fun _ => .resting rfl (by simp [hpoint]) rfl rfl
            (by simp [ScanState.noteArrival, hmoving, hstart]) }

/-- A request: the beginning of the next move is due. -/
theorem Recorded.requests (h : r.Recorded asked done) (hon : r.state.calledBor = true)
    (hmoving : r.state.gantryWasMoving = false) (hend : r.state.newScanningPoint = false) :
    ({ r with
      state := r.state.moveToNext
      gantry := .started
      unread := true } : RecordedScan).Recorded (asked + 1) done := by
  cases h.phase hon with
  | travelling _ _ htravelling _ => simp [hmoving] at htravelling
  | resting hasked hpoint _ _ hstart =>
      subst hasked
      have hwritten := h.written
      rw [ScanState.due_of_flags hend hstart, List.append_nil, Bank.written_self] at hwritten
      have hnext : r.state.currentPoint + 1 = asked := by omega
      have hdue : r.state.moveToNext.due = [.bonm asked] := by
        simp [ScanState.due, ScanState.moveToNext, hend, hnext]
      exact
        { requested := by
            show r.state.requested ++ [r.state.currentPoint + 1] = _
            rw [h.requested, hnext, ScanState.firstIndices_succ]
          finished := h.finished
          order := .inr rfl
          written := by rw [hdue, hwritten, Bank.written_succ]
          unread := fun h => by cases h
          phase := fun _ => .travelling rfl hnext rfl (fun h => by cases h) }

/-- A stop, with nothing left to be read out: nothing is due behind it. -/
theorem Recorded.stops (h : r.Recorded asked done) (hend : r.state.newScanningPoint = false)
    (hstart : r.state.newMoveStarted = false) :
    ({ r with
      state := ({ r.state with currentPoint := 0 } : ScanState).stopRun
      gantry := .resting } : RecordedScan).Recorded asked done := by
  have hbefore : r.state.due = [] := ScanState.due_of_flags hend hstart
  have hafter : ({ r.state with currentPoint := 0 } : ScanState).stopRun.due = [] :=
    ScanState.due_of_flags hend hstart
  exact h.keep rfl (hafter.trans hbefore.symm) fun hbor => absurd hbor Bool.false_ne_true

/-- After the iteration that has started the measurement the gantry is at rest, and the beginning
of the move has been read out. -/
theorem Recorded.resting (h : r.Recorded asked done) (hon : r.state.calledBor = true)
    (hmoving : r.state.gantryWasMoving = false) :
    r.gantry = .resting ∧ r.state.newMoveStarted = false := by
  cases h.phase hon with
  | travelling _ _ htravelling _ => simp [hmoving] at htravelling
  | resting _ _ _ hrest hstart => exact ⟨hrest, hstart⟩

theorem Recorded.frontendLoop (h : r.Recorded asked done) {input : LoopInput}
    {after : RecordedScan} (happly : r.apply (.frontendLoop input) = some after)
    (hsettles : r.state.Settles input) : ∃ asked' done', after.Recorded asked' done' := by
  obtain ⟨hraise, gantry, hgantry, rfl⟩ := apply_frontendLoop happly
  have hiteration := r.state.iteration input
  have hon {o : Observation} : o ∈ r.state.observes input → r.state.calledBor = true :=
    ScanState.calledBor_of_observes
  have hleaves : _ → r.state.ready input = true := ScanState.ready_of_leaves
  clear happly
  rw [ScanState.raises] at hraise ⊢
  generalize r.state.observes input = observed at *
  generalize r.state.frontendLoop input = next at *
  cases hiteration with
  | skipped _ =>
      obtain rfl : r.gantry = gantry := by simpa using hgantry
      refine ⟨asked, done, ?_⟩
      simpa using h
  | moving hbor =>
      obtain ⟨middle, hreading, hend⟩ := run_cons_some _ hgantry
      obtain ⟨hgoes, rfl⟩ := Gantry.observe_true hreading
      obtain rfl : .moving = gantry := by simpa using hend
      cases h.phase hbor with
      | resting _ _ _ hrest _ => exact absurd hrest hgoes
      | travelling hasked hpoint _ _ =>
          refine ⟨asked, done, ?_⟩
          have hkeep : ({ r with
              state := { r.state with gantryWasMoving := true }
              gantry := .moving } : RecordedScan).Recorded asked done :=
            h.keep rfl rfl fun _ => .travelling hasked hpoint rfl fun h => by cases h
          simpa using hkeep
  | waiting hbor _ =>
      obtain ⟨middle, hreading, hend⟩ := run_cons_some _ hgantry
      obtain ⟨hstarted, rfl⟩ := Gantry.observe_false hreading
      cases h.phase hbor with
      | resting hasked hpoint hmoving hrest hstart =>
          rw [ScanState.startNow_of_resting hmoving] at hend ⊢
          rw [ScanState.noteArrival_of_resting hmoving]
          obtain rfl : .resting = gantry := by simpa using hend
          refine ⟨asked, done, ?_⟩
          have hkeep : ({ r with gantry := .resting } : RecordedScan).Recorded asked done :=
            h.keep rfl rfl fun _ => .resting hasked hpoint hmoving rfl hstart
          simpa [hrest] using hkeep
      | travelling hasked hpoint hmoving hgoes =>
          rw [ScanState.startNow_of_moving hmoving] at hraise hend ⊢
          have hread : r.unread = false := by simpa using hraise
          have hrest : r.gantry = .moving := by
            cases hg : r.gantry with
            | resting => exact absurd hg hgoes
            | started => exact absurd hg hstarted
            | moving => rfl
          obtain rfl : .resting = gantry := by simpa [Gantry.observe, run] using hend
          refine ⟨asked, done + 1, ?_⟩
          simpa [hrest] using h.arrives hbor hmoving hread input
  | stopped _ =>
      have hbor : r.state.calledBor = true := hon List.mem_cons_self
      have hready : r.state.ready input = true :=
        hleaves (.inl (by rw [hbor]; exact Bool.false_ne_true))
      obtain ⟨hmoving, hnew⟩ := hsettles hready
      obtain ⟨hrest, hstart⟩ := h.resting hbor hmoving
      obtain ⟨middle, hreading, hend⟩ := run_cons_some _ hgantry
      obtain ⟨-, rfl⟩ := Gantry.observe_false hreading
      rw [ScanState.startNow_of_resting hmoving] at hend ⊢
      rw [ScanState.noteArrival_of_resting hmoving]
      obtain rfl : .resting = gantry := by simpa using hend
      refine ⟨asked, done, ?_⟩
      simpa [hrest] using h.stops hnew hstart
  | requested hbor _ _ =>
      have hready : r.state.ready input = true :=
        hleaves (.inr (by simp [ScanState.moveToNext]))
      obtain ⟨hmoving, hnew⟩ := hsettles hready
      obtain ⟨hrest, -⟩ := h.resting hbor hmoving
      obtain ⟨middle, hreading, hend⟩ := run_cons_some _ hgantry
      obtain ⟨-, rfl⟩ := Gantry.observe_false hreading
      rw [ScanState.startNow_of_resting hmoving] at hend ⊢
      rw [ScanState.noteArrival_of_resting hmoving]
      obtain rfl : .started = gantry := by simpa [Gantry.observe, run] using hend
      refine ⟨asked + 1, done, ?_⟩
      simpa [hrest] using h.requests hbor hmoving hnew

/-- Every event but an iteration that leaves a point too early. -/
theorem Recorded.apply (h : r.Recorded asked done) {event : RecordEvent} {after : RecordedScan}
    (happly : r.apply event = some after)
    (hsettles : ∀ input, event = .frontendLoop input → r.state.Settles input) :
    ∃ asked' done', after.Recorded asked' done' := by
  cases event with
  | endOfRun =>
      obtain rfl := Option.some.inj happly
      exact ⟨asked, done, h.keep rfl rfl fun hbor => absurd hbor Bool.false_ne_true⟩
  | setRunning running =>
      obtain rfl := Option.some.inj happly
      refine ⟨asked, done, h.keep rfl rfl fun hbor => ?_⟩
      cases h.phase hbor with
      | travelling hasked hpoint hmoving hgantry =>
          exact .travelling hasked hpoint hmoving hgantry
      | resting hasked hpoint hmoving hgantry hstart =>
          exact .resting hasked hpoint hmoving hgantry hstart
  | readScanState position =>
      obtain rfl := Option.some.inj happly
      exact ⟨asked, done, h.readScanState position⟩
  | frontendLoop input => exact h.frontendLoop happly (hsettles input rfl)

/-- The scan points stay the same. -/
theorem apply_scanPoints {event : RecordEvent} {after : RecordedScan}
    (h : r.apply event = some after) : after.state.scanPoints = r.state.scanPoints := by
  cases event with
  | endOfRun =>
      obtain rfl := Option.some.inj h
      rfl
  | setRunning running =>
      obtain rfl := Option.some.inj h
      rfl
  | readScanState position =>
      obtain rfl := Option.some.inj h
      rfl
  | frontendLoop input =>
      obtain ⟨-, gantry, -, rfl⟩ := apply_frontendLoop h
      have heffect := r.state.frontendLoop_effect input
      dsimp only
      cases heffect with
      | wait _ _ _ hpoints _ => exact hpoints
      | stop _ _ _ hpoints _ => exact hpoints
      | next _ _ _ _ hpoints _ => exact hpoints

theorem run_scanPoints {events : List RecordEvent} {after : RecordedScan}
    (h : run apply r events = some after) : after.state.scanPoints = r.state.scanPoints :=
  run_invariant apply (fun _ => True) (fun _ _ _ _ happly hq => (apply_scanPoints happly).trans hq)
    (fun _ _ => trivial) h rfl

/-- What is written is what has been requested and has ended. -/
theorem Recorded.bracketed (h : r.Recorded asked done) : r.Bracketed := by
  have hall : (r.banks.filter Bank.isRecord ++ r.state.due).Pairwise Bank.Before := by
    rw [h.written]
    exact (Bank.pairs_ordered asked).sublist (Bank.written_prefix h.order).sublist
  have hrecords : (r.banks.filter Bank.isRecord).Pairwise Bank.Before :=
    hall.sublist (List.sublist_append_left _ _)
  -- once the flags have been read out, everything is written
  have hread (hunread : r.unread = false) :
      r.banks.filter Bank.isRecord = Bank.written asked done := by
    rw [← h.written, h.unread hunread, List.append_nil]
  constructor
  · refine hrecords.sublist (List.monotone_filter_right _ fun bank hbank => ?_)
    cases bank <;> simp_all [Bank.brackets, Bank.isRecord]
  · intro hunread k _ hk
    rw [h.requested] at hk
    obtain ⟨-, hlt⟩ := ScanState.mem_firstIndices hk
    have hrecord : Bank.isRecord (.bonm k) = true := rfl
    rw [← List.count_filter hrecord]
    refine Bank.count_eq_one hrecords ?_
    rw [hread hunread]
    rcases h.order with rfl | rfl
    · rw [Bank.written_self]
      exact Bank.mem_pairs.mpr ⟨k, by omega, .inl rfl⟩
    · rw [Bank.written_succ, List.mem_append, List.mem_singleton]
      by_cases hlast : k = done
      · exact .inr (congrArg _ (congrArg _ hlast))
      · exact .inl (Bank.mem_pairs.mpr ⟨k, by omega, .inl rfl⟩)
  · intro hunread k _ hk
    rw [h.finished] at hk
    obtain ⟨-, hlt⟩ := ScanState.mem_firstIndices hk
    have hrecord : Bank.isRecord (.eom k) = true := rfl
    rw [← List.count_filter hrecord]
    refine Bank.count_eq_one hrecords ?_
    rw [hread hunread]
    exact List.mem_append_left _ (Bank.mem_pairs.mpr ⟨k, by omega, .inr rfl⟩)

/-- Without points there is nothing to bracket. -/
theorem bracketed_of_nil (h : r.state.scanPoints = []) : r.Bracketed := by
  have hlength : r.state.scanPoints.length = 0 := by rw [h, List.length_nil]
  have hnone : r.banks.filter (Bank.brackets r.state.scanPoints.length) = [] := by
    rw [List.filter_eq_nil_iff, hlength]
    intro bank _ hbank
    cases bank <;> simp [Bank.brackets] at hbank <;> omega
  exact
    { ordered := by
        rw [hnone]
        exact .nil
      started := fun _ k hk => absurd hk (by omega)
      ended := fun _ k hk => absurd hk (by omega) }

end RecordedScan

/-- **When every scan point is bracketed.**  In a run in which the gantry moves at requests
only, and each flag is read out before the next one is raised: if the front end never leaves a
point in the iteration that starts the measurement there, nor with the end of the move to it
still to be read out, then in every state the records are in order, and complete when the
flags have been read out. -/
theorem records_bracket (s : ScanState) (points : List (Rat × Rat)) (scanTime : Rat)
    (events : List RecordEvent) (r : RecordedScan)
    (hrun : run RecordedScan.apply (.begin s points scanTime) events = some r)
    (hsettles : points = [] ∨ ∀ pre input post q,
      events = pre ++ .frontendLoop input :: post →
      run RecordedScan.apply (.begin s points scanTime) pre = some q → q.state.Settles input) :
    r.Bracketed := by
  rcases hsettles with hnone | hsettles
  · have hpoints : r.state.scanPoints = [] := (RecordedScan.run_scanPoints hrun).trans hnone
    exact RecordedScan.bracketed_of_nil hpoints
  · let recorded (q : RecordedScan) : Prop := ∃ asked done, q.Recorded asked done
    have hbegin : recorded (.begin s points scanTime) :=
      ⟨0, 0, RecordedScan.begin_recorded s points scanTime⟩
    have hrecorded : recorded r := by
      refine run_invariant_along RecordedScan.apply ?_ hrun hbegin
      rintro pre event post q q' hsplit hpre happly ⟨asked, done, h⟩
      exact h.apply happly fun input hinput => hsettles pre input post q (hinput ▸ hsplit) hpre
    obtain ⟨asked, done, h⟩ := hrecorded
    exact h.bracketed

/-- The front end does not leave a point too early in this step. -/
def RecordEvent.Settles (s : ScanState) : RecordEvent → Prop
  | .frontendLoop input => s.Settles input
  | _ => True

instance (s : ScanState) (e : RecordEvent) : Decidable (e.Settles s) := by
  cases e <;> unfold RecordEvent.Settles <;> infer_instance

/-- Moves to two points, as they should be. -/
def twoMoves : List RecordEvent :=
  [ .frontendLoop ⟨false, 0, 0⟩
  , .readScanState (0, 0)
  , .frontendLoop ⟨true, 0, 0⟩
  , .frontendLoop ⟨false, 1000000000, 1000000000⟩
  , .readScanState (0, 0)
  , .frontendLoop ⟨false, 0, 2000000000⟩
  , .readScanState (0, 0)
  , .frontendLoop ⟨true, 0, 2000000000⟩
  , .frontendLoop ⟨false, 3000000000, 3000000000⟩
  , .readScanState (10, 0) ]

/-- Two points; a second passes between the two readings of the clock in the iteration that
starts the measurement at the first one. -/
def stalledScan : List RecordEvent :=
  [ .frontendLoop ⟨false, 0, 0⟩
  , .readScanState (0, 0)
  , .frontendLoop ⟨true, 0, 0⟩
  , .frontendLoop ⟨false, 1000000000, 2000000000⟩
  , .readScanState (0, 0) ]

/-- One point; the end of the move to the point behind it is read out when the run has been
stopped. -/
def lateScan : List RecordEvent :=
  [ .frontendLoop ⟨false, 0, 0⟩
  , .readScanState (0, 0)
  , .frontendLoop ⟨true, 0, 0⟩
  , .frontendLoop ⟨false, 1000000000, 1000000000⟩
  , .readScanState (0, 0)
  , .frontendLoop ⟨false, 0, 2000000000⟩
  , .readScanState (0, 0)
  , .frontendLoop ⟨true, 0, 0⟩
  , .frontendLoop ⟨false, 3000000000, 3000000000⟩
  , .frontendLoop ⟨false, 0, 4000000000⟩
  , .readScanState (0, 0) ]

/-- The move to each point is recorded by its beginning and its end. -/
theorem records_bracket_twoMoves :
    ∃ r, run RecordedScan.apply (.begin .init [(0, 0), (10, 0)] 0) twoMoves = some r ∧
      r.Bracketed ∧ r.banks.filter Bank.isRecord = [.bonm 0, .eom 0, .bonm 1, .eom 1] := by
  let start : RecordedScan := .begin .init [(0, 0), (10, 0)] 0
  obtain ⟨r, hrun⟩ := Option.isSome_iff_exists.mp (show
    (run RecordedScan.apply start twoMoves).isSome = true by decide +kernel)
  have hrecords : ∀ r ∈ run RecordedScan.apply start twoMoves,
      r.banks.filter Bank.isRecord = [.bonm 0, .eom 0, .bonm 1, .eom 1] := by
    decide +kernel
  refine ⟨r, hrun, records_bracket .init [(0, 0), (10, 0)] 0 twoMoves r hrun (.inr ?_),
    hrecords r hrun⟩
  have hsettles : ∀ k < twoMoves.length, ∀ q ∈ run RecordedScan.apply start (twoMoves.take k),
      ∀ e ∈ twoMoves[k]?, e.Settles q.state := by
    decide +kernel
  intro pre input post q hsplit hpre
  have htake : twoMoves.take pre.length = pre := by rw [hsplit, List.take_left]
  have hget : twoMoves[pre.length]? = some (.frontendLoop input) := by
    rw [hsplit, List.getElem?_append_right le_rfl, Nat.sub_self]
    rfl
  have hlength : pre.length < twoMoves.length := by simp [hsplit]
  exact hsettles pre.length hlength q (htake.symm ▸ hpre) _ hget

/-- The records, and what is missing or written twice. -/
theorem records_mislabelled :
    (∃ r, run RecordedScan.apply (.begin .init [(0, 0), (10, 0)] 0) stalledScan = some r ∧
      r.banks.filter Bank.isRecord = [.bonm 0, .eom 1, .bonm 1] ∧ ¬r.Bracketed) ∧
    ∃ r, run RecordedScan.apply (.begin .init [(0, 0)] 0) lateScan = some r ∧
      r.banks.filter Bank.isRecord = [.bonm 0, .eom 0, .bonm 1, .eom 0] ∧ ¬r.Bracketed := by
  -- the records of the first point are not one of a kind
  have hwrong {points : List (Rat × Rat)} {events : List RecordEvent} {records : List Bank}
      (hsome : (run RecordedScan.apply (.begin .init points 0) events).isSome = true)
      (h : ∀ r ∈ run RecordedScan.apply (.begin .init points 0) events,
        r.banks.filter Bank.isRecord = records ∧ r.unread = false ∧
          0 < r.state.scanPoints.length ∧ 0 ∈ r.finished ∧ r.banks.count (.eom 0) ≠ 1) :
      ∃ r, run RecordedScan.apply (.begin .init points 0) events = some r ∧
        r.banks.filter Bank.isRecord = records ∧ ¬r.Bracketed := by
    obtain ⟨r, hrun⟩ := Option.isSome_iff_exists.mp hsome
    obtain ⟨hrecords, hread, hpoints, hfinished, hcount⟩ := h r hrun
    exact ⟨r, hrun, hrecords, fun hbracketed => hcount (hbracketed.ended hread 0 hpoints hfinished)⟩
  exact ⟨hwrong (by decide +kernel) (by decide +kernel),
    hwrong (by decide +kernel) (by decide +kernel)⟩

end MpmtTestStand.Ports
