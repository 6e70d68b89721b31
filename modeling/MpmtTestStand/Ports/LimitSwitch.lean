import Mathlib.Data.List.Induction
import MpmtTestStand.Ports.AxisInvariant

/-!
# The limit-switch flags and the physical switches

`ls_home_pressed` and `ls_far_pressed` are written by the limit-switch handlers
only, and a handler runs only on an edge of the mode that `setup_interrupts`
attached.  Here the physical levels of both switches are part of the state.  A
transition of a switch that matches its mode makes the handler pending; until
it has run, the switch does not move again, but any other step may happen.

The HOME switch interrupts on both edges, the FAR switch on the pressing edge
only, and neither is sampled at setup.  `tracks_iff` says exactly when the
flags follow the switches nevertheless.
-/

namespace MpmtTestStand.Ports

open MpmtTestStand.Verified.Run

@[simp] theorem Level.not_ne (l : Level) : l.not ≠ l := by cases l <;> decide

@[simp] theorem Level.not_not (l : Level) : l.not.not = l := by cases l <;> rfl

theorem Level.eq_not_of_ne {l m : Level} (h : l ≠ m) : l = m.not := by
  cases l <;> cases m <;> simp_all [Level.not]

/-- The change from `before` to `after` raises an interrupt of this mode. -/
def EdgeMode.fires : EdgeMode → Level → Level → Bool
  | .change, before, after => before ≠ after
  | .falling, before, after => before = .high ∧ after = .low
  | .rising, before, after => before = .low ∧ after = .high

/-- An axis with the physical levels of its switches. -/
structure SwitchedAxis where
  axis : Axis
  home : Level
  far : Level
  homePending : Bool
  farPending : Bool
  deriving DecidableEq, Repr

/-- What can happen: a switch changes its level, a pending handler runs, or any
other step of the axis. -/
inductive SwitchEvent
  | homeTransition
  | farTransition
  | serviceHome
  | serviceFar
  | other (event : AxisEvent)
  deriving DecidableEq, Repr

/-- A limit-switch handler, which runs only when it is pending. -/
def AxisEvent.isLimitSwitch : AxisEvent → Bool
  | .isrLsHome _ => true
  | .isrLsFar _ => true
  | _ => false

namespace SwitchedAxis

/-- The interrupt that a transition of the home switch raises. -/
def homeFires (s : SwitchedAxis) : Bool :=
  match s.axis.modes with
  | some modes => modes.lsHome.fires s.home s.home.not
  | none => false

/-- The interrupt that a transition of the far switch raises. -/
def farFires (s : SwitchedAxis) : Bool :=
  match s.axis.modes with
  | some modes => modes.lsFar.fires s.far s.far.not
  | none => false

def step (s : SwitchedAxis) : SwitchEvent → Option SwitchedAxis
  | .homeTransition =>
      if s.homePending then none
      else some { s with home := s.home.not, homePending := s.homeFires }
  | .farTransition =>
      if s.farPending then none
      else some { s with far := s.far.not, farPending := s.farFires }
  | .serviceHome =>
      if s.homePending then
        some { s with axis := s.axis.handleIsrLsHome s.home, homePending := false }
      else none
  | .serviceFar =>
      if s.farPending then
        some { s with axis := s.axis.handleIsrLsFar s.far, farPending := false }
      else none
  | .other event =>
      if event.isLimitSwitch then none
      else some { s with axis := event.apply s.axis }

/-- `axis_setup` on the zero-initialised axis, at these physical levels. -/
def setup (io : AxisIO) (mech : AxisMech) (home far : Level) : SwitchedAxis where
  axis := Axis.zero.setupAxis io mech
  home := home
  far := far
  homePending := false
  farPending := false

/-- The home switch is physically pressed. -/
def HomePressed (s : SwitchedAxis) : Prop := s.home = s.axis.io.lsPressedLevel

/-- The far switch is physically pressed. -/
def FarPressed (s : SwitchedAxis) : Prop := s.far = s.axis.io.lsPressedLevel

/-- A flag whose handler is not pending agrees with its switch, and `start_axis`
accepts and rejects motions accordingly. -/
structure Tracks (s : SwitchedAxis) : Prop where
  home : s.homePending = false → (s.axis.state.lsHomePressed = true ↔ s.HomePressed)
  far : s.farPending = false → (s.axis.state.lsFarPressed = true ↔ s.FarPressed)
  acceptsHome : s.homePending = false → ∀ motion : AxisMotionSpec,
    motion.dir = .negative → (s.axis.startAxis motion).1 = .ok → ¬s.HomePressed
  acceptsFar : s.farPending = false → ∀ motion : AxisMotionSpec,
    motion.dir = .positive → (s.axis.startAxis motion).1 = .ok → ¬s.FarPressed
  rejectsHome : s.homePending = false → ∀ motion : AxisMotionSpec,
    (s.axis.startAxis motion).1 = .errLsHome → s.HomePressed
  rejectsFar : s.farPending = false → ∀ motion : AxisMotionSpec,
    (s.axis.startAxis motion).1 = .errLsFar → s.FarPressed

end SwitchedAxis

/-! ## Acceptance follows from the flags -/

/-- The answers of `start_axis` that name a switch, and the answer that denies
one, in terms of the flags. -/
theorem Axis.startAxis_flags (axis : Axis) (motion : AxisMotionSpec) :
    ((axis.startAxis motion).1 = .ok →
      (motion.dir = .positive → axis.state.lsFarPressed = false) ∧
        (motion.dir = .negative → axis.state.lsHomePressed = false)) ∧
    ((axis.startAxis motion).1 = .errLsHome → axis.state.lsHomePressed = true) ∧
    ((axis.startAxis motion).1 = .errLsFar → axis.state.lsFarPressed = true) := by
  refine ⟨fun hok => ?_, ?_, ?_⟩
  · rcases axis.startAxis_cases motion with ⟨_, hvalid, -, -⟩ | ⟨hne, -⟩
    · exact (Axis.validateMotion_ok hvalid).2
    · exact absurd hok hne
  all_goals
    unfold Axis.startAxis Axis.validateMotion
    split_ifs <;> simp_all
    split <;> simp

/-- Flags that agree with the switches are all that `Tracks` asks for. -/
theorem SwitchedAxis.Tracks.of_flags {s : SwitchedAxis}
    (home : s.homePending = false →
      (s.axis.state.lsHomePressed = true ↔ s.HomePressed))
    (far : s.farPending = false → (s.axis.state.lsFarPressed = true ↔ s.FarPressed)) :
    s.Tracks where
  home := home
  far := far
  acceptsHome hpending motion hdir hok hpressed := by
    have := ((s.axis.startAxis_flags motion).1 hok).2 hdir
    simp [(home hpending).mpr hpressed] at this
  acceptsFar hpending motion hdir hok hpressed := by
    have := ((s.axis.startAxis_flags motion).1 hok).1 hdir
    simp [(far hpending).mpr hpressed] at this
  rejectsHome hpending motion herr :=
    (home hpending).mp ((s.axis.startAxis_flags motion).2.1 herr)
  rejectsFar hpending motion herr :=
    (far hpending).mp ((s.axis.startAxis_flags motion).2.2 herr)

/-! ## Steps -/

/-- What no step other than a limit-switch handler changes. -/
structure SameSwitches (a b : Axis) : Prop where
  io : b.io = a.io
  modes : b.modes = a.modes
  home : b.state.lsHomePressed = a.state.lsHomePressed
  far : b.state.lsFarPressed = a.state.lsFarPressed

theorem AxisEvent.apply_sameSwitches (axis : Axis) (event : AxisEvent)
    (h : event.isLimitSwitch = false) : SameSwitches axis (event.apply axis) := by
  cases event with
  | start motion =>
      rcases axis.startAxis_cases motion with ⟨profile, -, -, hstart⟩ | ⟨-, hsame⟩
      · simp only [AxisEvent.apply, hstart]
        exact ⟨rfl, rfl, rfl, rfl⟩
      · simp only [AxisEvent.apply, hsame]
        exact ⟨rfl, rfl, rfl, rfl⟩
  | stop => exact ⟨rfl, rfl, rfl, rfl⟩
  | reset => exact ⟨rfl, rfl, rfl, rfl⟩
  | isrEncoder =>
      simp only [AxisEvent.apply, Axis.handleIsrEncoder]
      split_ifs <;> exact ⟨rfl, rfl, rfl, rfl⟩
  | isrStep =>
      simp only [AxisEvent.apply, Axis.handleIsrStep]
      split_ifs <;> exact ⟨rfl, rfl, rfl, rfl⟩
  | isrAccel =>
      generalize hafter : axis.handleIsrAccel = after
      have heffect := axis.handleIsrAccel_effect
      rw [hafter] at heffect
      simp only [AxisEvent.apply, hafter]
      cases heffect <;> exact ⟨rfl, rfl, rfl, rfl⟩
  | isrLsHome level => simp [AxisEvent.isLimitSwitch] at h
  | isrLsFar level => simp [AxisEvent.isLimitSwitch] at h

namespace SwitchedAxis

/-- The invariant of runs without a release of the far switch: the axis is set
up, and every flag whose handler is not pending agrees with its switch. -/
structure FlagsAgree (io : AxisIO) (s : SwitchedAxis) : Prop where
  io_eq : s.axis.io = io
  modes_eq : s.axis.modes = some
    { enc := .rising
      lsHome := .change
      lsFar := if io.lsPressedLevel = .low then .falling else .rising }
  home : s.homePending = false → (s.axis.state.lsHomePressed = true ↔ s.HomePressed)
  far : s.farPending = false → (s.axis.state.lsFarPressed = true ↔ s.FarPressed)

/-- Every transition of the home switch raises its interrupt. -/
theorem FlagsAgree.homeFires {io : AxisIO} {s : SwitchedAxis} (h : FlagsAgree io s) :
    s.homeFires = true := by
  simp [SwitchedAxis.homeFires, h.modes_eq, EdgeMode.fires, Ne.symm (Level.not_ne s.home)]

/-- A transition of the far switch raises its interrupt exactly when it presses
the switch. -/
theorem FlagsAgree.farFires {io : AxisIO} {s : SwitchedAxis} (h : FlagsAgree io s) :
    s.farFires = true ↔ ¬s.FarPressed := by
  simp only [SwitchedAxis.farFires, h.modes_eq, FarPressed, h.io_eq]
  cases io.lsPressedLevel <;> cases s.far <;> simp [EdgeMode.fires, Level.not]

/-- Every step but a release of the far switch keeps the flags in agreement. -/
theorem FlagsAgree.step {io : AxisIO} {s s' : SwitchedAxis} {event : SwitchEvent}
    (h : FlagsAgree io s) (hstep : s.step event = some s')
    (hrelease : event = .farTransition → ¬s.FarPressed) : FlagsAgree io s' := by
  cases event with
  | homeTransition =>
      simp only [SwitchedAxis.step] at hstep
      split at hstep
      · cases hstep
      · cases hstep
        exact
          { io_eq := h.io_eq
            modes_eq := h.modes_eq
            home := fun hpending => by simp [h.homeFires] at hpending
            far := h.far }
  | farTransition =>
      simp only [SwitchedAxis.step] at hstep
      split at hstep
      · cases hstep
      · cases hstep
        exact
          { io_eq := h.io_eq
            modes_eq := h.modes_eq
            home := h.home
            far := fun hpending => by
              simp [h.farFires.mpr (hrelease rfl)] at hpending }
  | serviceHome =>
      simp only [SwitchedAxis.step] at hstep
      split at hstep
      · cases hstep
        exact
          { io_eq := h.io_eq
            modes_eq := h.modes_eq
            home := fun _ => by
              simp [Axis.handleIsrLsHome, Axis.stopAxis, HomePressed]
            far := h.far }
      · cases hstep
  | serviceFar =>
      simp only [SwitchedAxis.step] at hstep
      split at hstep
      · cases hstep
        exact
          { io_eq := h.io_eq
            modes_eq := h.modes_eq
            home := h.home
            far := fun _ => by
              simp [Axis.handleIsrLsFar, Axis.stopAxis, FarPressed] }
      · cases hstep
  | other event =>
      simp only [SwitchedAxis.step] at hstep
      split at hstep
      · cases hstep
      · rename_i hls
        cases hstep
        have hsame := AxisEvent.apply_sameSwitches s.axis event (by simpa using hls)
        exact
          { io_eq := hsame.io.trans h.io_eq
            modes_eq := hsame.modes.trans h.modes_eq
            home := fun hpending => by
              simpa only [hsame.home, HomePressed, hsame.io] using h.home hpending
            far := fun hpending => by
              simpa only [hsame.far, FarPressed, hsame.io] using h.far hpending }

/-- Only a transition moves the far switch. -/
theorem step_far {s s' : SwitchedAxis} {event : SwitchEvent}
    (hstep : s.step event = some s') :
    s'.far = if event = .farTransition then s.far.not else s.far := by
  cases event <;> simp only [SwitchedAxis.step] at hstep <;> split at hstep <;>
    cases hstep <;> rfl

theorem setup_flagsAgree (io : AxisIO) (mech : AxisMech) {home far : Level}
    (hhome : home ≠ io.lsPressedLevel) (hfar : far ≠ io.lsPressedLevel) :
    FlagsAgree io (setup io mech home far) where
  io_eq := rfl
  modes_eq := rfl
  home _ := by
    constructor
    · intro hflag
      cases hflag
    · exact fun hpressed => absurd hpressed hhome
  far _ := by
    constructor
    · intro hflag
      cases hflag
    · exact fun hpressed => absurd hpressed hfar

/-! ## Runs -/

/-- In a run that moves the far switch at most once, away from released, the
flags agree throughout. -/
theorem run_flagsAgree {io : AxisIO} {s t : SwitchedAxis} {events : List SwitchEvent}
    (hs : FlagsAgree io s) (hcount : events.count .farTransition ≤ 1)
    (hpressed : s.FarPressed → events.count .farTransition = 0)
    (hrun : run SwitchedAxis.step s events = some t) : FlagsAgree io t := by
  induction events generalizing s with
  | nil =>
      obtain rfl : s = t := by simpa using hrun
      exact hs
  | cons event events ih =>
      obtain ⟨s', hstep, htail⟩ := run_cons_some _ hrun
      rw [List.count_cons] at hcount hpressed
      have hs' : FlagsAgree io s' := hs.step hstep (by
        rintro rfl hdown
        simpa using hpressed hdown)
      refine ih hs' (by omega) (fun hdown => ?_) htail
      by_cases hevent : event = .farTransition
      · subst hevent
        simp only [beq_self_eq_true, if_true] at hcount
        omega
      · rw [FarPressed, hs'.io_eq, step_far hstep, if_neg hevent] at hdown
        have := hpressed (by rw [FarPressed, hs.io_eq]; exact hdown)
        omega

/-- An even number of transitions brings the far switch back, an odd number
leaves it at the other level. -/
theorem run_far {s t : SwitchedAxis} {events : List SwitchEvent}
    (hrun : run SwitchedAxis.step s events = some t) :
    t.far = if events.count .farTransition % 2 = 0 then s.far else s.far.not := by
  induction events generalizing s with
  | nil =>
      obtain rfl : s = t := by simpa using hrun
      rfl
  | cons event events ih =>
      obtain ⟨s', hstep, htail⟩ := run_cons_some _ hrun
      rw [ih htail, step_far hstep, List.count_cons]
      by_cases hevent : event = .farTransition
      · simp only [hevent, if_true, beq_self_eq_true, Level.not_not]
        split_ifs <;> first | rfl | omega
      · simp [hevent]

/-- A list with two occurrences of an event has a prefix that ends right before
the second one. -/
theorem exists_second {event : SwitchEvent} {events : List SwitchEvent}
    (h : 2 ≤ events.count event) :
    ∃ pre post, events = pre ++ event :: post ∧ pre.count event = 1 := by
  induction events using List.reverseRecOn with
  | nil => simp at h
  | append_singleton events last ih =>
      by_cases htwo : 2 ≤ events.count event
      · obtain ⟨pre, post, rfl, hpre⟩ := ih htwo
        exact ⟨pre, post ++ [last], by simp, hpre⟩
      · rw [List.count_append, List.count_singleton] at h
        by_cases hlast : last = event
        · subst hlast
          simp only [beq_self_eq_true, if_true] at h
          exact ⟨events, [], rfl, by omega⟩
        · simp only [beq_iff_eq, hlast, if_false] at h
          omega

/-- The configuration of an axis is that of another. -/
def SameConfig (s u : SwitchedAxis) : Prop :=
  u.axis.io = s.axis.io ∧ u.axis.modes = s.axis.modes

theorem SameConfig.step {s u u' : SwitchedAxis} {event : SwitchEvent}
    (hstep : u.step event = some u') (hu : SameConfig s u) : SameConfig s u' := by
  cases event with
  | other event =>
      simp only [SwitchedAxis.step] at hstep
      split at hstep
      · cases hstep
      · rename_i hls
        cases hstep
        have hsame := AxisEvent.apply_sameSwitches u.axis event (by simpa using hls)
        exact ⟨hsame.io.trans hu.1, hsame.modes.trans hu.2⟩
  | _ =>
      simp only [SwitchedAxis.step] at hstep
      split at hstep
      all_goals
        cases hstep
        try exact hu

/-- The configuration is fixed at setup. -/
theorem run_sameConfig {s t : SwitchedAxis} {events : List SwitchEvent}
    (hrun : run SwitchedAxis.step s events = some t) : SameConfig s t :=
  run_invariant SwitchedAxis.step (fun _ => True)
    (fun _ _ _ _ hstep hu => SameConfig.step hstep hu) (fun _ _ => trivial) hrun
    ⟨rfl, rfl⟩

/-- A release of the far switch raises no interrupt. -/
theorem farFires_release {io : AxisIO} {mech : AxisMech} {home far : Level}
    {t : SwitchedAxis} {events : List SwitchEvent}
    (hrun : run SwitchedAxis.step (setup io mech home far) events = some t)
    (hpressed : t.far = io.lsPressedLevel) : t.farFires = false := by
  obtain ⟨hio, hmodes⟩ := run_sameConfig hrun
  rw [SwitchedAxis.farFires, hmodes, hpressed]
  simp only [setup, Axis.setupAxis, Axis.setupInterrupts, Axis.resetAxis, Axis.stopAxis]
  cases io.lsPressedLevel <;> rfl

/-- **When the flags track the switches.**  They do in every state of a run
exactly when both switches are released at setup and the far switch is never
released after having been pressed. -/
theorem tracks_iff (io : AxisIO) (mech : AxisMech) (home far : Level)
    (events : List SwitchEvent) (s : SwitchedAxis)
    (hrun : run SwitchedAxis.step (setup io mech home far) events = some s) :
    (∀ pre post t, events = pre ++ post →
        run SwitchedAxis.step (setup io mech home far) pre = some t → t.Tracks) ↔
      home ≠ io.lsPressedLevel ∧ far ≠ io.lsPressedLevel ∧
        events.count .farTransition ≤ 1 := by
  constructor
  · intro htracks
    have hinit := htracks [] events (setup io mech home far) rfl rfl
    have hhome : home ≠ io.lsPressedLevel := fun h =>
      Bool.noConfusion ((hinit.home rfl).mpr h)
    have hfar : far ≠ io.lsPressedLevel := fun h =>
      Bool.noConfusion ((hinit.far rfl).mpr h)
    refine ⟨hhome, hfar, ?_⟩
    by_contra hcount
    -- the state right before the second transition, and the one right after it
    obtain ⟨pre, post, rfl, hpre⟩ := exists_second (by omega :
      2 ≤ events.count .farTransition)
    rw [run_append] at hrun
    obtain ⟨t, hbefore, hrest⟩ := Option.bind_eq_some_iff.mp hrun
    obtain ⟨u, hstep, -⟩ := run_cons_some _ hrest
    have hpressed : t.far = io.lsPressedLevel := by
      have hodd := run_far hbefore
      rw [hpre, if_neg (by omega)] at hodd
      rw [hodd, Level.eq_not_of_ne hfar]
      exact Level.not_not _
    have hafter : run SwitchedAxis.step (setup io mech home far)
        (pre ++ [.farTransition]) = some u := by
      rw [run_append, hbefore, Option.bind_some, run_cons, hstep]
      rfl
    have hio : t.axis.io = io := (run_sameConfig hbefore).1
    have hfires := farFires_release hbefore hpressed
    simp only [SwitchedAxis.step] at hstep
    split at hstep
    · cases hstep
    · rename_i hidle
      cases hstep
      have hflag := ((htracks pre _ t rfl hbefore).far (by simpa using hidle)).mpr
        (hpressed.trans (by rw [hio]))
      have hagree := ((htracks _ post _ (by simp) hafter).far hfires).mp hflag
      simp [FarPressed, hio, hpressed] at hagree
  · rintro ⟨hhome, hfar, hcount⟩ pre post t rfl hpre
    rw [List.count_append] at hcount
    have hagree := run_flagsAgree (setup_flagsAgree io mech hhome hfar) (by omega)
      (fun h => absurd h hfar) hpre
    exact .of_flags hagree.home hagree.far

/-- A run that presses the home switch and the far switch and releases only the
former. -/
theorem tracks_iff_pressed :
    (∀ pre post t, [.homeTransition, .serviceHome, .farTransition, .homeTransition,
          .serviceFar, .serviceHome] = pre ++ post →
        run SwitchedAxis.step (setup ⟨.low, .low⟩ ⟨500, 800⟩ .high .high) pre = some t →
          t.Tracks) ↔
      Level.high ≠ Level.low ∧ Level.high ≠ Level.low ∧
        [SwitchEvent.homeTransition, .serviceHome, .farTransition, .homeTransition,
          .serviceFar, .serviceHome].count .farTransition ≤ 1 :=
  tracks_iff ⟨.low, .low⟩ ⟨500, 800⟩ .high .high _ _ rfl

/-- Press the far switch, service the interrupt, release the switch: the flag
stays, and motions away from the home switch are refused for good. -/
theorem far_release_not_tracked :
    ∃ s, run SwitchedAxis.step (setup ⟨.low, .low⟩ ⟨500, 800⟩ .high .high)
        [.farTransition, .serviceFar, .farTransition] = some s ∧
      s.homePending = false ∧ s.farPending = false ∧ ¬s.FarPressed ∧
      s.axis.state.lsFarPressed = true ∧
      (s.axis.startAxis ⟨.positive, 100, 10, 1, 75⟩).1 = .errLsFar ∧ ¬s.Tracks := by
  refine ⟨_, rfl, rfl, rfl, ?_, rfl, rfl, fun h => ?_⟩
  · exact (by decide : Level.high ≠ Level.low)
  · exact absurd ((h.far rfl).mp rfl) (by decide : Level.high ≠ Level.low)

end SwitchedAxis

end MpmtTestStand.Ports
