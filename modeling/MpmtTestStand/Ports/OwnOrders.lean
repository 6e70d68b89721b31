import MpmtTestStand.Ports.LinkHistory
import MpmtTestStand.Ports.ServiceEnd

/-!
# The controller on its own

Between two commands the controller gives itself the orders (`Order.Own`), and from
each mode there are few ways to go on.  A command has its effect by the end of its
service; what follows is a run on own orders (`Recorder.Reached.on_its_own`).
-/

namespace MpmtTestStand.Ports

open MpmtTestStand.Verified
open MpmtTestStand.Verified.Run

namespace MPMTTestStand

/-! ## Orders -/

/-- The orders that the controller gives itself. -/
def Order.Own : Order → Prop
  | .arrived | .blocked | .bothHome | .homed => True
  | .stop | .home | .move => False

section Orders

variable {mode : Mode} {orders : List Order}

/-- In these modes the controller waits for a command. -/
theorem Mode.own_waits {start : Mode} (hstart : start = .idle ∨ start = .fault)
    (hown : ∀ o ∈ orders, o.Own) (hrun : Run.run Mode.next start orders = some mode) :
    orders = [] := by
  cases orders with
  | nil => rfl
  | cons o orders =>
      have ho : o.Own := hown o (by simp)
      rw [run_cons] at hrun
      rcases hstart with rfl | rfl <;> cases o <;> first | exact ho.elim | cases hrun

/-- Part B of the homing routine goes on until it is over. -/
theorem Mode.own_homingB (hown : ∀ o ∈ orders, o.Own)
    (hrun : Run.run Mode.next .homingB orders = some mode) :
    mode = .homingB ∨ (mode = .idle ∧ .homed ∈ orders) := by
  cases orders with
  | nil => exact .inl (Option.some.inj hrun).symm
  | cons o orders =>
      have ho : o.Own := hown o (by simp)
      rw [run_cons] at hrun
      cases o with
      | homed =>
          obtain rfl := own_waits (.inl rfl) (fun o ho => hown o (by simp [ho])) hrun
          exact .inr ⟨(Option.some.inj hrun).symm, by simp⟩
      | stop | home | move => exact ho.elim
      | arrived | blocked | bothHome => cases hrun

/-- Part A ends at both home switches or in a fault. -/
theorem Mode.own_homingA (hown : ∀ o ∈ orders, o.Own)
    (hrun : Run.run Mode.next .homingA orders = some mode) :
    mode = .homingA ∨ mode = .fault ∨ mode = .homingB ∨
      (mode = .idle ∧ .bothHome ∈ orders ∧ .homed ∈ orders) := by
  cases orders with
  | nil => exact .inl (Option.some.inj hrun).symm
  | cons o orders =>
      have ho : o.Own := hown o (by simp)
      have hrest : ∀ o ∈ orders, o.Own := fun o ho => hown o (by simp [ho])
      rw [run_cons] at hrun
      cases o with
      | bothHome =>
          refine .inr (.inr ?_)
          rcases own_homingB hrest hrun with hmode | ⟨hmode, hhomed⟩
          · exact .inl hmode
          · exact .inr ⟨hmode, by simp, by simp [hhomed]⟩
      | blocked =>
          obtain rfl := own_waits (.inr rfl) hrest hrun
          exact .inr (.inl (Option.some.inj hrun).symm)
      | stop | home | move => exact ho.elim
      | arrived | homed => cases hrun

/-- Where no homing routine is begun, a MOVE ends with its arrival or in a fault. -/
theorem Mode.moved {start : Mode} (hstart : start = .moving ∨ start = .idle ∨ start = .fault)
    (horders : ∀ o ∈ orders, o ≠ .home ∧ o ≠ .stop)
    (hrun : Run.run Mode.next start orders = some mode) :
    (mode = .moving ∨ mode = .idle ∨ mode = .fault) ∧
      (mode = .idle → start = .idle ∨ .arrived ∈ orders) := by
  induction orders generalizing start with
  | nil =>
      obtain rfl : start = mode := Option.some.inj hrun
      exact ⟨hstart, .inl⟩
  | cons o orders ih =>
      obtain ⟨hhome, hstop⟩ := horders o (by simp)
      have hrest : ∀ o ∈ orders, o ≠ .home ∧ o ≠ .stop := fun o ho => horders o (by simp [ho])
      rw [run_cons] at hrun
      cases hnext : start.next o with
      | none =>
          rw [hnext] at hrun
          cases hrun
      | some next =>
          rw [hnext] at hrun
          have hgoes : (next = .moving ∨ next = .idle ∨ next = .fault) ∧
              (next = .idle → o = .arrived) := by
            rcases hstart with rfl | rfl | rfl <;> cases o <;>
              simp_all only [Mode.next, Option.some.injEq, reduceCtorEq, ne_eq, not_true_eq_false,
                not_false_eq_true] <;> subst hnext <;> simp
          obtain ⟨hmode, harrived⟩ := ih hgoes.1 hrest hrun
          refine ⟨hmode, fun hidle => .inr ?_⟩
          rcases harrived hidle with hnext | hmem
          · exact List.mem_cons.mpr (.inl (hgoes.2 hnext).symm)
          · exact List.mem_cons_of_mem _ hmem

end Orders

/-! ## Histories -/

/-- A list up to its last element of a kind. -/
theorem split_last {α : Type} {P : α → Prop} {xs : List α} (h : ∃ x ∈ xs, P x) :
    ∃ front x back, xs = front ++ x :: back ∧ P x ∧ ∀ y ∈ back, ¬P y := by
  induction xs with
  | nil => simp at h
  | cons a xs ih =>
      by_cases hrest : ∃ x ∈ xs, P x
      · obtain ⟨front, x, back, rfl, hx, hback⟩ := ih hrest
        exact ⟨a :: front, x, back, rfl, hx, hback⟩
      · refine ⟨[], a, xs, rfl, ?_, fun y hy hP => hrest ⟨y, hy, hP⟩⟩
        obtain ⟨x, hx, hP⟩ := h
        rcases List.mem_cons.mp hx with rfl | hx
        · exact hP
        · exact absurd ⟨x, hx, hP⟩ hrest

section Histories

variable {history : List Entry}

/-- The entry of an operation. -/
theorem actedOps_split {later earlier : List Acted} {a : Acted}
    (h : actedOps history = later ++ a :: earlier) :
    ∃ new b old, history = new ++ ⟨b, .acted a⟩ :: old ∧ actedOps new = later ∧
      actedOps old = earlier := by
  obtain ⟨new, rest, rfl, hnew, hrest⟩ := List.filterMap_eq_append_iff.mp h
  obtain ⟨quiet, e, old, rfl, hquiet, he, hold⟩ := List.filterMap_eq_cons_iff.mp hrest
  obtain ⟨b, ev⟩ := e
  cases ev with
  | acted a' =>
      obtain rfl : a' = a := Option.some.inj he
      refine ⟨new ++ quiet, b, old, by simp, ?_, hold⟩
      rw [actedOps_append, show actedOps quiet = [] from List.filterMap_eq_nil_iff.mpr hquiet,
        List.append_nil]
      exact hnew
  | round | interrupt => cases he

theorem mem_actedOps {b : TestStand} {a : Acted} (h : ⟨b, .acted a⟩ ∈ history) :
    a ∈ actedOps history := List.mem_filterMap.mpr ⟨_, h, rfl⟩

theorem of_mem_actedOps {a : Acted} (h : a ∈ actedOps history) :
    ∃ b, ⟨b, .acted a⟩ ∈ history := by
  obtain ⟨⟨b, ev⟩, hmem, hacted⟩ := List.mem_filterMap.mp h
  cases ev with
  | acted a' =>
      obtain rfl : a' = a := Option.some.inj hacted
      exact ⟨b, hmem⟩
  | round | interrupt => cases hacted

/-- What is served was dispatched since, or served before. -/
theorem served_append {new old : List Entry} {p : Packet} (h : served (new ++ old) = some p) :
    served old = some p ∨ ∃ a ∈ actedOps new, a.dispatch? = some p := by
  induction new with
  | nil => exact .inl h
  | cons e new ih =>
      by_cases hends : e.event.EndsService
      · obtain ⟨b, ev⟩ := e
        cases ev with
        | round => cases h
        | interrupt id e => exact hends.elim
        | acted a =>
            obtain ⟨o, r⟩ := a
            cases o with
            | dispatch q => exact .inr ⟨⟨.dispatch q, r⟩, by simp [actedOps, Entry.acted?], h⟩
            | _ => exact hends.elim
      · rw [List.cons_append, served_of_goes hends] at h
        refine (ih h).imp_right ?_
        rintro ⟨a, ha, hdispatch⟩
        obtain ⟨b, hb⟩ := of_mem_actedOps ha
        exact ⟨a, mem_actedOps (List.mem_cons_of_mem _ hb), hdispatch⟩

/-- The end of a service changes nothing. -/
theorem Happening.EndsService.mode_eq {ev : Happening} {s s' : TestStand} (hev : ev.EndsService)
    (h : Happens s ev s') : s'.mode = s.mode := by
  cases ev with
  | round => exact h.mode_eq (by simp) (by simp)
  | interrupt id e => exact hev.elim
  | acted a =>
      obtain ⟨o, r⟩ := a
      cases o with
      | dispatch p => rw [h.dispatch]
      | _ => exact hev.elim

/-- After a message has been dispatched, and others since: the end of its service. -/
theorem service_over {later earlier : List Acted} {p : Packet}
    (h : actedOps history = later ++ ⟨.dispatch p, ()⟩ :: earlier)
    (hdispatch : ∃ a ∈ later, ∃ q, a.dispatch? = some q) :
    ∃ since e mid b old, history = since ++ e :: (mid ++ ⟨b, .acted ⟨.dispatch p, ()⟩⟩ :: old) ∧
      actedOps (since ++ e :: mid) = later ∧ e.event.EndsService ∧
      served (mid ++ ⟨b, .acted ⟨.dispatch p, ()⟩⟩ :: old) = some p := by
  obtain ⟨new, b, old, rfl, hnew, -⟩ := actedOps_split h
  have hends : ∃ x ∈ new, x.event.EndsService := by
    obtain ⟨a, ha, q, hq⟩ := hdispatch
    obtain ⟨b', hb'⟩ := of_mem_actedOps (hnew ▸ ha)
    refine ⟨_, hb', ?_⟩
    obtain ⟨o, r⟩ := a
    cases o with
    | dispatch q => trivial
    | _ => cases hq
  obtain ⟨since, e, mid, rfl, he, hmid⟩ := split_last hends
  refine ⟨since, e, mid, b, old, by simp, hnew, he, ?_⟩
  clear hnew h hends
  induction mid with
  | nil => rfl
  | cons x mid ih =>
      rw [List.cons_append, served_of_goes (hmid x (by simp))]
      exact ih fun y hy => hmid y (by simp [hy])

end Histories

/-! ## Runs -/

section Runs

variable {conf : Config} {cal : Calibration} {m : Recorder} {since older : List Entry} {e : Entry}

/-- Orders of others need a message. -/
theorem Obeys.own {s0 s : TestStand} {orders : List Order} (h : Obeys s0 older since s orders)
    (hnone : ∀ new old, since = new ++ old → ∀ p, served (old ++ older) = some p →
      ¬Consequential p.id) : ∀ o ∈ orders, o.Own := by
  intro o ho
  obtain ⟨new, e, old, s', rfl, -, hwarranted⟩ := h.given ho
  have hno : ∀ p, served (old ++ older) = some p → ¬Consequential p.id :=
    hnone (new ++ [e]) old (by simp)
  cases o with
  | stop =>
      obtain ⟨⟨p, hp, hid⟩, -⟩ := hwarranted
      exact hno p hp (.inr (.inr hid))
  | home =>
      obtain ⟨p, hp, hid⟩ := hwarranted
      exact hno p hp (.inl hid)
  | move =>
      obtain ⟨⟨p, hp, hid⟩, -⟩ := hwarranted
      exact hno p hp (.inr (.inl hid))
  | arrived | blocked | bothHome | homed => trivial

/-- **After the end of a service** the controller goes on by its own orders, as long as
no command is dispatched. -/
theorem Recorder.Reached.on_its_own (hm : Recorder.Reached conf cal m)
    (hsplit : m.history = since ++ e :: older) (he : e.event.EndsService)
    (hnone : ∀ a ∈ actedOps (since ++ [e]), ∀ p, a.dispatch? = some p → ¬Consequential p.id) :
    ∃ s0 orders, Obeys s0 (e :: older) since m.controller.stand orders ∧
      (∀ o ∈ orders, o.Own) ∧
      Run.run Mode.next e.before.mode orders = some m.controller.stand.mode := by
  have hleads := hm.leads
  rw [hsplit] at hleads
  obtain ⟨s0, -, hend, hsince⟩ := hleads.entry
  obtain ⟨orders, hobeys⟩ := hm.obeys hsplit hsince
  refine ⟨s0, orders, hobeys, hobeys.own ?_, ?_⟩
  · rintro new old rfl p hp
    have hp : served (old ++ e :: older) = some p := hp
    rcases served_append hp with hserved | ⟨a, ha, hdispatch⟩
    · obtain ⟨b, ev⟩ := e
      cases ev with
      | round => cases hserved
      | interrupt id e => exact he.elim
      | acted a =>
          obtain ⟨o, r⟩ := a
          cases o with
          | dispatch q =>
              refine hnone ⟨.dispatch q, r⟩ (mem_actedOps (b := b) ?_) p hserved
              exact List.mem_append_right _ (List.mem_singleton_self _)
          | _ => exact he.elim
    · refine hnone a ?_ p hdispatch
      simp only [actedOps_append, List.mem_append]
      exact .inl (.inr ha)
  · rw [← he.mode_eq hend]
    exact hobeys.run

end Runs

end MPMTTestStand

end MpmtTestStand.Ports
