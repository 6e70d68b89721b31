import MpmtTestStand.Ports.FrameGrammar
import MpmtTestStand.Ports.TransportBounds
import Mathlib.Algebra.GroupWithZero.Nat

/-!
# The timeout of `recv_message`

`recv_message` keeps the time at which it was entered in 32 bits and subtracts it from clock
readings of 64 bits.  What it compares with the timeout is the elapsed time as long as the
clock was below 2^32 ms at entry, and more than every timeout from then on (`expired_iff`):
after 49 days without a restart the function gives up at its first look at the clock.
`timeoutHonoured_iff` says exactly when it nevertheless does what it is meant to do.
-/

namespace MpmtTestStand.Ports

open MpmtTestStand.Verified

/-- A call of `check_for_message` in `recv_message`, and the reading of the clock behind it. -/
abbrev Round : Type := List DeviceAnswer × UInt64

/-! ## What is meant -/

/-- The bytes that a call of `check_for_message` finds, unless a message ends before. -/
def available : List DeviceAnswer → List UInt8
  | .byte b :: rest => b :: available rest
  | _ => []

/-- A good frame is complete with these bytes: one that the receiver has read the beginning
of, or a later one. -/
def Completes (r : Receiver) (bytes : List UInt8) : Prop :=
  ∃ tail ts rest, Partial r tail ∧ PrefixCode.Tokenises grammar (tail ++ bytes) ts rest ∧
    goodFrames ts ≠ []

/-- The clock does not go backwards, from the entry at `start` on. -/
def NonDecreasing (start : UInt64) (rounds : List Round) : Prop :=
  (start :: rounds.map Prod.snd).Pairwise (· ≤ ·)

/-- `recv_message`, entered at `start`, honours its timeout. -/
structure TimeoutHonoured (timeoutMs : UInt32) (start : UInt64) (r : Receiver)
    (rounds : List Round) : Prop where
  /-- it gives up only after a reading later than the timeout -/
  late : ∀ r', recvMessage timeoutMs start r rounds = some (false, r') →
    ∃ before answers millis after, rounds = before ++ (answers, millis) :: after ∧
      recvMessage timeoutMs start r before = none ∧
      start.toNat + timeoutMs.toNat < millis.toNat
  /-- it succeeds if a frame is complete before such a reading -/
  inTime : ∀ before answers millis after, rounds = before ++ (answers, millis) :: after →
    (∀ round ∈ before, round.2.toNat ≤ start.toNat + timeoutMs.toNat) →
    Completes r (before.flatMap (fun round => available round.1) ++ available answers) →
    ∃ r', recvMessage timeoutMs start r rounds = some (true, r')

/-! ## What is compared -/

/-- The test of `recv_message`, for a start time that has been cut to 32 bits. -/
def Expired (timeoutMs : UInt32) (start millis : UInt64) : Prop :=
  millis - start.toUInt32.toUInt64 > timeoutMs.toUInt64

instance (timeoutMs : UInt32) (start millis : UInt64) : Decidable (Expired timeoutMs start millis) :=
  inferInstanceAs (Decidable (millis - start.toUInt32.toUInt64 > timeoutMs.toUInt64))

/-- **What the test compares** is the elapsed time only below 2^32 ms. -/
theorem expired_iff (timeoutMs : UInt32) {start millis : UInt64} (h : start ≤ millis) :
    Expired timeoutMs start millis ↔
      2 ^ 32 ≤ start.toNat ∨ start.toNat + timeoutMs.toNat < millis.toNat := by
  have hle : start.toNat ≤ millis.toNat := UInt64.le_iff_toNat_le.mp h
  have hcut : start.toUInt32.toUInt64.toNat = start.toNat % 2 ^ 32 := by
    rw [UInt32.toNat_toUInt64, UInt64.toNat_toUInt32]
  have hmod : start.toNat % 2 ^ 32 ≤ start.toNat := Nat.mod_le _ _
  have hsub : (millis - start.toUInt32.toUInt64).toNat =
      millis.toNat - start.toNat % 2 ^ 32 := by
    rw [UInt64.toNat_sub_of_le _ _ (UInt64.le_iff_toNat_le.mpr (by omega)), hcut]
  have htimeout := timeoutMs.toNat_lt
  unfold Expired
  rw [gt_iff_lt, UInt64.lt_iff_toNat_lt, hsub, UInt32.toNat_toUInt64]
  omega

/-! ## The rounds -/

/-- A call that delivers nothing has read all that is available. -/
theorem feed_available {r : Receiver} {answers : List DeviceAnswer}
    (h : (checkForMessage r answers).complete = false) :
    Mealy.feed Receiver.receive r (available answers) =
      ((checkForMessage r answers).receiver, []) := by
  induction answers generalizing r with
  | nil => rfl
  | cons answer rest ih =>
      cases answer with
      | nothing => rfl
      | readFailed => rfl
      | byte b =>
          rw [checkForMessage] at h ⊢
          cases hdone : (r.readByte b).2 with
          | true =>
              rw [hdone] at h
              cases h
          | false =>
              rw [hdone, if_neg Bool.false_ne_true] at h
              rw [if_neg Bool.false_ne_true, available]
              have hstep : r.receive b = ((r.readByte b).1, none) := by
                simp [Receiver.receive, hdone]
              rw [Mealy.feed_cons_silent _ hstep]
              exact ih h

/-- A call that finds a complete frame delivers it. -/
theorem complete_of_feed {r : Receiver} {answers : List DeviceAnswer}
    (h : (Mealy.feed Receiver.receive r (available answers)).2 ≠ []) :
    (checkForMessage r answers).complete = true := by
  cases hcomplete : (checkForMessage r answers).complete with
  | true => rfl
  | false =>
      rw [feed_available hcomplete] at h
      exact absurd rfl h

section Rounds

variable {timeoutMs : UInt32} {start : UInt64} {r : Receiver}

theorem recvMessage_cons (answers : List DeviceAnswer) (millis : UInt64) (rounds : List Round) :
    recvMessage timeoutMs start r ((answers, millis) :: rounds) =
      if (checkForMessage r answers).complete then
        some (true, (checkForMessage r answers).receiver)
      else if Expired timeoutMs start millis then
        some (false, ⟨.fresh, (checkForMessage r answers).receiver.msg⟩)
      else recvMessage timeoutMs start (checkForMessage r answers).receiver rounds := rfl

/-- The function gives up at a reading at which its test holds. -/
theorem expired_of_gave_up {rounds : List Round} {r' : Receiver}
    (h : recvMessage timeoutMs start r rounds = some (false, r')) :
    ∃ before answers millis after, rounds = before ++ (answers, millis) :: after ∧
      recvMessage timeoutMs start r before = none ∧ Expired timeoutMs start millis := by
  induction rounds generalizing r with
  | nil => cases h
  | cons round rounds ih =>
      obtain ⟨answers, millis⟩ := round
      rw [recvMessage_cons] at h
      by_cases hcomplete : (checkForMessage r answers).complete = true
      · rw [if_pos hcomplete] at h
        cases h
      · rw [if_neg hcomplete] at h
        by_cases hexpired : Expired timeoutMs start millis
        · exact ⟨[], answers, millis, rounds, rfl, rfl, hexpired⟩
        · rw [if_neg hexpired] at h
          obtain ⟨before, answers', millis', after, rfl, hnone, hlate⟩ := ih h
          refine ⟨(answers, millis) :: before, answers', millis', after, rfl, ?_, hlate⟩
          rw [recvMessage_cons, if_neg hcomplete, if_neg hexpired]
          exact hnone

/-- The function succeeds if a frame is complete before its test holds. -/
theorem received_of_feed {before after : List Round} {answers : List DeviceAnswer}
    {millis : UInt64} (hgoes : ∀ round ∈ before, ¬Expired timeoutMs start round.2)
    (h : (Mealy.feed Receiver.receive r
      (before.flatMap (fun round => available round.1) ++ available answers)).2 ≠ []) :
    ∃ r', recvMessage timeoutMs start r (before ++ (answers, millis) :: after) =
      some (true, r') := by
  induction before generalizing r with
  | nil =>
      rw [List.nil_append, recvMessage_cons, if_pos (complete_of_feed h)]
      exact ⟨_, rfl⟩
  | cons round before ih =>
      obtain ⟨first, now⟩ := round
      rw [List.cons_append, recvMessage_cons]
      by_cases hcomplete : (checkForMessage r first).complete = true
      · rw [if_pos hcomplete]
        exact ⟨_, rfl⟩
      · have hnow : ¬Expired timeoutMs start now := hgoes (first, now) List.mem_cons_self
        have hsilent := feed_available (Bool.eq_false_iff.mpr hcomplete)
        rw [List.flatMap_cons, List.append_assoc, Mealy.feed_append, hsilent,
          List.nil_append] at h
        rw [if_neg hcomplete, if_neg hnow]
        exact ih (fun round hround => hgoes round (List.mem_cons_of_mem _ hround)) h

end Rounds

theorem Completes.feed {r : Receiver} {bytes : List UInt8} (h : Completes r bytes) :
    (Mealy.feed Receiver.receive r bytes).2 ≠ [] := by
  obtain ⟨tail, ts, rest, hpartial, htok, hgood⟩ := h
  have hout := (feed_of_tokenises hpartial htok).2
  intro hnothing
  rw [hnothing] at hout
  exact hgood hout.symm

section Honoured

variable {timeoutMs : UInt32} {start : UInt64} {r : Receiver} {rounds : List Round}

/-- From 2^32 ms on the function looks once; so what it finds has to be a message, or it has to
be late already. -/
theorem TimeoutHonoured.first {answers : List DeviceAnswer} {millis : UInt64}
    (h : TimeoutHonoured timeoutMs start r ((answers, millis) :: rounds))
    (hlarge : 2 ^ 32 ≤ start.toNat) (hreading : start ≤ millis) :
    (checkForMessage r answers).complete = true ∨
      start.toNat + timeoutMs.toNat < millis.toNat := by
  refine or_iff_not_imp_left.mpr fun hcomplete => ?_
  -- the test holds at the first reading, whatever the time that has passed
  have hexpired : Expired timeoutMs start millis :=
    (expired_iff timeoutMs hreading).mpr (.inl hlarge)
  have hgives : recvMessage timeoutMs start r ((answers, millis) :: rounds) =
      some (false, ⟨.fresh, (checkForMessage r answers).receiver.msg⟩) := by
    rw [recvMessage_cons, if_neg hcomplete, if_pos hexpired]
  obtain ⟨before, answers', millis', after, hsplit, hnone, hlate⟩ := h.late _ hgives
  cases before with
  | nil =>
      obtain ⟨hfirst, -⟩ := List.cons.inj hsplit
      obtain ⟨-, rfl⟩ := Prod.mk.inj hfirst
      exact hlate
  | cons round before =>
      obtain ⟨rfl, -⟩ := List.cons.inj hsplit
      rw [recvMessage_cons, if_neg hcomplete, if_pos hexpired] at hnone
      cases hnone

/-- A test that tells how much time has passed is what is wanted. -/
theorem TimeoutHonoured.of_expired (hexpired : ∀ round ∈ rounds,
      (Expired timeoutMs start round.2 ↔ start.toNat + timeoutMs.toNat < round.2.toNat)) :
    TimeoutHonoured timeoutMs start r rounds := by
  constructor
  · intro r' hgave
    obtain ⟨before, answers, millis, after, rfl, hnone, htest⟩ := expired_of_gave_up hgave
    have hmem : (answers, millis) ∈ before ++ (answers, millis) :: after := by simp
    exact ⟨before, answers, millis, after, rfl, hnone, (hexpired _ hmem).mp htest⟩
  · rintro before answers millis after rfl hbefore hcompletes
    refine received_of_feed (fun round hround => ?_) hcompletes.feed
    rw [hexpired round (by simp [hround])]
    exact not_lt.mpr (hbefore round hround)

/-- Nothing but the first round counts, where it ends the wait rightly. -/
theorem TimeoutHonoured.of_first (hfirst : ∀ answers millis rest,
      rounds = (answers, millis) :: rest →
        (checkForMessage r answers).complete = true ∨
          start.toNat + timeoutMs.toNat < millis.toNat) :
    TimeoutHonoured timeoutMs start r rounds := by
  constructor
  · intro r' hgave
    cases rounds with
    | nil => cases hgave
    | cons round rest =>
        obtain ⟨answers, millis⟩ := round
        refine ⟨[], answers, millis, rest, rfl, rfl, ?_⟩
        rcases hfirst answers millis rest rfl with hcomplete | hlate
        · rw [recvMessage_cons, if_pos hcomplete] at hgave
          cases hgave
        · exact hlate
  · rintro before answers millis after rfl hbefore hcompletes
    cases before with
    | nil =>
        exact received_of_feed (fun _ hround => absurd hround List.not_mem_nil) hcompletes.feed
    | cons round before =>
        obtain ⟨first, now⟩ := round
        rcases hfirst first now _ rfl with hcomplete | hlate
        · rw [List.cons_append, recvMessage_cons, if_pos hcomplete]
          exact ⟨_, rfl⟩
        · exact absurd hlate (not_lt.mpr (hbefore _ List.mem_cons_self))

end Honoured

/-- **When the timeout is honoured.**  `recv_message` does what it is meant to do exactly if
the clock is below 2^32 ms when it is entered, or its first call of `check_for_message`
delivers a message, or the first reading is too late anyway. -/
theorem timeoutHonoured_iff (timeoutMs : UInt32) (start : UInt64) (r : Receiver)
    (rounds : List Round) (hclock : NonDecreasing start rounds) :
    TimeoutHonoured timeoutMs start r rounds ↔
      start.toNat < 2 ^ 32 ∨
        ∀ answers millis rest, rounds = (answers, millis) :: rest →
          (checkForMessage r answers).complete = true ∨
            start.toNat + timeoutMs.toNat < millis.toNat := by
  have hreading {round : Round} (hround : round ∈ rounds) : start ≤ round.2 :=
    List.rel_of_pairwise_cons hclock (List.mem_map_of_mem hround)
  constructor
  · intro h
    by_cases hsmall : start.toNat < 2 ^ 32
    · exact .inl hsmall
    · refine .inr fun answers millis rest hrounds => ?_
      subst hrounds
      exact h.first (not_lt.mp hsmall) (hreading List.mem_cons_self)
  · rintro (hsmall | hfirst)
    · refine .of_expired fun round hround => ?_
      rw [expired_iff timeoutMs (hreading hround)]
      omega
    · exact .of_first hfirst

/-- A PING that is complete one millisecond after `recv_message` has been entered, when the
clock stands at 2^32 ms. -/
def pingSoon : List Round :=
  [ ([], 4294967296)
  , ((Packet.basic msgIdPing).frame.map .byte, 4294967297) ]

/-- Below 2^32 ms such a PING is received. -/
theorem timeoutHonoured_iff_ping :
    TimeoutHonoured 1000 5 .fresh [([], 6), ((Packet.basic msgIdPing).frame.map .byte, 7)] :=
  (timeoutHonoured_iff 1000 5 .fresh _ (by unfold NonDecreasing; decide)).mpr (.inl (by decide))

/-- The function gives up at its first look at the clock, when no time has passed, and
does not read the PING. -/
theorem timeout_not_honoured :
    NonDecreasing 4294967296 pingSoon ∧
      recvMessage 1000 4294967296 .fresh pingSoon = some (false, .fresh) ∧
      ¬TimeoutHonoured 1000 4294967296 .fresh pingSoon := by
  have hgives : recvMessage 1000 4294967296 .fresh pingSoon = some (false, .fresh) := rfl
  refine ⟨by unfold NonDecreasing; decide, hgives, fun h => ?_⟩
  obtain ⟨before, answers, millis, after, hsplit, -, hlate⟩ := h.late _ hgives
  have hmem : (answers, millis) ∈ pingSoon := by simp [hsplit]
  -- neither reading is later than a millisecond
  simp only [pingSoon, List.mem_cons, Prod.mk.injEq, List.not_mem_nil, or_false] at hmem
  rcases hmem with ⟨-, rfl⟩ | ⟨-, rfl⟩
  · revert hlate
    decide
  · revert hlate
    decide

end MpmtTestStand.Ports
