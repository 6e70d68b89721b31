import MpmtTestStand.Ports.FrameGrammar
import MpmtTestStand.Ports.TransportBounds
import Mathlib.Order.Bounds.Basic

/-!
# How long the receiver can be inside a frame

Noise on the line may begin a frame, and the length of that frame comes from the wire too.
A receiver inside a frame has read 260 bytes of it at most (`Partial.length_le`), and every
byte either belongs to the frame or ends it, so the receiver is back at `MSG_SEG_START` after
260 bytes, whatever they are, and for the longest frame no sooner (`leavesWithin_least`).
-/

namespace MpmtTestStand.Ports

open MpmtTestStand.Verified

/-- `MSG_SEG_START` is the segment that the receiver is in. -/
def Receiver.OutsideFrame (r : Receiver) : Prop :=
  r.transport.pendingMessage.currentSegment = .segStart

/-- The receiver once it has read the bytes. -/
def Receiver.readBytes (r : Receiver) (bytes : List UInt8) : Receiver :=
  (Mealy.feed Receiver.receive r bytes).1

/-- A receiver that some sequence of calls gets to, or that is met while a call is under
way. -/
def Receiver.Reachable (r : Receiver) : Prop :=
  ∃ r0 call, TransportCall.Reached r0 ∧ TransportCall.During r0 call r

/-- From inside a frame, `m` bytes lead out of it, for every reachable receiver and whatever
comes in. -/
def LeavesWithin (m : Nat) : Prop :=
  ∀ r : Receiver, r.Reachable → ¬r.OutsideFrame → ∀ bytes : List UInt8, m ≤ bytes.length →
    ∃ k ≤ m, (r.readBytes (bytes.take k)).OutsideFrame

/-- The bytes that a receiver can have read of one frame. -/
theorem Partial.length_le {r : Receiver} {tail : List UInt8} (h : Partial r tail) :
    tail.length ≤ 260 := by
  have hpayload (msg : ReceivedMessage) : msg.packet.payload.length < 256 := msg.packet.fits
  cases h with
  | start | id | length => simp
  | data msg n hn =>
      have hlt := msg.length.toNat_lt
      simp only [List.length_cons, List.length_take]
      omega
  | crcLow msg | crcHigh msg | stop msg =>
      have := hpayload msg
      simp only [List.length_cons, List.length_append, List.length_nil]
      omega

/-- A frame of which `tail` has been read ends when 261 bytes of it have been, or before. -/
theorem Partial.leaves {r : Receiver} {tail : List UInt8} (h : Partial r tail)
    (hinside : tail ≠ []) (bytes : List UInt8) (hlen : 261 ≤ tail.length + bytes.length) :
    ∃ k, tail.length + k ≤ 261 ∧ (r.readBytes (bytes.take k)).OutsideFrame := by
  induction bytes generalizing r tail with
  | nil =>
      have hle := h.length_le
      rw [List.length_nil] at hlen
      omega
  | cons b bytes ih =>
      have heffect := readByte_partial h b
      generalize hread : r.readByte b = after at heffect
      cases heffect with
      | junk htail => exact absurd htail hinside
      | @more r' hmore =>
          have hlong : (tail ++ [b]).length = tail.length + 1 := List.length_append
          rw [List.length_cons] at hlen
          obtain ⟨k, hk, hout⟩ := ih hmore (by simp) (by omega)
          refine ⟨k + 1, by omega, ?_⟩
          have hfirst : (r.readByte b).1 = r' := congrArg Prod.fst hread
          rw [← hfirst] at hout
          exact hout
      | done c0 c1 htail =>
          have hle := h.length_le
          refine ⟨1, by omega, ?_⟩
          have hfirst : (r.readByte b).1 = ⟨.fresh, r.msg⟩ := congrArg Prod.fst hread
          show ((r.readByte b).1).OutsideFrame
          rw [hfirst]
          rfl

/-- The frame with the most payload. -/
def longestFrame : Token :=
  .frame ⟨0, List.replicate 255 0, by rw [List.length_replicate]; decide⟩ 0 0 msgDelimEnd

theorem Token.length_frame (p : Packet) (c0 c1 e : UInt8) :
    (Token.frame p c0 c1 e).word.length = p.payload.length + 6 := by
  simp [Token.word]

theorem length_longestFrame : longestFrame.word.length = 261 := by
  rw [longestFrame, Token.length_frame, List.length_replicate]

/-- The receiver does not leave the longest frame before its last byte. -/
theorem longestFrame_inside {n : Nat} (hpos : 0 < n) (hn : n < 261) :
    ¬(Receiver.fresh.readBytes (longestFrame.word.take n)).OutsideFrame := by
  have hshort : (longestFrame.word.take n).length = n := by
    rw [List.length_take, length_longestFrame]
    omega
  have hunfinished : PrefixCode.Unfinished grammar (longestFrame.word.take n) := by
    refine PrefixCode.unfinished_of_prefix grammar (t := longestFrame) (List.take_prefix _ _) ?_
    rw [hshort]
    exact hn.trans_eq length_longestFrame.symm
  have htok : PrefixCode.Tokenises grammar ([] ++ longestFrame.word.take n) []
      (longestFrame.word.take n) :=
    ⟨rfl, hunfinished⟩
  have hread : Partial (Receiver.fresh.readBytes (longestFrame.word.take n))
      (longestFrame.word.take n) :=
    (feed_of_tokenises (.start _) htok).1
  intro hout
  have hnil := hread.start_iff.1.mp hout
  rw [hnil, List.length_nil] at hshort
  omega

/-- **The receiver leaves every frame within 260 bytes**, and there is no smaller bound. -/
theorem leavesWithin_least : IsLeast {m | LeavesWithin m} 260 := by
  constructor
  · rintro r ⟨r0, call, hreached, hduring⟩ hinside bytes hlen
    obtain ⟨tail, hpartial⟩ := hduring.midFrame hreached.midFrame
    obtain ⟨hstart, -⟩ := hpartial.start_iff
    have hne : tail ≠ [] := fun hnil => hinside (hstart.mpr hnil)
    have hpos : 0 < tail.length := List.length_pos_iff.mpr hne
    obtain ⟨k, hk, hout⟩ := hpartial.leaves hne bytes (by omega)
    exact ⟨k, by omega, hout⟩
  · intro m hleaves
    by_contra hsmall
    -- the receiver has just read the start delimiter of the longest frame
    let r := (Receiver.fresh.readByte msgDelimStart).1
    have hreached : TransportCall.Reached r :=
      .call (.constructed _) (.checkForMessage [.byte msgDelimStart]) rfl
    have hreachable : r.Reachable := ⟨r, .sendMessage ⟨0, 0, []⟩ ⟨[], []⟩, hreached, .sendMessage _ _⟩
    have hrest : longestFrame.word.tail.length = 260 := by
      rw [List.length_tail, length_longestFrame]
    obtain ⟨k, hk, hout⟩ :=
      hleaves r hreachable nofun longestFrame.word.tail (by omega)
    exact longestFrame_inside (n := k + 1) (by omega) (by omega) hout

end MpmtTestStand.Ports
