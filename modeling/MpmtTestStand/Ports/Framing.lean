import MpmtTestStand.Ports.FrameGrammar

/-!
# Round trip through the wire

`send_message` writes frames, `check_for_message` reads them back.  There is no
byte stuffing: payload bytes may equal either delimiter, and correctness rests
on the length field alone.  The receiving program is modelled with a queue to
which chunks of arbitrary size are added between calls, so that a call may end
anywhere inside a frame and one chunk may hold several frames.
-/

namespace MpmtTestStand.Ports

open MpmtTestStand.Verified

/-- Calls made so far: what they delivered, the receiver, the unread bytes. -/
structure ChunksResult where
  delivered : List ReceivedMessage
  receiver : Receiver
  queue : List UInt8
  deriving DecidableEq, Repr

/-- One call of `check_for_message` per chunk; the chunk becomes available
before the call. -/
def checkChunks (r : Receiver) (queue : List UInt8) :
    List (List UInt8) → ChunksResult
  | [] => ⟨[], r, queue⟩
  | chunk :: chunks =>
      let call := checkForMessage r ((queue ++ chunk).map DeviceAnswer.byte)
      let later := checkChunks call.receiver (bytesOf call.rest) chunks
      ⟨(if call.complete then [call.receiver.msg] else []) ++ later.delivered,
        later.receiver, later.queue⟩

private theorem map_byte (queue : List UInt8) :
    (queue.map DeviceAnswer.byte).map DeviceAnswer.byte? = queue.map some := by
  simp [DeviceAnswer.byte?]

@[simp] theorem bytesOf_map_byte (queue : List UInt8) :
    bytesOf (queue.map DeviceAnswer.byte) = queue := by
  rw [bytesOf, map_byte, Mealy.reduceOption_map_some]

/-- The calls compute the reader on the bytes they consumed. -/
theorem checkChunks_feed (r : Receiver) (queue : List UInt8)
    (chunks : List (List UInt8)) :
    ∃ read, queue ++ chunks.flatten = read ++ (checkChunks r queue chunks).queue ∧
      Mealy.feed Receiver.receive r read =
        ((checkChunks r queue chunks).receiver,
          (checkChunks r queue chunks).delivered) := by
  induction chunks generalizing r queue with
  | nil => exact ⟨[], by simp [checkChunks], rfl⟩
  | cons chunk chunks ih =>
      let call := checkForMessage r ((queue ++ chunk).map DeviceAnswer.byte)
      obtain ⟨first, hfirst, hcall⟩ := Mealy.poll_feed Receiver.receive r
        (((queue ++ chunk).map DeviceAnswer.byte).map DeviceAnswer.byte?)
      rw [checkForMessage_eq_poll, map_byte, Mealy.reduceOption_map_some] at hfirst
      rw [checkForMessage_eq_poll] at hcall
      obtain ⟨later, hlater, hcalls⟩ := ih call.receiver (bytesOf call.rest)
      refine ⟨first ++ later, ?_, ?_⟩
      · rw [List.flatten_cons, ← List.append_assoc, hfirst, List.append_assoc]
        exact (congrArg (first ++ ·) hlater).trans (List.append_assoc _ _ _).symm
      · rw [Mealy.feed_append, hcall, hcalls]
        simp only [checkChunks, call]
        cases (checkForMessage r ((queue ++ chunk).map DeviceAnswer.byte)).complete <;>
          rfl

theorem checkChunks_append (r : Receiver) (queue : List UInt8)
    (cs ds : List (List UInt8)) :
    (checkChunks r queue (cs ++ ds)).queue =
      (checkChunks (checkChunks r queue cs).receiver
        (checkChunks r queue cs).queue ds).queue := by
  induction cs generalizing r queue with
  | nil => rfl
  | cons c cs ih => exact ih _ _

/-- Calls without new chunks are calls on the queue. -/
theorem checkChunks_idle_eq_polls (n : Nat) (r : Receiver) (queue : List UInt8) :
    (checkChunks r queue (List.replicate n [])).queue.map some =
      (Mealy.polls Receiver.receive n r (queue.map some)).2.2 := by
  induction n generalizing r queue with
  | zero => rfl
  | succ n ih =>
      obtain ⟨unread, hunread⟩ := Mealy.poll_queue_some Receiver.receive r queue
      have hpoll := checkForMessage_eq_poll r (queue.map DeviceAnswer.byte)
      rw [map_byte] at hpoll
      rw [hpoll] at hunread
      dsimp only at hunread
      have hrest : bytesOf (checkForMessage r (queue.map DeviceAnswer.byte)).rest =
          unread := by
        rw [bytesOf, hunread, Mealy.reduceOption_map_some]
      simp only [List.replicate_succ, checkChunks, List.append_nil, Mealy.polls, hpoll,
        hunread, hrest]
      exact ih _ _

/-- More idle calls than there are messages left empty the queue. -/
theorem checkChunks_idle_queue (n : Nat) (r : Receiver) (queue : List UInt8)
    (hn : (Mealy.feed Receiver.receive r queue).2.length < n) :
    (checkChunks r queue (List.replicate n [])).queue = [] := by
  have h := checkChunks_idle_eq_polls n r queue
  rw [Mealy.polls_queue_rest Receiver.receive n r queue hn] at h
  simpa using h

/-- **With enough idle calls everything is read**, and the calls compute the reader on all of
it. -/
theorem checkChunks_all (r : Receiver) (chunks : List (List UInt8)) (idle : Nat)
    (hidle : (Mealy.feed Receiver.receive r chunks.flatten).2.length < idle) :
    (checkChunks r [] (chunks ++ List.replicate idle [])).queue = [] ∧
      Mealy.feed Receiver.receive r chunks.flatten =
        ((checkChunks r [] (chunks ++ List.replicate idle [])).receiver,
          (checkChunks r [] (chunks ++ List.replicate idle [])).delivered) := by
  -- the calls that see the chunks, then the idle ones
  obtain ⟨first, hfirst, hcalls⟩ := checkChunks_feed r [] chunks
  rw [List.nil_append] at hfirst
  have hqueue : (checkChunks r [] (chunks ++ List.replicate idle [])).queue = [] := by
    rw [checkChunks_append]
    refine checkChunks_idle_queue idle _ _ ?_
    rw [hfirst, Mealy.feed_append, hcalls, List.length_append] at hidle
    exact Nat.lt_of_le_of_lt (Nat.le_add_left _ _) hidle
  obtain ⟨read, hread, hfeed⟩ := checkChunks_feed r [] (chunks ++ List.replicate idle [])
  rw [hqueue, List.append_nil, List.nil_append, List.flatten_append] at hread
  have hsame : chunks.flatten = read := by
    rw [← hread]
    simp
  rw [hsame]
  exact ⟨hqueue, hfeed⟩

/-! ## Frames as tokens -/

/-- The frames that `send_message` writes are good frames and nothing else. -/
theorem tokenises_frames (packets : List Packet) :
    PrefixCode.Tokenises grammar (packets.flatMap Packet.frame)
      (packets.map fun p => .frame p 0 0 msgDelimEnd) [] := by
  refine ⟨?_, PrefixCode.unfinished_nil grammar⟩
  rw [List.append_nil, List.flatMap_map]
  exact List.flatMap_congr fun p _ => p.frame_eq

theorem goodFrames_frames (packets : List Packet) :
    goodFrames (packets.map fun p => .frame p 0 0 msgDelimEnd) = packets := by
  induction packets with
  | nil => rfl
  | cons p rest ih => simp [ih]

/-- From the start of a frame, the frames of `packets` deliver `packets` and
leave the receiver at the start of a frame. -/
theorem feed_frames {r : Receiver} (h : Partial r []) (packets : List Packet) :
    Partial (Mealy.feed Receiver.receive r (packets.flatMap Packet.frame)).1 [] ∧
      (Mealy.feed Receiver.receive r (packets.flatMap Packet.frame)).2.map
        ReceivedMessage.packet = packets := by
  have h := feed_of_tokenises h (by simpa using tokenises_frames packets)
  rwa [goodFrames_frames] at h

/-- **Round trip under any fragmentation.**  Messages sent one after the other
are received once each, in order, with identifier, length and payload as sent,
however their bytes are cut into chunks, and the receiver ends where it
started. -/
theorem checkChunks_sendAll (packets : List Packet) (outcomes : List (Option Nat))
    (out : SerialOut) (msg : ReceivedMessage) (chunks : List (List UInt8)) (idle : Nat)
    (hsent : sendAll (packets.map Packet.toMessage) ⟨[], outcomes⟩ = (true, out))
    (hchunks : chunks.flatten = out.wire) (hidle : packets.length < idle) :
    let result := checkChunks ⟨.fresh, msg⟩ [] (chunks ++ List.replicate idle [])
    result.delivered.map (fun m => (m.id, m.length, m.data.toList.take m.length.toNat)) =
        packets.map (fun p => (p.id, p.length, p.payload)) ∧
      result.queue = [] ∧
      result.receiver.transport.pendingMessage.currentSegment = .segStart ∧
      result.receiver.transport.msgInProgress = false := by
  intro result
  have hwire : chunks.flatten = packets.flatMap Packet.frame := by
    rw [hchunks, sendAll_wire hsent, List.nil_append]
  obtain ⟨hstart, hall⟩ := feed_frames (.start msg) packets
  have hlength : (Mealy.feed Receiver.receive ⟨.fresh, msg⟩ chunks.flatten).2.length < idle := by
    have := congrArg List.length hall
    rw [List.length_map] at this
    rwa [hwire, this]
  obtain ⟨hqueue, hfeed⟩ := checkChunks_all ⟨.fresh, msg⟩ chunks idle hlength
  rw [hwire] at hfeed
  rw [hfeed] at hstart hall
  exact ⟨map_fields hall, hqueue, (hstart.start_iff).1.mpr rfl, (hstart.start_iff).2.mpr rfl⟩

/-- An echo request whose payload consists of both delimiters. -/
def delimiterEcho : Packet := ⟨msgIdEcho, [msgDelimStart, msgDelimEnd], by decide⟩

/-- It arrives in four pieces, one of them empty, and is received. -/
theorem checkChunks_sendAll_echo :
    let chunks : List (List UInt8) :=
      [[0x7B, 0x11], [], [2, 0x7B, 0x7D, 0], [0, 0x7D]]
    (checkChunks .fresh [] (chunks ++ List.replicate 2 [])).delivered.map
        (fun m => (m.id, m.length, m.data.toList.take m.length.toNat)) =
      [(msgIdEcho, 2, [msgDelimStart, msgDelimEnd])] := by
  intro chunks
  exact (checkChunks_sendAll [delimiterEcho] [] ⟨delimiterEcho.frame, []⟩
    Receiver.fresh.msg chunks 2 rfl rfl (by decide)).1

end MpmtTestStand.Ports
