import MpmtTestStand.Ports.AcknowledgedSend
import MpmtTestStand.Ports.Framing
import MpmtTestStand.Verified.Adjacent
import MpmtTestStand.Verified.Restarts

/-!
# Who writes acknowledgements, and how many

A `Tap` records of a link what each side has written on the wire (`wire`) and, from the log
alone, which frames it should have written: one for each `send_message` that is not refused,
one for each message that `check_for_message` or `recv_message` receives and that is not an
acknowledgement itself (`frames`).  The two agree in every run.

What a side acknowledges is bounded by what its peer wrote.  Payload bytes may look like
frames, and a side that gives up a frame on a timeout goes on reading inside it, so the
bound is the number of start delimiters; a side that has never given up a frame acknowledges
no more than the peer's messages.
-/

namespace MpmtTestStand.Ports

open MpmtTestStand.Verified
open MpmtTestStand.Verified.Run
open MpmtTestStand.Verified.Adjacent
open MpmtTestStand.Verified.PrefixCode

/-! ## What should be written -/

/-- A packet that `check_received_msg` acknowledges. -/
abbrev Packet.Answerable (p : Packet) : Prop := ¬(p.id = msgIdAck ∨ p.id = msgIdNack)

/-- A frame that a party writes. -/
inductive Sent
  /-- the message of a `send_message` -/
  | message (p : Packet)
  /-- the acknowledgement of `p` -/
  | ack (p : Packet)
  deriving DecidableEq, Repr

namespace Sent

def packet : Sent → Packet
  | .message p => p
  | .ack _ => ackPacket

def frame (f : Sent) : List UInt8 := f.packet.frame

/-- The packet that is acknowledged. -/
def acked? : Sent → Option Packet
  | .message _ => none
  | .ack p => some p

/-- The message of a `send_message`. -/
def message? : Sent → Option Packet
  | .message p => some p
  | .ack _ => none

end Sent

/-- The packets that a call acknowledges: none inside `send_message`. -/
def answers (call : SessionCall) (what : What) : List Packet :=
  match call, what with
  | .sendMessage _, _ => []
  | _, .received p => if p.Answerable then [p] else []
  | _, _ => []

/-- The frames that a party begins to write in a step: `send_message` writes its message
unless it returns at once. -/
def framesOf (call : SessionCall) (whats : List What) : List Sent :=
  (match call with
    | .sendMessage p => if whats = [.begun] then [.message p] else []
    | _ => []) ++ (whats.flatMap (answers call)).map .ack

/-- The packets that the log says the side `s` acknowledges. -/
def answered (s : Side) (log : List Entry) : List Packet :=
  log.flatMap fun e => if e.side = s then answers e.call e.what else []

/-! ## The tap -/

/-- A link, what each side has written, and the frames that it has begun to write. -/
structure Tap where
  link : Link
  wire : Side → List UInt8
  frames : Side → List Sent

namespace Tap

def init : Tap := ⟨Link.init, fun _ => [], fun _ => []⟩

/-- What the side `s` has written in a step from `l` to `l'`. -/
def written (l l' : Link) (s : Side) : List UInt8 :=
  (l'.station s).party.out.queue.drop (l.station s).party.out.queue.length

/-- What has been logged in a step. -/
def logged (l l' : Link) : List What := (l'.log.drop l.log.length).map Entry.what

/-- A step of the link. -/
def step (t : Tap) (e : Side × StationEvent) : Option Tap :=
  (t.link.step e).map fun l =>
    { link := l
      wire := fun s => if s = e.1 then t.wire s ++ written t.link l s else t.wire s
      frames := fun s =>
        if s = e.1 then t.frames s ++ framesOf (l.station s).call (logged t.link l)
        else t.frames s }

/-- Every run of the link can be tapped. -/
theorem run_link {events : List (Side × StationEvent)} {l : Link} {t : Tap}
    (h : run Link.step t.link events = some l) :
    ∃ t', run step t events = some t' ∧ t'.link = l := by
  induction events generalizing t with
  | nil =>
      obtain rfl : t.link = l := Option.some.inj h
      exact ⟨t, rfl, rfl⟩
  | cons e events ih =>
      obtain ⟨l', hstep, hrest⟩ := run_cons_some Link.step h
      have htap : ∃ t', step t e = some t' ∧ t'.link = l' :=
        ⟨_, Option.map_eq_some_iff.mpr ⟨l', hstep, rfl⟩, rfl⟩
      obtain ⟨t', htap, rfl⟩ := htap
      obtain ⟨t'', hrun, hlink⟩ := ih hrest
      refine ⟨t'', ?_, hlink⟩
      rw [run_cons, htap]
      exact hrun

end Tap

/-! ## One step of a station -/

/-- What a party hears in the transport. -/
inductive Hears (rx : Receiver) (inbox : Channel) : Signal → Channel → List What → Prop
  | wrote : Hears rx inbox .wrote inbox []
  | byte (b : UInt8) (queue : List UInt8) (hqueue : inbox.queue = b :: queue) :
      Hears rx inbox (.byte b) ⟨queue, inbox.got + 1⟩ ((rx.heard b).toList.map .received)
  | quiet : Hears rx inbox .quiet inbox []
  | timeout : Hears rx inbox .timeout inbox
      (if rx.transport.msgInProgress then [.abandoned] else [])

/-- A call that goes on is the same call. -/
theorem Effect.of {rx rx' : Receiver} {a : Activity} {s : Signal} {next : Next}
    {out : List UInt8} {call : SessionCall} (h : Effect rx a s rx' next out) (ha : a.Of call) :
    ∀ b, next = .goes b → b.Of call := by
  intro b hb
  cases h with
  | wrote | wroteLast | acked =>
      cases hb
      cases call <;> trivial
  | more =>
      cases hb
      exact ha
  | received _ _ hreads =>
      cases hb
      rcases hreads with rfl | ⟨t, rfl⟩ <;> cases call <;> trivial
  | ackedLast | sendFailed | ackFailed | stray | acknowledged | notAcknowledged | quiet
  | expired | unanswered => cases hb

/-- **A step of a station in the transport.** -/
theorem Station.step_effect {me peer me' peer' : Station} {a : Option Activity} {e : PartyEvent}
    {whats : List What} (hat : me.At a)
    (h : me.step peer (.transport e) = some (me', peer', whats)) :
    ∃ a₀ s next out ws, a = some a₀ ∧ a₀.Of me.call ∧
      Effect me.party.node.rx a₀ s me'.party.node.rx next out ∧
      Hears me.party.node.rx peer.party.out s peer'.party.out ws ∧
      me'.At next.activity ∧ me'.call = me.call ∧ me'.party.out = me.party.out.push out ∧
      peer'.party.node = peer.party.node ∧ peer'.call = peer.call ∧ whats = ws ++ next.whats := by
  obtain ⟨party', call'⟩ := me'
  obtain ⟨a₀, inbox, heard, rfl, hparty, rfl, rfl, rfl⟩ := Station.step_transport hat h
  obtain ⟨hprog, hof⟩ := hat
  cases Party.step_cases hparty with
  | wrote node data hsignal =>
      obtain ⟨rx, next, heffect, rfl⟩ := Node.signal_effect hprog hsignal
      exact ⟨a₀, _, next, data, [], rfl, hof, heffect, .wrote, .of_next rfl (heffect.of hof), rfl,
        rfl, rfl, rfl, congrArg _ (Next.prog_returned rfl)⟩
  | deliver b queue node data hqueue hsignal =>
      obtain ⟨rx, next, heffect, rfl⟩ := Node.signal_effect hprog hsignal
      have hout : data = [] := by cases heffect <;> rfl
      subst hout
      exact ⟨a₀, _, next, [], _, rfl, hof, heffect, .byte b queue hqueue,
        .of_next rfl (heffect.of hof), rfl, me.party.out.push_nil.symm, rfl, rfl,
        congrArg _ (Next.prog_returned rfl)⟩
  | quiet node data hsignal =>
      obtain ⟨rx, next, heffect, rfl⟩ := Node.signal_effect hprog hsignal
      have hout : data = [] := by
        cases heffect
        rfl
      subst hout
      exact ⟨a₀, _, next, [], _, rfl, hof, heffect, .quiet, .of_next rfl (heffect.of hof), rfl,
        me.party.out.push_nil.symm, rfl, rfl, congrArg _ (Next.prog_returned rfl)⟩
  | timeout node data hsignal =>
      obtain ⟨rx, next, heffect, rfl⟩ := Node.signal_effect hprog hsignal
      have hout : data = [] := by cases heffect <;> rfl
      subst hout
      exact ⟨a₀, _, next, [], _, rfl, hof, heffect, .timeout, .of_next rfl (heffect.of hof), rfl,
        me.party.out.push_nil.symm, rfl, rfl, by
          rw [Next.prog_returned rfl, Node.abandons]
          simp⟩

/-! ## The writer -/

section Writer

variable {rx rx' : Receiver} {inbox inbox' : Channel} {a : Activity} {s : Signal} {next : Next}
  {out : List UInt8} {ws : List What} {call : SessionCall}

theorem answers_of_not_sending (hcall : ∀ p, call ≠ .sendMessage p) (p : Packet) :
    answers call (.received p) = if p.Answerable then [p] else [] := by
  cases call with
  | sendMessage q => exact absurd rfl (hcall q)
  | checkForMessage => rfl
  | recvMessage t => rfl

@[simp] theorem answers_whats (call : SessionCall) (next : Next) :
    next.whats.flatMap (answers call) = [] := by
  cases next with
  | goes b => rfl
  | returns res => cases call <;> rfl

/-- A call under way does not begin. -/
theorem Hears.ne_begun (h : Hears rx inbox s inbox' ws) : ws ++ next.whats ≠ [.begun] := by
  intro heq
  have hmem : What.begun ∈ ws ++ next.whats := by simp [heq]
  rcases List.mem_append.mp hmem with hw | hw
  · cases h with
    | wrote | quiet => simp at hw
    | byte b => simp at hw
    | timeout =>
        split at hw <;> simp at hw
  · cases next <;> simp [Next.whats] at hw

theorem Hears.framesOf_eq (h : Hears rx inbox s inbox' ws) :
    framesOf call (ws ++ next.whats) = (ws.flatMap (answers call)).map .ack := by
  unfold framesOf
  rw [List.flatMap_append, answers_whats, List.append_nil]
  cases call with
  | sendMessage p =>
      show (if ws ++ next.whats = [.begun] then [Sent.message p] else []) ++ _ = _
      rw [if_neg h.ne_begun]
      rfl
  | checkForMessage => rfl
  | recvMessage t => rfl

/-- Reading without completing a message, nothing is acknowledged. -/
theorem Receiver.heard_of_more {b : UInt8} (h : (rx.readByte b).2 = false) :
    rx.heard b = none := by
  rw [Receiver.heard, h]
  rfl

theorem Receiver.heard_of_done {b : UInt8} (h : (rx.readByte b).2 = true) :
    rx.heard b = some (rx.readByte b).1.msg.packet := if_pos h

/-- A call that reads outside `send_message`. -/
theorem Activity.Of.not_sending (ha : a = .polling ∨ ∃ t, a = .receiving t) (h : a.Of call) :
    ∀ p, call ≠ .sendMessage p := by
  rintro p rfl
  rcases ha with rfl | ⟨t, rfl⟩ <;> exact h

/-- Inside `send_message` nothing is acknowledged. -/
theorem flatMap_answers_of_sending (h : Activity.waiting.Of call) (ws : List What) :
    ws.flatMap (answers call) = [] := by
  cases call with
  | sendMessage p => exact List.flatMap_eq_nil_iff.mpr fun _ _ => rfl
  | checkForMessage => exact h.elim
  | recvMessage t => exact h.elim

/-- Giving up a message acknowledges nothing. -/
theorem flatMap_answers_timeout (hears : Hears rx inbox .timeout inbox' ws) :
    ws.flatMap (answers call) = [] := by
  cases hears
  split
  · cases call <;> rfl
  · rfl

/-- **What a step writes**: some of the frame at hand, or it begins the acknowledgement of
the message that it has received. -/
theorem Effect.frames (h : Effect rx a s rx' next out) (hears : Hears rx inbox s inbox' ws)
    (hof : a.Of call) :
    a.unwritten ++ (framesOf call (ws ++ next.whats)).flatMap Sent.frame =
      out ++ next.unwritten := by
  rw [hears.framesOf_eq]
  cases h with
  | wrote | wroteLast | acked | ackedLast =>
      cases hears
      simp [Activity.unwritten]
  | sendFailed | ackFailed => cases hears
  | more a b ha hmore =>
      cases hears
      rw [Receiver.heard_of_more hmore]
      exact List.append_nil _
  | received a b hreads hdone hid =>
      have hsilent : a.unwritten = [] := by
        rcases hreads with rfl | ⟨t, rfl⟩ <;> rfl
      have hanswer : (rx.readByte b).1.msg.packet.Answerable := hid
      cases hears
      rw [Receiver.heard_of_done hdone, hsilent]
      simp only [Option.toList_some, List.map_cons, List.map_nil, List.flatMap_singleton]
      rw [answers_of_not_sending (hof.not_sending hreads), if_pos hanswer]
      rfl
  | stray a b hreads hdone hid =>
      have hsilent : a.unwritten = [] := by
        rcases hreads with rfl | ⟨t, rfl⟩ <;> rfl
      have hanswer : ¬ (rx.readByte b).1.msg.packet.Answerable := not_not.mpr hid
      cases hears
      rw [Receiver.heard_of_done hdone, hsilent]
      simp only [Option.toList_some, List.map_cons, List.map_nil, List.flatMap_singleton]
      rw [answers_of_not_sending (hof.not_sending hreads), if_neg hanswer]
      rfl
  | acknowledged | notAcknowledged =>
      rw [flatMap_answers_of_sending hof]
      rfl
  | quiet =>
      cases hears
      rfl
  | expired | unanswered =>
      rw [flatMap_answers_timeout hears]
      rfl

end Writer

/-! ## The reader -/

/-- A receiver has read the pieces `ps`, and `tail` of an unfinished frame. -/
structure Reads (rx : Receiver) (read : List UInt8) (ps : List (Piece Token UInt8))
    (tail : List UInt8) : Prop where
  bytes : read = symbolsOf grammar ps ++ tail
  within : Partial rx tail

/-- The messages among the tokens that are acknowledged outside `send_message`. -/
def answerables (ps : List (Piece Token UInt8)) : List Packet :=
  (goodFrames (tokensOf ps)).filter fun p => p.Answerable

theorem answerables_append (ps qs : List (Piece Token UInt8)) :
    answerables (ps ++ qs) = answerables ps ++ answerables qs := by
  unfold answerables goodFrames
  rw [tokensOf_append, List.filterMap_append, List.filter_append]

section Reader

variable {rx rx' : Receiver} {read tail : List UInt8} {ps : List (Piece Token UInt8)}
  {inbox inbox' : Channel} {a : Activity} {s : Signal} {next : Next} {out : List UInt8}
  {ws : List What} {call : SessionCall}

/-- A byte continues or completes a piece. -/
theorem Reads.byte (h : Reads rx read ps tail) (b : UInt8) :
    ∃ new tail', Reads (rx.readByte b).1 (read ++ [b]) (ps ++ new) tail' ∧ Whole new ∧
      goodFrames (tokensOf new) = (rx.heard b).toList := by
  have heffect := readByte_partial h.within b
  unfold Receiver.heard
  generalize rx.readByte b = result at heffect ⊢
  cases heffect with
  | junk htail hb =>
      refine ⟨[.word (.junk b hb)], tail, ⟨?_, h.within⟩, .word _, rfl⟩
      rw [h.bytes, symbolsOf_append, htail, List.append_nil, List.append_nil]
      rfl
  | more hmore =>
      refine ⟨[], tail ++ [b], ⟨?_, hmore⟩, nofun, rfl⟩
      rw [h.bytes, List.append_nil, List.append_assoc]
  | done c0 c1 htail =>
      refine ⟨[.word (.frame rx.msg.packet c0 c1 b)], [], ⟨?_, .start rx.msg⟩, .word _, ?_⟩
      · rw [h.bytes, symbolsOf_append, htail, rx.msg.length_eq]
        simp [symbolsOf, Piece.symbols, grammar, Token.word]
      · by_cases hb : b = msgDelimEnd
        · subst hb
          rfl
        · rw [if_neg (by simpa using hb)]
          exact goodFrames_bad _ _ _ hb []

/-- A timeout gives up the frame that is being read, if there is one. -/
theorem Reads.reset (h : Reads rx read ps tail) :
    ∃ new, Reads { rx with transport := .fresh } read (ps ++ new) [] ∧
      (rx.transport.msgInProgress = false → Whole new) ∧ tokensOf new = [] := by
  cases hbusy : rx.transport.msgInProgress with
  | true =>
      refine ⟨[.dropped tail], ⟨?_, .start rx.msg⟩, nofun, rfl⟩
      rw [h.bytes, symbolsOf_append, List.append_nil]
      simp [symbolsOf, Piece.symbols]
  | false =>
      obtain rfl := h.within.start_iff.2.mp hbusy
      refine ⟨[], ⟨?_, .start rx.msg⟩, fun _ => nofun, rfl⟩
      rw [List.append_nil ps]
      exact h.bytes

/-- A message is acknowledged once at most. -/
theorem length_answers_le (call : SessionCall) (p : Packet) :
    (answers call (.received p)).length ≤ ([p].filter fun q => q.Answerable).length := by
  by_cases hp : p.Answerable
  · rw [List.filter_cons_of_pos (by simpa using hp)]
    cases call with
    | sendMessage q => exact Nat.zero_le _
    | checkForMessage | recvMessage t =>
        show (if p.Answerable then [p] else []).length ≤ _
        rw [if_pos hp]
        exact Nat.le_refl 1
  · cases call with
    | sendMessage q => exact Nat.zero_le _
    | checkForMessage | recvMessage t =>
        show (if p.Answerable then [p] else []).length ≤ _
        rw [if_neg hp]
        exact Nat.zero_le _

/-- **What a step reads**, and what of it may be acknowledged. -/
theorem Effect.reads (h : Effect rx a s rx' next out) (hears : Hears rx inbox s inbox' ws)
    (call : SessionCall) (hreads : Reads rx read ps tail) :
    ∃ got new tail', Reads rx' (read ++ got) (ps ++ new) tail' ∧
      inbox.queue = got ++ inbox'.queue ∧ (.abandoned ∉ ws → Whole new) ∧
      (ws.flatMap (answers call)).length ≤ (answerables new).length := by
  cases hears with
  | wrote =>
      have hrx : rx' = rx := by cases h <;> rfl
      subst hrx
      refine ⟨[], [], tail, ?_, rfl, fun _ => nofun, Nat.zero_le _⟩
      rw [List.append_nil, List.append_nil]
      exact hreads
  | quiet =>
      have hrx : rx' = rx := by
        cases h
        rfl
      subst hrx
      refine ⟨[], [], tail, ?_, rfl, fun _ => nofun, Nat.zero_le _⟩
      rw [List.append_nil, List.append_nil]
      exact hreads
  | byte b queue hqueue =>
      have hrx : rx' = (rx.readByte b).1 := by cases h <;> rfl
      subst hrx
      obtain ⟨new, tail', hnew, hwhole, hgood⟩ := hreads.byte b
      refine ⟨[b], new, tail', hnew, hqueue, fun _ => hwhole, ?_⟩
      unfold answerables
      rw [hgood]
      cases rx.heard b with
      | none => exact Nat.zero_le _
      | some p =>
          have hle := length_answers_le call p
          simpa using hle
  | timeout =>
      have hrx : rx' = { rx with transport := .fresh } := by cases h <;> rfl
      subst hrx
      obtain ⟨new, hnew, hwhole, htokens⟩ := hreads.reset
      refine ⟨[], new, [], ?_, rfl, ?_, ?_⟩
      · rw [List.append_nil]
        exact hnew
      · intro hkept
        refine hwhole (Bool.eq_false_iff.mpr fun hbusy => hkept ?_)
        rw [if_pos hbusy]
        exact List.mem_singleton_self _
      · have hears : Hears rx inbox .timeout inbox
            (if rx.transport.msgInProgress then [.abandoned] else []) := .timeout
        rw [flatMap_answers_timeout hears]
        exact Nat.zero_le _

end Reader

/-! ## One step of a station, in total -/

/-- What a step of `me` does to what it writes and reads: it goes from `a` to `a'` and writes
`out`. -/
structure Station.Stepped (me peer me' peer' : Station) (whats : List What)
    (a a' : Option Activity) (out : List UInt8) : Prop where
  at_eq : me'.At a'
  out_eq : me'.party.out = me.party.out.push out
  peer_node : peer'.party.node = peer.party.node
  peer_call : peer'.call = peer.call
  frames : unwrittenAt a ++ (framesOf me'.call whats).flatMap Sent.frame = out ++ unwrittenAt a'
  reads : ∀ read ps tail, Reads me.party.node.rx read ps tail →
    ∃ got new tail', Reads me'.party.node.rx (read ++ got) (ps ++ new) tail' ∧
      peer.party.out.queue = got ++ peer'.party.out.queue ∧ (.abandoned ∉ whats → Whole new) ∧
      (whats.flatMap (answers me'.call)).length ≤ (answerables new).length

/-- What was written in a step stands at the end of the queue. -/
theorem Station.Stepped.drop_queue {me peer me' peer' : Station} {whats : List What}
    {a a' : Option Activity} {out : List UInt8}
    (h : Station.Stepped me peer me' peer' whats a a' out) :
    me'.party.out.queue.drop me.party.out.queue.length = out := by
  rw [h.out_eq, Channel.push_queue, List.drop_left]

/-- A call that begins to write begins with its message. -/
theorem SessionCall.frames_start (c : SessionCall) (rx : Receiver) :
    (framesOf c (.begun :: (c.start rx).whats)).flatMap Sent.frame =
      (c.start rx).unwritten := by
  cases c with
  | checkForMessage => rfl
  | recvMessage t =>
      cases h : rx.transport.msgInProgress with
      | true => simp [start, h, Next.whats, framesOf, answers]
      | false => simp [start, h, Next.whats, framesOf, answers, Activity.unwritten]
  | sendMessage p =>
      cases h : rx.transport.msgInProgress with
      | true => simp [start, h, Next.whats, framesOf, answers]
      | false =>
          simp [start, h, Next.whats, framesOf, answers, Sent.frame, Sent.packet]

/-- **A step of a station.** -/
theorem Station.step_stepped {me peer me' peer' : Station} {whats : List What}
    {a : Option Activity} {e : StationEvent} (hat : me.At a)
    (h : me.step peer e = some (me', peer', whats)) :
    ∃ a' out, Stepped me peer me' peer' whats a a' out := by
  cases e with
  | call c =>
      obtain ⟨rfl, rfl, rfl, rfl⟩ := Station.step_call hat h
      have hanswers : (What.begun :: (c.start me.party.node.rx).whats).flatMap (answers c) = [] := by
        rw [List.flatMap_cons, answers_whats]
        cases c <;> rfl
      refine ⟨(c.start me.party.node.rx).activity, [], ?_⟩
      exact
        { at_eq := .of_next rfl (c.start_of _)
          out_eq := me.party.out.push_nil.symm
          peer_node := rfl
          peer_call := rfl
          frames := by
            rw [c.frames_start, Next.unwrittenAt_activity]
            rfl
          reads := by
            intro read ps tail hreads
            refine ⟨[], [], tail, ?_, rfl, fun _ => nofun, ?_⟩
            · rw [List.append_nil, List.append_nil]
              exact hreads
            · rw [hanswers]
              exact Nat.zero_le _ }
  | transport e =>
      obtain ⟨a₀, sig, next, out, ws, rfl, hof, heffect, hears, hat', hcall, hout, hnode, hpeer,
        rfl⟩ := Station.step_effect hat h
      refine ⟨next.activity, out, ?_⟩
      exact
        { at_eq := hat'
          out_eq := hout
          peer_node := hnode
          peer_call := hpeer
          frames := by
            rw [hcall, Next.unwrittenAt_activity]
            exact heffect.frames hears hof
          reads := by
            intro read ps tail hreads
            obtain ⟨got, new, tail', hnew, hqueue, hwhole, hle⟩ :=
              heffect.reads hears me'.call hreads
            refine ⟨got, new, tail', hnew, hqueue, fun hkept => hwhole fun hmem => hkept ?_, ?_⟩
            · exact List.mem_append_left _ hmem
            · rw [List.flatMap_append, answers_whats, List.append_nil]
              exact hle }

/-! ## Runs -/

section Log

variable {s : Side} {log : List Entry}

theorem answered_append (new : List Entry) :
    answered s (log ++ new) = answered s log ++ answered s new :=
  List.flatMap_append

/-- The entries of a step of `s`. -/
theorem answered_entries (me peer : Station) (whats : List What) :
    answered s (whats.map (Station.entry s me peer)) = whats.flatMap (answers me.call) := by
  unfold answered
  rw [List.flatMap_map]
  exact List.flatMap_congr fun what _ => if_pos rfl

theorem answered_entries_other (me peer : Station) (whats : List What) :
    answered s.other (whats.map (Station.entry s me peer)) = [] := by
  unfold answered
  rw [List.flatMap_map]
  exact List.flatMap_eq_nil_iff.mpr fun what _ => if_neg s.other_ne.symm

end Log

/-- What is recorded as begun is what is recorded as acknowledged, besides the messages. -/
theorem framesOf_acked (call : SessionCall) (whats : List What) :
    (framesOf call whats).filterMap Sent.acked? = whats.flatMap (answers call) := by
  have hacks : ∀ ps : List Packet, (ps.map Sent.ack).filterMap Sent.acked? = ps := by
    intro ps
    rw [List.filterMap_map]
    exact List.filterMap_some
  unfold framesOf
  rw [List.filterMap_append, hacks]
  cases call with
  | sendMessage p =>
      show (if whats = [.begun] then [Sent.message p] else []).filterMap Sent.acked? ++ _ = _
      split <;> rfl
  | checkForMessage => rfl
  | recvMessage t => rfl

namespace Tap

variable {t t' : Tap} {s : Side} {e : StationEvent} {me peer : Station} {whats : List What}
  {a a' : Option Activity} {out : List UInt8}

/-- A step of the side `s`, and what is recorded of it. -/
structure Moved (t t' : Tap) (s : Side) (me peer : Station) (whats : List What) : Prop where
  me_eq : t'.link.station s = me
  peer_eq : t'.link.station s.other = peer
  log : t'.link.log = t.link.log ++ whats.map (Station.entry s me peer)
  wire : t'.wire s =
    t.wire s ++ me.party.out.queue.drop (t.link.station s).party.out.queue.length
  wire_other : t'.wire s.other = t.wire s.other
  frames : t'.frames s = t.frames s ++ framesOf me.call whats
  frames_other : t'.frames s.other = t.frames s.other

theorem step_moved (h : step t (s, e) = some t') :
    ∃ me peer whats,
      (t.link.station s).step (t.link.station s.other) e = some (me, peer, whats) ∧
        Moved t t' s me peer whats := by
  obtain ⟨l, hlink, rfl⟩ := Option.map_eq_some_iff.mp h
  obtain ⟨me, peer, whats, hs, hme, hpeer, hlog⟩ := Link.step_eq hlink
  have hlogged : logged t.link l = whats := by
    unfold logged
    rw [hlog, List.drop_left, List.map_map]
    exact List.map_id'' (fun _ => rfl) whats
  refine ⟨me, peer, whats, hs, ?_⟩
  exact
    { me_eq := hme
      peer_eq := hpeer
      log := hlog
      wire := by
        show (if s = s then t.wire s ++ written t.link l s else t.wire s) = _
        rw [if_pos rfl, written, hme]
      wire_other := if_neg s.other_ne
      frames := by
        show (if s = s then t.frames s ++ framesOf (l.station s).call (logged t.link l)
          else t.frames s) = _
        rw [if_pos rfl, hlogged, hme]
      frames_other := if_neg s.other_ne }

/-- The side `s` has written its frames, but for the rest of the one at hand. -/
def Writes (t : Tap) (s : Side) : Prop :=
  ∃ a, (t.link.station s).At a ∧
    t.wire s ++ unwrittenAt a = (t.frames s).flatMap Sent.frame

/-- The side `s` has read some of what its peer has written, and has acknowledged no more
than the messages in it.  Unless it has given up a frame it has read whole tokens. -/
def ReadsPeer (t : Tap) (s : Side) : Prop :=
  ∃ read ps tail, Reads (t.link.station s).party.node.rx read ps tail ∧
    t.wire s.other = read ++ (t.link.station s.other).party.out.queue ∧
    ((∀ e ∈ t.link.log, e.side = s → e.what ≠ .abandoned) → Whole ps) ∧
    (answered s t.link.log).length ≤ (answerables ps).length

/-- The invariant of a tapped link. -/
structure Inv (t : Tap) : Prop where
  writes : ∀ s, t.Writes s
  reads : ∀ s, t.ReadsPeer s
  acked : ∀ s, (t.frames s).filterMap Sent.acked? = answered s t.link.log

/-- The side that moves writes. -/
theorem Moved.writes (hmoved : Moved t t' s me peer whats)
    (hstep : (t.link.station s).Stepped (t.link.station s.other) me peer whats a a' out)
    (h : t.wire s ++ unwrittenAt a = (t.frames s).flatMap Sent.frame) : t'.Writes s := by
  refine ⟨a', ?_, ?_⟩
  · rw [hmoved.me_eq]
    exact hstep.at_eq
  · rw [hmoved.wire, hstep.drop_queue, hmoved.frames, List.flatMap_append, ← h,
      List.append_assoc, List.append_assoc, ← hstep.frames]

/-- The other side does not. -/
theorem Moved.writes_other (hmoved : Moved t t' s me peer whats)
    (hstep : (t.link.station s).Stepped (t.link.station s.other) me peer whats a a' out)
    (h : t.Writes s.other) : t'.Writes s.other := by
  obtain ⟨b, hat, hwire⟩ := h
  refine ⟨b, ?_, ?_⟩
  · rw [hmoved.peer_eq]
    cases b with
    | none =>
        obtain ⟨res, hres⟩ := hat
        exact ⟨res, by rw [hstep.peer_node]; exact hres⟩
    | some b => exact ⟨by rw [hstep.peer_node]; exact hat.1, by rw [hstep.peer_call]; exact hat.2⟩
  · rw [hmoved.wire_other, hmoved.frames_other]
    exact hwire

/-- The side that moves reads. -/
theorem Moved.reads (hmoved : Moved t t' s me peer whats)
    (hstep : (t.link.station s).Stepped (t.link.station s.other) me peer whats a a' out)
    (h : t.ReadsPeer s) : t'.ReadsPeer s := by
  obtain ⟨read, ps, tail, hreads, hwire, hwhole, hle⟩ := h
  obtain ⟨got, new, tail', hnew, hqueue, hkept, hanswers⟩ := hstep.reads read ps tail hreads
  refine ⟨read ++ got, ps ++ new, tail', ?_, ?_, ?_, ?_⟩
  · rw [hmoved.me_eq]
    exact hnew
  · rw [hmoved.wire_other, hwire, hqueue, hmoved.peer_eq, List.append_assoc]
  · intro hlog
    rw [hmoved.log] at hlog
    refine (hwhole fun e he => hlog e (List.mem_append_left _ he)).append (hkept fun hmem => ?_)
    have hentry := List.mem_map_of_mem (f := Station.entry s me peer) hmem
    exact hlog _ (List.mem_append_right _ hentry) rfl rfl
  · rw [hmoved.log, answered_append, answered_entries, List.length_append, answerables_append,
      List.length_append]
    omega

/-- The other side does not. -/
theorem Moved.reads_other (hmoved : Moved t t' s me peer whats)
    (hstep : (t.link.station s).Stepped (t.link.station s.other) me peer whats a a' out)
    (h : t.ReadsPeer s.other) : t'.ReadsPeer s.other := by
  obtain ⟨read, ps, tail, hreads, hwire, hwhole, hle⟩ := h
  rw [Side.other_other] at hwire
  refine ⟨read, ps, tail, ?_, ?_, ?_, ?_⟩
  · rw [hmoved.peer_eq, hstep.peer_node]
    exact hreads
  · rw [Side.other_other, hmoved.wire, hmoved.me_eq, hstep.drop_queue, hwire, hstep.out_eq,
      Channel.push_queue, List.append_assoc]
  · intro hlog
    rw [hmoved.log] at hlog
    exact hwhole fun e he => hlog e (List.mem_append_left _ he)
  · rw [hmoved.log, answered_append, answered_entries_other, List.append_nil]
    exact hle

theorem Moved.acked (hmoved : Moved t t' s me peer whats)
    (h : ∀ u, (t.frames u).filterMap Sent.acked? = answered u t.link.log) (u : Side) :
    (t'.frames u).filterMap Sent.acked? = answered u t'.link.log := by
  rw [hmoved.log, answered_append, ← h u]
  rcases s.eq_or_eq_other u with rfl | rfl
  · rw [hmoved.frames, List.filterMap_append, framesOf_acked, answered_entries]
  · rw [hmoved.frames_other, answered_entries_other, List.append_nil]

/-- **A step keeps the invariant.** -/
theorem Inv.step {e : Side × StationEvent} (h : t.Inv) (hstep : t.step e = some t') : t'.Inv := by
  obtain ⟨s, e⟩ := e
  obtain ⟨me, peer, whats, hs, hmoved⟩ := step_moved hstep
  obtain ⟨a, hat, hwire⟩ := h.writes s
  obtain ⟨a', out, hstepped⟩ := Station.step_stepped hat hs
  constructor
  · intro u
    rcases s.eq_or_eq_other u with rfl | rfl
    · exact hmoved.writes hstepped hwire
    · exact hmoved.writes_other hstepped (h.writes _)
  · intro u
    rcases s.eq_or_eq_other u with rfl | rfl
    · exact hmoved.reads hstepped (h.reads _)
    · exact hmoved.reads_other hstepped (h.reads _)
  · exact hmoved.acked h.acked

theorem inv_init : init.Inv where
  writes _ := ⟨none, ⟨_, rfl⟩, rfl⟩
  reads _ := ⟨[], [], [], ⟨rfl, .start _⟩, rfl, fun _ => nofun, Nat.le_refl 0⟩
  acked _ := rfl

end Tap

/-! ## How many acknowledgements -/

/-- A start delimiter before an identifier that is acknowledged. -/
def Opens (a b : UInt8) : Prop := a = msgDelimStart ∧ ¬(b = msgIdAck ∨ b = msgIdNack)

instance : DecidableRel Opens := fun a b => by
  unfold Opens
  infer_instance

/-- The places at which a receiver may begin to read a message that it acknowledges. -/
def openings (xs : List UInt8) : Nat := adjacent Opens xs

theorem not_opens_end (b : UInt8) : ¬ Opens msgDelimEnd b := by
  intro h
  exact absurd h.1 (by decide)

/-- Frames do not interact. -/
theorem openings_frame_append (p : Packet) (ys : List UInt8) :
    openings (p.frame ++ ys) = openings p.frame + openings ys := by
  unfold openings
  have hsplit : p.frame =
      (msgDelimStart :: p.id :: p.length :: p.payload ++ [0, 0]) ++ [msgDelimEnd] := by
    rw [p.frame_eq]
    simp
  rw [hsplit, List.append_assoc]
  exact adjacent_append_of_not Opens not_opens_end _ ys

theorem openings_le_count (xs : List UInt8) : openings xs ≤ xs.count msgDelimStart := by
  refine adjacent_le_countP Opens _ ?_ xs
  intro a b h
  exact beq_iff_eq.mpr h.1

/-- Acknowledgements offer nothing to acknowledge, messages only at start delimiters. -/
theorem openings_frames_le (fs : List Sent) :
    openings (fs.flatMap Sent.frame) ≤
      ((fs.filterMap Sent.message?).map fun p => p.frame.count msgDelimStart).sum := by
  induction fs with
  | nil => exact Nat.le_refl 0
  | cons f fs ih =>
      rw [List.flatMap_cons, Sent.frame, openings_frame_append]
      cases f with
      | message p =>
          have hcount := openings_le_count p.frame
          show openings p.frame + _ ≤ p.frame.count msgDelimStart +
            ((fs.filterMap Sent.message?).map fun p => p.frame.count msgDelimStart).sum
          omega
      | ack p =>
          have hack : openings ackPacket.frame = 0 := rfl
          show openings ackPacket.frame + _ ≤
            ((fs.filterMap Sent.message?).map fun p => p.frame.count msgDelimStart).sum
          omega

/-- What a token contributes to the acknowledged messages. -/
def Token.answerables (t : Token) : Nat :=
  ((goodFrames [t]).filter fun p => p.Answerable).length

theorem Token.answerables_le (t : Token) : t.answerables ≤ openings (grammar.word t) := by
  cases t with
  | junk b hb => exact Nat.zero_le _
  | frame p c0 c1 e =>
      by_cases hp : p.Answerable
      · have hopens : 1 ≤ openings (grammar.word (.frame p c0 c1 e)) := by
          show 1 ≤ adjacent Opens (msgDelimStart :: p.id :: _)
          rw [adjacent_cons_cons, if_pos ⟨rfl, hp⟩]
          omega
        have hone : (goodFrames [.frame p c0 c1 e]).length ≤ 1 := List.length_filterMap_le _ _
        have hle := List.length_filter_le (fun p : Packet => decide p.Answerable)
          (goodFrames [.frame p c0 c1 e])
        unfold answerables
        omega
      · have hnone : (Token.frame p c0 c1 e).answerables = 0 := by
          unfold answerables
          by_cases he : e = msgDelimEnd
          · subst he
            rw [goodFrames_good, List.filter_cons_of_neg (by simpa using hp)]
            rfl
          · rw [goodFrames_bad p c0 c1 he]
            rfl
        rw [hnone]
        exact Nat.zero_le _

theorem length_answerables (ps : List (Piece Token UInt8)) :
    (answerables ps).length = ((tokensOf ps).map Token.answerables).sum := by
  unfold answerables
  induction tokensOf ps with
  | nil => rfl
  | cons t ts ih =>
      have hcons : goodFrames ([t] ++ ts) = goodFrames [t] ++ goodFrames ts :=
        List.filterMap_append
      rw [List.singleton_append] at hcons
      rw [hcons, List.filter_append, List.length_append, ih]
      rfl

namespace Tap

variable {t : Tap} {s : Side}

/-- **A side acknowledges no more than there are places to read a message from**, however
often it gives up a frame. -/
theorem Inv.answered_le (h : t.Inv) (s : Side) :
    (answered s t.link.log).length ≤ openings (t.wire s.other) := by
  obtain ⟨read, ps, tail, hreads, hwire, -, hle⟩ := h.reads s
  have hweight := sum_tokensOf_le (adjacent_append_le Opens) Token.answerables_le ps
  rw [← length_answerables] at hweight
  have hfront : symbolsOf grammar ps <+: t.wire s.other := by
    rw [hwire, hreads.bytes, List.append_assoc]
    exact List.prefix_append _ _
  have hgrow := adjacent_mono Opens hfront
  unfold openings
  omega

/-- The start delimiters on the wire that matter are those of messages. -/
theorem Inv.openings_le (h : t.Inv) (s : Side) :
    openings (t.wire s) ≤
      (((t.frames s).filterMap Sent.message?).map fun p => p.frame.count msgDelimStart).sum := by
  obtain ⟨a, -, hwire⟩ := h.writes s
  have hfront : t.wire s <+: (t.frames s).flatMap Sent.frame := by
    rw [← hwire]
    exact List.prefix_append _ _
  exact (adjacent_mono Opens hfront).trans (openings_frames_le _)

/-- **A side that has never given up a frame** acknowledges no more than the messages among
the frames that its peer has written in full. -/
theorem Inv.answered_le_written (h : t.Inv) (s : Side)
    (hkept : ∀ e ∈ t.link.log, e.side = s → e.what ≠ .abandoned) :
    ∃ written, written <+: t.frames s.other ∧
      written.flatMap Sent.frame <+: t.wire s.other ∧
      (answered s t.link.log).length ≤
        (written.filter fun f => f.packet.Answerable).length := by
  obtain ⟨read, ps, tail, hreads, hwire, hwhole, hle⟩ := h.reads s
  obtain ⟨a, -, hall⟩ := h.writes s.other
  have hsymbols : symbolsOf grammar ps = (tokensOf ps).flatMap grammar.word :=
    (hwhole hkept).symbolsOf_eq
  have hfront : symbolsOf grammar ps <+: t.wire s.other := by
    rw [hwire, hreads.bytes, List.append_assoc]
    exact List.prefix_append _ _
  let token : Sent → Token := fun f => .frame f.packet 0 0 msgDelimEnd
  have hframes : (t.frames s.other).flatMap Sent.frame =
      ((t.frames s.other).map token).flatMap grammar.word := by
    rw [List.flatMap_map]
    exact List.flatMap_congr fun f _ => f.packet.frame_eq_word
  have hwords : (tokensOf ps).flatMap grammar.word <+:
      ((t.frames s.other).map token).flatMap grammar.word := by
    rw [← hframes, ← hall, ← hsymbols]
    exact hfront.trans (List.prefix_append _ _)
  -- the tokens read are the first frames written
  have htake := List.prefix_iff_eq_take.mp (prefix_of_words hwords)
  rw [← List.map_take] at htake
  generalize htaken : (t.frames s.other).take (tokensOf ps).length = written at htake
  refine ⟨written, htaken ▸ List.take_prefix _ _, ?_, ?_⟩
  · have hwritten : written.flatMap Sent.frame = symbolsOf grammar ps := by
      rw [hsymbols, htake, List.flatMap_map]
      exact List.flatMap_congr fun f _ => f.packet.frame_eq_word
    rw [hwritten]
    exact hfront
  · have hgood : goodFrames (tokensOf ps) = written.map Sent.packet := by
      rw [htake]
      have hpackets := goodFrames_frames (written.map Sent.packet)
      rw [List.map_map] at hpackets
      exact hpackets
    have hcount : (answerables ps).length =
        (written.filter fun f => f.packet.Answerable).length := by
      unfold answerables
      rw [hgood, List.filter_map, List.length_map]
      rfl
    rw [← hcount]
    exact hle

end Tap

/-- **The discipline of acknowledgements.**  In every run of two sessions with any calls,
delays and timeouts, a side has written exactly its frames in order, but for the rest of the
one at hand, and these contain one acknowledgement for each message that
`check_for_message` or `recv_message` received and that is not an acknowledgement itself,
and no other.  As long as the side has not given up a frame on a timeout, there are no more
of these than messages of the peer; in any case there are no more than start delimiters in
the messages of the peer. -/
theorem ack_discipline (events : List (Side × StationEvent)) (t : Tap)
    (hrun : run Tap.step Tap.init events = some t) (s : Side) :
    (∃ a, (t.link.station s).At a ∧
      t.wire s ++ unwrittenAt a = (t.frames s).flatMap Sent.frame) ∧
    (t.frames s).filterMap Sent.acked? = answered s t.link.log ∧
    ((∀ e ∈ t.link.log, e.side = s → e.what ≠ .abandoned) →
      ∃ written, written <+: t.frames s.other ∧
        written.flatMap Sent.frame <+: t.wire s.other ∧
        (answered s t.link.log).length ≤
          (written.filter fun f => f.packet.Answerable).length) ∧
    (answered s t.link.log).length ≤ openings (t.wire s.other) ∧
    openings (t.wire s.other) ≤
      (((t.frames s.other).filterMap Sent.message?).map
        fun p => p.frame.count msgDelimStart).sum := by
  have hinv : t.Inv := run_invariant Tap.step (fun _ => True)
    (fun _ _ _ _ hstep h => h.step hstep) (fun _ _ => trivial) hrun Tap.inv_init
  exact ⟨hinv.writes s, hinv.acked s, hinv.answered_le_written s, hinv.answered_le s,
    hinv.openings_le s.other⟩

/-- The left side sends a PING, and the right side has acknowledged it. -/
theorem ack_discipline_ping : ∃ t, run Tap.step Tap.init pingAcknowledged = some t ∧
    (t.frames .right).filterMap Sent.acked? = [.basic msgIdPing] ∧
    (answered .right t.link.log).length ≤ openings (t.wire .left) := by
  refine ⟨_, rfl, rfl, ?_⟩
  exact (ack_discipline pingAcknowledged _ rfl .right).2.2.2.1

/-- An ECHO whose payload consists of two PING frames. -/
def echoOfPings : Packet :=
  ⟨msgIdEcho, (Packet.basic msgIdPing).frame ++ (Packet.basic msgIdPing).frame, by decide⟩

/-- The right side gives up the ECHO behind its length and goes on reading its payload. -/
def echoGivenUp : List (Side × StationEvent) :=
  (.left, .call (.sendMessage echoOfPings)) :: List.replicate 7 (.left, .transport .wrote) ++
    (.right, .call (.recvMessage 100)) :: List.replicate 3 (.right, .transport .deliver) ++
    (.right, .transport .timeout) ::
    ((.right, .call .checkForMessage) :: List.replicate 6 (.right, .transport .deliver) ++
      List.replicate 7 (.right, .transport .wrote)) ++
    (.right, .call .checkForMessage) :: List.replicate 6 (.right, .transport .deliver) ++
      List.replicate 7 (.right, .transport .wrote)

/-- **Two acknowledgements for one message.** -/
theorem acks_outnumber : ∃ t, run Tap.step Tap.init echoGivenUp = some t ∧
    t.frames .left = [.message echoOfPings] ∧
    t.wire .right = ackPacket.frame ++ ackPacket.frame ∧
    ((t.frames .left).filter fun f => f.packet.Answerable).length <
      ((t.frames .right).filterMap Sent.acked?).length :=
  ⟨_, rfl, rfl, rfl, by decide⟩

end MpmtTestStand.Ports
