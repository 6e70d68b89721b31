import MpmtTestStand.Ports.FrameGrammar

/-!
# Packets on their way

On a channel that loses nothing, the bytes between a sender and a receiver are
the rest of the frame that the receiver is reading, followed by whole frames.
`Carries rx got bytes ps` says so: a receiver `rx` that has read `got` bytes will
receive the packets `ps` from `bytes`.  Each packet is stamped with the number
of bytes the receiver will have read when the packet is complete.

The bytes of a frame count as being on their way as soon as the sender has
begun to write it.  So a packet joins at the end of the list when its first
byte is written, leaves at the front when its last byte is read, and nothing
else changes the list.  The exception is a timeout in the middle of a frame: an
acknowledgement that is given up is lost and does no other harm.
-/

namespace MpmtTestStand.Ports

open MpmtTestStand.Verified

/-- The acknowledgement. -/
abbrev ackPacket : Packet := .basic msgIdAck

/-- Stamp packets whose frames follow one another from position `start` on. -/
def stamp : Nat → List Packet → List (Packet × Nat)
  | _, [] => []
  | start, p :: ps => (p, start + p.frame.length) :: stamp (start + p.frame.length) ps

theorem stamp_append (start : Nat) (ps qs : List Packet) :
    stamp start (ps ++ qs) =
      stamp start ps ++ stamp (start + (ps.flatMap Packet.frame).length) qs := by
  induction ps generalizing start with
  | nil => rfl
  | cons p ps ih =>
      simp only [List.cons_append, stamp, ih, List.flatMap_cons, List.length_append,
        Nat.add_assoc]

/-- The packets that a receiver acknowledges when it reads them in
`check_for_message` or `recv_message`. -/
def wantAck (ps : List (Packet × Nat)) : List (Packet × Nat) :=
  ps.filter fun p => ¬(p.1.id = msgIdAck ∨ p.1.id = msgIdNack)

section WantAck

variable {p : Packet} {n : Nat} {ps qs : List (Packet × Nat)}

theorem wantAck_cons_of (h : ¬(p.id = msgIdAck ∨ p.id = msgIdNack)) :
    wantAck ((p, n) :: ps) = (p, n) :: wantAck ps :=
  List.filter_cons_of_pos (decide_eq_true h)

theorem wantAck_cons_of_not (h : p.id = msgIdAck ∨ p.id = msgIdNack) :
    wantAck ((p, n) :: ps) = wantAck ps :=
  List.filter_cons_of_neg fun hd => of_decide_eq_true hd h

theorem wantAck_append : wantAck (ps ++ qs) = wantAck ps ++ wantAck qs :=
  List.filter_append ..

@[simp] theorem wantAck_ack : wantAck [(ackPacket, n)] = [] := rfl

@[simp] theorem wantAck_nil : wantAck [] = [] := rfl

end WantAck

/-- From `bytes`, a receiver that has read `got` bytes receives `ps`. -/
inductive Carries (rx : Receiver) : Nat → List UInt8 → List (Packet × Nat) → Prop
  /-- the rest of a frame, then whole frames -/
  | frames {tail bytes : List UInt8} {start : Nat} (ps : List Packet)
      (h : Partial rx tail) (hbytes : tail ++ bytes = ps.flatMap Packet.frame) :
      Carries rx (start + tail.length) bytes (stamp start ps)
  /-- a byte that belongs to no frame -/
  | junk {got : Nat} {b : UInt8} {bytes : List UInt8} {ps : List (Packet × Nat)}
      (h : Partial rx []) (hb : b ≠ msgDelimStart) (rest : Carries rx (got + 1) bytes ps) :
      Carries rx got (b :: bytes) ps

/-- The frame of a packet is the word of a token. -/
theorem Packet.frame_eq_word (p : Packet) :
    p.frame = (Token.frame p 0 0 msgDelimEnd).word :=
  p.frame_eq

/-- No frame fits into what a receiver has read of one. -/
theorem Partial.not_frame_prefix {rx : Receiver} {tail : List UInt8} (h : Partial rx tail)
    (p : Packet) : ¬ p.frame <+: tail := by
  rw [p.frame_eq_word]
  exact h.unfinished (.frame p 0 0 msgDelimEnd)

namespace Carries

variable {rx : Receiver} {got : Nat} {bytes : List UInt8} {ps : List (Packet × Nat)}

/-- Nothing is on its way to a receiver between two frames. -/
theorem nil (h : Partial rx []) : Carries rx got [] [] :=
  .frames [] h rfl

/-- The receiver is in a state it can get into. -/
theorem valid (h : Carries rx got bytes ps) : ∃ tail, Partial rx tail := by
  cases h with
  | frames ps h _ => exact ⟨_, h⟩
  | junk h _ _ => exact ⟨[], h⟩

/-- A frame written behind the others. -/
theorem append (h : Carries rx got bytes ps) (p : Packet) :
    Carries rx got (bytes ++ p.frame)
      (ps ++ [(p, got + bytes.length + p.frame.length)]) := by
  induction h with
  | @frames tail bytes start ps h hbytes =>
      have hlen : (ps.flatMap Packet.frame).length = tail.length + bytes.length := by
        rw [← hbytes, List.length_append]
      have hframes : tail ++ (bytes ++ p.frame) = (ps ++ [p]).flatMap Packet.frame := by
        rw [← List.append_assoc, hbytes, List.flatMap_append, List.flatMap_singleton]
      have hall : Carries rx (start + tail.length) (bytes ++ p.frame)
          (stamp start (ps ++ [p])) := .frames (ps ++ [p]) h hframes
      rwa [stamp_append, hlen, stamp, stamp, ← Nat.add_assoc] at hall
  | @junk got b bytes ps h hb _ ih =>
      have hlen : got + (b :: bytes).length = got + 1 + bytes.length := by
        rw [List.length_cons]
        omega
      rw [hlen]
      exact .junk h hb ih

/-- Once everything has been read, nothing is left to receive. -/
theorem of_nil (h : Carries rx got [] ps) : ps = [] ∧ Partial rx [] := by
  cases h with
  | @frames tail _ start ps h hbytes =>
      rw [List.append_nil] at hbytes
      cases ps with
      | nil =>
          obtain rfl : tail = [] := by simpa using hbytes
          exact ⟨rfl, h⟩
      | cons p ps =>
          refine absurd ?_ (h.not_frame_prefix p)
          rw [hbytes, List.flatMap_cons]
          exact List.prefix_append _ _

/-- The last byte of a frame delivers its packet. -/
private theorem frame_of_done {b : UInt8} {bytes : List UInt8} {p q : Packet} {c0 c1 : UInt8}
    {tail : List UInt8} {ps : List Packet}
    (htail : tail = msgDelimStart :: q.id :: q.length :: q.payload ++ [c0, c1])
    (hbytes : tail ++ b :: bytes = (p :: ps).flatMap Packet.frame) :
    q = p ∧ b = msgDelimEnd ∧ tail.length + 1 = p.frame.length ∧
      bytes = ps.flatMap Packet.frame := by
  have hword : tail ++ [b] = (Token.frame q c0 c1 b).word := by
    simp [htail, Token.word]
  have hsplit : (Token.frame q c0 c1 b).word ++ bytes =
      (Token.frame p 0 0 msgDelimEnd).word ++ ps.flatMap Packet.frame := by
    rw [← hword, ← p.frame_eq_word, ← List.flatMap_cons, ← hbytes]
    simp
  have hsame : Token.frame q c0 c1 b = .frame p 0 0 msgDelimEnd :=
    PrefixCode.word_unique grammar (List.prefix_append _ bytes) ⟨_, hsplit.symm⟩
  obtain ⟨rfl, -, -, rfl⟩ := Token.frame.inj hsame
  rw [hsame, ← Packet.frame_eq_word] at hword
  rw [hsame] at hsplit
  refine ⟨rfl, rfl, ?_, List.append_cancel_left hsplit⟩
  rw [← hword, List.length_append, List.length_singleton]

/-- **What reading a byte does**: a frame goes on, or the first packet arrives. -/
theorem read {b : UInt8} (h : Carries rx got (b :: bytes) ps) :
    ((rx.readByte b).2 = false ∧ Carries (rx.readByte b).1 (got + 1) bytes ps) ∨
    ((rx.readByte b).2 = true ∧ ∃ rest,
      ps = ((rx.readByte b).1.msg.packet, got + 1) :: rest ∧
      Partial (rx.readByte b).1 [] ∧
      Carries (rx.readByte b).1 (got + 1) bytes rest) := by
  cases h with
  | @frames tail _ start ps h hbytes =>
      have heffect := readByte_partial h b
      generalize rx.readByte b = after at heffect
      cases ps with
      | nil => simp at hbytes
      | cons p ps =>
          cases heffect with
          | junk htail hb =>
              subst htail
              refine absurd ?_ hb
              simpa using (List.cons.inj hbytes).1
          | more hmore =>
              refine .inl ⟨rfl, ?_⟩
              have hlen : start + tail.length + 1 = start + (tail ++ [b]).length := by
                simp [Nat.add_assoc]
              rw [hlen]
              exact .frames (p :: ps) hmore (by simpa using hbytes)
          | done c0 c1 htail =>
              have hpacket : tail = msgDelimStart :: rx.msg.packet.id ::
                  rx.msg.packet.length :: rx.msg.packet.payload ++ [c0, c1] := by
                rw [htail, rx.msg.length_eq, ReceivedMessage.packet_id]
              obtain ⟨rfl, rfl, hlen, hrest⟩ := frame_of_done hpacket hbytes
              refine .inr ⟨rfl, stamp (start + tail.length + 1) ps, ?_, .start _, ?_⟩
              · rw [stamp, ← hlen, ← Nat.add_assoc]
              · exact .frames ps (.start rx.msg) hrest
  | junk h hb rest =>
      have heffect := readByte_partial h b
      generalize hafter : rx.readByte b = after at heffect
      cases heffect with
      | junk _ _ => exact .inl ⟨rfl, rest⟩
      | more hmore =>
          -- a frame begins with the start delimiter
          generalize htail : [] ++ [b] = tail at hmore
          cases hmore <;> simp_all
      | done c0 c1 htail => simp at htail

/-! ## Timeouts -/

/-- Between two frames a timeout has nothing to give up. -/
theorem reset_of_start (h : Partial rx []) : { rx with transport := .fresh } = rx := by
  rw [← h.fresh_tail]

/-- With no message in progress a receiver is between two frames. -/
theorem start_of_idle (h : Carries rx got bytes ps)
    (hidle : rx.transport.msgInProgress = false) : Partial rx [] := by
  obtain ⟨tail, htail⟩ := h.valid
  obtain rfl := htail.start_iff.2.mp hidle
  exact htail

/-- With no packet on its way a receiver is between two frames. -/
theorem start_of_none (h : Carries rx got bytes []) : Partial rx [] := by
  generalize hps : ([] : List (Packet × Nat)) = ps at h
  cases h with
  | @frames tail _ start ps h hbytes =>
      cases ps with
      | nil =>
          obtain ⟨rfl, -⟩ : tail = [] ∧ bytes = [] := by simpa using hbytes
          exact h
      | cons p ps => simp [stamp] at hps
  | junk h _ _ => exact h

/-- Bytes without a start delimiter are skipped between two frames. -/
private theorem skip {start : Nat} (h : Partial rx []) (skipped : List UInt8)
    (ps : List Packet) (hskipped : ∀ b ∈ skipped, b ≠ msgDelimStart) :
    Carries rx start (skipped ++ ps.flatMap Packet.frame)
      (stamp (start + skipped.length) ps) := by
  induction skipped generalizing start with
  | nil => exact .frames ps h rfl
  | cons b skipped ih =>
      have hlen : start + (b :: skipped).length = start + 1 + skipped.length := by
        rw [List.length_cons]
        omega
      rw [hlen]
      exact .junk h (hskipped b (by simp)) (ih fun c hc => hskipped c (by simp [hc]))

/-- Behind its start delimiter the frame of an acknowledgement contains no
other. -/
private theorem ackFrame_drop {n : Nat} (hn : 0 < n) {b : UInt8}
    (hb : b ∈ ackPacket.frame.drop n) : b ≠ msgDelimStart := by
  obtain ⟨n, rfl⟩ := Nat.exists_eq_succ_of_ne_zero hn.ne'
  have hframe : ackPacket.frame.drop 1 = [msgIdAck, 0, 0, 0, msgDelimEnd] := rfl
  have hall : ∀ c ∈ ackPacket.frame.drop 1, c ≠ msgDelimStart := by
    simp [hframe, msgIdAck, msgDelimEnd, msgDelimStart]
  refine hall b ?_
  rw [Nat.succ_eq_add_one, Nat.add_comm, ← List.drop_drop] at hb
  exact List.mem_of_mem_drop hb

/-- **A timeout while an acknowledgement comes in**: it still comes, or it is
lost. -/
theorem reset_ack {n : Nat} (h : Carries rx got bytes ((ackPacket, n) :: ps)) :
    Carries { rx with transport := .fresh } got bytes ((ackPacket, n) :: ps) ∨
      Carries { rx with transport := .fresh } got bytes ps := by
  have hfresh : Partial { rx with transport := .fresh } [] := .start rx.msg
  generalize hall : (ackPacket, n) :: ps = all at h
  cases h with
  | @frames tail _ start qs h hbytes =>
      cases qs with
      | nil => simp [stamp] at hall
      | cons q qs =>
          obtain ⟨hhead, rfl⟩ := List.cons.inj hall
          obtain ⟨rfl, -⟩ := Prod.mk.inj hhead
          by_cases htail : tail = []
          · subst htail
            rw [reset_of_start h]
            exact .inl (.frames (ackPacket :: qs) h hbytes)
          · -- what is left of the frame is skipped
            have hprefix : tail <+: ackPacket.frame := by
              rcases List.prefix_or_prefix_of_prefix ⟨bytes, hbytes⟩
                ⟨qs.flatMap Packet.frame, rfl⟩ with h' | h'
              · exact h'
              · exact absurd h' (h.not_frame_prefix ackPacket)
            obtain ⟨skipped, hskipped⟩ := hprefix
            have hdrop : skipped = ackPacket.frame.drop tail.length := by
              rw [← hskipped, List.drop_left]
            have hrest : bytes = skipped ++ qs.flatMap Packet.frame := by
              rw [List.flatMap_cons, ← hskipped, List.append_assoc] at hbytes
              exact List.append_cancel_left hbytes
            have hlen : start + ackPacket.frame.length =
                start + tail.length + skipped.length := by
              rw [← hskipped, List.length_append, Nat.add_assoc]
            rw [hrest, hlen]
            exact .inr (skip hfresh skipped qs fun b hb =>
              ackFrame_drop (List.length_pos_iff.mpr htail) (hdrop ▸ hb))
  | junk h hb rest =>
      subst hall
      rw [reset_of_start h]
      exact .inl (.junk h hb rest)

/-- A timeout while nothing is coming in, or an acknowledgement. -/
theorem reset_waiting (h : Carries rx got bytes ps)
    (hps : ps = [] ∨ ∃ m rest, ps = (ackPacket, m) :: rest) :
    ∃ ps', (ps' = ps ∨ ∃ m, ps = (ackPacket, m) :: ps') ∧
      Carries { rx with transport := .fresh } got bytes ps' := by
  rcases hps with rfl | ⟨m, rest, rfl⟩
  · rw [reset_of_start h.start_of_none]
    exact ⟨[], .inl rfl, h⟩
  · rcases h.reset_ack with hkept | hlost
    · exact ⟨_, .inl rfl, hkept⟩
    · exact ⟨rest, .inr ⟨m, rfl⟩, hlost⟩

end Carries

end MpmtTestStand.Ports
