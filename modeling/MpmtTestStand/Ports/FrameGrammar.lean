import MpmtTestStand.Ports.SerialTransport
import MpmtTestStand.Verified.PrefixCode

/-!
# What the receiver accepts

The grammar of the byte stream, stated without reference to the receiver: the
stream is a sequence of tokens, each either one byte other than the start
delimiter or a start delimiter followed by identifier, length, that many bytes
of payload, two check bytes and one more byte.  The tokens form a prefix code,
so every stream has exactly one tokenisation.  A frame is *good* when its last
byte is the end delimiter.

`feed_tokenises` says that the receiver follows this tokenisation from any
mid-frame state; the rest is what calls make of it.
-/

namespace MpmtTestStand.Ports

open MpmtTestStand.Verified

/-- The tokens of a received byte stream. -/
inductive Token
  | junk (b : UInt8) (hb : b ≠ msgDelimStart)
  | frame (p : Packet) (c0 c1 e : UInt8)

/-- The bytes of a token. -/
def Token.word : Token → List UInt8
  | .junk b _ => [b]
  | .frame p c0 c1 e =>
      msgDelimStart :: p.id :: p.length :: p.payload ++ [c0, c1, e]

/-- No token is a proper prefix of another: the length field of a frame
determines where it ends. -/
theorem Token.prefixFree (t u : Token) (h : t.word <+: u.word) : t = u := by
  cases t with
  | junk b hb =>
      cases u with
      | junk b' hb' =>
          obtain rfl : b = b' := by simpa [Token.word] using h
          rfl
      | frame p c0 c1 e =>
          refine absurd ?_ hb
          simpa [Token.word, List.cons_prefix_cons] using h
  | frame p c0 c1 e =>
      cases u with
      | junk b hb => simp [Token.word, List.cons_prefix_cons] at h
      | frame q d0 d1 f =>
          simp only [Token.word, List.cons_append, List.cons_prefix_cons] at h
          obtain ⟨-, hid, hlength, hrest⟩ := h
          have hlen : p.payload.length = q.payload.length := by
            rw [← p.length_toNat, ← q.length_toNat, hlength]
          have heq := hrest.eq_of_length (by simp [hlen])
          obtain ⟨hpayload, htrail⟩ := List.append_inj heq hlen
          obtain rfl : p = q := Packet.ext hid hpayload
          simp_all

/-- The grammar as a prefix code. -/
def grammar : PrefixCode.Code Token UInt8 where
  word := Token.word
  nonempty t := by cases t <;> simp [Token.word]
  prefixFree := Token.prefixFree

/-- The packet of a good frame. -/
def Token.good? : Token → Option Packet
  | .junk _ _ => none
  | .frame p _ _ e => if e = msgDelimEnd then some p else none

/-- The packets of the good frames, in stream order. -/
def goodFrames (ts : List Token) : List Packet := ts.filterMap Token.good?

@[simp] theorem goodFrames_junk (b : UInt8) (hb : b ≠ msgDelimStart) (ts : List Token) :
    goodFrames (.junk b hb :: ts) = goodFrames ts := rfl

@[simp] theorem goodFrames_good (p : Packet) (c0 c1 : UInt8) (ts : List Token) :
    goodFrames (.frame p c0 c1 msgDelimEnd :: ts) = p :: goodFrames ts := rfl

theorem goodFrames_bad (p : Packet) (c0 c1 : UInt8) {e : UInt8}
    (he : e ≠ msgDelimEnd) (ts : List Token) :
    goodFrames (.frame p c0 c1 e :: ts) = goodFrames ts := by
  simp [goodFrames, Token.good?, he]

/-! ## The receiver follows the grammar -/

/-- The length byte tells how long the payload is. -/
theorem payload_length_eq {p : Packet} {msg : ReceivedMessage} (h : p.length = msg.length) :
    p.payload.length = msg.packet.payload.length := by
  rw [← p.length_toNat, h, msg.length_eq, Packet.length_toNat]

/-- What a receiver in mid-frame has read is the beginning of a frame but not
yet a token. -/
theorem Partial.unfinished {r : Receiver} {tail : List UInt8} (h : Partial r tail) :
    PrefixCode.Unfinished grammar tail := by
  intro t ht
  change t.word <+: tail at ht
  cases t with
  | junk b hb => cases h <;> simp_all [Token.word, List.cons_prefix_cons]
  | frame p c0 c1 e =>
      -- the frame would have to end inside `tail`, which its length excludes
      have hlen := ht.length_le
      cases h with
      | start => simp [Token.word] at hlen
      | id => simp [Token.word] at hlen
      | length => simp [Token.word] at hlen
      | data msg n hn =>
          simp only [Token.word, List.cons_append, List.cons_prefix_cons] at ht
          rw [← ht.2.2.1, p.length_toNat] at hn
          simp only [Token.word, List.length_cons, List.length_append,
            List.length_take] at hlen
          omega
      | crcLow msg =>
          simp only [Token.word, List.cons_append, List.cons_prefix_cons] at ht
          have hpayload := payload_length_eq ht.2.2.1
          simp only [Token.word, List.length_cons, List.length_append] at hlen
          omega
      | crcHigh msg c =>
          simp only [Token.word, List.cons_append, List.cons_prefix_cons] at ht
          have hpayload := payload_length_eq ht.2.2.1
          simp only [Token.word, List.length_cons, List.length_append,
            List.length_nil] at hlen
          omega
      | stop msg c c' =>
          simp only [Token.word, List.cons_append, List.cons_prefix_cons] at ht
          have hpayload := payload_length_eq ht.2.2.1
          simp only [Token.word, List.length_cons, List.length_append,
            List.length_nil] at hlen
          omega

/-- **From any mid-frame state**, the receiver reads a stream as its tokens and
delivers the good frames. -/
theorem feed_tokenises {r : Receiver} {tail : List UInt8} (h : Partial r tail)
    (xs : List UInt8) :
    ∃ ts rest, PrefixCode.Tokenises grammar (tail ++ xs) ts rest ∧
      Partial (Mealy.feed Receiver.receive r xs).1 rest ∧
      (Mealy.feed Receiver.receive r xs).2.map ReceivedMessage.packet =
        goodFrames ts := by
  induction xs generalizing r tail with
  | nil => exact ⟨[], tail, ⟨by simp, h.unfinished⟩, h, rfl⟩
  | cons b xs ih =>
      have heffect := readByte_partial h b
      generalize hread : r.readByte b = after at heffect
      cases heffect with
      | junk htail hb =>
          subst htail
          obtain ⟨ts, rest, htok, hreading, hout⟩ := ih h
          have hstep : r.receive b = (r, none) := by simp [Receiver.receive, hread]
          rw [Mealy.feed_cons_silent _ hstep]
          exact ⟨.junk b hb :: ts, rest, htok.cons grammar (.junk b hb), hreading, hout⟩
      | @more r' hmore =>
          obtain ⟨ts, rest, htok, hreading, hout⟩ := ih hmore
          have hstep : r.receive b = (r', none) := by simp [Receiver.receive, hread]
          rw [Mealy.feed_cons_silent _ hstep]
          exact ⟨ts, rest, by simpa using htok, hreading, hout⟩
      | done c0 c1 htail =>
          obtain ⟨ts, rest, htok, hreading, hout⟩ := ih (.start r.msg)
          have hword : tail ++ b :: xs =
              (Token.frame r.msg.packet c0 c1 b).word ++ xs := by
            rw [htail, r.msg.length_eq]
            simp [Token.word]
          refine ⟨.frame r.msg.packet c0 c1 b :: ts, rest,
            hword ▸ htok.cons grammar (.frame r.msg.packet c0 c1 b), ?_⟩
          by_cases hb : b = msgDelimEnd
          · subst hb
            have hstep : r.receive msgDelimEnd = (⟨.fresh, r.msg⟩, some r.msg) := by
              simp [Receiver.receive, hread]
            rw [Mealy.feed_cons_output _ hstep, goodFrames_good, ← hout]
            exact ⟨hreading, rfl⟩
          · have hstep : r.receive b = (⟨.fresh, r.msg⟩, none) := by
              simp [Receiver.receive, hread, hb]
            rw [Mealy.feed_cons_silent _ hstep, goodFrames_bad _ _ _ hb]
            exact ⟨hreading, hout⟩

/-- The same, for a stream whose tokenisation is known. -/
theorem feed_of_tokenises {r : Receiver} {tail : List UInt8} (h : Partial r tail)
    {xs : List UInt8} {ts : List Token} {rest : List UInt8}
    (htok : PrefixCode.Tokenises grammar (tail ++ xs) ts rest) :
    Partial (Mealy.feed Receiver.receive r xs).1 rest ∧
      (Mealy.feed Receiver.receive r xs).2.map ReceivedMessage.packet =
        goodFrames ts := by
  obtain ⟨us, rest', htok', hreading, hout⟩ := feed_tokenises h xs
  obtain ⟨rfl, rfl⟩ := htok.unique grammar htok'
  exact ⟨hreading, hout⟩

/-! ## The identifier last read -/

/-- The identifier of a frame. -/
def Token.id? : Token → Option UInt8
  | .junk _ _ => none
  | .frame p _ _ _ => some p.id

/-- The identifier last read in a stream with the tokens `ts` and the unfinished
`tail`; `first` if there is none. -/
def lastId (first : UInt8) (ts : List Token) : List UInt8 → UInt8
  | _ :: id :: _ => id
  | _ => ((ts.filterMap Token.id?).getLast?).getD first

@[simp] theorem lastId_junk (first b : UInt8) (hb : b ≠ msgDelimStart) (ts : List Token)
    (tail : List UInt8) : lastId first (.junk b hb :: ts) tail = lastId first ts tail := rfl

/-- What was read before a frame no longer matters. -/
theorem lastId_frame (first : UInt8) (p : Packet) (c0 c1 e : UInt8) (ts : List Token)
    (tail : List UInt8) : lastId first (.frame p c0 c1 e :: ts) tail = lastId p.id ts tail := by
  unfold lastId
  split
  · rfl
  · simp only [List.filterMap_cons, Token.id?, List.getLast?_cons, Option.getD_some]

/-- The receiver holds the identifier last read. -/
theorem feed_lastId {r : Receiver} {tail : List UInt8} (h : Partial r tail) {first : UInt8}
    (hfirst : tail.length < 2 → r.msg.id = first) (xs : List UInt8) :
    ∃ ts rest, PrefixCode.Tokenises grammar (tail ++ xs) ts rest ∧
      (Mealy.feed Receiver.receive r xs).1.msg.id = lastId first ts rest := by
  induction xs generalizing r tail first with
  | nil =>
      refine ⟨[], tail, ⟨by simp, h.unfinished⟩, ?_⟩
      cases h with
      | start msg => exact hfirst (by simp)
      | id msg => exact hfirst (by simp)
      | length | data | crcLow | crcHigh | stop => rfl
  | cons b xs ih =>
      have heffect := readByte_partial h b
      generalize hread : r.readByte b = after at heffect
      cases heffect with
      | junk htail hb =>
          subst htail
          obtain ⟨ts, rest, htok, hid⟩ := ih h hfirst
          have hstep : r.receive b = (r, none) := by simp [Receiver.receive, hread]
          rw [Mealy.feed_cons_silent _ hstep]
          exact ⟨.junk b hb :: ts, rest, htok.cons grammar (.junk b hb), hid⟩
      | @more r' hmore =>
          have hfirst' : (tail ++ [b]).length < 2 → r'.msg.id = first := by
            intro hshort
            have htail : tail = [] := by
              rw [List.length_append, List.length_singleton] at hshort
              exact List.length_eq_zero_iff.mp (by omega)
            subst htail
            -- the start delimiter leaves the message alone
            have hmsg : (r.readByte b).1.msg = r.msg := by
              simp only [Receiver.readByte, h.fresh_tail, SerialTransport.fresh]
              split <;> rfl
            rw [hread] at hmsg
            rw [hmsg]
            exact hfirst (by simp)
          obtain ⟨ts, rest, htok, hid⟩ := ih hmore hfirst'
          have hstep : r.receive b = (r', none) := by simp [Receiver.receive, hread]
          rw [Mealy.feed_cons_silent _ hstep]
          exact ⟨ts, rest, by simpa using htok, hid⟩
      | done c0 c1 htail =>
          obtain ⟨ts, rest, htok, hid⟩ := ih (.start r.msg) (fun _ => rfl)
          have hword : tail ++ b :: xs =
              (Token.frame r.msg.packet c0 c1 b).word ++ xs := by
            rw [htail, r.msg.length_eq]
            simp [Token.word]
          refine ⟨.frame r.msg.packet c0 c1 b :: ts, rest,
            hword ▸ htok.cons grammar (.frame r.msg.packet c0 c1 b), ?_⟩
          rw [lastId_frame]
          have hfeed : (Mealy.feed Receiver.receive r (b :: xs)).1 =
              (Mealy.feed Receiver.receive ⟨.fresh, r.msg⟩ xs).1 := by
            rw [Mealy.feed_cons]
            simp [Receiver.receive, hread]
          rw [hfeed]
          exact hid

/-! ## Calls -/

/-- The fields of delivered messages are those of their packets. -/
theorem map_fields {delivered : List ReceivedMessage} {ps : List Packet}
    (h : delivered.map ReceivedMessage.packet = ps) :
    delivered.map (fun m => (m.id, m.length, m.data.toList.take m.length.toNat)) =
      ps.map (fun p => (p.id, p.length, p.payload)) := by
  rw [← h, List.map_map]
  exact List.map_congr_left fun m _ => by
    simp only [Function.comp_apply, ReceivedMessage.packet_id, ← m.length_eq,
      ReceivedMessage.packet_payload]

/-- **The receiver accepts exactly its grammar.**  However the device answers
and however many calls are made, the messages delivered are the good frames of
the unique tokenisation of the bytes read, each with its own identifier, length
and payload, and the receiver is left in the middle of the unfinished last
token.  Two ways of splitting the same stream into calls end alike. -/
theorem checkCalls_accept_grammar (msg : ReceivedMessage)
    (answers : List DeviceAnswer) (n : Nat) :
    (∃ read ts tail,
      bytesOf answers = read ++ bytesOf (checkCalls n ⟨.fresh, msg⟩ answers).rest ∧
      (answers.length ≤ n → (checkCalls n ⟨.fresh, msg⟩ answers).rest = []) ∧
      PrefixCode.Tokenises grammar read ts tail ∧
      (∀ us rest, PrefixCode.Tokenises grammar read us rest → us = ts ∧ rest = tail) ∧
      (checkCalls n ⟨.fresh, msg⟩ answers).delivered.map
          (fun m => (m.id, m.length, m.data.toList.take m.length.toNat)) =
        (goodFrames ts).map (fun p => (p.id, p.length, p.payload)) ∧
      Partial (checkCalls n ⟨.fresh, msg⟩ answers).receiver tail) ∧
    ∀ answers' n', bytesOf answers' = bytesOf answers →
      (checkCalls n ⟨.fresh, msg⟩ answers).rest = [] →
      (checkCalls n' ⟨.fresh, msg⟩ answers').rest = [] →
      (checkCalls n ⟨.fresh, msg⟩ answers).delivered =
          (checkCalls n' ⟨.fresh, msg⟩ answers').delivered ∧
        (checkCalls n ⟨.fresh, msg⟩ answers).receiver =
          (checkCalls n' ⟨.fresh, msg⟩ answers').receiver := by
  constructor
  · obtain ⟨read, hread, hfeed⟩ := checkCalls_feed n ⟨.fresh, msg⟩ answers
    obtain ⟨ts, tail, htok, hreading, hout⟩ := feed_tokenises (.start msg) read
    rw [hfeed] at hreading hout
    exact ⟨read, ts, tail, hread, checkCalls_rest_eq_nil n _ answers, htok,
      fun us rest h => htok.unique grammar h, map_fields hout, hreading⟩
  · intro answers' n' hbytes hrest hrest'
    obtain ⟨read, hread, hfeed⟩ := checkCalls_feed n ⟨.fresh, msg⟩ answers
    obtain ⟨read', hread', hfeed'⟩ := checkCalls_feed n' ⟨.fresh, msg⟩ answers'
    have hsame : read = read' := by
      rw [hrest] at hread
      rw [hrest', hbytes, hread] at hread'
      simpa [bytesOf] using hread'
    rw [← hsame, hfeed] at hfeed'
    simp only [Prod.mk.injEq] at hfeed'
    exact ⟨hfeed'.2, hfeed'.1⟩

end MpmtTestStand.Ports
