import MpmtTestStand.Ports.Framing
import MpmtTestStand.Ports.InFlight

/-!
# Sending after a failed send

When a `ser_write` of `send_message` fails, the beginning of a frame has reached the peer,
and nothing tells the peer that the rest is not coming: `check_for_message` continues the
frame with whatever is read next.  So the next frame is read from inside the broken one.
`broken_send` says what the peer then delivers, and exactly when this is the next message.
-/

namespace MpmtTestStand.Ports

open MpmtTestStand.Verified
open MpmtTestStand.Verified.PrefixCode

/-! ## What reaches the peer -/

/-- A failed `ser_write` puts some of its bytes on the wire. -/
theorem serWrite_reached {dev dev' : SerialOut} {data : List UInt8} {sent : Bool}
    (h : dev.serWrite data = (sent, dev')) :
    ∃ reached, reached <+: data ∧ dev'.wire = dev.wire ++ reached := by
  unfold SerialOut.serWrite at h
  split at h
  · obtain ⟨-, rfl⟩ := Prod.mk.inj h
    exact ⟨data, List.prefix_refl data, rfl⟩
  · obtain ⟨-, rfl⟩ := Prod.mk.inj h
    exact ⟨data, List.prefix_refl data, rfl⟩
  · obtain ⟨-, rfl⟩ := Prod.mk.inj h
    exact ⟨_, List.take_prefix _ data, rfl⟩

/-- A send that fails has written the beginning of its pieces. -/
theorem writePieces_reached {pieces : List (List UInt8)} {dev dev' : SerialOut}
    (h : writePieces pieces dev = (false, dev')) :
    ∃ reached, reached <+: pieces.flatten ∧ dev'.wire = dev.wire ++ reached := by
  induction pieces generalizing dev with
  | nil => cases h
  | cons piece rest ih =>
      rcases hwrite : dev.serWrite piece with ⟨_ | _, mid⟩
      · rw [writePieces, hwrite] at h
        obtain ⟨-, rfl⟩ := Prod.mk.inj h
        obtain ⟨reached, hreached, hwire⟩ := serWrite_reached hwrite
        refine ⟨reached, hreached.trans ?_, hwire⟩
        rw [List.flatten_cons]
        exact List.prefix_append _ _
      · rw [writePieces, hwrite] at h
        obtain ⟨reached, hreached, hwire⟩ := ih h
        refine ⟨piece ++ reached, ?_, ?_⟩
        · rw [List.flatten_cons, List.prefix_append_right_inj]
          exact hreached
        · rw [hwire, serWrite_true hwrite, List.append_assoc]

/-! ## What the peer makes of it -/

/-- The bytes `reached` of the frame of `m` and the frame of `m2` behind them read like a
frame of `m2`, and what is left reads like none. -/
structure Mistaken (reached : List UInt8) (m m2 : Packet) : Prop where
  id : m2.id = m.id
  length : m2.length = m.length
  header : 3 ≤ reached.length
  short : reached.length < m2.frame.length
  frame : ∃ c0 c1, (Token.frame m2 c0 c1 msgDelimEnd).word <+: reached ++ m2.frame
  rest : ∀ ts tail,
    Tokenises grammar (m2.frame.drop (m2.frame.length - reached.length)) ts tail →
      goodFrames ts = []

section Delivered

variable {m m2 : Packet} {reached : List UInt8} {ts : List Token} {tail : List UInt8}

theorem length_word_frame (p : Packet) (c0 c1 e : UInt8) :
    (Token.frame p c0 c1 e).word.length = p.frame.length := by
  rw [p.frame_eq]
  simp [Token.word]

/-- A list has room for the good frames in it. -/
theorem length_le_of_good {xs : List UInt8} (h : Tokenises grammar xs ts tail) {p : Packet}
    (hp : p ∈ goodFrames ts) : p.frame.length ≤ xs.length := by
  obtain ⟨t, ht, hgood⟩ := List.mem_filterMap.mp hp
  cases t with
  | junk b hb => cases hgood
  | frame q c0 c1 e =>
      obtain ⟨-, hq⟩ := Option.ite_none_right_eq_some.mp hgood
      obtain rfl := Option.some.inj hq
      have hle := h.length_le grammar ht
      rwa [← length_word_frame q c0 c1 e]

/-- What is behind a token that ends in the frame of `m2`. -/
theorem rest_eq {word rest : List UInt8} (h : reached ++ m2.frame = word ++ rest)
    (hlen : reached.length ≤ word.length) :
    rest = m2.frame.drop (word.length - reached.length) := by
  have hdrop := congrArg (List.drop word.length) h
  rw [List.drop_left, List.drop_append, List.drop_eq_nil_of_le hlen, List.nil_append] at hdrop
  exact hdrop.symm

/-- **The peer reads on.**  Behind an unfinished frame the first token ends in the frame of
`m2`. -/
theorem reads_on (hfront : reached <+: m.frame) (hne : reached ≠ [])
    (hproper : reached.length < m.frame.length)
    (htok : Tokenises grammar (reached ++ m2.frame) ts tail) (hts : ts ≠ []) :
    ∃ q c0 c1 e ts', ts = .frame q c0 c1 e :: ts' ∧
      (Token.frame q c0 c1 e).word <+: reached ++ m2.frame ∧
      reached.length < q.frame.length ∧
      Tokenises grammar (m2.frame.drop (q.frame.length - reached.length)) ts' tail := by
  cases ts with
  | nil => exact absurd rfl hts
  | cons t ts' =>
      obtain ⟨rest, hsplit, hrest⟩ := htok.of_cons grammar
      cases t with
      | junk b hb =>
          -- the first byte is a start delimiter
          cases reached with
          | nil => exact absurd rfl hne
          | cons a reached =>
              rw [m.frame_eq, List.cons_append, List.cons_prefix_cons] at hfront
              have hhead : a = b := (List.cons.inj hsplit).1
              exact absurd (hhead.symm.trans hfront.1) hb
      | frame q c0 c1 e =>
          have hword : (Token.frame q c0 c1 e).word <+: reached ++ m2.frame :=
            ⟨rest, hsplit.symm⟩
          have hlonger : reached.length < q.frame.length := by
            by_contra hshort
            have hinside : (Token.frame q c0 c1 e).word <+: reached := by
              refine List.prefix_of_prefix_length_le hword (List.prefix_append _ _) ?_
              rw [length_word_frame]
              omega
            have hsame := Token.prefixFree _ (.frame m 0 0 msgDelimEnd)
              (hinside.trans (m.frame_eq_word ▸ hfront))
            obtain ⟨rfl, -⟩ := Token.frame.inj hsame
            omega
          refine ⟨q, c0, c1, e, ts', rfl, hword, hlonger, ?_⟩
          have hrest_eq := rest_eq hsplit (by rw [grammar, length_word_frame]; omega)
          rw [hrest_eq] at hrest
          have hlen : (grammar.word (.frame q c0 c1 e)).length = q.frame.length :=
            length_word_frame q c0 c1 e
          rwa [hlen] at hrest

/-- A frame that ends in the frame of the same packet behind it does not end in its last
three bytes. -/
theorem header_of_mistaken {c0 c1 : UInt8} (hne : reached ≠ [])
    (hword : (Token.frame m2 c0 c1 msgDelimEnd).word <+: reached ++ m2.frame) :
    3 ≤ reached.length := by
  let header := msgDelimStart :: m2.id :: m2.length :: m2.payload
  obtain ⟨rest, hsplit⟩ := hword
  have hframe : m2.frame = header ++ [0, 0, msgDelimEnd] := m2.frame_eq
  have hsplit' : (header ++ [c0, c1]) ++ msgDelimEnd :: rest =
      reached ++ (header ++ [0, 0, msgDelimEnd]) := by
    rw [← hframe, ← hsplit]
    simp [Token.word, header]
  have hend : (reached ++ (header ++ [0, 0, msgDelimEnd]))[header.length + 2]? =
      some msgDelimEnd := by
    rw [← hsplit', List.getElem?_append_right (by simp)]
    simp
  have hpos : 0 < reached.length := List.length_pos_iff.mpr hne
  by_contra hlt
  -- there the frame has its check bytes, which are zero
  have hzero : (reached ++ (header ++ [0, 0, msgDelimEnd]))[header.length + 2]? = some 0 := by
    rw [List.getElem?_append_right (by omega), List.getElem?_append_right (by omega)]
    have hk : reached.length = 1 ∨ reached.length = 2 := by omega
    rcases hk with hk | hk
    · rw [show header.length + 2 - reached.length - header.length = 1 by omega]
      rfl
    · rw [show header.length + 2 - reached.length - header.length = 0 by omega]
      rfl
  rw [hend] at hzero
  exact absurd hzero (by decide)

/-- The header of the broken frame is that of the frame read. -/
theorem header_eq {c0 c1 : UInt8} (hfront : reached <+: m.frame) (hlen : 3 ≤ reached.length)
    (hword : (Token.frame m2 c0 c1 msgDelimEnd).word <+: reached ++ m2.frame) :
    m2.id = m.id ∧ m2.length = m.length := by
  match reached with
  | [] => simp at hlen
  | [a] => simp at hlen
  | [a, b] => simp at hlen
  | a :: b :: c :: reached =>
      rw [m.frame_eq] at hfront
      simp only [Token.word, List.cons_append, List.cons_prefix_cons] at hfront hword
      obtain ⟨-, hid, hlength, -⟩ := hfront
      obtain ⟨-, hid2, hlength2, -⟩ := hword
      exact ⟨hid2.trans hid, hlength2.trans hlength⟩

/-- A frame that has reached the peer whole is delivered. -/
theorem proper_of_good (hfront : reached <+: m.frame)
    (htok : Tokenises grammar (reached ++ m2.frame) ts tail) (hgood : goodFrames ts = [m2]) :
    reached.length < m.frame.length := by
  by_contra hlong
  obtain rfl := hfront.eq_of_length_le (by omega)
  have htwo := tokenises_frames [m, m2]
  rw [List.flatMap_cons, List.flatMap_singleton] at htwo
  obtain ⟨rfl, -⟩ := htwo.unique grammar htok
  rw [goodFrames_frames [m, m2]] at hgood
  cases hgood

/-- What is left behind the first token has no room for a frame of `m2`. -/
theorem no_room {n : Nat} (hn : 0 < n)
    (hrest : Tokenises grammar (m2.frame.drop n) ts tail) : m2 ∉ goodFrames ts := by
  intro hmem
  have hle := length_le_of_good hrest hmem
  have hpos : 0 < m2.frame.length := by
    rw [m2.frame_eq]
    exact Nat.succ_pos _
  rw [List.length_drop] at hle
  omega

/-- Behind an unfinished frame, `m2` is delivered only by mistake. -/
theorem mistaken_of_good (hfront : reached <+: m.frame) (hne : reached ≠ [])
    (htok : Tokenises grammar (reached ++ m2.frame) ts tail) (hgood : goodFrames ts = [m2]) :
    Mistaken reached m m2 := by
  have hproper := proper_of_good hfront htok hgood
  have hts : ts ≠ [] := by
    rintro rfl
    cases hgood
  obtain ⟨q, c0, c1, e, ts', rfl, hword, hlonger, hrest⟩ :=
    reads_on hfront hne hproper htok hts
  by_cases he : e = msgDelimEnd
  · subst he
    rw [goodFrames_good] at hgood
    obtain ⟨rfl, hnone⟩ := List.cons.inj hgood
    have hheader := header_of_mistaken hne hword
    obtain ⟨hid, hlength⟩ := header_eq hfront hheader hword
    refine ⟨hid, hlength, hheader, hlonger, ⟨c0, c1, hword⟩, ?_⟩
    intro us rest hus
    obtain ⟨rfl, -⟩ := hrest.unique grammar hus
    exact hnone
  · have hroom := no_room (by omega) hrest
    rw [goodFrames_bad q c0 c1 he] at hgood
    rw [hgood] at hroom
    exact absurd (List.mem_singleton_self m2) hroom

/-- The mistake delivers `m2` and nothing else. -/
theorem Mistaken.good (h : Mistaken reached m m2)
    (htok : Tokenises grammar (reached ++ m2.frame) ts tail) : goodFrames ts = [m2] := by
  obtain ⟨c0, c1, rest, hsplit⟩ := h.frame
  have hlen := length_word_frame m2 c0 c1 msgDelimEnd
  have hshort := h.short
  have hrest := rest_eq hsplit.symm (by omega)
  rw [hlen] at hrest
  obtain ⟨us, tail', hus, -, -⟩ := feed_tokenises (.start Receiver.fresh.msg) rest
  have hnone : goodFrames us = [] := h.rest us tail' (hrest ▸ hus)
  have hall := hus.cons grammar (.frame m2 c0 c1 msgDelimEnd)
  rw [List.nil_append] at hall
  obtain ⟨rfl, -⟩ := htok.unique grammar (hsplit ▸ hall)
  rw [goodFrames_good, hnone]

/-- **When the peer delivers exactly the next message.** -/
theorem delivers_iff (hfront : reached <+: m.frame)
    (htok : Tokenises grammar (reached ++ m2.frame) ts tail) :
    goodFrames ts = [m2] ↔ reached = [] ∨ Mistaken reached m m2 := by
  constructor
  · intro hgood
    by_cases hne : reached = []
    · exact .inl hne
    · exact .inr (mistaken_of_good hfront hne htok hgood)
  · rintro (rfl | h)
    · have hone := tokenises_frames [m2]
      rw [List.flatMap_singleton] at hone
      obtain ⟨rfl, -⟩ := hone.unique grammar htok
      exact goodFrames_frames [m2]
    · exact h.good htok

end Delivered

/-! ## The next send -/

/-- **The send after a failed one.**  Whatever write of `m` fails, and however much of it
reaches the peer, and however the bytes are cut into chunks, the peer delivers the good
frames in the bytes of `m` that reached it followed by the frame of `m2`.  It delivers
exactly `m2` when no byte of `m` reached it, and otherwise only if it mistakes the end of
the one frame and the beginning of the other for `m2`, which needs `m2` to have the
identifier and the length of `m`. -/
theorem broken_send (m m2 : Packet) (outcomes : List (Option Nat)) (broken out : SerialOut)
    (msg : ReceivedMessage) (chunks : List (List UInt8)) (idle : Nat)
    (hbroken : sendMessage m.toMessage ⟨[], outcomes⟩ = (false, broken))
    (hsent : sendMessage m2.toMessage broken = (true, out))
    (hchunks : chunks.flatten = out.wire) (hidle : out.wire.length < idle) :
    let result := checkChunks ⟨.fresh, msg⟩ [] (chunks ++ List.replicate idle [])
    let delivered := result.delivered.map
      (fun m => (m.id, m.length, m.data.toList.take m.length.toNat))
    broken.wire <+: m.frame ∧ result.queue = [] ∧
      (∃ ts tail, Tokenises grammar (broken.wire ++ m2.frame) ts tail ∧
        delivered = (goodFrames ts).map (fun p => (p.id, p.length, p.payload))) ∧
      (delivered = [(m2.id, m2.length, m2.payload)] ↔
        broken.wire = [] ∨ Mistaken broken.wire m m2) := by
  intro result delivered
  obtain ⟨reached, hfront, hwire⟩ := writePieces_reached hbroken
  rw [List.nil_append] at hwire
  have hall : chunks.flatten = broken.wire ++ m2.frame := by
    rw [hchunks, writePieces_true hsent]
    rfl
  have hlength : (Mealy.feed Receiver.receive ⟨.fresh, msg⟩ chunks.flatten).2.length < idle := by
    have hle := Mealy.feed_length_le Receiver.receive ⟨.fresh, msg⟩ chunks.flatten
    rw [hchunks] at hle ⊢
    omega
  obtain ⟨hqueue, hfeed⟩ := checkChunks_all ⟨.fresh, msg⟩ chunks idle hlength
  obtain ⟨ts, tail, htok, -, hgood⟩ := feed_tokenises (.start msg) chunks.flatten
  rw [hfeed] at hgood
  rw [List.nil_append, hall] at htok
  have hdelivered : delivered = (goodFrames ts).map (fun p => (p.id, p.length, p.payload)) :=
    map_fields hgood
  rw [hwire] at htok ⊢
  refine ⟨hfront, hqueue, ⟨ts, tail, htok, hdelivered⟩, ?_⟩
  rw [← delivers_iff hfront htok, hdelivered]
  constructor
  · intro h
    have hinj : Function.Injective fun p : Packet => (p.id, p.length, p.payload) := by
      intro p q hpq
      have hid : p.id = q.id := congrArg Prod.fst hpq
      have hpayload : p.payload = q.payload := congrArg (fun t => t.2.2) hpq
      exact Packet.ext hid hpayload
    exact List.map_injective_iff.mpr hinj h
  · intro h
    rw [h]
    rfl

/-- The first write of a PING fails and nothing of it arrives: HOME is delivered. -/
theorem broken_send_at_once :
    (checkChunks .fresh [] ([(Packet.basic msgIdHome).frame] ++ List.replicate 7 [])).delivered.map
        (fun m => (m.id, m.length, m.data.toList.take m.length.toNat)) =
      [(msgIdHome, 0, [])] :=
  (broken_send (.basic msgIdPing) (.basic msgIdHome) [some 0] ⟨[], []⟩
    ⟨(Packet.basic msgIdHome).frame, []⟩ Receiver.fresh.msg [(Packet.basic msgIdHome).frame] 7
    rfl rfl rfl (by decide)).2.2.2.mpr (.inl rfl)

/-- What the peer polls when the start delimiter of a PING and a HOME arrive. -/
def homeBehindDelimiter : ChunksResult :=
  checkChunks .fresh []
    ([msgDelimStart :: (Packet.basic msgIdHome).frame] ++ List.replicate 8 [])

/-- **The second write of a PING fails**, so that its start delimiter arrives: the HOME that
is sent next is lost. -/
theorem home_lost :
    sendMessage (Packet.basic msgIdPing).toMessage ⟨[], [none, some 0]⟩ =
        (false, ⟨[msgDelimStart], []⟩) ∧
      sendMessage (Packet.basic msgIdHome).toMessage ⟨[msgDelimStart], []⟩ =
        (true, ⟨msgDelimStart :: (Packet.basic msgIdHome).frame, []⟩) ∧
      homeBehindDelimiter.delivered = [] ∧ homeBehindDelimiter.queue = [] :=
  ⟨rfl, rfl, rfl, rfl⟩

end MpmtTestStand.Ports
