import MpmtTestStand.Ports.Party

/-!
# Two sessions on a link

Two parties, each of which makes session calls in any order and with any
arguments, on two lossless channels with arbitrary delays.  Every step that
matters to a caller is logged, stamped with the number of bytes that the side
has written and read so far.  The stamps identify messages: on a channel that
loses nothing, the bytes up to a given count are the same bytes at both ends.
-/

namespace MpmtTestStand.Ports

open MpmtTestStand.Verified

/-! ## State -/

/-- The ends of the link. -/
inductive Side
  | left
  | right
  deriving DecidableEq, Repr

/-- The opposite end. -/
def Side.other : Side → Side
  | .left => .right
  | .right => .left

@[simp] theorem Side.other_other (s : Side) : s.other.other = s := by cases s <;> rfl

theorem Side.other_ne (s : Side) : s.other ≠ s := by cases s <;> simp [Side.other]

theorem Side.eq_or_eq_other (s t : Side) : t = s ∨ t = s.other := by
  cases s <;> cases t <;> simp [Side.other]

/-- A party and its current or latest call. -/
structure Station where
  party : Party noOps SerialResult
  call : SessionCall

/-- What happens to a call. -/
inductive What
  | begun
  /-- a complete message has been read -/
  | received (p : Packet)
  /-- a timeout gives up a message in progress -/
  | abandoned
  | returned (res : SerialResult)
  deriving DecidableEq, Repr

/-- A log entry: what happened to which call, and how many bytes the side had
written and read by then. -/
structure Entry where
  side : Side
  call : SessionCall
  what : What
  sent : Nat
  got : Nat
  deriving DecidableEq, Repr

/-- The link and the log, oldest entry first. -/
structure Link where
  station : Side → Station
  log : List Entry

/-- A party before its first call. -/
def Station.init : Station :=
  ⟨⟨⟨.fresh, .ret .ok⟩, .empty⟩, .checkForMessage⟩

/-- Both transports are at `MSG_SEG_START` and the channels are empty. -/
def Link.init : Link := ⟨fun _ => .init, []⟩

/-! ## Steps -/

/-- The steps of a party: begin a call, or go on with it. -/
inductive StationEvent
  | call (c : SessionCall)
  | transport (e : PartyEvent)
  deriving DecidableEq, Repr

/-- The result of a call that has ended. -/
def Node.returned (n : Node noOps SerialResult) : List What :=
  match n.prog with
  | .ret res => [.returned res]
  | .op _ _ => []

/-- A timeout in the middle of a message. -/
def Node.abandons (n : Node noOps SerialResult) : PartyEvent → List What
  | .timeout => if n.rx.transport.msgInProgress then [.abandoned] else []
  | _ => []

/-- A step of the party `me`, whose peer is `peer`. -/
def Station.step (me peer : Station) :
    StationEvent → Option (Station × Station × List What)
  | .call c =>
      match me.party.node.prog with
      | .ret _ =>
          let node := Node.resume me.party.node.rx c.prog
          some (⟨⟨node, me.party.out⟩, c⟩, peer, .begun :: node.returned)
      | .op _ _ => none
  | .transport e =>
      match me.party.step peer.party.out e with
      | some (party, inbox, heard) =>
          some (⟨party, me.call⟩, ⟨⟨peer.party.node, inbox⟩, peer.call⟩,
            me.party.node.abandons e ++ heard.toList.map .received ++
              party.node.returned)
      | none => none

/-- The log entry of `me` for `what`. -/
def Station.entry (s : Side) (me peer : Station) (what : What) : Entry :=
  ⟨s, me.call, what, me.party.out.sent, peer.party.out.got⟩

/-- A step of the link: either side moves. -/
def Link.step (l : Link) : Side × StationEvent → Option Link
  | (s, e) =>
      match (l.station s).step (l.station s.other) e with
      | some (me, peer, whats) =>
          some
            { station := fun t => if t = s then me else peer
              log := l.log ++ whats.map (Station.entry s me peer) }
      | none => none

end MpmtTestStand.Ports
