import FiveStones.Lib.Fifo
import FiveStones.RoomManager

/-! `matcher`, and the server around it: three queues of waiting users, a match thread for each, and the
network thread, which answers hall and room connections.

A step is as much as one thread does without another in between: a match thread takes one step of
`handle_match` for each access to what it shares. The network thread runs its handlers one after the other,
and each of them changes at most one thing that the match threads look at. -/

namespace FiveStones

/-- The three queues, and the threads that serve them. -/
inductive Pool
  | normal
  | high
  | super
  deriving DecidableEq, Repr

instance Pool.decidableForall {p : Pool → Prop} [DecidablePred p] : Decidable (∀ k, p k) :=
  decidable_of_iff (p .normal ∧ p .high ∧ p .super)
    ⟨fun ⟨hnormal, hhigh, hsuper⟩ k => by cases k <;> assumption, fun h => ⟨h _, h _, h _⟩⟩

def poolOf (score : Int) : Pool := if score < 2000 then .normal else if score < 3000 then .high else .super

/-- The first half of `add` and of `del`: the queue of a user, if there is a record of it. -/
def poolOfUser (selectById : Uid → Option Members) (uid : Uid) : Except JsonError (Option Pool) :=
  match selectById uid with
  | none => .ok none
  | some user => do
    let score ← (user.get "score").asInt
    return some (poolOf score)

/-- Where a match thread stands in `handle_match`, with the users that it holds. -/
inductive Pc
  /-- Before `while (mq.size() < 2)`. -/
  | size
  /-- In `mq.wait()`. -/
  | wait
  | pop1
  | pop2 (uid1 : Uid)
  /-- Before `get_conn_from_game_hall`, for the first and for the second user. -/
  | conn1 (uid1 uid2 : Uid)
  | conn2 (uid1 uid2 : Uid)
  /-- In `create_room`: before each `in_game_hall`, and before the part under the lock. -/
  | hall1 (uid1 uid2 : Uid)
  | hall2 (uid1 uid2 : Uid)
  | create (uid1 uid2 : Uid)
  /-- Before `add(uid)`, with more of them to follow. -/
  | add (uid : Uid) (rest : List Uid)
  deriving DecidableEq

/-- The users that are out of the queues, and not seated or put back yet. -/
def Pc.hands : Pc → List Uid
  | size | wait | pop1 => []
  | pop2 uid1 => [uid1]
  | conn1 uid1 uid2 | conn2 uid1 uid2 | hall1 uid1 uid2 | hall2 uid1 uid2 | create uid1 uid2 => [uid1, uid2]
  | add uid rest => uid :: rest

/-- After an `add`: the next one, or the next round. -/
def Pc.afterAdd : List Uid → Pc
  | [] => size
  | uid :: rest => add uid rest

structure Server where
  queues : Pool → List Uid
  pcs : Pool → Pc
  om : OnlineManager
  isOpen : ConnId → Bool
  rm : RoomManager

/-- What a step does to the queues, and what a match thread finds out. A push is by a match thread, or by the
    network thread. -/
inductive Obs
  | round (k : Pool)
  | popped (k : Pool) (uid : Uid)
  | absent (k : Pool) (uid : Uid)
  | created (k : Pool) (r : Room)
  | pushed (thread : Option Pool) (k : Pool) (uid : Uid)
  | removed (k : Pool) (uid : Uid)
  | call (c : Call)

namespace Server

def start : Server where
  queues _ := []
  pcs _ := .size
  om := .empty
  isOpen _ := false
  rm := .empty

def goto (s : Server) (k : Pool) (pc : Pc) : Server := { s with pcs := Function.update s.pcs k pc }

def setQueue (s : Server) (k : Pool) (q : List Uid) : Server := { s with queues := Function.update s.queues k q }

def push (s : Server) (k : Pool) (uid : Uid) : Server := s.setQueue k (s.queues k ++ [uid])

def remove (s : Server) (k : Pool) (uid : Uid) : Server := s.setQueue k ((s.queues k).filter (· ≠ uid))

def inGameHall (s : Server) (uid : Uid) : Bool := s.om.inGameHall s.isOpen uid

def inGameRoom (s : Server) (uid : Uid) : Bool := s.om.inGameRoom s.isOpen uid

/-- One step of the match thread `k` in `handle_match`. -/
def turn (s : Server) (k : Pool) (selectById : Uid → Option Members) (now : Int) : Option (Server × List Obs) :=
  match s.pcs k with
  | .size => if (s.queues k).length < 2 then some (s.goto k .wait, []) else some (s.goto k .pop1, [.round k])
  | .wait => if (s.queues k).length < 2 then none else some (s.goto k .size, [])
  | .pop1 =>
    match s.queues k with
    | [] => some (s.goto k .size, [])
    | uid1 :: q => some ((s.setQueue k q).goto k (.pop2 uid1), [.popped k uid1])
  | .pop2 uid1 =>
    match s.queues k with
    | [] => some (s.goto k (.add uid1 []), [])
    | uid2 :: q => some ((s.setQueue k q).goto k (.conn1 uid1 uid2), [.popped k uid2])
  | .conn1 uid1 uid2 =>
    if s.inGameHall uid1 then some (s.goto k (.conn2 uid1 uid2), []) else some (s.goto k (.add uid2 []), [.absent k uid1])
  | .conn2 uid1 uid2 =>
    if s.inGameHall uid2 then some (s.goto k (.hall1 uid1 uid2), []) else some (s.goto k (.add uid1 []), [.absent k uid2])
  | .hall1 uid1 uid2 =>
    if s.inGameHall uid1 then some (s.goto k (.hall2 uid1 uid2), [])
    else some (s.goto k (.add uid1 [uid2]), [.absent k uid1])
  | .hall2 uid1 uid2 =>
    if s.inGameHall uid2 then some (s.goto k (.create uid1 uid2), [])
    else some (s.goto k (.add uid1 [uid2]), [.absent k uid2])
  | .create uid1 uid2 =>
    some ({ s with rm := s.rm.addRoom uid1 uid2 now }.goto k .size, [.created k (Room.create s.rm.nextRid uid1 uid2 now)])
  | .add uid rest =>
    match poolOfUser selectById uid with
    | .error _ => none
    | .ok none => some (s.goto k (.afterAdd rest), [])
    | .ok (some pool) => some ((s.push pool uid).goto k (.afterAdd rest), [.pushed (some k) pool uid])

/-- `match_start` of a user: `add`. -/
def matchStart (s : Server) (selectById : Uid → Option Members) (uid : Uid) : Except JsonError (Server × List Obs) := do
  match ← poolOfUser selectById uid with
  | none => return (s, [])
  | some pool => return (s.push pool uid, [.pushed none pool uid])

/-- `match_stop` of a user: `del`. -/
def matchStop (s : Server) (selectById : Uid → Option Members) (uid : Uid) : Except JsonError (Server × List Obs) := do
  match ← poolOfUser selectById uid with
  | none => return (s, [])
  | some pool => return (s.remove pool uid, [.removed pool uid])

/-- `wsopen_game_hall`: nothing for a user who is in the hall or in a room. -/
def wsopenGameHall (s : Server) (uid : Uid) (conn : ConnId) : Server :=
  let s := { s with isOpen := Function.update s.isOpen conn true }
  if s.inGameHall uid || s.inGameRoom uid then s else { s with om := s.om.enterGameHall uid conn }

def wscloseGameHall (s : Server) (uid : Uid) : Server := { s with om := s.om.exitGameHall uid }

/-- `wsopen_game_room`: nothing for a user who is in a room, and otherwise out of the hall, and into the room
    if there is one for the user. -/
def wsopenGameRoom (s : Server) (uid : Uid) (conn : ConnId) : Server :=
  let s := { s with isOpen := Function.update s.isOpen conn true }
  if s.inGameRoom uid then s
  else
    let s := if s.inGameHall uid then { s with om := s.om.exitGameHall uid } else s
    match s.rm.getRoomByUid uid with
    | none => s
    | some _ => { s with om := s.om.enterGameRoom uid conn }

def wscloseGameRoom (s : Server) (uid : Uid) : Server × List Call :=
  let (rm, calls) := s.rm.removeRoomUser uid
  ({ s with om := s.om.exitGameRoom uid, rm }, calls)

end Server

/-- What happens to the server: a step of a match thread, or a message or a connection of the session user
    `uid`. A connection leaves the open state by itself (`drop`), and is closed later. -/
inductive ServerEvent
  | turn (k : Pool) (selectById : Uid → Option Members) (now : Int)
  | matchStart (uid : Uid) (selectById : Uid → Option Members)
  | matchStop (uid : Uid) (selectById : Uid → Option Members)
  | hallOpen (uid : Uid) (conn : ConnId)
  | hallClose (uid : Uid)
  | roomOpen (uid : Uid) (conn : ConnId)
  | roomClose (uid : Uid)
  | roomMessage (uid : Uid) (body : Option Json) (selectById : Uid → Option Members) (now later : Int)
  | drop (conn : ConnId)

def Server.machine : Machine Server ServerEvent Obs where
  step s
    | .turn k selectById now => s.turn k selectById now
    | .matchStart uid selectById => (s.matchStart selectById uid).toOption
    | .matchStop uid selectById => (s.matchStop selectById uid).toOption
    | .hallOpen uid conn => some (s.wsopenGameHall uid conn, [])
    | .hallClose uid => some (s.wscloseGameHall uid, [])
    | .roomOpen uid conn => some (s.wsopenGameRoom uid conn, [])
    | .roomClose uid =>
      let (s, calls) := s.wscloseGameRoom uid
      some (s, calls.map .call)
    | .roomMessage uid body selectById now later =>
      match s.rm.wsmsgGameRoom ⟨s.om, s.isOpen, selectById, now, later⟩ uid body with
      | .error _ => none
      | .ok (rm, calls) => some ({ s with rm }, calls.map .call)
    | .drop conn => some ({ s with isOpen := Function.update s.isOpen conn false }, [])

abbrev ServerTrans := Machine.Trans Server ServerEvent Obs

/-- A user whose record has the first score. -/
def newcomer (_ : Uid) : Option Members := some [("score", .int 1000)]

end FiveStones
