import FiveStones.Play

/-! `room_manager`: the rooms by their ids, and the room of each user. -/

namespace FiveStones

abbrev Rid := Nat

structure RoomManager where
  /-- A `uint64_t` in the code, which no run gets past that creates fewer than `2 ^ 64` rooms. -/
  nextRid : Rid
  rooms : Dict Rid Room
  users : Dict Uid Rid

def Room.Seats (r : Room) (uid : Uid) : Prop := uid = r.whiteId ∨ uid = r.blackId

instance (r : Room) : DecidablePred r.Seats := fun _ => inferInstanceAs (Decidable (_ ∨ _))

namespace RoomManager

def empty : RoomManager := ⟨1, Dict.empty, Dict.empty⟩

/-- The part of `create_room` under the lock. -/
def addRoom (rm : RoomManager) (uid1 uid2 : Uid) (now : Int) : RoomManager where
  nextRid := rm.nextRid + 1
  rooms := rm.rooms.insert rm.nextRid (Room.create rm.nextRid uid1 uid2 now)
  users := (rm.users.insert uid1 rm.nextRid).insert uid2 rm.nextRid

/-- `create_room`: no room unless both users are in the hall. -/
def createRoom (env : Env) (rm : RoomManager) (uid1 uid2 : Uid) : RoomManager × Option Room :=
  if !env.inGameHall uid1 then (rm, none)
  else if !env.inGameHall uid2 then (rm, none)
  else (rm.addRoom uid1 uid2 env.now, some (Room.create rm.nextRid uid1 uid2 env.now))

def getRoomByRid (rm : RoomManager) (rid : Rid) : Option Room := rm.rooms rid

/-- The room of a user, with its key in `_rooms`. -/
def findRoom (rm : RoomManager) (uid : Uid) : Option (Rid × Room) :=
  match rm.users uid with
  | none => none
  | some rid =>
    match rm.rooms rid with
    | none => none
    | some r => some (rid, r)

def getRoomByUid (rm : RoomManager) (uid : Uid) : Option Room := (rm.findRoom uid).map Prod.snd

/-- The room under `rid` after a handler wrote to it. The code shares rooms by pointer. -/
def setRoom (rm : RoomManager) (rid : Rid) (r : Room) : RoomManager := { rm with rooms := rm.rooms.assign rid r }

def removeRoom (rm : RoomManager) (rid : Rid) : RoomManager :=
  match rm.getRoomByRid rid with
  | none => rm
  | some r =>
    { rm with
      users := (rm.users.erase r.whiteId).erase r.blackId
      rooms := rm.rooms.erase rid }

def removeRoomUser (rm : RoomManager) (uid : Uid) : RoomManager × List Call :=
  match rm.findRoom uid with
  | none => (rm, [])
  | some (rid, r) =>
    let (r, calls) := r.handleExit uid
    let rm := rm.setRoom rid r
    (if r.playerCount = 0 then rm.removeRoom r.roomId else rm, calls)

/-- `remove_spectator_user`: out of every room. -/
def removeSpectatorUser (rm : RoomManager) (uid : Uid) : RoomManager :=
  { rm with rooms := fun rid => (rm.rooms rid).map (·.removeSpectator uid) }

/-- `get_rooms_by_state`, by ascending ids. The code goes through its hash map, in no order to rely on. -/
def getRoomsByState (rm : RoomManager) (st : RoomStatu) : List Room :=
  (List.range rm.nextRid).filterMap fun rid => (rm.rooms rid).filter (·.statu = st)

/-- `wsmsg_game_room`, for a message that came by the room connection of the session user `uid`. No body is
    one that `unserialize` refused. -/
def wsmsgGameRoom (env : Env) (rm : RoomManager) (uid : Uid) (body : Option Json) :
    Except JsonError (RoomManager × List Call) :=
  match rm.findRoom uid, body with
  | none, _ => .ok (rm, [.reply (refuse "unknown" "没有找到玩家的房间信息")])
  | some _, none => .ok (rm, [.reply (refuse "unknown" "请求解析失败")])
  | some (rid, r), some req => do
    let (r, calls) ← r.handleRequest env req
    return (rm.setRoom rid r, calls)

end RoomManager

/-- What happens to the room manager. `exit` is `handle_exit` on a room that its caller still holds. -/
inductive RoomsEvent
  | create (env : Env) (uid1 uid2 : Uid)
  | removeRoom (rid : Rid)
  | removeRoomUser (uid : Uid)
  | exit (rid : Rid) (uid : Uid)
  | message (env : Env) (uid : Uid) (body : Option Json)

inductive RoomsOut
  | created (r : Room)
  | call (c : Call)

def RoomManager.machine : Machine RoomManager RoomsEvent RoomsOut where
  step rm
    | .create env uid1 uid2 =>
      let (rm, r) := rm.createRoom env uid1 uid2
      some (rm, r.toList.map .created)
    | .removeRoom rid => some (rm.removeRoom rid, [])
    | .removeRoomUser uid =>
      let (rm, calls) := rm.removeRoomUser uid
      some (rm, calls.map .call)
    | .exit rid uid =>
      match rm.rooms rid with
      | none => none
      | some r => some (rm.setRoom rid (r.handleExit uid).1, (r.handleExit uid).2.map .call)
    | .message env uid body =>
      match rm.wsmsgGameRoom env uid body with
      | .error _ => none
      | .ok (rm, calls) => some (rm, calls.map .call)

abbrev RoomsTrans := Machine.Trans RoomManager RoomsEvent RoomsOut

end FiveStones
