import FiveStones.Front

/-! The network thread, one access at a time. It runs its callbacks one after the other, but while one of them
runs, a match thread can take a step, and a connection can leave the open state.

A callback is cut before each access to `online_manager` and to `room_manager`. Only the network thread writes to
the former and takes rooms from the latter. -/

namespace FiveStones

/-- Where the network thread stands: before an access of a callback, or in none. -/
inductive IoPc
  | idle
  /-- In `wsopen_game_hall`. -/
  | hallInHall (uid : Uid) (conn : ConnId)
  | hallInRoom (uid : Uid) (conn : ConnId)
  | enterHall (uid : Uid) (conn : ConnId)
  /-- In `wsopen_game_room`. -/
  | roomInRoom (uid : Uid) (conn : ConnId)
  | roomInHall (uid : Uid) (conn : ConnId) (inRoom : Bool)
  | leaveHall (uid : Uid) (conn : ConnId)
  | findRoom (uid : Uid) (conn : ConnId)
  | enterRoom (uid : Uid) (conn : ConnId) (r : Room)
  | hallMessage (uid : Uid) (conn : ConnId) (body : Option Json)
  | roomMessage (uid : Uid) (body : Option Json)
  /-- In `wsmsg_spectate`. -/
  | spectate (uid : Uid) (conn : ConnId) (body : Option Json)
  | unwatch (uid : Uid) (conn : ConnId) (rid : Rid)
  | watch (uid : Uid) (conn : ConnId) (rid : Rid)
  /-- In the close callbacks. -/
  | exitHall (uid : Uid)
  | exitRoom (uid : Uid)
  | removeUser (uid : Uid)
  | removeSpectator (uid : Uid)

namespace IoPc

/-- `wsopen_callback` for a session user, before its first access. -/
def onOpen (conn : ConnId) (uid : Uid) : WsUri → IoPc
  | .hall => hallInHall uid conn
  | .room => roomInRoom uid conn
  | .spectate | .other => idle

/-- `wsmsg_callback`. -/
def onMessage (conn : ConnId) (uid : Uid) (body : Option Json) : WsUri → IoPc
  | .hall => hallMessage uid conn body
  | .room => roomMessage uid body
  | .spectate => spectate uid conn body
  | .other => idle

/-- `wsclose_callback`. -/
def onClose (uid : Uid) : WsUri → IoPc
  | .hall => exitHall uid
  | .room => exitRoom uid
  | .spectate => removeSpectator uid
  | .other => idle

end IoPc

structure IoThread where
  front : Front
  pc : IoPc

/-- As in `FrontEvent`, but an open, a message and a close only begin their callback, and `next` is one access of
    it. The reads of presence in a room's handler are not cut apart: the states in which they find the
    connections are part of the event. -/
inductive IoEvent
  | turn (k : Pool) (selectById : Uid → Option Members) (now : Int)
  | opened (conn : ConnId) (uri : WsUri) (user : Option Uid)
  | message (conn : ConnId) (user : Option Uid) (body : Option Json)
  | closed (conn : ConnId) (user : Option Uid)
  | next (selectById : Uid → Option Members) (reads : ConnId → Bool) (now later : Int)
  | drop (conn : ConnId)

namespace Server

/-- The answer to a player who has come to the room. -/
def roomJoined (s : Server) (uid : Uid) (r : Room) (selectById : Uid → Option Members) : Members :=
  r.fillWhiteBlackUsernames (s.env selectById 0 0)
    [("optype", .str "room_ready"), ("result", .bool true), ("room_id", .int r.roomId), ("uid", .uint uid),
      ("white_id", .uint r.whiteId), ("black_id", .uint r.blackId), ("timing_started", .bool false),
      ("total_init_ms", .int totalInitMs), ("step_init_ms", .int stepInitMs)]

/-- `wsmsg_spectate` as far as the room to watch: an answer that ends it, or the room's id. -/
def spectateTarget (s : Server) (body : Option Json) : Except JsonError (Members ⊕ Rid) :=
  match body with
  | none => .ok (.inl (refuse "spectate_ready" "请求解析失败"))
  | some req => do
    let req ← req.members
    let optype ← (req.get "optype").asString
    if optype = "spectate_join" then
      let rid ← (req.get "room_id").asUInt64
      match s.rm.getRoomByRid rid.toNat with
      | none => return .inl (refuse "spectate_ready" "房间不存在")
      | some r =>
        if r.statu ≠ .gameStart then return .inl (refuse "spectate_ready" "房间未在进行中") else return .inr rid.toNat
    else return .inl (refuse optype "未知观战请求类型")

end Server

namespace IoThread

def start : IoThread := ⟨.start, .idle⟩

def server (t : IoThread) : Server := t.front.server

def goto (t : IoThread) (pc : IoPc) : IoThread := { t with pc }

def setServer (t : IoThread) (s : Server) : IoThread := { t with front := { t.front with server := s } }

/-- The next access of the callback that runs. -/
def next (t : IoThread) (selectById : Uid → Option Members) (reads : ConnId → Bool) (now later : Int) :
    Option (IoThread × List FrontObs) :=
  let s := t.server
  match t.pc with
  | .idle => none
  | .hallInHall uid conn =>
    if s.inGameHall uid then some (t.goto .idle, [.refused conn uid (refuse "hall_ready" "玩家重复登录！")])
    else some (t.goto (.hallInRoom uid conn), [])
  | .hallInRoom uid conn =>
    if s.inGameRoom uid then some (t.goto .idle, [.refused conn uid (refuse "hall_ready" "玩家重复登录！")])
    else some (t.goto (.enterHall uid conn), [])
  | .enterHall uid conn =>
    some ((t.setServer { s with om := s.om.enterGameHall uid conn }).goto .idle,
      [.admitted conn uid [("optype", .str "hall_ready"), ("result", .bool true)]])
  | .roomInRoom uid conn => some (t.goto (.roomInHall uid conn (s.inGameRoom uid)), [])
  | .roomInHall uid conn inRoom =>
    if inRoom then some (t.goto .idle, [.refused conn uid (refuse "room_ready" "玩家重复登录！")])
    else if s.inGameHall uid then some (t.goto (.leaveHall uid conn), [])
    else some (t.goto (.findRoom uid conn), [])
  | .leaveHall uid conn =>
    some ((t.setServer { s with om := s.om.exitGameHall uid }).goto (.findRoom uid conn), [])
  | .findRoom uid conn =>
    match s.rm.getRoomByUid uid with
    | none => some (t.goto .idle, [.refused conn uid (refuse "room_ready" "没有找到玩家的房间信息")])
    | some r => some (t.goto (.enterRoom uid conn r), [])
  | .enterRoom uid conn r =>
    some ((t.setServer { s with om := s.om.enterGameRoom uid conn }).goto .idle,
      [.admitted conn uid (s.roomJoined uid r selectById)])
  | .hallMessage uid conn body =>
    match s.wsmsgGameHall selectById uid body with
    | .error _ => none
    | .ok (s, out, resp) => some ((t.setServer s).goto .idle, out.map .server ++ [.answer conn resp])
  | .roomMessage uid body =>
    match s.rm.wsmsgGameRoom ⟨s.om, reads, selectById, now, later⟩ uid body with
    | .error _ => none
    | .ok (rm, calls) => some ((t.setServer { s with rm }).goto .idle, calls.map fun c => .server (.call c))
  | .spectate uid conn body =>
    match s.spectateTarget body with
    | .error _ => none
    | .ok (.inl resp) => some (t.goto .idle, [.answer conn resp])
    | .ok (.inr rid) => some (t.goto (.unwatch uid conn rid), [])
  | .unwatch uid conn rid =>
    some ((t.setServer { s with rm := s.rm.removeSpectatorUser uid }).goto (.watch uid conn rid), [])
  | .watch uid conn rid =>
    match s.rm.rooms rid with
    -- Not reached: a room that the callback has found stays until the callback ends.
    | none => some (t.goto .idle, [])
    | some r =>
      let r := r.addSpectator uid conn
      some ((t.setServer { s with rm := s.rm.setRoom rid r }).goto .idle,
        [.admitted conn uid (Server.spectateReady (s.env selectById 0 0) r)])
  | .exitHall uid => some ((t.setServer { s with om := s.om.exitGameHall uid }).goto .idle, [])
  | .exitRoom uid => some ((t.setServer { s with om := s.om.exitGameRoom uid }).goto (.removeUser uid), [])
  | .removeUser uid =>
    some ((t.setServer { s with rm := (s.rm.removeRoomUser uid).1 }).goto .idle,
      (s.rm.removeRoomUser uid).2.map fun c => .server (.call c))
  | .removeSpectator uid => some ((t.setServer { s with rm := s.rm.removeSpectatorUser uid }).goto .idle, [])

/-- The network thread, with the match threads beside it. A connection that has left the open state never comes
    back to it. -/
def machine : Machine IoThread IoEvent FrontObs where
  step t
    | .turn k selectById now =>
      match t.server.turn k selectById now with
      | none => none
      | some (s, out) => some (t.setServer s, out.map .server)
    | .opened conn uri user =>
      match t.pc, t.front.conns conn with
      | .idle, none => some (⟨t.front.connect conn uri, user.elim .idle fun uid => .onOpen conn uid uri⟩, [])
      | _, _ => none
    | .message conn user body =>
      match t.pc, t.front.conns conn with
      | .idle, some ⟨uri, false⟩ => some (t.goto (user.elim .idle fun uid => .onMessage conn uid body uri), [])
      | _, _ => none
    | .closed conn user =>
      match t.pc, t.front.conns conn with
      | .idle, some ⟨uri, false⟩ => some (⟨t.front.disconnect conn uri, user.elim .idle fun uid => .onClose uid uri⟩, [])
      | _, _ => none
    | .next selectById reads now later => t.next selectById reads now later
    | .drop conn =>
      match t.front.conns conn with
      | none => none
      | some _ => some (t.setServer (t.server.disconnect conn), [])

end IoThread

abbrev IoTrans := Machine.Trans IoThread IoEvent FrontObs

end FiveStones
