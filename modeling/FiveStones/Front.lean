import FiveStones.Matcher

/-! The WebSocket handlers of `gobang_server`: the callbacks for an open, a message and a close of each
connection, by the uri that it came to.

Every callback first looks for the session behind the connection's cookie. Here the user that it finds, if it
finds one, is part of the event. -/

namespace FiveStones

/-- `/hall`, `/room`, `/spectate`, and any other uri, which no callback answers. -/
inductive WsUri
  | hall
  | room
  | spectate
  | other
  deriving DecidableEq, Repr

/-- A connection that was opened, and whether its close callback has run. -/
structure Conn where
  uri : WsUri
  closed : Bool
  deriving DecidableEq

structure Front where
  server : Server
  conns : Dict ConnId Conn

/-- What a callback does besides changing the state. The user of a connection is admitted or refused with the
    answers `hall_ready` and `room_ready`, and admitted to a room's spectators with `spectate_ready`. -/
inductive FrontObs
  | server (o : Obs)
  | admitted (conn : ConnId) (uid : Uid) (resp : Members)
  | refused (conn : ConnId) (uid : Uid) (resp : Members)
  | answer (conn : ConnId) (resp : Members)

namespace Server

def connect (s : Server) (conn : ConnId) : Server := { s with isOpen := Function.update s.isOpen conn true }

def disconnect (s : Server) (conn : ConnId) : Server := { s with isOpen := Function.update s.isOpen conn false }

def env (s : Server) (selectById : Uid → Option Members) (now later : Int) : Env :=
  ⟨s.om, s.isOpen, selectById, now, later⟩

/-- The answer of `wsopen_game_hall`. -/
def hallReady (s : Server) (uid : Uid) (conn : ConnId) : FrontObs :=
  if s.inGameHall uid || s.inGameRoom uid then .refused conn uid (refuse "hall_ready" "玩家重复登录！")
  else .admitted conn uid [("optype", .str "hall_ready"), ("result", .bool true)]

/-- The answer of `wsopen_game_room`. -/
def roomReady (s : Server) (uid : Uid) (conn : ConnId) (selectById : Uid → Option Members) : FrontObs :=
  if s.inGameRoom uid then .refused conn uid (refuse "room_ready" "玩家重复登录！")
  else
    match s.rm.getRoomByUid uid with
    | none => .refused conn uid (refuse "room_ready" "没有找到玩家的房间信息")
    | some r =>
      .admitted conn uid <| r.fillWhiteBlackUsernames (s.env selectById 0 0)
        [("optype", .str "room_ready"), ("result", .bool true), ("room_id", .int r.roomId), ("uid", .uint uid),
          ("white_id", .uint r.whiteId), ("black_id", .uint r.blackId), ("timing_started", .bool false),
          ("total_init_ms", .int totalInitMs), ("step_init_ms", .int stepInitMs)]

/-- A username for the hall: the uid when there is no record, or no name in it. -/
def listedName (selectById : Uid → Option Members) (uid : Uid) : Json :=
  match selectById uid with
  | none => .uint uid
  | some u => if (u.get "username").isNull then .uint uid else u.get "username"

def listedRoom (selectById : Uid → Option Members) (r : Room) : Json :=
  .obj [("room_id", .int r.roomId), ("white_id", .uint r.whiteId), ("black_id", .uint r.blackId),
    ("statu", .int (if r.statu = .gameStart then 0 else 1)), ("white_username", listedName selectById r.whiteId),
    ("black_username", listedName selectById r.blackId)]

/-- `wsmsg_game_hall`, with the message of the session user `uid`. -/
def wsmsgGameHall (s : Server) (selectById : Uid → Option Members) (uid : Uid) (body : Option Json) :
    Except JsonError (Server × List Obs × Members) :=
  match body with
  | none => .ok (s, [], [("result", .bool false), ("reason", .str "请求信息解析失败")])
  | some req => do
    let req ← req.members
    let optype ← (req.get "optype").asString
    if optype = "match_start" then
      let (s, out) ← s.matchStart selectById uid
      return (s, out, [("optype", .str "match_start"), ("result", .bool true)])
    else if optype = "match_stop" then
      let (s, out) ← s.matchStop selectById uid
      return (s, out, [("optype", .str "match_stop"), ("result", .bool true)])
    else if optype = "room_list_request" then
      return (s, [], [("optype", .str "room_list"), ("result", .bool true),
        ("rooms", .arr ((s.rm.getRoomsByState .gameStart).map (listedRoom selectById)))])
    else return (s, [], refuse "unknown" "请求类型未知")

/-- The answer to a spectator who has joined. -/
def spectateReady (env : Env) (r : Room) : Members :=
  r.fillWhiteBlackUsernames env
    [("optype", .str "spectate_ready"), ("result", .bool true), ("room_id", .int r.roomId), ("white_id", .uint r.whiteId),
      ("black_id", .uint r.blackId), ("statu", .int (if r.statu = .gameStart then 0 else 1)),
      ("board_snapshot", r.boardSnapshot)]

/-- `wsmsg_spectate`: a user watches one room at a time, which must have a game running. -/
def wsmsgSpectate (s : Server) (selectById : Uid → Option Members) (uid : Uid) (conn : ConnId) (body : Option Json) :
    Except JsonError (Server × FrontObs) :=
  match body with
  | none => .ok (s, .answer conn (refuse "spectate_ready" "请求解析失败"))
  | some req => do
    let req ← req.members
    let optype ← (req.get "optype").asString
    if optype = "spectate_join" then
      let rid ← (req.get "room_id").asUInt64
      match s.rm.getRoomByRid rid.toNat with
      | none => return (s, .answer conn (refuse "spectate_ready" "房间不存在"))
      | some r =>
        if r.statu ≠ .gameStart then return (s, .answer conn (refuse "spectate_ready" "房间未在进行中"))
        else
          let rm := s.rm.removeSpectatorUser uid
          let r := (r.removeSpectator uid).addSpectator uid conn
          return ({ s with rm := rm.setRoom rid.toNat r }, .admitted conn uid (spectateReady (s.env selectById 0 0) r))
    else return (s, .answer conn (refuse optype "未知观战请求类型"))

end Server

/-- What happens at the server's door: a step of a match thread, an open, a message or a close of a
    connection, with the session user behind it, or a connection that leaves the open state. -/
inductive FrontEvent
  | turn (k : Pool) (selectById : Uid → Option Members) (now : Int)
  | opened (conn : ConnId) (uri : WsUri) (user : Option Uid) (selectById : Uid → Option Members)
  | message (conn : ConnId) (user : Option Uid) (body : Option Json) (selectById : Uid → Option Members)
      (now later : Int)
  | closed (conn : ConnId) (user : Option Uid)
  | drop (conn : ConnId)

namespace Front

def start : Front := ⟨.start, Dict.empty⟩

def connect (f : Front) (conn : ConnId) (uri : WsUri) : Front := ⟨f.server.connect conn, f.conns.assign conn ⟨uri, false⟩⟩

def disconnect (f : Front) (conn : ConnId) (uri : WsUri) : Front :=
  ⟨f.server.disconnect conn, f.conns.assign conn ⟨uri, true⟩⟩

/-- `wsopen_callback` for a session user. -/
def onOpen (s : Server) (conn : ConnId) (uri : WsUri) (uid : Uid) (selectById : Uid → Option Members) :
    Server × List FrontObs :=
  match uri with
  | .hall => (s.wsopenGameHall uid conn, [s.hallReady uid conn])
  | .room => (s.wsopenGameRoom uid conn, [s.roomReady uid conn selectById])
  | .spectate | .other => (s, [])

/-- `wsmsg_callback` for a session user. -/
def onMessage (s : Server) (conn : ConnId) (uri : WsUri) (uid : Uid) (body : Option Json)
    (selectById : Uid → Option Members) (now later : Int) : Except JsonError (Server × List FrontObs) :=
  match uri with
  | .hall => do
    let (s, out, resp) ← s.wsmsgGameHall selectById uid body
    return (s, out.map .server ++ [.answer conn resp])
  | .room => do
    let (rm, calls) ← s.rm.wsmsgGameRoom (s.env selectById now later) uid body
    return ({ s with rm }, calls.map fun c => .server (.call c))
  | .spectate => do
    let (s, o) ← s.wsmsgSpectate selectById uid conn body
    return (s, [o])
  | .other => return (s, [])

/-- `wsclose_callback` for a session user. -/
def onClose (s : Server) (uri : WsUri) (uid : Uid) : Server × List FrontObs :=
  match uri with
  | .hall => (s.wscloseGameHall uid, [])
  | .room =>
    let (s, calls) := s.wscloseGameRoom uid
    (s, calls.map fun c => .server (.call c))
  | .spectate => ({ s with rm := s.rm.removeSpectatorUser uid }, [])
  | .other => (s, [])

/-- The connections as a machine. One opens once, and closes once; a callback that throws has no step. -/
def machine : Machine Front FrontEvent FrontObs where
  step f
    | .turn k selectById now =>
      match f.server.turn k selectById now with
      | none => none
      | some (s, out) => some ({ f with server := s }, out.map .server)
    | .opened conn uri user selectById =>
      match f.conns conn with
      | some _ => none
      | none =>
        let f := f.connect conn uri
        match user with
        | none => some (f, [])
        | some uid =>
          let (s, out) := onOpen f.server conn uri uid selectById
          some ({ f with server := s }, out)
    | .message conn user body selectById now later =>
      match f.conns conn, user with
      | some ⟨_, false⟩, none => some (f, [])
      | some ⟨uri, false⟩, some uid =>
        match onMessage f.server conn uri uid body selectById now later with
        | .error _ => none
        | .ok (s, out) => some ({ f with server := s }, out)
      | _, _ => none
    | .closed conn user =>
      match f.conns conn with
      | some ⟨uri, false⟩ =>
        let f := f.disconnect conn uri
        match user with
        | none => some (f, [])
        | some uid =>
          let (s, out) := onClose f.server uri uid
          some ({ f with server := s }, out)
      | _ => none
    | .drop conn =>
      match f.conns conn with
      | none => none
      | some _ => some ({ f with server := f.server.disconnect conn }, [])

end Front

abbrev FrontTrans := Machine.Trans Front FrontEvent FrontObs

/-- The message of a client who looks for an opponent. -/
def matchStartMsg : Json := .obj [("optype", .str "match_start")]

/-- Users 1 and 2 come to the hall, look for an opponent, and are given room 1. -/
def pairing : List FrontEvent :=
  [.opened 1 .hall (some 1) newcomer, .opened 2 .hall (some 2) newcomer,
    .message 1 (some 1) (some matchStartMsg) newcomer 0 0, .message 2 (some 2) (some matchStartMsg) newcomer 0 0]
    ++ List.replicate 8 (.turn .normal newcomer 0)

end FiveStones
