import Mathlib.Data.List.Infix
import FiveStones.Json
import FiveStones.Board
import FiveStones.Online

/-! `room`: one room with its board, its clocks and its handshake for another game.

Times are in nanoseconds on the steady clock. -/

namespace FiveStones

inductive RoomStatu
  | gameStart
  | gameOver
  deriving DecidableEq, Repr

def totalInitMs : Nat := 600000
def stepInitMs : Nat := 30000
def timeoutToleranceMs : Nat := 200

structure Room where
  roomId : Nat
  statu : RoomStatu
  playerCount : Nat
  whiteId : Uid
  blackId : Uid
  board : Board
  spectatorConns : Dict Uid ConnId
  timingStarted : Bool
  turnUid : Uid
  turnStartTp : Int
  whiteTotalLeftMs : Nat
  blackTotalLeftMs : Nat
  rematchInitiatorUid : Uid

/-- What a handler of the room reads from outside: the online manager, the states of the connections,
    `select_by_id`, and the clock, which one handler reads twice at most (`now`, then `later`). -/
structure Env where
  om : OnlineManager
  isOpen : ConnId → Bool
  selectById : Uid → Option Members
  now : Int
  later : Int

def Env.inGameHall (env : Env) (uid : Uid) : Bool := env.om.inGameHall env.isOpen uid

def Env.inGameRoom (env : Env) (uid : Uid) : Bool := env.om.inGameRoom env.isOpen uid

/-- A call to the user table, to the connections of a room's members, or to the connection that a message
    came by. -/
inductive Call
  | win (uid : Uid)
  | lose (uid : Uid)
  | broadcast (resp : Members)
  | reply (resp : Members)

/-- The milliseconds from `start` to `now`, in 64 bits without a sign. -/
def elapsedMs (now start : Int) : Nat := ((now - start).tdiv 1000000 % 2 ^ 64).toNat

/-- A refusal, with the fields that every one of them has. -/
def refuse (optype reason : String) : Members :=
  [("optype", .str optype), ("result", .bool false), ("reason", .str reason)]

namespace Room

def new (roomId : Nat) (now : Int) : Room where
  roomId := roomId
  statu := .gameStart
  playerCount := 0
  whiteId := 0
  blackId := 0
  board := Board.empty
  spectatorConns := Dict.empty
  timingStarted := false
  turnUid := 0
  turnStartTp := now
  whiteTotalLeftMs := 0
  blackTotalLeftMs := 0
  rematchInitiatorUid := 0

def addWhiteUser (r : Room) (uid : Uid) : Room := { r with whiteId := uid, playerCount := r.playerCount + 1 }

/-- Black moves first. -/
def addBlackUser (r : Room) (uid : Uid) : Room :=
  { r with blackId := uid, turnUid := uid, playerCount := r.playerCount + 1 }

def addSpectator (r : Room) (uid : Uid) (conn : ConnId) : Room :=
  { r with spectatorConns := r.spectatorConns.assign uid conn }

def removeSpectator (r : Room) (uid : Uid) : Room := { r with spectatorConns := r.spectatorConns.erase uid }

/-- `board_snapshot`: the stones, row by row, with 1 for white and 2 for black. -/
def boardSnapshot (r : Room) : Json :=
  .arr ((List.finRange boardRow).flatMap fun row => (List.finRange boardCol).filterMap fun col =>
    (r.board ⟨row, col⟩).map fun color =>
      .obj [("row", .int row), ("col", .int col), ("color", .int (if color = .white then 1 else 2))])

/-- `broadcast`: the connections that a message is sent to, one call after the other. `watchers` are the keys of
    `_spectator_conns`, in whatever order the code goes through them. -/
def broadcastTo (env : Env) (r : Room) (watchers : List Uid) : List ConnId :=
  (env.om.getConnFromGameRoom env.isOpen r.whiteId).toList ++ (env.om.getConnFromGameRoom env.isOpen r.blackId).toList ++
    watchers.filterMap r.spectatorConns

/-- The other player, for a uid that holds a seat: the code writes this comparison out each time. -/
def opponentOf (r : Room) (uid : Uid) : Uid := if uid = r.whiteId then r.blackId else r.whiteId

/-- `check_win`: the winner's uid, or 0. -/
def checkWin (r : Room) (row col : Int) (color : Chess) : Uid :=
  if r.board.five row col 0 1 color || r.board.five row col 1 0 color || r.board.five row col (-1) 1 color
      || r.board.five row col (-1) (-1) color then
    if color = .white then r.whiteId else r.blackId
  else 0

/-- `handle_chess`: a move, on a copy of the request as the answer. -/
def handleChess (env : Env) (r : Room) (req : Members) : Except JsonError (Room × Members) := do
  let chessRow ← (req.get "row").asInt
  let chessCol ← (req.get "col").asInt
  let curUid ← (req.get "uid").asUInt64
  match Cell.of? chessRow chessCol with
  | none => return (r, (req.set "result" (.bool false)).set "reason" (.str "棋盘坐标非法！"))
  | some c =>
    if !env.inGameRoom r.whiteId then
      return (r, ((req.set "result" (.bool true)).set "reason" (.str "对方掉线，不战而胜！")).set "winner" (.uint r.blackId))
    else if !env.inGameRoom r.blackId then
      return (r, ((req.set "result" (.bool true)).set "reason" (.str "对方掉线，不战而胜！")).set "winner" (.uint r.whiteId))
    else if (r.board c).isSome then
      return (r, (req.set "result" (.bool false)).set "reason" (.str "当前位置已经有了其他棋子！"))
    else
      let curColor := if curUid = r.whiteId then Chess.white else Chess.black
      let r := { r with board := r.board.set c curColor }
      let winnerId := r.checkWin chessRow chessCol curColor
      let resp := if winnerId ≠ 0 then req.set "reason" (.str "五星连珠，战无不胜！") else req
      return (r, (resp.set "result" (.bool true)).set "winner" (.uint winnerId))

def handleChat (req : Members) : Except JsonError Members := do
  let msg ← (req.get "message").asString
  if "垃圾".toList <:+: msg.toList then
    return (req.set "result" (.bool false)).set "reason" (.str "消息中包含敏感词，不能发送！")
  else return req.set "result" (.bool true)

/-- `handle_exit`: a player leaves, or the connection is gone. -/
def handleExit (r : Room) (uid : Uid) : Room × List Call :=
  let playerCount := if r.playerCount > 0 then r.playerCount - 1 else r.playerCount
  match r.statu with
  | .gameStart =>
    let winnerId := r.opponentOf uid
    let loserId := if uid = r.whiteId then r.whiteId else r.blackId
    ({ r with statu := .gameOver, playerCount },
      [.win winnerId, .lose loserId, .broadcast
        [("optype", .str "put_chess"), ("result", .bool true), ("reason", .str "对方掉线，不战而胜！"),
          ("room_id", .int r.roomId), ("uid", .uint uid), ("row", .int (-1)), ("col", .int (-1)),
          ("winner", .uint winnerId)]])
  | .gameOver =>
    ({ r with playerCount },
      [.broadcast [("optype", .str "peer_left_room"), ("result", .bool true), ("reason", .str "对方已返回大厅"),
        ("room_id", .int r.roomId), ("uid", .uint uid)]])

/-- The username that an answer shows: empty when there is no record, or no name in it. -/
def usernameOf (env : Env) (uid : Uid) : Json :=
  match env.selectById uid with
  | none => .str ""
  | some u => if (u.get "username").isNull then .str "" else u.get "username"

def fillWhiteBlackUsernames (env : Env) (r : Room) (resp : Members) : Members :=
  (resp.set "white_username" (usernameOf env r.whiteId)).set "black_username" (usernameOf env r.blackId)

def bothPlayersOnline (env : Env) (r : Room) : Bool := env.inGameRoom r.whiteId && env.inGameRoom r.blackId

/-- `start_rematch`: a new game with the seats swapped. -/
def startRematch (env : Env) (r : Room) : Room × Members :=
  let r := { r with
    whiteId := r.blackId
    blackId := r.whiteId
    board := Board.empty
    statu := .gameStart
    timingStarted := false
    turnUid := r.whiteId
    turnStartTp := env.now
    whiteTotalLeftMs := totalInitMs
    blackTotalLeftMs := totalInitMs
    rematchInitiatorUid := 0 }
  let resp := r.fillWhiteBlackUsernames env
    [("optype", .str "rematch_start"), ("result", .bool true), ("room_id", .int r.roomId), ("white_id", .uint r.whiteId),
      ("black_id", .uint r.blackId)]
  (r, (((resp.set "timing_started" (.bool false)).set "total_init_ms" (.int totalInitMs)).set "step_init_ms"
    (.int stepInitMs)).set "board_snapshot" (.arr []))

def curTotalLeftMs (r : Room) : Nat := if r.turnUid = r.whiteId then r.whiteTotalLeftMs else r.blackTotalLeftMs

def stepExpired (ms : Nat) : Bool := stepInitMs ≤ ms

def totalExpired (r : Room) (ms : Nat) : Bool := r.curTotalLeftMs ≤ ms

/-- The player to move loses on time: both places that find this answer alike. -/
def timedOut (r : Room) (stepExpired : Bool) : Room × List Call :=
  let winnerId := r.opponentOf r.turnUid
  let loserId := r.turnUid
  ({ r with statu := .gameOver },
    [.win winnerId, .lose loserId, .broadcast
      [("optype", .str "timeout"), ("result", .bool true), ("reason", .str (if stepExpired then "步时超时" else "局时超时")),
        ("room_id", .int r.roomId), ("uid", .uint r.turnUid), ("winner", .uint winnerId)]])

def withClocks (r : Room) (resp : Members) : Members :=
  (((resp.set "timing_started" (.bool r.timingStarted)).set "total_left_white_ms" (.int r.whiteTotalLeftMs)).set
    "total_left_black_ms" (.int r.blackTotalLeftMs)).set "step_init_ms" (.int stepInitMs)

/-- The clocks after a move of `uid` that did not win: the first one starts them, a later one charges
    the player to move, and the turn passes. -/
def passTurn (env : Env) (r : Room) (uid : Uid) (elapsed : Nat) : Room :=
  let turnUid := r.opponentOf uid
  if r.timingStarted then
    let left := if r.curTotalLeftMs > elapsed then r.curTotalLeftMs - elapsed else 0
    if r.turnUid = r.whiteId then { r with whiteTotalLeftMs := left, turnUid, turnStartTp := env.later }
    else { r with blackTotalLeftMs := left, turnUid, turnStartTp := env.later }
  else
    { r with
      timingStarted := true
      whiteTotalLeftMs := totalInitMs
      blackTotalLeftMs := totalInitMs
      turnUid
      turnStartTp := env.later }

/-- What `put_chess` does with the answer of `handle_chess`: the clocks when it was accepted without a
    winner, and the end of the game when it names one. -/
def afterChess (env : Env) (r : Room) (uid : Uid) (elapsed : Nat) (resp : Members) :
    Except JsonError (Room × List Call) := do
  let accepted ← (resp.get "result").asBool
  let winnerId ← (resp.get "winner").asUInt64
  let (r, resp) :=
    if accepted ∧ winnerId = 0 then
      let r := r.passTurn env uid elapsed
      (r, r.withClocks resp)
    else (r, resp)
  if winnerId ≠ 0 then
    let loserId := r.opponentOf winnerId
    return ({ r with statu := .gameOver }, [.win winnerId, .lose loserId, .broadcast (r.withClocks resp)])
  else return (r, [.broadcast resp])

/-- How long the player to move has thought: nothing before the clocks run. -/
def thinkingMs (env : Env) (r : Room) : Nat := if r.timingStarted then elapsedMs env.now r.turnStartTp else 0

def putChess (env : Env) (r : Room) (req : Members) : Except JsonError (Room × List Call) := do
  let uid ← (req.get "uid").asUInt64
  if r.statu = .gameOver then return (r, [.broadcast (refuse "put_chess" "游戏已经结束了！")])
  -- Once the clocks run, only the player to move may put a stone.
  else if r.timingStarted ∧ uid ≠ r.turnUid then return (r, [.broadcast (refuse "put_chess" "还没轮到你")])
  else
    let elapsed := r.thinkingMs env
    if r.timingStarted ∧ (stepExpired elapsed || r.totalExpired elapsed) then return r.timedOut (stepExpired elapsed)
    else
      let (r, resp) ← r.handleChess env req
      r.afterChess env uid elapsed resp

def timeout (env : Env) (r : Room) (req : Members) : Except JsonError (Room × List Call) := do
  let uid ← (req.get "uid").asUInt64
  if r.statu = .gameOver then return (r, [.broadcast (refuse "timeout" "游戏已经结束了！")])
  else if !r.timingStarted then return (r, [.broadcast (refuse "timeout" "尚未开始计时")])
  else if uid ≠ r.turnUid then return (r, [.broadcast (refuse "timeout" "还没轮到你")])
  else
    let ms := (elapsedMs env.now r.turnStartTp + timeoutToleranceMs) % 2 ^ 64
    if !stepExpired ms && !r.totalExpired ms then return (r, [.broadcast (refuse "timeout" "尚未超时")])
    else return r.timedOut (stepExpired ms)

def rematchInvite (env : Env) (r : Room) (req : Members) : Except JsonError (Room × List Call) := do
  let uid ← (req.get "uid").asUInt64
  if r.statu ≠ .gameOver then return (r, [.broadcast (refuse "rematch_invite" "游戏尚未结束，不能发起再来一局")])
  else if uid ≠ r.whiteId ∧ uid ≠ r.blackId then
    return (r, [.broadcast (refuse "rematch_invite" "只有房间内的玩家可发起再来一局")])
  else if r.rematchInitiatorUid ≠ 0 then
    return (r, [.broadcast (refuse "rematch_invite" "已有再来一局邀请尚未处理")])
  else if !r.bothPlayersOnline env then
    return (r, [.broadcast (refuse "rematch_invite" "双方玩家需要保持在线后才能再来一局")])
  else
    return ({ r with rematchInitiatorUid := uid }, [.broadcast (r.fillWhiteBlackUsernames env
      [("optype", .str "rematch_invite"), ("result", .bool true), ("room_id", .int r.roomId), ("inviter_uid", .uint uid),
        ("white_id", .uint r.whiteId), ("black_id", .uint r.blackId)])])

def rematchAccept (env : Env) (r : Room) (req : Members) : Except JsonError (Room × List Call) := do
  let uid ← (req.get "uid").asUInt64
  if r.statu ≠ .gameOver then return (r, [.broadcast (refuse "rematch_accept" "游戏尚未结束，不能同意再来一局")])
  else if r.rematchInitiatorUid = 0 then return (r, [.broadcast (refuse "rematch_accept" "当前没有再来一局邀请")])
  else if uid ≠ r.whiteId ∧ uid ≠ r.blackId then
    return (r, [.broadcast (refuse "rematch_accept" "只有房间内的玩家可同意再来一局")])
  else if uid = r.rematchInitiatorUid then return (r, [.broadcast (refuse "rematch_accept" "不能同意自己的邀请")])
  else if !r.bothPlayersOnline env then
    return (r, [.broadcast (refuse "rematch_accept" "双方玩家需要保持在线后才能再来一局")])
  else
    let (r, resp) := r.startRematch env
    return (r, [.broadcast resp])

def handleRequest (env : Env) (r : Room) (req : Json) : Except JsonError (Room × List Call) := do
  let req ← req.members
  let roomId ← (req.get "room_id").asUInt64
  let optype ← (req.get "optype").asString
  if roomId.toNat ≠ r.roomId then return (r, [.broadcast (refuse optype "房间号不匹配！")])
  else if optype = "put_chess" then r.putChess env req
  else if optype = "timeout" then r.timeout env req
  else if optype = "rematch_invite" then r.rematchInvite env req
  else if optype = "rematch_accept" then r.rematchAccept env req
  else if optype = "chat" then
    let resp ← handleChat req
    return (r, [.broadcast resp])
  else return (r, [.broadcast (refuse optype "未知请求类型")])

end Room
end FiveStones
