import FiveStones.Replica

/-! The page of a room: what the browser of a player or of a spectator keeps of a game, what a message of the server
does to it, and what it sends.

Times are in milliseconds, as `performance.now()` reads them. Ids and coordinates are integers that a script holds
exactly. A script that throws leaves the page as it was at that point. What is only drawn is left out. -/

namespace FiveStones

namespace Json

/-- Whether a script takes the value for true. -/
def truthy : Json → Bool
  | null => false
  | bool b => b
  | int n => n ≠ 0
  | real q _ => q ≠ 0
  | str s => s ≠ ""
  | arr _ | obj _ => true

/-- The number that a script takes a value for when it reckons with it. -/
def toNumber? : Json → Option Rat
  | null => some 0
  | bool b => some (if b then 1 else 0)
  | int n => some n
  | real q _ => some q
  | _ => none

/-- The integer that a value is for a script, if it is one that a script holds exactly. -/
def safeInteger? (v : Json) : Option Int := v.integer?.filter fun n => n.natAbs < 2 ^ 53

/-- `===` between ids. -/
def sameId (v w : Json) : Bool := v.safeInteger?.any fun n => w.safeInteger? = some n

/-- `v || w`. -/
def orElse (v w : Json) : Json := if v.truthy then v else w

end Json

namespace Members

/-- A number of a message, or the old one when the message has none. -/
def number (info : Members) (name : String) (old : Rat) : Rat :=
  match info.lookup name with
  | none => old
  | some v => v.toNumber?.getD old

/-- `row >= 0 && col >= 0 && row < SIZE && col < SIZE`. -/
def onBoard (info : Members) : Bool :=
  match (info.lookup "row").bind Json.toNumber?, (info.lookup "col").bind Json.toNumber? with
  | some row, some col => 0 ≤ row ∧ 0 ≤ col ∧ row < boardRow ∧ col < boardCol
  | _, _ => false

end Members

/-- `roomInfo`, which is the message that the page was given last of `room_ready` and `spectate_ready`. -/
structure RoomInfo where
  roomId : Json
  uid : Json
  whiteId : Json
  blackId : Json

/-- The clocks of a page, which run by themselves. -/
structure PageClocks where
  totalInitMs : Rat
  stepInitMs : Rat
  totalLeftWhiteMs : Rat
  totalLeftBlackMs : Rat
  stepLeftWhiteMs : Rat
  stepLeftBlackMs : Rat
  /-- Whether there is a `tickTimerId`. -/
  ticking : Bool
  lastTickMs : Rat
  timeoutSent : Bool

structure Page where
  isSpectator : Bool
  roomInfo : Option RoomInfo
  board : Board
  myTurn : Bool
  /-- Whether `status` is "over", and not "playing". -/
  isOver : Bool
  timingStarted : Bool
  activeThinkingUid : Json
  clocks : PageClocks

namespace RoomInfo

def ofMessage (info : Members) : RoomInfo :=
  ⟨info.get "room_id", info.get "uid", info.get "white_id", info.get "black_id"⟩

def empty : RoomInfo := ⟨.null, .null, .null, .null⟩

/-- The color of the stones of `uid`. -/
def colorOf (room : RoomInfo) (uid : Json) : Chess := if uid.sameId room.whiteId then .white else .black

/-- The color of the seat that `uid` holds, if it holds one. -/
def seatColor? (room : RoomInfo) (uid : Json) : Option Chess :=
  if uid.sameId room.whiteId then some .white else if uid.sameId room.blackId then some .black else none

/-! ### What a page sends -/

def sendChess (room : RoomInfo) (row col : Int) : Members :=
  [("optype", .str "put_chess"), ("room_id", room.roomId), ("uid", room.uid), ("row", .int row), ("col", .int col)]

def sendChat (room : RoomInfo) (text : String) : Members :=
  [("optype", .str "chat"), ("room_id", room.roomId), ("uid", room.uid), ("message", .str text)]

def sendRematch (room : RoomInfo) (optype : String) : Members :=
  [("optype", .str optype), ("room_id", room.roomId), ("uid", room.uid)]

def sendTimeout (room : RoomInfo) (which : String) : Members :=
  [("optype", .str "timeout"), ("room_id", room.roomId), ("uid", room.uid), ("which", .str which)]

end RoomInfo

namespace PageClocks

def opened : PageClocks where
  totalInitMs := 600000
  stepInitMs := 30000
  totalLeftWhiteMs := 600000
  totalLeftBlackMs := 600000
  stepLeftWhiteMs := 30000
  stepLeftBlackMs := 30000
  ticking := false
  lastTickMs := 0
  timeoutSent := false

/-- `stopClock`. -/
def stop (k : PageClocks) : PageClocks := { k with ticking := false }

/-- `startClock`. -/
def start (k : PageClocks) (now : Rat) : PageClocks := { k with ticking := true, timeoutSent := false, lastTickMs := now }

/-- Both players at the start of a game, and nothing reported. -/
def reset (k : PageClocks) (info : Members) : PageClocks :=
  let totalInitMs := info.number "total_init_ms" k.totalInitMs
  let stepInitMs := info.number "step_init_ms" k.stepInitMs
  { k with
    totalInitMs
    stepInitMs
    totalLeftWhiteMs := totalInitMs
    totalLeftBlackMs := totalInitMs
    stepLeftWhiteMs := stepInitMs
    stepLeftBlackMs := stepInitMs
    timeoutSent := false }.stop

def totalLeft (k : PageClocks) : Chess → Rat
  | .white => k.totalLeftWhiteMs
  | .black => k.totalLeftBlackMs

def stepLeft (k : PageClocks) : Chess → Rat
  | .white => k.stepLeftWhiteMs
  | .black => k.stepLeftBlackMs

/-- The time since the last tick is taken from the player of `color`. -/
def countDown (k : PageClocks) (color : Chess) (now : Rat) : PageClocks :=
  let delta := now - k.lastTickMs
  match color with
  | .white =>
    { k with
      lastTickMs := now
      totalLeftWhiteMs := max 0 (k.totalLeftWhiteMs - delta)
      stepLeftWhiteMs := max 0 (k.stepLeftWhiteMs - delta) }
  | .black =>
    { k with
      lastTickMs := now
      totalLeftBlackMs := max 0 (k.totalLeftBlackMs - delta)
      stepLeftBlackMs := max 0 (k.stepLeftBlackMs - delta) }

/-- What a move says about the clocks. -/
def take (k : PageClocks) (info : Members) : PageClocks :=
  { k with
    totalLeftWhiteMs := info.number "total_left_white_ms" k.totalLeftWhiteMs
    totalLeftBlackMs := info.number "total_left_black_ms" k.totalLeftBlackMs
    stepInitMs := info.number "step_init_ms" k.stepInitMs }

/-- A new step for the player of `color`. -/
def renewStep (k : PageClocks) : Option Chess → PageClocks
  | some .white => { k with stepLeftWhiteMs := k.stepInitMs }
  | some .black => { k with stepLeftBlackMs := k.stepInitMs }
  | none => k

/-- Nothing runs any more, and nothing is reported any more. -/
def finish (k : PageClocks) : PageClocks := { k with timeoutSent := true }.stop

end PageClocks

namespace Page

def opened (isSpectator : Bool) : Page where
  isSpectator := isSpectator
  roomInfo := none
  board := Board.empty
  myTurn := false
  isOver := false
  timingStarted := false
  activeThinkingUid := .int 0
  clocks := .opened

/-! ### The clocks -/

def stopClock (p : Page) : Page := { p with clocks := p.clocks.stop }

/-- The end of `tickClock`: a player whose own time is up tells the server. -/
def reportTimeout (p : Page) (room : RoomInfo) (color : Chess) : Page × Option Members :=
  let stepLeftMs := p.clocks.stepLeft color
  if !p.clocks.timeoutSent && (stepLeftMs ≤ 0 || p.clocks.totalLeft color ≤ 0) then
    let p := { p with clocks := p.clocks.finish }
    if !p.isSpectator && p.activeThinkingUid.sameId room.uid then
      (p, some (room.sendTimeout (if stepLeftMs ≤ 0 then "step" else "total")))
    else (p, none)
  else (p, none)

/-- `tickClock`, every 250 ms: the clock of the player who is thinking runs. -/
def tickClock (p : Page) (now : Rat) : Page × Option Members :=
  if !p.timingStarted || p.isOver then (p.stopClock, none)
  else
    match p.roomInfo with
    | none => (p.stopClock, none)
    | some room =>
      if !p.activeThinkingUid.truthy then (p.stopClock, none)
      else
        match room.seatColor? p.activeThinkingUid with
        | none => ({ p with clocks := { p.clocks with lastTickMs := now }.stop }, none)
        | some color => { p with clocks := p.clocks.countDown color now }.reportTimeout room color

/-! ### Messages of the server -/

/-- The first part of `handlePutChess`: the stone, and whose turn it is. Nothing comes of it when the script throws. -/
def putStone (p : Page) (info : Members) : Option Page :=
  if !info.onBoard then some p
  else
    match p.roomInfo, (info.get "row").integer? with
    | some room, some _ =>
      let board :=
        match cellOf info with
        | none => p.board
        | some c => p.board.set c (room.colorOf (info.get "uid"))
      if p.isSpectator then some { p with board }
      else some { p with board, myTurn := !(info.get "uid").sameId room.uid }
    | _, _ => none

/-- The second part: the clocks, for the player who thinks next. -/
def takeClocks (p : Page) (info : Members) (now : Rat) : Page :=
  match info.lookup "timing_started" with
  | none => p
  | some (.bool true) =>
    let clocks := p.clocks.take info
    match p.roomInfo with
    | none => { p with timingStarted := true, clocks }
    | some room =>
      let active := if (info.get "uid").sameId room.whiteId then room.blackId else room.whiteId
      { p with
        timingStarted := true
        activeThinkingUid := active
        clocks := (clocks.renewStep (room.seatColor? active)).start now }
  | some _ =>
    { p with
      timingStarted := false
      activeThinkingUid := .int 0
      clocks := { p.clocks with timeoutSent := false }.stop }

/-- The game is over. -/
def finish (p : Page) : Page := { p with isOver := true, clocks := p.clocks.finish }

/-- The third part: the winner. Without `roomInfo` the script throws when it looks who has won. -/
def takeWinner (p : Page) (info : Members) : Page :=
  if !(info.get "winner").truthy then p
  else
    match p.roomInfo with
    | none => { p with isOver := true, clocks := p.clocks.stop }
    | some _ => p.finish

def handlePutChess (p : Page) (info : Members) (now : Rat) : Page :=
  match p.putStone info with
  | none => p
  | some p => (p.takeClocks info now).takeWinner info

def applyRematchStart (p : Page) (info : Members) : Page :=
  let old := p.roomInfo.getD .empty
  let room : RoomInfo :=
    ⟨(info.get "room_id").orElse old.roomId, old.uid, (info.get "white_id").orElse old.whiteId,
      (info.get "black_id").orElse old.blackId⟩
  { p with
    roomInfo := some room
    board := Board.empty
    myTurn := if p.isSpectator then p.myTurn else !room.uid.sameId room.whiteId
    isOver := false
    timingStarted := false
    activeThinkingUid := .int 0
    clocks := p.clocks.reset info }

def roomReady (p : Page) (info : Members) : Page :=
  let room := RoomInfo.ofMessage info
  { p with
    roomInfo := some room
    myTurn := !room.uid.sameId room.whiteId
    timingStarted := match info.get "timing_started" with | .bool b => b | _ => false
    clocks := p.clocks.reset info }

def spectateReady (p : Page) (info : Members) : Page :=
  { p with
    roomInfo := some (.ofMessage info)
    board := (Replica.join info).board
    isOver := false
    timingStarted := false
    activeThinkingUid := .int 0
    clocks := { p.clocks with timeoutSent := false }.stop }

/-- Another game is offered. The page takes the seats from it. -/
def rematchInvite (p : Page) (info : Members) : Page :=
  let old := p.roomInfo.getD .empty
  let room : RoomInfo :=
    ⟨old.roomId, old.uid, (info.lookup "white_id").getD old.whiteId, (info.lookup "black_id").getD old.blackId⟩
  { p with roomInfo := some room }

/-- `ws.onmessage`. What is refused is only shown. -/
def onMessage (p : Page) (info : Members) (now : Rat) : Page :=
  match info.get "result", info.get "optype" with
  | .bool false, _ => p
  | _, .str optype =>
    if optype = "put_chess" then p.handlePutChess info now
    else if optype = "timeout" then p.finish
    else if optype = "peer_left_room" then p.finish
    else if optype = "rematch_start" then p.applyRematchStart info
    else if p.isSpectator then if optype = "spectate_ready" then p.spectateReady info else p
    else if optype = "room_ready" then p.roomReady info
    else if optype = "rematch_invite" then p.rematchInvite info
    else p
  | _, _ => p

/-! ### The user -/

/-- `CELL`. -/
def cellPx : Rat := 30

/-- `chess.onclick`: a move, unless the page knows better. -/
def onClick (p : Page) (offsetX offsetY : Rat) : Option Members :=
  if p.isSpectator then none
  else
    match p.roomInfo with
    | none => none
    | some room =>
      if p.isOver then none
      else if !p.myTurn then none
      else
        match Cell.of? ⌊offsetY / cellPx⌋ ⌊offsetX / cellPx⌋ with
        | none => none
        | some c => if (p.board c).isSome then none else some (room.sendChess c.row c.col)

/-- `sendRematchInvite` and `sendRematchAccept`. -/
def sendRematch (p : Page) (optype : String) : Option Members :=
  if p.isSpectator then none
  else
    match p.roomInfo with
    | none => none
    | some room => if p.isOver then some (room.sendRematch optype) else none

def sendRematchInvite (p : Page) : Option Members := p.sendRematch "rematch_invite"

def sendRematchAccept (p : Page) : Option Members := p.sendRematch "rematch_accept"

/-- `sendChat`, with what is left of the text after `trim`. -/
def sendChat (p : Page) (text : String) : Option Members :=
  if p.isSpectator then none
  else if text = "" then none
  else p.roomInfo.map fun room => room.sendChat text

def leaveToHall (p : Page) : Page := p.finish

end Page
end FiveStones
