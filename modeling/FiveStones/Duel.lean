import FiveStones.Page

/-! A room with the pages that show it: two players, any number of spectators, the room of the server between them, and
the messages that are on their way.

A connection keeps its messages in order. When a message is read is open, and so is how long a page shows a game and
when a connection is lost. Everything that a page sends it sends by itself, or because its user does something. Both
players are there when it starts, and none comes late or comes back; spectators come and go. -/

namespace FiveStones

inductive Party
  | player (uid : Uid)
  | watcher (uid : Uid)
  deriving DecidableEq

/-- A connection as the server sees it. A lost one is out of the open state, and its close callback has not run. -/
inductive Line
  | absent
  | live
  | lost
  | closed
  deriving DecidableEq

structure Client where
  page : Page
  /-- Whether the browser still shows the page. -/
  shown : Bool
  line : Line
  /-- What the page has not read yet, oldest first. -/
  inbox : List Members
  /-- What the server has not handled yet, oldest first. -/
  outbox : List Members

/-- What a user can do on a page. -/
inductive Act
  | click (offsetX offsetY : Rat)
  | invite
  | accept
  | chat (text : String)

def Act.message (p : Page) : Act → Option Members
  | click offsetX offsetY => p.onClick offsetX offsetY
  | invite => p.sendRematchInvite
  | accept => p.sendRematchAccept
  | chat text => p.sendChat text

namespace Client

def away : Client := ⟨.opened false, false, .absent, [], []⟩

/-- A page that has just been let in. -/
def entered (isSpectator : Bool) (ready : Members) : Client := ⟨.opened isSpectator, true, .live, [ready], []⟩

/-- The page sends, if the connection is there. -/
def send (c : Client) (msg : Option Members) : Client :=
  { c with outbox := if c.line = .live then c.outbox ++ msg.toList else c.outbox }

def receive (c : Client) (infos : List Members) : Client := { c with inbox := c.inbox ++ infos }

end Client

structure Duel where
  room : Room
  clients : Party → Client
  /-- The last reading of the server's clock, in nanoseconds. -/
  clock : Int

/-- A step of a duel. A page that reads or ticks has its own clock. -/
inductive DuelEvent
  | read (who : Party) (now : Int) (perf : Rat)
  | tick (who : Party) (now : Int) (perf : Rat)
  | act (who : Party) (act : Act)
  | serve (uid : Uid) (selectById : Uid → Option Members) (now later : Int)
  | leave (who : Party)
  | vanish (who : Party)
  | exit (uid : Uid)
  | watch (uid : Uid) (conn : ConnId) (selectById : Uid → Option Members)
  | unwatch (uid : Uid)

def broadcasts (calls : List Call) : List Members :=
  calls.filterMap fun
    | .broadcast resp => some resp
    | _ => none

/-- The answer of `wsopen_game_room` to a player. -/
def Room.readyFor (env : Env) (r : Room) (uid : Uid) : Members :=
  r.fillWhiteBlackUsernames env
    [("optype", .str "room_ready"), ("result", .bool true), ("room_id", .int r.roomId), ("uid", .uint uid),
      ("white_id", .uint r.whiteId), ("black_id", .uint r.blackId), ("timing_started", .bool false),
      ("total_init_ms", .int totalInitMs), ("step_init_ms", .int stepInitMs)]

theorem Server.roomReady_eq {s : Server} {uid : Uid} {conn : ConnId} {selectById : Uid → Option Members} {r : Room}
    (hout : s.inGameRoom uid = false) (hroom : s.rm.getRoomByUid uid = some r) :
    s.roomReady uid conn selectById = .admitted conn uid (r.readyFor (s.env selectById 0 0) uid) := by
  simp only [roomReady, hout, Bool.false_eq_true, ↓reduceIte, hroom, Room.readyFor]

namespace Duel

def env (d : Duel) (selectById : Uid → Option Members) (now later : Int) : Env where
  om := ⟨Dict.empty, fun uid => if (d.clients (.player uid)).line = .live then some 0 else none⟩
  isOpen _ := true
  selectById := selectById
  now := now
  later := later

/-- Who gets what the room broadcasts: the players in the room, and its spectators. -/
def hears (d : Duel) (who : Party) : Bool :=
  (d.clients who).line = .live &&
    match who with
    | .player uid => d.room.Seats uid
    | .watcher uid => (d.room.spectatorConns uid).isSome

def put (d : Duel) (who : Party) (c : Client) : Duel := { d with clients := Function.update d.clients who c }

def announce (d : Duel) (calls : List Call) : Duel :=
  { d with clients := fun who => if d.hears who then (d.clients who).receive (broadcasts calls) else d.clients who }

/-- Room `roomId`, which both players have just entered. -/
def start (roomId : Nat) (w b : Uid) (now : Int) (selectById : Uid → Option Members) : Duel :=
  let room := Room.create roomId w b now
  { room
    clients := fun
      | .player uid => if room.Seats uid then .entered false (room.readyFor ⟨.empty, fun _ => true, selectById, now, now⟩ uid) else .away
      | .watcher _ => .away
    clock := now }

def machine : Machine Duel DuelEvent Call where
  step d
    | .read who now perf =>
      let c := d.clients who
      match c.inbox with
      | [] => none
      | info :: rest =>
        if c.shown ∧ d.clock ≤ now then
          some ({ d.put who { c with page := c.page.onMessage info perf, inbox := rest } with clock := now }, [])
        else none
    | .tick who now perf =>
      let c := d.clients who
      if c.shown ∧ c.page.clocks.ticking ∧ d.clock ≤ now then
        let (page, msg) := c.page.tickClock perf
        some ({ d.put who ({ c with page }.send msg) with clock := now }, [])
      else none
    | .act who act =>
      let c := d.clients who
      if c.shown then some (d.put who (c.send (act.message c.page)), []) else none
    | .serve uid selectById now later =>
      let c := d.clients (.player uid)
      match c.outbox with
      | [] => none
      | msg :: rest =>
        if c.line = .live ∧ d.clock ≤ now ∧ now ≤ later then
          match d.room.handleRequest (d.env selectById now later) (.obj msg) with
          | .error _ => none
          | .ok (room, calls) =>
            some (({ d.put (.player uid) { c with outbox := rest } with room, clock := later }).announce calls, calls)
        else none
    | .leave who =>
      let c := d.clients who
      some (d.put who { c with page := c.page.leaveToHall, shown := false }, [])
    | .vanish who =>
      let c := d.clients who
      if c.line = .live then some (d.put who { c with line := .lost }, []) else none
    | .exit uid =>
      let c := d.clients (.player uid)
      if c.line = .live ∨ c.line = .lost then
        let (room, calls) := d.room.handleExit uid
        some (({ d.put (.player uid) { c with line := .closed } with room }).announce calls, calls)
      else none
    | .watch uid conn selectById =>
      if d.room.statu = .gameStart then
        let room := (d.room.removeSpectator uid).addSpectator uid conn
        let ready := Server.spectateReady (d.env selectById 0 0) room
        some ({ d.put (.watcher uid) (.entered true ready) with room }, [])
      else none
    | .unwatch uid =>
      let c := d.clients (.watcher uid)
      some ({ d.put (.watcher uid) { c with line := .closed } with room := d.room.removeSpectator uid }, [])

end Duel

abbrev DuelTrans := Machine.Trans Duel DuelEvent Call

end FiveStones
