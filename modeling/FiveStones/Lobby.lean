import FiveStones.Front

/-! The page of the hall, and the server with the pages that show its hall.

Everything that comes over a hall connection comes from the page: its user presses the button that looks for an opponent or
chooses a game to watch, and a timer asks for the running games. A page that is going elsewhere does nothing any more. What
is only drawn is left out. -/

namespace FiveStones

/-- Where a page goes: to log in, into the user's room, or to watch a game. -/
inductive Destination
  | login
  | room
  | spectate (roomId : Json)

structure HallPage where
  /-- Whether the button says that the user is being matched. -/
  matching : Bool
  /-- The games that can be watched. -/
  rooms : List Json
  destination : Option Destination

namespace HallPage

def opened : HallPage := ⟨false, [], none⟩

/-- `ws.onmessage`. -/
def onMessage (p : HallPage) (rsp : Members) : HallPage :=
  match rsp.get "result", rsp.get "optype" with
  | .bool false, _ => { p with destination := some .login }
  | _, .str optype =>
    if optype = "hall_ready" then p
    else if optype = "match_start" then { p with matching := true }
    else if optype = "match_stop" then { p with matching := false }
    else if optype = "match_success" then { p with destination := some .room }
    else if optype = "room_list" then { p with rooms := match rsp.get "rooms" with | .arr rooms => rooms | _ => [] }
    else p
  | _, _ => p

/-- `matchBtn.onclick`. -/
def onMatch (p : HallPage) : Members := [("optype", .str (if p.matching then "match_stop" else "match_start"))]

/-- What the timer asks for. -/
def roomListRequest : Members := [("optype", .str "room_list_request")]

/-- `btn.onclick` of a running game. -/
def onRoom (p : HallPage) (i : Nat) : HallPage :=
  match p.rooms[i]? with
  | some (.obj r) => { p with destination := some (.spectate (Members.get r "room_id")) }
  | _ => p

end HallPage

/-- A hall connection, with the user whose session is behind its cookie, if there is one. -/
structure HallClient where
  page : HallPage
  user : Option Uid
  /-- What the page has not read yet, oldest first. -/
  inbox : List Members
  /-- What the server has not handled yet, oldest first. -/
  outbox : List Members

structure Lobby where
  front : Front
  pages : ConnId → Option HallClient
  /-- The connections that a match thread has looked up in this round, `conn1` and `conn2`. -/
  fetched : Pool → List ConnId

/-- A step of the server that does not come from a page of the hall (`front`), or of a page, or a message of a page that the
    server handles, with the session of its user or without it. -/
inductive LobbyEvent
  | front (e : FrontEvent)
  | press (conn : ConnId)
  | timer (conn : ConnId)
  | choose (conn : ConnId) (i : Nat)
  | read (conn : ConnId)
  | serve (conn : ConnId) (selectById : Uid → Option Members) (now later : Int)
  | reject (conn : ConnId) (reason : String)

/-- What `handle_match` sends to both players of a new room. -/
def matchSuccess (r : Room) : Members :=
  [("optype", .str "match_success"), ("result", .bool true), ("room_id", .int r.roomId)]

namespace Server

/-- The connections that the match thread `k` has after its next step. -/
def fetch (s : Server) (k : Pool) (conns : List ConnId) : List ConnId :=
  match s.pcs k with
  | .conn1 uid1 _ => (s.om.getConnFromGameHall s.isOpen uid1).toList
  | .conn2 _ uid2 => conns ++ (s.om.getConnFromGameHall s.isOpen uid2).toList
  | .size | .wait | .pop1 | .pop2 _ | .hall1 _ _ | .hall2 _ _ | .create _ _ | .add .. => conns

end Server

namespace Lobby

def start : Lobby := ⟨.start, fun _ => none, fun _ => []⟩

/-- What goes out over the hall connections. -/
def sends (l : Lobby) : FrontObs → List (ConnId × Members)
  | .server (.created k r) => (l.fetched k).map fun conn => (conn, matchSuccess r)
  | .server (.round _) | .server (.popped ..) | .server (.absent ..) | .server (.pushed ..) | .server (.removed ..)
  | .server (.call _) => []
  | .admitted conn _ resp | .refused conn _ resp | .answer conn resp => [(conn, resp)]

/-- What goes out to one connection, while it is open. -/
def sentTo (l : Lobby) (out : List FrontObs) (conn : ConnId) : List Members :=
  if l.front.server.isOpen conn then (out.flatMap l.sends).filterMap fun x => if x.1 = conn then some x.2 else none else []

def deliver (l : Lobby) (out : List FrontObs) : Lobby :=
  { l with pages := fun conn => (l.pages conn).map fun c => { c with inbox := c.inbox ++ l.sentTo out conn } }

def put (l : Lobby) (conn : ConnId) (c : HallClient) : Lobby := { l with pages := Function.update l.pages conn (some c) }

/-- Whether a message comes over a hall connection. -/
def fromHall (l : Lobby) : FrontEvent → Bool
  | .message conn .. => (l.front.conns conn).any fun w => w.uri = .hall
  | .turn .. | .opened .. | .closed .. | .drop _ => false

/-- What an event does besides its step: a match thread looks up connections, or the page of a new connection appears. A page
    without a session is refused. -/
def arrange (l : Lobby) : FrontEvent → Lobby
  | .turn k _ _ => { l with fetched := Function.update l.fetched k (l.front.server.fetch k (l.fetched k)) }
  | .opened conn .hall user _ =>
    l.put conn ⟨.opened, user, if user = none then [refuse "hall_ready" "没有找到cookie信息,需要重新登录"] else [], []⟩
  | .opened _ .room .. | .opened _ .spectate .. | .opened _ .other .. | .message .. | .closed .. | .drop _ => l

def next (l : Lobby) (e : FrontEvent) (front : Front) (out : List FrontObs) : Lobby := { l.arrange e with front }.deliver out

def machine : Machine Lobby LobbyEvent FrontObs where
  step l
    | .front e =>
      if l.fromHall e then none
      else
        match Front.machine.step l.front e with
        | none => none
        | some (front, out) => some (l.next e front out, out)
    | .press conn =>
      match l.pages conn with
      | some c => if c.page.destination.isNone then some (l.put conn { c with outbox := c.outbox ++ [c.page.onMatch] }, []) else none
      | none => none
    | .timer conn =>
      match l.pages conn with
      | some c =>
        if c.page.destination.isNone then some (l.put conn { c with outbox := c.outbox ++ [HallPage.roomListRequest] }, []) else none
      | none => none
    | .choose conn i =>
      match l.pages conn with
      | some c => if c.page.destination.isNone then some (l.put conn { c with page := c.page.onRoom i }, []) else none
      | none => none
    | .read conn =>
      match l.pages conn with
      | some c =>
        match c.inbox with
        | [] => none
        | rsp :: rest =>
          if c.page.destination.isNone then some (l.put conn { c with page := c.page.onMessage rsp, inbox := rest }, []) else none
      | none => none
    | .serve conn selectById now later =>
      match l.pages conn with
      | some c =>
        match c.outbox with
        | [] => none
        | req :: rest =>
          match c.user with
          | none => none
          | some uid =>
            let e := .message conn (some uid) (some (.obj req)) selectById now later
            match Front.machine.step l.front e with
            | none => none
            | some (front, out) => some ((l.put conn { c with outbox := rest }).next e front out, out)
      | none => none
    | .reject conn reason =>
      match l.pages conn with
      | some c =>
        match c.outbox with
        | [] => none
        | _ :: rest => some (l.put conn { c with inbox := c.inbox ++ [refuse "hall_ready" reason], outbox := rest }, [])
      | none => none

end Lobby

abbrev LobbyTrans := Machine.Trans Lobby LobbyEvent FrontObs

end FiveStones
