import FiveStones.Front
import FiveStones.Session

/-! The callbacks of `gobang_server` with the sessions behind them: each looks for the session of the connection's
`Cookie` header, acts for its user, and sets its lifetime. -/

namespace FiveStones

structure Gate where
  front : Front
  sessions : Sessions
  /-- The header that each connection came with. -/
  cookies : Dict ConnId Text

inductive GateObs
  | front (o : FrontObs)
  | loginAgain (resp : Members)
  | setCookie (ssid : Ssid) (uid : Uid)

inductive GateEvent
  | turn (k : Pool) (selectById : Uid → Option Members) (now : Int)
  | opened (conn : ConnId) (uri : WsUri) (cookie : Text) (selectById : Uid → Option Members) (up : RedisUp)
  | message (conn : ConnId) (body : Option Json) (selectById : Uid → Option Members) (now later : Int) (up : RedisUp)
  | closed (conn : ConnId) (up : RedisUp)
  | drop (conn : ConnId)
  | login (uid : Uid) (up : RedisUp)
  | info (cookie : Text) (selectById : Uid → Option Members) (up : RedisUp)
  | expires (tp : TimerId)
  | complete (tp : TimerId)
  | lapse (ssid : Ssid)

/-- The optype in the answer to a connection that has no session. -/
def WsUri.optypeForErr : WsUri → String
  | hall => "hall_ready"
  | room => "room_ready"
  | spectate | other => "spectate_ready"

namespace Gate

def start (redis : Bool) : Gate := ⟨.start, .start redis, Dict.empty⟩

/-- The lookup at the beginning of a callback, which is made for three uris. -/
def lookup (st : Sessions) (up : RedisUp) (uri : WsUri) (cookie : Text) : Option (Sessions × Option (Ssid × Uid) × List GateObs) :=
  if uri = .other then some (st, none, [])
  else
    match st.getSessionByCookie up cookie uri.optypeForErr with
    | .error _ => none
    | .ok (st, .session ssid uid) => some (st, some (ssid, uid), [])
    | .ok (st, .loginAgain resp) => some (st, none, [.loginAgain resp])

/-- The lifetime that an open callback sets: none when the user is refused. -/
def openedMs (uri : WsUri) (out : List FrontObs) : Option Int :=
  match uri with
  | .hall | .room =>
    if out.any (fun | .admitted .. => true | _ => false) then some sessionForever else none
  | .spectate => some sessionForever
  | .other => none

def renew (st : Sessions) (up : RedisUp) (who : Option (Ssid × Uid)) (ms : Option Int) : Sessions :=
  match who with
  | none => st
  | some (ssid, _) => st.renew up ssid ms

def machine : Machine Gate GateEvent GateObs where
  step g
    | .turn k selectById now =>
      match Front.machine.step g.front (.turn k selectById now) with
      | none => none
      | some (front, out) => some ({ g with front }, out.map .front)
    | .opened conn uri cookie selectById up =>
      match lookup g.sessions up uri cookie with
      | none => none
      | some (st, who, obs) =>
        match Front.machine.step g.front (.opened conn uri (who.map Prod.snd) selectById) with
        | none => none
        | some (front, out) =>
          some (⟨front, renew st up who (openedMs uri out), g.cookies.assign conn cookie⟩, obs ++ out.map .front)
    | .message conn body selectById now later up =>
      match g.front.conns conn, g.cookies conn with
      | some ⟨uri, _⟩, some cookie =>
        match lookup g.sessions up uri cookie with
        | none => none
        | some (st, who, obs) =>
          match Front.machine.step g.front (.message conn (who.map Prod.snd) body selectById now later) with
          | none => none
          | some (front, out) => some ({ g with front, sessions := st }, obs ++ out.map .front)
      | _, _ => none
    | .closed conn up =>
      match g.front.conns conn, g.cookies conn with
      | some ⟨uri, _⟩, some cookie =>
        match lookup g.sessions up uri cookie with
        | none => none
        | some (st, who, obs) =>
          match Front.machine.step g.front (.closed conn (who.map Prod.snd)) with
          | none => none
          | some (front, out) =>
            some ({ g with front, sessions := renew st up who (some sessionTimeout) }, obs ++ out.map .front)
      | _, _ => none
    | .drop conn =>
      match Front.machine.step g.front (.drop conn) with
      | none => none
      | some (front, out) => some ({ g with front }, out.map .front)
    | .login uid up =>
      let (st, ssid) := g.sessions.login up uid
      some ({ g with sessions := st }, [.setCookie ssid uid])
    | .info cookie selectById up =>
      match g.sessions.getSessionByCookie up cookie "info" with
      | .error _ => none
      | .ok (st, .loginAgain resp) => some ({ g with sessions := st }, [.loginAgain resp])
      | .ok (st, .session ssid uid) =>
        -- A user without a record is answered, and the session is left as it is.
        let st := if (selectById uid).isSome then st.sessionExpireWithCache up ssid sessionTimeout else st
        some ({ g with sessions := st }, [])
    | .expires tp => (g.sessions.expires tp).map fun st => ({ g with sessions := st }, [])
    | .complete tp => (g.sessions.complete tp).map fun st => ({ g with sessions := st }, [])
    | .lapse ssid =>
      (g.sessions.cache.keys.lapse ssid).map fun keys =>
        ({ g with sessions := { g.sessions with cache := { g.sessions.cache with keys } } }, [])

end Gate

abbrev GateTrans := Machine.Trans Gate GateEvent GateObs

end FiveStones
