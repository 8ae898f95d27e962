import FiveStones.Lib.KeyStore
import FiveStones.Lib.Machine
import FiveStones.Room
import FiveStones.Text

/-! `session_manager`, the timers of the sessions, the session cache, and `get_session_by_cookie`.

All of it runs on the network thread. A timer expires on its own; its completion then waits to be run, and
other handlers may come first. -/

namespace FiveStones

abbrev Ssid := UInt64
abbrev TimerId := Nat

inductive SsStatu
  | unlogin
  | login
  deriving DecidableEq, Repr

/-- A session, with the handle of its timer. -/
structure Session where
  ssid : Ssid
  uid : Uid
  statu : SsStatu
  timer : Option TimerId

/-- The two values that a session's lifetime is set to. -/
def sessionTimeout : Int := 30000
def sessionForever : Int := -1

structure SessionManager where
  nextSsid : Ssid
  sessions : Dict Ssid Session

namespace SessionManager

def empty : SessionManager := ⟨1, Dict.empty⟩

def createSession (sm : SessionManager) (uid : Uid) (statu : SsStatu) : SessionManager :=
  ⟨sm.nextSsid + 1, sm.sessions.assign sm.nextSsid ⟨sm.nextSsid, uid, statu, none⟩⟩

def appendSession (sm : SessionManager) (ssp : Session) : SessionManager :=
  ⟨if ssp.ssid ≥ sm.nextSsid then ssp.ssid + 1 else sm.nextSsid, sm.sessions.assign ssp.ssid ssp⟩

def getSessionBySsid (sm : SessionManager) (ssid : Ssid) : Option Session := sm.sessions ssid

def removeSession (sm : SessionManager) (ssid : Ssid) : SessionManager := { sm with sessions := sm.sessions.erase ssid }

def setTimer (sm : SessionManager) (ssid : Ssid) (timer : Option TimerId) : SessionManager :=
  { sm with sessions := fun k => if k = ssid then (sm.sessions k).map fun ssp => { ssp with timer } else sm.sessions k }

end SessionManager

/-- A timer waits, or its completion is queued: without an error when it has expired, with one when it was
    cancelled. -/
inductive TimerStatu
  | waiting
  | expired
  | aborted
  deriving DecidableEq, Repr

/-- A timer that is to remove the session `ssid`. -/
structure Timer where
  ssid : Ssid
  statu : TimerStatu
  deriving DecidableEq

/-- Which commands Redis carries out while an event is handled. The others throw. -/
structure RedisUp where
  get : Bool
  set : Bool
  expire : Bool
  del : Bool

def RedisUp.all : RedisUp := ⟨true, true, true, true⟩

/-- `NoopSessionCache`, or `RedisSessionCache` with the keys that Redis holds. -/
structure SessionCache where
  redis : Bool
  keys : KeyStore Ssid Text

namespace SessionCache

/-- Whether a command to Redis is sent and carried out. -/
def reaches (c : SessionCache) (up : Bool) : Bool := c.redis && up

def setSession (c : SessionCache) (up : RedisUp) (ssid : Ssid) (uid : Uid) (ttlSec : Int) : SessionCache × Bool :=
  if c.reaches up.set then
    let c := { c with keys := c.keys.set ssid (Text.ofUInt64 uid) }
    if ttlSec > 0 then
      if c.reaches up.expire then ({ c with keys := c.keys.expire ssid }, true) else (c, false)
    else (c, true)
  else (c, false)

/-- `getSession`. A value that is no number is caught, and counts as none. -/
def getSession (c : SessionCache) (up : RedisUp) (ssid : Ssid) : Option Uid :=
  if c.reaches up.get then
    match c.keys.get ssid with
    | none => none
    | some v => (Text.stoull v).toOption
  else none

def delSession (c : SessionCache) (up : RedisUp) (ssid : Ssid) : SessionCache × Bool :=
  if c.reaches up.del then ({ c with keys := c.keys.del ssid }, true) else (c, false)

def expireSession (c : SessionCache) (up : RedisUp) (ssid : Ssid) (ttlSec : Int) : SessionCache × Bool :=
  if !c.redis then (c, false)
  else if ttlSec ≤ 0 then (c, true)
  else if up.expire then ({ c with keys := c.keys.expire ssid }, true)
  else (c, false)

end SessionCache

/-- The server's sessions. -/
structure Sessions where
  sm : SessionManager
  timers : Dict TimerId Timer
  nextTimer : TimerId
  cache : SessionCache

/-- What `get_session_by_cookie` ends with: a session, of which the callers read the ssid and the user, or an
    answer to the client. -/
inductive Found
  | session (ssid : Ssid) (uid : Uid)
  | loginAgain (resp : Members)

/-- `get_cookie_val`: the value of the first `key=value` among the pieces of the header. -/
def getCookieVal (cookie key : Text) : Option Text :=
  (Text.split cookie "; ".toList).findSome? fun str =>
    match Text.split str ['='] with
    | [k, v] => if k = key then some v else none
    | _ => none

/-- What `login` puts into `Set-Cookie`. -/
def cookieSsid (ssid : Ssid) : Text := "SSID=".toList ++ Text.ofUInt64 ssid

namespace Sessions

def start (redis : Bool) : Sessions := ⟨.empty, Dict.empty, 0, ⟨redis, Dict.empty⟩⟩

/-- A new timer for a session, which keeps its handle. -/
def arm (st : Sessions) (ssid : Ssid) : Sessions :=
  { st with
    timers := st.timers.assign st.nextTimer ⟨ssid, .waiting⟩
    nextTimer := st.nextTimer + 1
    sm := st.sm.setTimer ssid (some st.nextTimer) }

/-- `cancel`, which an expired timer does not notice. -/
def cancel (st : Sessions) (tp : TimerId) : Sessions :=
  match st.timers tp with
  | some ⟨ssid, .waiting⟩ => { st with timers := st.timers.assign tp ⟨ssid, .aborted⟩ }
  | _ => st

def setSessionExpireTime (st : Sessions) (ssid : Ssid) (ms : Int) : Sessions :=
  match st.sm.getSessionBySsid ssid with
  | none => st
  | some ssp =>
    match ssp.timer with
    | none => if ms = sessionForever then st else st.arm ssid
    | some tp =>
      let st := st.cancel tp
      let st := { st with sm := st.sm.setTimer ssid none }
      if ms = sessionForever then st else st.arm ssid

def sessionExpireWithCache (st : Sessions) (up : RedisUp) (ssid : Ssid) (ms : Int) : Sessions :=
  let st := st.setSessionExpireTime ssid ms
  if ms = sessionForever then { st with cache := (st.cache.delSession up ssid).1 }
  else if ms > 0 then { st with cache := (st.cache.expireSession up ssid (ms.tdiv 1000)).1 }
  else st

/-- The end of `login`, for the user that the table has found: a session, and its ssid for the cookie. -/
def login (st : Sessions) (up : RedisUp) (uid : Uid) : Sessions × Ssid :=
  let ssid := st.sm.nextSsid
  let st := { st with sm := st.sm.createSession uid .login }
  let st := st.sessionExpireWithCache up ssid sessionTimeout
  ({ st with cache := (st.cache.setSession up ssid uid (sessionTimeout.tdiv 1000)).1 }, ssid)

/-- The user of a session, which is restored from the session cache when it is not there. -/
def findSession (st : Sessions) (up : RedisUp) (ssid : Ssid) : Sessions × Option Uid :=
  match st.sm.getSessionBySsid ssid with
  | some ssp => (st, some ssp.uid)
  | none =>
    match st.cache.getSession up ssid with
    | none => (st, none)
    | some uid =>
      let st := { st with sm := st.sm.appendSession ⟨ssid, uid, .login, none⟩ }
      (st.sessionExpireWithCache up ssid sessionTimeout, some uid)

def getSessionByCookie (st : Sessions) (up : RedisUp) (cookie : Text) (optypeForErr : String) :
    Except Text.StoullError (Sessions × Found) :=
  if cookie = [] then .ok (st, .loginAgain (refuse optypeForErr "没有找到cookie信息,需要重新登录"))
  else
    match getCookieVal cookie "SSID".toList with
    | none => .ok (st, .loginAgain (refuse optypeForErr "没有找到SSID信息,需要重新登录"))
    | some ssidStr => do
      let ssid ← Text.stoull ssidStr
      match st.findSession up ssid with
      | (st, some uid) => return (st, .session ssid uid)
      | (st, none) => return (st, .loginAgain (refuse optypeForErr "没有找到session信息,需要重新登录"))

/-- A timer expires. -/
def expires (st : Sessions) (tp : TimerId) : Option Sessions :=
  match st.timers tp with
  | some ⟨ssid, .waiting⟩ => some { st with timers := st.timers.assign tp ⟨ssid, .expired⟩ }
  | _ => none

/-- The completion of a timer, which removes its session when there is no error. -/
def complete (st : Sessions) (tp : TimerId) : Option Sessions :=
  match st.timers tp with
  | some ⟨ssid, .expired⟩ => some { st with timers := st.timers.erase tp, sm := st.sm.removeSession ssid }
  | some ⟨_, .aborted⟩ => some { st with timers := st.timers.erase tp }
  | _ => none

/-- What a handler does with the lifetime of the session that it has found, if anything. -/
def renew (st : Sessions) (up : RedisUp) (ssid : Ssid) : Option Int → Sessions
  | none => st
  | some ms => st.sessionExpireWithCache up ssid ms

/-- The server starts again: what it held is gone, and Redis keeps its keys. -/
def restart (st : Sessions) (redis : Bool) : Sessions := ⟨.empty, Dict.empty, 0, ⟨redis, st.cache.keys⟩⟩

end Sessions

/-- What happens to the sessions: a login that the table lets through, a request or a callback that comes with a
    `Cookie` header and may set the lifetime of the session behind it, a timer, a key of the session cache
    whose time is up, or another start of the server. -/
inductive SessionEvent
  | login (uid : Uid) (up : RedisUp)
  | request (cookie : Text) (optypeForErr : String) (ms : Option Int) (up : RedisUp)
  | expires (tp : TimerId)
  | complete (tp : TimerId)
  | lapse (ssid : Ssid)
  | restart (redis : Bool)

/-- What is put out: `Set-Cookie` with a new ssid, or what the lookup ends with. -/
inductive SessionObs
  | setCookie (ssid : Ssid) (uid : Uid)
  | found (found : Found)

def Sessions.machine : Machine Sessions SessionEvent SessionObs where
  step st
    | .login uid up =>
      let (st, ssid) := st.login up uid
      some (st, [.setCookie ssid uid])
    | .request cookie optypeForErr ms up =>
      match st.getSessionByCookie up cookie optypeForErr with
      | .error _ => none
      | .ok (st, .session ssid uid) => some (st.renew up ssid ms, [.found (.session ssid uid)])
      | .ok (st, .loginAgain resp) => some (st, [.found (.loginAgain resp)])
    | .expires tp => (st.expires tp).map fun st => (st, [])
    | .complete tp => (st.complete tp).map fun st => (st, [])
    | .lapse ssid => (st.cache.keys.lapse ssid).map fun keys => ({ st with cache := { st.cache with keys } }, [])
    | .restart redis => some (st.restart redis, [])

abbrev SessionTrans := Machine.Trans Sessions SessionEvent SessionObs

/-- What happens to lifetimes alone: one is set, and the timers run. -/
inductive ExpiryEvent
  | set (ssid : Ssid) (ms : Int)
  | expires (tp : TimerId)
  | complete (tp : TimerId)
  deriving DecidableEq

def Sessions.expiryMachine : Machine Sessions ExpiryEvent Empty where
  step st
    | .set ssid ms => some (st.setSessionExpireTime ssid ms, [])
    | .expires tp => (st.expires tp).map fun st => (st, [])
    | .complete tp => (st.complete tp).map fun st => (st, [])

abbrev ExpiryTrans := Machine.Trans Sessions ExpiryEvent Empty

/-- The header of the client that was given the ssid 1. -/
def firstCookie : Text := "SSID=1".toList

end FiveStones
