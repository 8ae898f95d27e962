import FiveStones.Session
import FiveStones.UserStore

/-! `RedisSessionCache` and `RedisUserCache` over one Redis, with any value for a user, and calls in any order. -/

namespace FiveStones

/-- `json_util`: a value to a text, and a text to a value. Either may fail. -/
structure JsonUtil where
  serialize : Json → Option Text
  unserialize : Text → Option Json

/-- What the `invalidate` calls take from a cached text: a field of it, or nothing where the text is no value or the
    field is null. -/
def JsonUtil.field {α : Type} (json : JsonUtil) (name : String) (as : Json → Except JsonError α) (body : Text) :
    Except JsonError (Option α) :=
  match json.unserialize body with
  | none => .ok none
  | some u => do
    let v := (← u.members).get name
    if v.isNull then return none
    else
      let a ← as v
      return some a

/-- `RedisUserCache` on the keys that Redis holds. -/
abbrev UserKeys := KeyStore CacheKey Text

namespace UserKeys

def setUser (json : JsonUtil) (keys : UserKeys) (up : UserRedisUp) (uid : Uid) (name : String) (user : Json)
    (ttlSec : Int) : UserKeys × Bool :=
  match json.serialize user with
  | none => (keys, false)
  | some body =>
    if !up.setId then (keys, false)
    else
      let keys := KeyStore.set keys (.id uid) body
      if !up.setName then (keys, false)
      else
        let keys := KeyStore.set keys (.name name) body
        if ttlSec > 0 then
          if !up.expireId then (keys, false)
          else
            let keys := KeyStore.expire keys (.id uid)
            if !up.expireName then (keys, false) else (KeyStore.expire keys (.name name), true)
        else (keys, true)

/-- A `del` that is the last command of a call, or throws. -/
def delKey (keys : UserKeys) (up : Bool) (k : CacheKey) : UserKeys × Bool :=
  if !up then (keys, false) else (KeyStore.del keys k, true)

/-- What an `invalidate` call does with the field that it has read: a `del` of the user's other key if it names one,
    and then a `del` of the key itself. An exception of the conversion ends it. -/
def delBoth (keys : UserKeys) (upOther upSelf : Bool) (self : CacheKey) :
    Except JsonError (Option CacheKey) → UserKeys × Bool
  | .error _ => (keys, false)
  | .ok none => delKey keys upSelf self
  | .ok (some other) => if !upOther then (keys, false) else delKey (KeyStore.del keys other) upSelf self

def invalidateById (json : JsonUtil) (keys : UserKeys) (up : UserRedisUp) (uid : Uid) : UserKeys × Bool :=
  if !up.get then (keys, false)
  else
    match KeyStore.get keys (.id uid) with
    | none => delKey keys up.delId (.id uid)
    | some body =>
      delBoth keys up.delName up.delId (.id uid)
        ((json.field "username" Json.asString body).map (Option.map CacheKey.name))

/-- Unlike `invalidateById`, it deletes nothing and returns false if the key is not there. -/
def invalidateByName (json : JsonUtil) (keys : UserKeys) (up : UserRedisUp) (name : String) : UserKeys × Bool :=
  if !up.get then (keys, false)
  else
    match KeyStore.get keys (.name name) with
    | none => (keys, false)
    | some body =>
      delBoth keys up.delId up.delName (.name name)
        ((json.field "id" Json.asUInt64 body).map (Option.map CacheKey.id))

end UserKeys

/-! ### Records

`UserCache` keeps records where Redis has texts. -/

/-- What a select fills in. -/
def UserRecord.members (user : UserRecord) : Members :=
  [("id", .uint user.id), ("score", .int user.score), ("total_count", .int user.totalCount),
    ("username", .str user.username), ("win_count", .int user.winCount)]

/-- Such a value becomes the text `body`, which reads as the value again. -/
def JsonUtil.RoundTrips (json : JsonUtil) (body : UserRecord → Text) : Prop :=
  ∀ user : UserRecord, json.serialize (.obj user.members) = some (body user) ∧
    json.unserialize (body user) = some (.obj user.members)

namespace UserKeys
variable {json : JsonUtil} {body : UserRecord → Text} {c : UserCache} {up : UserRedisUp} {uid : Uid} {name : String}
  {user : UserRecord} {ttlSec : Int}

theorem field_username (hjson : json.RoundTrips body) (user : UserRecord) :
    json.field "username" Json.asString (body user) = .ok (some user.username) := by
  have hget : user.members.get "username" = .str user.username := rfl
  simp only [JsonUtil.field, (hjson user).2, Json.members, hget, bind, Except.bind, Json.isNull, Json.asString]
  rfl

theorem setUser_record (hjson : json.RoundTrips body) (hredis : c.redis = true) :
    setUser json (KeyStore.map body c.keys) up uid name (.obj user.members) ttlSec =
      (KeyStore.map body (c.setUser up uid name user ttlSec).1.keys, (c.setUser up uid name user ttlSec).2) := by
  simp only [setUser, (hjson user).1, UserCache.setUser, UserCache.reaches, hredis, Bool.true_and, UserCache.withKeys]
  split
  · rfl
  split
  · rw [KeyStore.map_set]
  split
  · split
    · rw [KeyStore.map_set, KeyStore.map_set]
    split
    · rw [KeyStore.map_expire, KeyStore.map_set, KeyStore.map_set]
    · rw [KeyStore.map_expire, KeyStore.map_expire, KeyStore.map_set, KeyStore.map_set]
  · rw [KeyStore.map_set, KeyStore.map_set]

theorem invalidateById_record (hjson : json.RoundTrips body) (hredis : c.redis = true) :
    invalidateById json (KeyStore.map body c.keys) up uid =
      (KeyStore.map body (c.invalidateById up uid).1.keys, (c.invalidateById up uid).2) := by
  simp only [invalidateById, UserCache.invalidateById, UserCache.reaches, hredis, Bool.true_and, KeyStore.get_map]
  split
  · rfl
  cases hget : KeyStore.get c.keys (.id uid) with
  | none =>
    simp only [Option.map_none, delKey, UserCache.delId, UserCache.withKeys]
    split
    · rfl
    · rw [KeyStore.map_del]
  | some user =>
    simp only [Option.map_some, field_username hjson, Except.map, delBoth, delKey, UserCache.delId, UserCache.withKeys]
    split
    · rfl
    split
    · rw [KeyStore.map_del]
    · rw [KeyStore.map_del, KeyStore.map_del]

end UserKeys

/-- What Redis holds for the two caches. -/
structure RedisKeys where
  sessions : KeyStore Ssid Text
  users : UserKeys

/-- A call of one of the caches, with the commands that are carried out, or a key whose time is up. -/
inductive RedisCall
  | setSession (ssid : Ssid) (uid : Uid) (ttlSec : Int) (up : RedisUp)
  | expireSession (ssid : Ssid) (ttlSec : Int) (up : RedisUp)
  | delSession (ssid : Ssid) (up : RedisUp)
  | setUser (uid : Uid) (name : String) (user : Json) (ttlSec : Int) (up : UserRedisUp)
  | invalidateById (uid : Uid) (up : UserRedisUp)
  | invalidateByName (name : String) (up : UserRedisUp)
  | lapseSession (ssid : Ssid)
  | lapseUser (k : CacheKey)

namespace RedisKeys

def start : RedisKeys := ⟨Dict.empty, Dict.empty⟩

/-- `RedisSessionCache`. -/
def sessionCache (r : RedisKeys) : SessionCache := ⟨true, r.sessions⟩

def withSessions (r : RedisKeys) (x : SessionCache × Bool) : RedisKeys × List Bool :=
  ({ r with sessions := x.1.keys }, [x.2])

def withUsers (r : RedisKeys) (x : UserKeys × Bool) : RedisKeys × List Bool := ({ r with users := x.1 }, [x.2])

/-- The calls put out what they return. -/
def machine (json : JsonUtil) : Machine RedisKeys RedisCall Bool where
  step r
    | .setSession ssid uid ttlSec up => some (r.withSessions (r.sessionCache.setSession up ssid uid ttlSec))
    | .expireSession ssid ttlSec up => some (r.withSessions (r.sessionCache.expireSession up ssid ttlSec))
    | .delSession ssid up => some (r.withSessions (r.sessionCache.delSession up ssid))
    | .setUser uid name user ttlSec up => some (r.withUsers (r.users.setUser json up uid name user ttlSec))
    | .invalidateById uid up => some (r.withUsers (r.users.invalidateById json up uid))
    | .invalidateByName name up => some (r.withUsers (r.users.invalidateByName json up name))
    | .lapseSession ssid => (r.sessions.lapse ssid).map fun keys => ({ r with sessions := keys }, [])
    | .lapseUser k => (KeyStore.lapse r.users k).map fun keys => ({ r with users := keys }, [])

end RedisKeys

abbrev RedisTrans := Machine.Trans RedisKeys RedisCall Bool

end FiveStones
