import FiveStones.UserCache

/-! `user_table` in front of `RedisUserCache` or of `NoopUserCache`, one call after the other. -/

namespace FiveStones

/-- `USER_BY_NAME`, whose result must be one row. How MySQL compares names is up to the collation of the column. -/
def UserTable.rowByName (same : String → String → Bool) (t : UserTable) (name : String) : Option UserRow :=
  match t.filter fun row => same row.username name with
  | [row] => some row
  | _ => none

/-- Which of the commands that one call has for Redis are carried out. The others throw. -/
structure UserRedisUp where
  get : Bool
  setId : Bool
  setName : Bool
  expireId : Bool
  expireName : Bool
  delName : Bool
  delId : Bool

def UserRedisUp.all : UserRedisUp := ⟨true, true, true, true, true, true, true⟩

/-- `NoopUserCache`, or `RedisUserCache` with the keys that Redis holds. -/
structure UserCache where
  redis : Bool
  keys : KeyStore CacheKey UserRecord

namespace UserCache

/-- Whether the first command of an operation is sent and carried out. -/
def reaches (c : UserCache) (up : Bool) : Bool := c.redis && up

def withKeys (c : UserCache) (keys : KeyStore CacheKey UserRecord) : UserCache := { c with keys }

def getByKey (c : UserCache) (up : UserRedisUp) (k : CacheKey) : Option UserRecord :=
  if c.reaches up.get then c.keys.get k else none

def getUserById (c : UserCache) (up : UserRedisUp) (uid : Uid) : Option UserRecord := c.getByKey up (.id uid)

def getUserByName (c : UserCache) (up : UserRedisUp) (name : String) : Option UserRecord := c.getByKey up (.name name)

/-- `setUser`: the first command that throws ends it. -/
def setUser (c : UserCache) (up : UserRedisUp) (uid : Uid) (name : String) (user : UserRecord) (ttlSec : Int) :
    UserCache × Bool :=
  if !c.reaches up.setId then (c, false)
  else
    let c := c.withKeys (c.keys.set (.id uid) user)
    if !up.setName then (c, false)
    else
      let c := c.withKeys (c.keys.set (.name name) user)
      if ttlSec > 0 then
        if !up.expireId then (c, false)
        else
          let c := c.withKeys (c.keys.expire (.id uid))
          if !up.expireName then (c, false) else (c.withKeys (c.keys.expire (.name name)), true)
      else (c, true)

/-- The end of `invalidateById`. -/
def delId (c : UserCache) (up : UserRedisUp) (uid : Uid) : UserCache × Bool :=
  if !up.delId then (c, false) else (c.withKeys (c.keys.del (.id uid)), true)

def invalidateById (c : UserCache) (up : UserRedisUp) (uid : Uid) : UserCache × Bool :=
  if !c.reaches up.get then (c, false)
  else
    match c.keys.get (.id uid) with
    | none => c.delId up uid
    | some user =>
      if !up.delName then (c, false) else (c.withKeys (c.keys.del (.name user.username))).delId up uid

end UserCache

/-- The table and its cache. -/
structure UserStore where
  table : UserTable
  cache : UserCache
  userCacheTtlSec : Int

namespace UserStore

def start (redis : Bool) (userCacheTtlSec : Int) : UserStore := ⟨[], ⟨redis, Dict.empty⟩, userCacheTtlSec⟩

/-- The end of a select that has found its row. -/
def cacheUser (s : UserStore) (up : UserRedisUp) (uid : Uid) (name : String) (user : UserRecord) : UserStore × Option UserRecord :=
  ({ s with cache := (s.cache.setUser up uid name user s.userCacheTtlSec).1 }, some user)

/-- Names are asked for as they are stored, so that the comparison comes down to equality. -/
def selectByName (s : UserStore) (up : UserRedisUp) (name : String) : UserStore × Option UserRecord :=
  match s.cache.getUserByName up name with
  | some user => (s, some user)
  | none =>
    match s.table.rowByName (· = ·) name with
    | none => (s, none)
    | some row =>
      let user := { row.record with username := name }
      s.cacheUser up user.id name user

def selectById (s : UserStore) (up : UserRedisUp) (id : Uid) : UserStore × Option UserRecord :=
  match s.cache.getUserById up id with
  | some user => (s, some user)
  | none =>
    match s.table.rowById id with
    | none => (s, none)
    | some row =>
      let user := { row.record with id := id }
      s.cacheUser up id user.username user

/-- What an update does after its statement. It does not look at what `invalidateById` returns. -/
def written (s : UserStore) (up : UserRedisUp) (id : Uid) : UserTable × Bool → UserStore × Bool
  | (_, false) => (s, false)
  | (table, true) => ({ s with table, cache := (s.cache.invalidateById up id).1 }, true)

def win (s : UserStore) (up : UserRedisUp) (id : Uid) : UserStore × Bool := s.written up id (s.table.win id)

def lose (s : UserStore) (up : UserRedisUp) (id : Uid) : UserStore × Bool := s.written up id (s.table.lose id)

/-- A key with an expiry may be gone. -/
def lapse (s : UserStore) (k : CacheKey) : UserStore :=
  { s with cache := s.cache.withKeys ((s.cache.keys.lapse k).getD s.cache.keys) }

end UserStore

/-- A call, or a key whose time is up. -/
inductive UserEvent
  | insert (id? : Option Uid) (user : Members)
  | selectByName (name : String) (up : UserRedisUp)
  | selectById (id : Uid) (up : UserRedisUp)
  | win (id : Uid) (up : UserRedisUp)
  | lose (id : Uid) (up : UserRedisUp)
  | lapse (k : CacheKey)

/-- What a call returns: a select the user, if there is one. -/
inductive UserObs
  | inserted (done : Except JsonError Bool)
  | selected (user : Option UserRecord)
  | updated (done : Bool)
  deriving DecidableEq

/-- `AUTO_INCREMENT` counts up from 1, and does not get to what `stol` would not read. -/
def autoIncrementEnd : Nat := 2 ^ 63

/-- The row may be stored: its id is new, and so is its name, which is `UNIQUE`. -/
def UserTable.Accepts (t : UserTable) (id : Uid) (user : Members) : Prop :=
  id.toNat < autoIncrementEnd ∧ ¬t.Registered id ∧ ∀ row ∈ t, (user.get "username").asCString ≠ .ok row.username

instance (t : UserTable) (id : Uid) (user : Members) : Decidable (t.Accepts id user) :=
  inferInstanceAs (Decidable (_ ∧ _ ∧ _))

def UserStore.machine : Machine UserStore UserEvent UserObs where
  step s
    | .insert id? user =>
      if id?.all (fun id => s.table.Accepts id user) then
        match s.table.insert id? user with
        | .error (.json e) => some (s, [.inserted (.error e)])
        | .error _ => none
        | .ok (table, done) => some ({ s with table }, [.inserted (.ok done)])
      else none
    | .selectByName name up => some ((s.selectByName up name).1, [.selected (s.selectByName up name).2])
    | .selectById id up => some ((s.selectById up id).1, [.selected (s.selectById up id).2])
    | .win id up => some ((s.win up id).1, [.updated (s.win up id).2])
    | .lose id up => some ((s.lose up id).1, [.updated (s.lose up id).2])
    | .lapse k => some (s.lapse k, [])

abbrev UserTrans := Machine.Trans UserStore UserEvent UserObs

end FiveStones
