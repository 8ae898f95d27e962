import FiveStones.Lib.KeyStore
import FiveStones.Matcher
import FiveStones.UserTable

/-! `user_table` with `RedisUserCache` in front of it: `select_by_id`, `select_by_name`, `win` and `lose`, step by
step, on several threads at once.

A step is one command to Redis or one statement to MySQL. A select holds the mutex for its statement only, and an
update from its statement to the end of `invalidateById`. Which row a name gives is up to MySQL, whose answer to
`USER_BY_NAME` is a parameter. -/

namespace FiveStones

/-- The network thread, or a match thread. -/
abbrev Thread := Option Pool

instance Thread.decidableForall {p : Thread → Prop} [DecidablePred p] : Decidable (∀ t, p t) :=
  decidable_of_iff (p none ∧ ∀ k, p (some k))
    ⟨fun ⟨hnone, hsome⟩ t => by cases t <;> simp [hnone, hsome], fun h => ⟨h none, fun k => h (some k)⟩⟩

/-- What a select gives of a row, and what is cached of it. -/
structure UserRecord where
  id : Uid
  username : String
  score : Nat
  totalCount : Nat
  winCount : Nat
  deriving DecidableEq, Repr

def UserRow.record (row : UserRow) : UserRecord := ⟨row.id, row.username, row.score, row.totalCount, row.winCount⟩

namespace UserTable

/-- `USER_BY_ID`, whose result must be one row. -/
def rowById (t : UserTable) (id : Uid) : Option UserRow :=
  match t.filter (·.id = id) with
  | [row] => some row
  | _ => none

end UserTable

/-- `user:id:<uid>` and `user:name:<name>`. -/
inductive CacheKey
  | id (uid : Uid)
  | name (name : String)
  deriving DecidableEq, Repr

/-- Where a thread stands: before the statement of a select that the cache has no record for, in `setUser`, or in
    `invalidateById`. -/
inductive CachePc
  | idle
  | queryId (uid : Uid)
  | queryName (name : String)
  | setId (user : UserRecord)
  | setName (user : UserRecord)
  | expireId (user : UserRecord)
  | expireName (user : UserRecord)
  | read (uid : Uid)
  | delName (uid : Uid) (name : String)
  | delId (uid : Uid)
  deriving DecidableEq

/-- Whether the thread holds the mutex. -/
def CachePc.holds : CachePc → Bool
  | read _ | delName _ _ | delId _ => true
  | _ => false

structure CachedTable where
  table : UserTable
  keys : KeyStore CacheKey UserRecord
  pcs : Thread → CachePc

/-- What the calls return: a select the user, if there is one, and an update whether it was made. -/
inductive CacheObs
  | selected (t : Thread) (user : Option UserRecord)
  | updated (t : Thread) (done : Bool)

namespace CachedTable

def start : CachedTable := ⟨[], Dict.empty, fun _ => .idle⟩

def goto (c : CachedTable) (t : Thread) (pc : CachePc) : CachedTable := { c with pcs := Function.update c.pcs t pc }

def withKeys (c : CachedTable) (keys : KeyStore CacheKey UserRecord) : CachedTable := { c with keys }

def locked (c : CachedTable) : Bool := !decide (∀ t, (c.pcs t).holds = false)

/-- The first step of a select: `getByKey`. -/
def getByKey (c : CachedTable) (t : Thread) (k : CacheKey) (query : CachePc) : CachedTable × List CacheObs :=
  match c.keys.get k with
  | some user => (c, [.selected t (some user)])
  | none => (c.goto t query, [])

/-- The statement of a select, with what it makes of the row. -/
def query (c : CachedTable) (t : Thread) (user : Option UserRecord) : CachedTable × List CacheObs :=
  match user with
  | none => (c.goto t .idle, [.selected t none])
  | some user => (c.goto t (.setId user), [])

/-- The statement of an update, under the mutex that it keeps. -/
def update (c : CachedTable) (t : Thread) (uid : Uid) (x : UserTable × Bool) : CachedTable × List CacheObs :=
  if x.2 then ({ c with table := x.1 }.goto t (.read uid), []) else (c, [.updated t false])

/-- The next step of a thread. A select puts what it was asked for into the record itself, and only the rest comes from
    the row. -/
def turn (mysql : UserTable → Text → Option UserRow) (c : CachedTable) (t : Thread) : Option (CachedTable × List CacheObs) :=
  match c.pcs t with
  | .idle => none
  | .queryId uid =>
    if c.locked then none else some (c.query t ((c.table.rowById uid).map fun row => { row.record with id := uid }))
  | .queryName name =>
    if c.locked then none
    else
      match Sql.print Sql.userByName [.ofString name] with
      | .error _ => none
      | .ok sql => some (c.query t ((mysql c.table sql).map fun row => { row.record with username := name }))
  | .setId user => some ((c.withKeys (c.keys.set (.id user.id) user)).goto t (.setName user), [])
  | .setName user => some ((c.withKeys (c.keys.set (.name user.username) user)).goto t (.expireId user), [])
  | .expireId user => some ((c.withKeys (c.keys.expire (.id user.id))).goto t (.expireName user), [])
  | .expireName user =>
    some ((c.withKeys (c.keys.expire (.name user.username))).goto t .idle, [.selected t (some user)])
  | .read uid =>
    match c.keys.get (.id uid) with
    | some user => some (c.goto t (.delName uid user.username), [])
    | none => some (c.goto t (.delId uid), [])
  | .delName uid name => some ((c.withKeys (c.keys.del (.name name))).goto t (.delId uid), [])
  | .delId uid => some ((c.withKeys (c.keys.del (.id uid))).goto t .idle, [.updated t true])

end CachedTable

/-- What happens: a registration, the first step of a call, the next step of a thread that is in one, or a key that
    is gone because its time is up. -/
inductive CacheEvent
  | register (id? : Option Uid) (user : Members)
  | selectById (t : Thread) (uid : Uid)
  | selectByName (t : Thread) (name : String)
  | win (t : Thread) (uid : Uid)
  | lose (t : Thread) (uid : Uid)
  | turn (t : Thread)
  | lapse (k : CacheKey)

/-- The cached table as a machine, with the row that MySQL has for a `USER_BY_NAME`, if it has just one. The ids that
    MySQL chooses are new. -/
def CachedTable.machine (mysql : UserTable → Text → Option UserRow) : Machine CachedTable CacheEvent CacheObs where
  step c
    | .register id? user =>
      if c.locked ∨ ∃ id ∈ id?, c.table.Registered id then none
      else
        match c.table.insert id? user with
        | .error _ => none
        | .ok (table, _) => some ({ c with table }, [])
    | .selectById t uid => if c.pcs t = .idle then some (c.getByKey t (.id uid) (.queryId uid)) else none
    | .selectByName t name => if c.pcs t = .idle then some (c.getByKey t (.name name) (.queryName name)) else none
    | .win t uid => if c.pcs t = .idle ∧ !c.locked then some (c.update t uid (c.table.win uid)) else none
    | .lose t uid => if c.pcs t = .idle ∧ !c.locked then some (c.update t uid (c.table.lose uid)) else none
    | .turn t => c.turn mysql t
    | .lapse k => some (c.withKeys (c.keys.del k), [])

abbrev CacheTrans := Machine.Trans CachedTable CacheEvent CacheObs

end FiveStones
