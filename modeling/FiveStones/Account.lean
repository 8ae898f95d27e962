import FiveStones.Session
import FiveStones.Sql
import FiveStones.UserTable

/-! `reg` and `login`: the HTTP handlers that take a body. -/

namespace FiveStones

/-- An answer to a request, by `http_resp`. -/
structure HttpResp where
  code : Nat
  body : Members

def httpResp (result : Bool) (code : Nat) (reason : String) : HttpResp :=
  ⟨code, [("result", .bool result), ("reason", .str reason)]⟩

/-- A row that MySQL answers to `LOGIN_USER`: four texts, each of which may be NULL. -/
structure LoginRow where
  id : Option Text
  score : Option Text
  totalCount : Option Text
  winCount : Option Text

/-- The number in a column. -/
def columnOf (number : Text → Except Text.StoullError Int) : Option Text → Except Escape Int
  | none => .error .nullText
  | some text => (number text).mapError .number

/-- The user with what the row says of it. -/
def LoginRow.fill (row : LoginRow) (user : Members) : Except Escape Members := do
  let id ← columnOf Text.stol row.id
  let score ← columnOf Text.stol row.score
  let totalCount ← columnOf Text.stoi row.totalCount
  let winCount ← columnOf Text.stoi row.winCount
  return (((user.set "id" (.uint (.ofInt id))).set "score" (.uint (.ofInt score))).set "total_count" (.int totalCount)).set
    "win_count" (.int winCount)

/-- `user_table::login`. MySQL answers a statement with rows, or not at all. -/
def UserTable.login (mysql : Text → Option (List LoginRow)) (user : Members) : Except Escape (Members × Bool) := do
  if (user.get "password").isNull || (user.get "username").isNull then return (user, false)
  else
    let username ← (user.get "username").asCString.mapError .json
    let password ← (user.get "password").asCString.mapError .json
    let sql ← Sql.print Sql.loginUser [.ofString username, .ofString password]
    match mysql sql with
    | none => return (user, false)
    | some [] => return (user, false)
    | some (row :: _) =>
      let user ← row.fill user
      return (user, true)

/-- A login with two texts for the names. -/
theorem UserTable.login_eq {mysql : Text → Option (List LoginRow)} {m : Members} {username password : String}
    (hun : m.get "username" = .str username) (hpw : m.get "password" = .str password) : UserTable.login mysql m =
    Sql.print Sql.loginUser [.ofString username, .ofString password] >>= fun sql =>
      match mysql sql with
      | none => .ok (m, false)
      | some [] => .ok (m, false)
      | some (row :: _) => row.fill m >>= fun user => .ok (user, true) := by
  simp only [login, hun, hpw, Json.isNull, Json.asCString, Except.mapError, bind, Except.bind, pure, Except.pure,
    Bool.or_self, Bool.false_eq_true, ↓reduceIte]

/-- `reg`. No body is one that `unserialize` refused. -/
def reg (t : UserTable) (id? : Option Uid) (body : Option Json) : Except Escape (UserTable × HttpResp) :=
  match body with
  | none => .ok (t, httpResp false 400 "请求正文格式错误")
  | some loginInfo => do
    let loginInfo ← loginInfo.members.mapError .json
    if (loginInfo.get "username").isNull || (loginInfo.get "password").isNull then
      return (t, httpResp false 400 "请输入用户名/密码")
    else
      let (t, ret) ← t.insert id? loginInfo
      if !ret then return (t, httpResp false 400 "用户名已经被占用") else return (t, httpResp true 200 "注册用户成功")

/-- `login`, with the `Set-Cookie` header of its answer. -/
def login (st : Sessions) (up : RedisUp) (mysql : Text → Option (List LoginRow)) (body : Option Json) :
    Except Escape (Sessions × HttpResp × Option Text) :=
  match body with
  | none => .ok (st, httpResp false 400 "请求正文格式错误", none)
  | some loginInfo => do
    let loginInfo ← loginInfo.members.mapError .json
    if (loginInfo.get "username").isNull || (loginInfo.get "password").isNull then
      return (st, httpResp false 400 "请输入用户名/密码", none)
    else
      let (loginInfo, ret) ← UserTable.login mysql loginInfo
      if !ret then
        -- The log line of the failure reads the name.
        let _ ← (loginInfo.get "username").asCString.mapError .json
        return (st, httpResp false 400 "用户名或密码错误", none)
      else
        let uid ← (loginInfo.get "id").asUInt64.mapError .json
        let (st, ssid) := st.login up uid
        return (st, httpResp true 200 "登录成功", some ("SSID=".toList ++ Text.ofUInt64 ssid))

end FiveStones
