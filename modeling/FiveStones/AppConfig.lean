import FiveStones.Text

/-! The settings of the server, from the environment and the command line. -/

namespace FiveStones

/-- What `getenv` finds, and `argv` behind the name of the program. -/
structure Environment where
  getenv : String → Option Text
  args : List Text

structure ServerCfg where
  dbHost : Text
  dbUser : Text
  dbPass : Text
  dbName : Text
  dbPort : UInt16
  redisHost : Text
  redisPort : UInt16
  redisPassword : Text
  redisDb : Int
  redisTimeoutMs : Int
  listenPort : Int
  wwwroot : Text
  deriving DecidableEq

namespace ServerCfg

/-- The defaults, with the `WWWROOT` that the server is compiled with. -/
def default (wwwrootCompileDefault : Text) : ServerCfg where
  dbHost := "127.0.0.1".toList
  dbUser := "wmx".toList
  dbPass := "123456".toList
  dbName := "online_gobang".toList
  dbPort := 3306
  redisHost := "127.0.0.1".toList
  redisPort := 6379
  redisPassword := []
  redisDb := 0
  redisTimeoutMs := 200
  listenPort := 8080
  wwwroot := wwwrootCompileDefault

end ServerCfg

namespace Environment

/-- `apply_env_override`. -/
def applyEnvOverride (env : Environment) (dst : Text) (name : String) : Text :=
  match env.getenv name with
  | none => dst
  | some v => if v ≠ [] then v else dst

/-- `std::stoi` and a test, with what is reported when either fails. -/
def number (p : Text) (inRange : Int → Bool) (outOfRange invalid : String) : Except String Int :=
  match Text.stoi p with
  | .error _ => .error invalid
  | .ok n => if inRange n then .ok n else .error outOfRange

/-- A number that the environment may set, and then has to. -/
def envNumber (env : Environment) (name : String) (inRange : Int → Bool) : Except String (Option Int) :=
  match env.getenv name with
  | none => .ok none
  | some p =>
    if p = [] then .error (name ++ " is empty")
    else (number p inRange (name ++ " out of range") (name ++ " invalid")).map some

def isPort (n : Int) : Bool := 1 ≤ n ∧ n ≤ 65535

/-- The port to listen on: the argument, or else `SERVER_PORT`. -/
def serverPort (env : Environment) : Except String (Option Int) :=
  match env.args with
  | [] =>
    match env.getenv "SERVER_PORT" with
    | none => .ok none
    | some p => if p = [] then .ok none else (number p isPort "SERVER_PORT out of range" "SERVER_PORT invalid").map some
  | [p] => (number p isPort "server port out of range" "invalid server port argument").map some
  | _ => .error "too many arguments"

end Environment

/-- `load_server_cfg`: the settings, or what is wrong with the first one that is. -/
def loadServerCfg (env : Environment) (wwwrootCompileDefault : Text) : Except String ServerCfg := do
  let cfg := ServerCfg.default wwwrootCompileDefault
  let dbPort ← env.envNumber "MYSQL_PORT" Environment.isPort
  let redisPort ← env.envNumber "REDIS_PORT" Environment.isPort
  let redisDb ← env.envNumber "REDIS_DB" fun db => 0 ≤ db
  let redisTimeoutMs ← env.envNumber "REDIS_TIMEOUT_MS" fun t => 0 < t
  let listenPort ← env.serverPort
  return {
    dbHost := env.applyEnvOverride cfg.dbHost "MYSQL_HOST"
    dbUser := env.applyEnvOverride cfg.dbUser "MYSQL_USER"
    dbPass := env.applyEnvOverride cfg.dbPass "MYSQL_PASSWORD"
    dbName := env.applyEnvOverride cfg.dbName "MYSQL_DATABASE"
    dbPort := (dbPort.map UInt16.ofInt).getD cfg.dbPort
    redisHost := env.applyEnvOverride cfg.redisHost "REDIS_HOST"
    redisPort := (redisPort.map UInt16.ofInt).getD cfg.redisPort
    redisPassword := env.applyEnvOverride cfg.redisPassword "REDIS_PASSWORD"
    redisDb := redisDb.getD cfg.redisDb
    redisTimeoutMs := redisTimeoutMs.getD cfg.redisTimeoutMs
    listenPort := listenPort.getD cfg.listenPort
    wwwroot := env.applyEnvOverride cfg.wwwroot "WWWROOT" }

end FiveStones
