import FiveStones.AppConfig
import FiveStones.Json

/-! Which settings the server can be started with. -/

namespace FiveStones

theorem error_of_bind {α β ε : Type} {x : Except ε α} {f : α → Except ε β} {e : ε} (h : (x >>= f) = .error e) :
    x = .error e ∨ ∃ a, x = .ok a ∧ f a = .error e := by
  cases x with
  | error e' => exact Or.inl (congrArg Except.error (Except.error.inj h))
  | ok a => exact Or.inr ⟨a, rfl, h⟩

namespace Text
variable {digits s : Text} {n : Int}

theorem stoi_range (h : stoi s = .ok n) : -2 ^ 31 ≤ n ∧ n < 2 ^ 31 := by
  simp only [stoi, stoSigned] at h
  split_ifs at h <;> obtain rfl := Except.ok.inj h <;> omega

/-- Digits without a sign. -/
theorem stoi_digits (hne : digits ≠ []) (hdigits : ∀ c ∈ digits, c.isDigit = true) (hlt : Nat.ofDigitChars 10 digits 0 < 2 ^ 31) :
    stoi digits = .ok (Nat.ofDigitChars 10 digits 0) := by
  obtain ⟨d, ds, rfl⟩ := List.exists_cons_of_ne_nil hne
  have hd : d.isDigit = true := hdigits d List.mem_cons_self
  have hdrop : (d :: ds).dropWhile isSpace = d :: ds := List.dropWhile_cons_of_neg (by simp [not_isSpace_of_isDigit hd])
  have htake : (d :: ds).takeWhile Char.isDigit = d :: ds := List.takeWhile_eq_self_iff.mpr hdigits
  have hrange : ¬((Nat.ofDigitChars 10 (d :: ds) 0 : Int) < -2 ^ (32 - 1) ∨ 2 ^ (32 - 1) ≤ (Nat.ofDigitChars 10 (d :: ds) 0 : Int)) := by
    omega
  simp only [stoi, stoSigned, hdrop, sign_digit hd, htake, Bool.false_eq_true, ↓reduceIte, if_neg hne, if_neg hrange]

theorem stoi_toDigits {n : Nat} (hlt : n < 2 ^ 31) : stoi (Nat.toDigits 10 n) = .ok n := by
  have hback : Nat.ofDigitChars 10 (Nat.toDigits 10 n) 0 = n := Nat.ofDigitChars_toDigits (by decide) (by decide)
  have hdigits : ∀ c ∈ Nat.toDigits 10 n, c.isDigit = true := fun c hc => Nat.isDigit_of_mem_toDigits (by decide) (by decide) hc
  rw [stoi_digits Nat.toDigits_ne_nil hdigits (by rwa [hback]), hback]

end Text

namespace Environment
variable {env : Environment} {p : Text} {inRange : Int → Bool} {outOfRange invalid name : String} {n : Int} {n? : Option Int}

theorem number_eq_ok : number p inRange outOfRange invalid = .ok n ↔ Text.stoi p = .ok n ∧ inRange n = true := by
  unfold number
  cases h : Text.stoi p with
  | error e => simp
  | ok m => by_cases hrange : inRange m = true <;> simp [hrange] <;> grind

end Environment

/-- Settings that a server runs with. -/
structure ServerCfg.Valid (wwwrootCompileDefault : Text) (cfg : ServerCfg) : Prop where
  dbHost : cfg.dbHost ≠ []
  dbUser : cfg.dbUser ≠ []
  dbPass : cfg.dbPass ≠ []
  dbName : cfg.dbName ≠ []
  dbPort : cfg.dbPort ≠ 0
  redisHost : cfg.redisHost ≠ []
  redisPort : cfg.redisPort ≠ 0
  redisDb : 0 ≤ cfg.redisDb ∧ cfg.redisDb < 2 ^ 31
  redisTimeoutMs : 0 < cfg.redisTimeoutMs ∧ cfg.redisTimeoutMs < 2 ^ 31
  listenPort : 1 ≤ cfg.listenPort ∧ cfg.listenPort ≤ 65535
  wwwroot : cfg.wwwroot ≠ [] ∨ cfg.wwwroot = wwwrootCompileDefault

/-- The environment that says what `cfg` says. -/
def ServerCfg.toEnvironment (cfg : ServerCfg) : Environment where
  getenv
    | "MYSQL_HOST" => some cfg.dbHost
    | "MYSQL_USER" => some cfg.dbUser
    | "MYSQL_PASSWORD" => some cfg.dbPass
    | "MYSQL_DATABASE" => some cfg.dbName
    | "MYSQL_PORT" => some (Nat.toDigits 10 cfg.dbPort.toNat)
    | "REDIS_HOST" => some cfg.redisHost
    | "REDIS_PASSWORD" => some cfg.redisPassword
    | "REDIS_PORT" => some (Nat.toDigits 10 cfg.redisPort.toNat)
    | "REDIS_DB" => some (Nat.toDigits 10 cfg.redisDb.toNat)
    | "REDIS_TIMEOUT_MS" => some (Nat.toDigits 10 cfg.redisTimeoutMs.toNat)
    | "SERVER_PORT" => some (Nat.toDigits 10 cfg.listenPort.toNat)
    | "WWWROOT" => some cfg.wwwroot
    | _ => none
  args := []

namespace Environment
variable {env : Environment} {p dst dft : Text} {inRange : Int → Bool} {outOfRange invalid name : String} {n : Int}
  {n? : Option Int} {cfg : ServerCfg}

theorem number_written (outOfRange invalid : String) (hnonneg : 0 ≤ n) (hlt : n < 2 ^ 31) (hrange : inRange n = true) :
    number (Nat.toDigits 10 n.toNat) inRange outOfRange invalid = .ok n := by
  have hread := Text.stoi_toDigits (n := n.toNat) (by omega)
  rw [Int.toNat_of_nonneg hnonneg] at hread
  exact number_eq_ok.mpr ⟨hread, hrange⟩

theorem map_some_eq_ok {x : Except String Int} (h : x.map some = .ok n?) : ∃ n, n? = some n ∧ x = .ok n := by
  cases x with
  | error e => cases h
  | ok n => exact ⟨n, (Except.ok.inj h).symm, rfl⟩

theorem envNumber_range (h : env.envNumber name inRange = .ok n?) : ∀ n ∈ n?, inRange n = true ∧ n < 2 ^ 31 := by
  unfold envNumber at h
  split at h
  · obtain rfl := Except.ok.inj h
    simp
  · split at h
    · cases h
    · obtain ⟨n, rfl, hn⟩ := map_some_eq_ok h
      obtain ⟨hread, hrange⟩ := number_eq_ok.mp hn
      intro m hm
      obtain rfl := Option.some.inj hm
      exact ⟨hrange, (Text.stoi_range hread).2⟩

theorem envNumber_written (hget : env.getenv name = some (Nat.toDigits 10 n.toNat)) (hnonneg : 0 ≤ n) (hlt : n < 2 ^ 31)
    (hrange : inRange n = true) : env.envNumber name inRange = .ok (some n) := by
  simp [envNumber, hget, Nat.toDigits_ne_nil, number_written _ _ hnonneg hlt hrange, Except.map]

theorem envNumber_port {port : UInt16} (hget : env.getenv name = some (Nat.toDigits 10 port.toNat)) (hport : port ≠ 0) :
    env.envNumber name isPort = .ok (some ↑port.toNat) := by
  have hlt := port.toNat_lt
  have hpos : port.toNat ≠ 0 := fun h => hport (UInt16.toNat_inj.mp h)
  exact envNumber_written hget (by omega) (by omega) (decide_eq_true ⟨by omega, by omega⟩)

theorem envNumber_error {msg : String} (h : env.envNumber name inRange = .error msg) :
    env.getenv name ≠ none ∧ ∃ fault ∈ [" is empty", " out of range", " invalid"], msg = name ++ fault := by
  unfold envNumber at h
  split at h
  · cases h
  · rename_i p hget
    refine ⟨by simp [hget], ?_⟩
    split at h
    · exact ⟨_, by simp, (Except.error.inj h).symm⟩
    · unfold number at h
      split at h
      · exact ⟨_, by simp, (Except.error.inj h).symm⟩
      · split at h
        · cases h
        · exact ⟨_, by simp, (Except.error.inj h).symm⟩

theorem serverPort_range (h : env.serverPort = .ok n?) : ∀ n ∈ n?, isPort n = true := by
  have hnumber : ∀ {p outOfRange invalid}, (number p isPort outOfRange invalid).map some = .ok n? → ∀ n ∈ n?, isPort n = true := by
    intro p outOfRange invalid h
    obtain ⟨n, rfl, hn⟩ := map_some_eq_ok h
    intro m hm
    obtain rfl := Option.some.inj hm
    exact (number_eq_ok.mp hn).2
  unfold serverPort at h
  split at h
  · split at h
    · obtain rfl := Except.ok.inj h
      simp
    · split at h
      · obtain rfl := Except.ok.inj h
        simp
      · exact hnumber h
  · exact hnumber h
  · cases h

theorem applyEnvOverride_cases : env.applyEnvOverride dst name ≠ [] ∨ env.applyEnvOverride dst name = dst := by
  unfold applyEnvOverride
  split
  · exact Or.inr rfl
  · split
    · exact Or.inl ‹_›
    · exact Or.inr rfl

theorem applyEnvOverride_ne_nil (hdst : dst ≠ []) : env.applyEnvOverride dst name ≠ [] :=
  applyEnvOverride_cases.elim id fun heq => by rwa [heq]

theorem applyEnvOverride_written {v : Text} (hget : env.getenv name = some v) (hv : v ≠ [] ∨ v = dst) :
    env.applyEnvOverride dst name = v := by
  simp only [applyEnvOverride, hget]
  split
  · rfl
  · rename_i hnil
    exact (hv.resolve_left hnil).symm

theorem ofInt_ne_zero (h : isPort n = true) : UInt16.ofInt n ≠ 0 := by
  simp only [isPort, decide_eq_true_eq] at h
  intro hzero
  have hnat : (n % 2 ^ 16).toNat % 2 ^ 16 = 0 := congrArg UInt16.toNat hzero
  omega

theorem ofInt_toNat (n : UInt16) : UInt16.ofInt n.toNat = n := by
  have hlt := n.toNat_lt
  refine UInt16.toNat_inj.mp ?_
  change ((n.toNat : Int) % 2 ^ 16).toNat % 2 ^ 16 = n.toNat
  omega

end Environment

namespace ServerCfg
open Environment
variable {env : Environment} {cfg : ServerCfg} {dft : Text}

theorem valid_default (dft : Text) : (ServerCfg.default dft).Valid dft where
  dbHost := (by decide : "127.0.0.1".toList ≠ [])
  dbUser := (by decide : "wmx".toList ≠ [])
  dbPass := (by decide : "123456".toList ≠ [])
  dbName := (by decide : "online_gobang".toList ≠ [])
  dbPort := (by decide : (3306 : UInt16) ≠ 0)
  redisHost := (by decide : "127.0.0.1".toList ≠ [])
  redisPort := (by decide : (6379 : UInt16) ≠ 0)
  redisDb := (by decide : (0 : Int) ≤ 0 ∧ (0 : Int) < 2 ^ 31)
  redisTimeoutMs := (by decide : (0 : Int) < 200 ∧ (200 : Int) < 2 ^ 31)
  listenPort := (by decide : (1 : Int) ≤ 8080 ∧ (8080 : Int) ≤ 65535)
  wwwroot := Or.inr rfl

/-- What the server starts with is in range. -/
theorem valid_of_load (h : loadServerCfg env dft = .ok cfg) : cfg.Valid dft := by
  have hdft := valid_default dft
  obtain ⟨dbPort, hdbPort, h⟩ := ok_of_bind h
  obtain ⟨redisPort, hredisPort, h⟩ := ok_of_bind h
  obtain ⟨redisDb, hredisDb, h⟩ := ok_of_bind h
  obtain ⟨redisTimeoutMs, hredisTimeoutMs, h⟩ := ok_of_bind h
  obtain ⟨listenPort, hlistenPort, h⟩ := ok_of_bind h
  obtain rfl := Except.ok.inj h
  exact
    { dbHost := applyEnvOverride_ne_nil hdft.dbHost
      dbUser := applyEnvOverride_ne_nil hdft.dbUser
      dbPass := applyEnvOverride_ne_nil hdft.dbPass
      dbName := applyEnvOverride_ne_nil hdft.dbName
      dbPort := by
        cases dbPort with
        | none => exact hdft.dbPort
        | some n => exact ofInt_ne_zero (envNumber_range hdbPort n rfl).1
      redisHost := applyEnvOverride_ne_nil hdft.redisHost
      redisPort := by
        cases redisPort with
        | none => exact hdft.redisPort
        | some n => exact ofInt_ne_zero (envNumber_range hredisPort n rfl).1
      redisDb := by
        cases redisDb with
        | none => exact hdft.redisDb
        | some n => exact (envNumber_range hredisDb n rfl).imp_left of_decide_eq_true
      redisTimeoutMs := by
        cases redisTimeoutMs with
        | none => exact hdft.redisTimeoutMs
        | some n => exact (envNumber_range hredisTimeoutMs n rfl).imp_left of_decide_eq_true
      listenPort := by
        cases listenPort with
        | none => exact hdft.listenPort
        | some n => exact of_decide_eq_true (serverPort_range hlistenPort n rfl)
      wwwroot := applyEnvOverride_cases }

/-- What is reported names the setting that is wrong. -/
theorem load_error {msg : String} (h : loadServerCfg env dft = .error msg) :
    (∃ name ∈ ["MYSQL_PORT", "REDIS_PORT", "REDIS_DB", "REDIS_TIMEOUT_MS"], env.getenv name ≠ none ∧
      ∃ fault ∈ [" is empty", " out of range", " invalid"], msg = name ++ fault) ∨ env.serverPort = .error msg := by
  unfold loadServerCfg at h
  rcases error_of_bind h with h | ⟨dbPort, -, h⟩
  · exact Or.inl ⟨_, by simp, envNumber_error h⟩
  rcases error_of_bind h with h | ⟨redisPort, -, h⟩
  · exact Or.inl ⟨_, by simp, envNumber_error h⟩
  rcases error_of_bind h with h | ⟨redisDb, -, h⟩
  · exact Or.inl ⟨_, by simp, envNumber_error h⟩
  rcases error_of_bind h with h | ⟨redisTimeoutMs, -, h⟩
  · exact Or.inl ⟨_, by simp, envNumber_error h⟩
  rcases error_of_bind h with h | ⟨listenPort, -, h⟩
  · exact Or.inr h
  · cases h

/-- What the environment says is what the server starts with. -/
theorem load_toEnvironment (h : cfg.Valid dft) : loadServerCfg cfg.toEnvironment dft = .ok cfg := by
  obtain ⟨hdb, hdbLt⟩ := h.redisDb
  obtain ⟨htimeout, htimeoutLt⟩ := h.redisTimeoutMs
  have hlisten := h.listenPort
  have hdbPort : cfg.toEnvironment.envNumber "MYSQL_PORT" isPort = .ok (some ↑cfg.dbPort.toNat) := envNumber_port rfl h.dbPort
  have hredisPort : cfg.toEnvironment.envNumber "REDIS_PORT" isPort = .ok (some ↑cfg.redisPort.toNat) :=
    envNumber_port rfl h.redisPort
  have hredisDb : cfg.toEnvironment.envNumber "REDIS_DB" (fun db => 0 ≤ db) = .ok (some cfg.redisDb) :=
    envNumber_written rfl hdb hdbLt (decide_eq_true hdb)
  have hredisTimeoutMs : cfg.toEnvironment.envNumber "REDIS_TIMEOUT_MS" (fun t => 0 < t) = .ok (some cfg.redisTimeoutMs) :=
    envNumber_written rfl htimeout.le htimeoutLt (decide_eq_true htimeout)
  have hlistenPort : cfg.toEnvironment.serverPort = .ok (some cfg.listenPort) := by
    have hport : isPort cfg.listenPort = true := decide_eq_true hlisten
    have hread := number_written "SERVER_PORT out of range" "SERVER_PORT invalid" (by omega) (by omega) hport
    have hget : cfg.toEnvironment.getenv "SERVER_PORT" = some (Nat.toDigits 10 cfg.listenPort.toNat) := rfl
    have hargs : cfg.toEnvironment.args = [] := rfl
    simp only [serverPort, hargs, hget, if_neg Nat.toDigits_ne_nil, hread]
    rfl
  have hwwwroot : cfg.toEnvironment.applyEnvOverride (ServerCfg.default dft).wwwroot "WWWROOT" = cfg.wwwroot :=
    applyEnvOverride_written rfl h.wwwroot
  simp only [loadServerCfg, hdbPort, hredisPort, hredisDb, hredisTimeoutMs, hlistenPort, bind, Except.bind, pure, Except.pure,
    Option.map_some, Option.getD_some, ofInt_toNat]
  rw [applyEnvOverride_written rfl (Or.inl h.dbHost), applyEnvOverride_written rfl (Or.inl h.dbUser),
    applyEnvOverride_written rfl (Or.inl h.dbPass), applyEnvOverride_written rfl (Or.inl h.dbName),
    applyEnvOverride_written rfl (Or.inl h.redisHost), hwwwroot,
    applyEnvOverride_written (v := cfg.redisPassword) rfl ?_]
  by_cases hpassword : cfg.redisPassword = []
  · exact Or.inr hpassword
  · exact Or.inl hpassword

/-- The settings that the server can be started with are those in range, and the environment can say each of them. -/
theorem loads_iff_valid (dft : Text) (cfg : ServerCfg) : (∃ env, loadServerCfg env dft = .ok cfg) ↔ cfg.Valid dft :=
  ⟨fun ⟨_, h⟩ => valid_of_load h, fun h => ⟨_, load_toEnvironment h⟩⟩

end ServerCfg
end FiveStones
