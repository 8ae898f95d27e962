import FiveStones.RedisCache

/-! Keys that a call writes and gives no expiry, because a command in between throws. -/

namespace FiveStones

namespace SessionCache
variable {c : SessionCache} {up : RedisUp} {ssid : Ssid} {uid : Uid} {ttlSec : Int}

theorem expiring_setSession (hredis : c.redis = true) (httl : 0 < ttlSec) (h : KeyStore.Expiring c.keys) :
    KeyStore.Expiring (c.setSession up ssid uid ttlSec).1.keys ↔ (up.set = true → up.expire = true) := by
  unfold setSession
  cases hset : up.set with
  | false => simpa [reaches, hredis] using h
  | true =>
    cases hexpire : up.expire with
    | false => simpa [reaches, hredis, httl] using KeyStore.not_expiring_set
    | true => simpa [reaches, hredis, httl] using KeyStore.expiring_set_expire h

theorem expiring_expireSession (h : KeyStore.Expiring c.keys) :
    KeyStore.Expiring (c.expireSession up ssid ttlSec).1.keys := by
  unfold expireSession
  split
  · exact h
  split
  · exact h
  split
  · exact h.expire ssid
  · exact h

theorem expiring_delSession (h : KeyStore.Expiring c.keys) : KeyStore.Expiring (c.delSession up ssid).1.keys := by
  unfold delSession
  split
  · exact h.del ssid
  · exact h

end SessionCache

namespace UserKeys
variable {json : JsonUtil} {keys : UserKeys} {up : UserRedisUp} {uid : Uid} {name : String} {user : Json} {ttlSec : Int}

/-- Between its commands `setUser` has keys without an expiry: first the one under the id, then both, then the one
    under the name. Where it stops, they stay. -/
theorem expiring_setUser (httl : 0 < ttlSec) (h : KeyStore.Expiring keys) :
    KeyStore.Expiring (setUser json keys up uid name user ttlSec).1 ↔
      (json.serialize user ≠ none → up.setId = true → up.setName = true ∧ up.expireId = true ∧ up.expireName = true) := by
  unfold setUser
  cases json.serialize user with
  | none => simpa using h
  | some body =>
    cases hsetId : up.setId with
    | false => simpa using h
    | true =>
      cases hsetName : up.setName with
      | false => simpa using KeyStore.not_expiring_set
      | true =>
        cases hexpireId : up.expireId with
        | false => simpa [httl] using KeyStore.not_expiring_set
        | true =>
          cases hexpireName : up.expireName with
          | false =>
            have hname : ¬KeyStore.Expiring (((KeyStore.set keys (.id uid) body).set (.name name) body).expire (.id uid)) :=
              fun hall => KeyStore.expiring_iff.mp hall (.name name) (by simp)
            simpa [httl] using hname
          | true =>
            have hdone : KeyStore.Expiring
                ((((KeyStore.set keys (.id uid) body).set (.name name) body).expire (.id uid)).expire (.name name)) := by
              refine KeyStore.expiring_iff.mpr fun k hk => ?_
              simp only [KeyStore.forever_expire, KeyStore.forever_set] at hk
              obtain ⟨hname, hid, heq | heq | hold⟩ := hk
              · exact hname heq
              · exact hid heq
              · exact KeyStore.expiring_iff.mp h k hold
            simpa [httl] using hdone

theorem expiring_delKey {upDel : Bool} {k : CacheKey} (h : KeyStore.Expiring keys) :
    KeyStore.Expiring (delKey keys upDel k).1 := by
  unfold delKey
  split
  · exact h
  · exact h.del k

theorem expiring_delBoth {upOther upSelf : Bool} {self : CacheKey} {x : Except JsonError (Option CacheKey)}
    (h : KeyStore.Expiring keys) : KeyStore.Expiring (delBoth keys upOther upSelf self x).1 := by
  unfold delBoth
  split
  · exact h
  · exact expiring_delKey h
  · rename_i other
    split
    · exact h
    · exact expiring_delKey (h.del other)

theorem expiring_invalidateById (h : KeyStore.Expiring keys) :
    KeyStore.Expiring (invalidateById json keys up uid).1 := by
  unfold invalidateById
  split
  · exact h
  split
  · exact expiring_delKey h
  · exact expiring_delBoth h

theorem expiring_invalidateByName (h : KeyStore.Expiring keys) :
    KeyStore.Expiring (invalidateByName json keys up name).1 := by
  unfold invalidateByName
  split
  · exact h
  split
  · exact h
  · exact expiring_delBoth h

end UserKeys

/-! ### Calls in any order -/

/-- The call is made with a time to live. -/
def RedisCall.Timed : RedisCall → Prop
  | .setSession _ _ ttlSec _ | .expireSession _ ttlSec _ | .setUser _ _ _ ttlSec _ => 0 < ttlSec
  | _ => True

/-- Once the call has written a key, no command of it throws. -/
def RedisCall.Completes (json : JsonUtil) : RedisCall → Prop
  | .setSession _ _ _ up => up.set = true → up.expire = true
  | .setUser _ _ user _ up =>
    json.serialize user ≠ none → up.setId = true → up.setName = true ∧ up.expireId = true ∧ up.expireName = true
  | _ => True

namespace RedisKeys
variable {json : JsonUtil} {r r' s t : RedisKeys} {e : RedisCall} {out : List Bool} {ts : List RedisTrans}

/-- Every key that is there has an expiry. -/
structure Expiring (r : RedisKeys) : Prop where
  sessions : KeyStore.Expiring r.sessions
  users : KeyStore.Expiring r.users

theorem expiring_start : start.Expiring := ⟨KeyStore.expiring_empty, KeyStore.expiring_empty⟩

theorem expiring_withSessions {x : SessionCache × Bool} (h : r.Expiring) :
    (r.withSessions x).1.Expiring ↔ KeyStore.Expiring x.1.keys :=
  ⟨Expiring.sessions, fun hx => ⟨hx, h.users⟩⟩

theorem expiring_withUsers {x : UserKeys × Bool} (h : r.Expiring) : (r.withUsers x).1.Expiring ↔ KeyStore.Expiring x.1 :=
  ⟨Expiring.users, fun hx => ⟨h.sessions, hx⟩⟩

/-- A call leaves every key with an expiry just when it completes. -/
theorem expiring_step (h : r.Expiring) (htimed : e.Timed) (hs : (machine json).step r e = some (r', out)) :
    r'.Expiring ↔ e.Completes json := by
  cases e with
  | setSession ssid uid ttlSec up =>
    cases hs
    exact (expiring_withSessions h).trans (SessionCache.expiring_setSession rfl htimed h.sessions)
  | expireSession ssid ttlSec up =>
    cases hs
    exact iff_of_true ((expiring_withSessions h).mpr (SessionCache.expiring_expireSession h.sessions)) trivial
  | delSession ssid up =>
    cases hs
    exact iff_of_true ((expiring_withSessions h).mpr (SessionCache.expiring_delSession h.sessions)) trivial
  | setUser uid name user ttlSec up =>
    cases hs
    exact (expiring_withUsers h).trans (UserKeys.expiring_setUser htimed h.users)
  | invalidateById uid up =>
    cases hs
    exact iff_of_true ((expiring_withUsers h).mpr (UserKeys.expiring_invalidateById h.users)) trivial
  | invalidateByName name up =>
    cases hs
    exact iff_of_true ((expiring_withUsers h).mpr (UserKeys.expiring_invalidateByName h.users)) trivial
  | lapseSession ssid =>
    obtain ⟨keys, hkeys, heq⟩ := Option.map_eq_some_iff.mp hs
    cases heq
    exact iff_of_true ⟨h.sessions.lapse hkeys, h.users⟩ trivial
  | lapseUser k =>
    obtain ⟨keys, hkeys, heq⟩ := Option.map_eq_some_iff.mp hs
    cases heq
    exact iff_of_true ⟨h.sessions, h.users.lapse hkeys⟩ trivial

/-- In a run of calls with a time to live, every key has an expiry after each of them just when each completes. -/
theorem expiring_iff_completes (hrun : (machine json).Run s ts t) (hstart : s.Expiring)
    (htimed : ∀ x ∈ ts, x.event.Timed) : (∀ x ∈ ts, x.after.Expiring) ↔ ∀ x ∈ ts, x.event.Completes json := by
  induction hrun with
  | nil => simp
  | @snoc ts t u e out hrun hs ih =>
    have ih := ih fun x hx => htimed x (List.mem_append_left _ hx)
    have hlast : e.Timed := htimed _ (List.mem_append_right _ (List.mem_singleton_self _))
    simp only [List.forall_mem_append, List.forall_mem_singleton, ← ih]
    refine and_congr_right fun hall => ?_
    have ht : t.Expiring := by
      rcases hrun.eq_or_after with rfl | ⟨x, hx, rfl⟩
      · exact hstart
      · exact hall x hx
    exact expiring_step ht hlast hs

/-- A member as `StreamWriterBuilder` writes it, where there is nothing to escape. -/
def memberText : String × Json → Option String
  | (name, .int n) => some ("\t\"" ++ name ++ "\" : " ++ toString n)
  | (name, .str s) => some ("\t\"" ++ name ++ "\" : \"" ++ s ++ "\"")
  | _ => none

def styledText : Json → Option Text
  | .obj members => (members.mapM memberText).map fun lines => Text.ofString ("\x7b\n" ++ ",\n".intercalate lines ++ "\n\x7d")
  | _ => none

/-- What the server has to write and read when `user` is the one user it knows. -/
def styledJson (user : UserRecord) : JsonUtil where
  serialize := styledText
  unserialize body := if styledText (.obj user.members) = some body then some (.obj user.members) else none

def ann : UserRecord := ⟨10, "ann", 1000, 0, 0⟩

example : styledText (.obj ann.members) = some (Text.ofString
    "\x7b\n\t\"id\" : 10,\n\t\"score\" : 1000,\n\t\"total_count\" : 0,\n\t\"username\" : \"ann\",\n\t\"win_count\" : 0\n\x7d") := by
  decide +kernel

/-- Redis after a login, and after the first select of its user. -/
def loggedIn : RedisKeys := (start.withSessions (start.sessionCache.setSession .all 1 10 30)).1

def selected : RedisKeys :=
  (loggedIn.withUsers (loggedIn.users.setUser (styledJson ann) .all 10 "ann" (.obj ann.members) 120)).1

theorem expiring_iff_completes_selected : selected.Expiring := by
  have hrun : (machine (styledJson ann)).Run start
      ([] ++ [⟨start, .setSession 1 10 30 .all, loggedIn, [true]⟩] ++
        [⟨loggedIn, .setUser 10 "ann" (.obj ann.members) 120 .all, selected, [true]⟩]) selected :=
    (Machine.Run.nil.snoc rfl).snoc rfl
  have hall := (expiring_iff_completes hrun expiring_start (by simp [RedisCall.Timed])).mpr
    (by simp [RedisCall.Completes, RedisUp.all, UserRedisUp.all])
  exact hall _ (List.mem_append_right _ (List.mem_singleton_self _))

/-- `EXPIRE` throws after the `SET` of a login. -/
theorem half_written_session : ¬∀ (json : JsonUtil) (ts : List RedisTrans) (t : RedisKeys),
    (machine json).Run start ts t → (∀ x ∈ ts, x.event.Timed) → t.Expiring := by
  intro hall
  have hs : (machine (styledJson ann)).step start (.setSession 1 10 30 ⟨true, true, false, true⟩) =
      some (⟨start.sessions.set 1 (Text.ofUInt64 10), Dict.empty⟩, [false]) := rfl
  have hexpiring := hall _ _ _ (Machine.Run.nil.snoc hs) (by simp [RedisCall.Timed])
  exact KeyStore.not_expiring_set hexpiring.sessions

/-- Time alone does not take away a key without an expiry: its session can be restored whenever it is gone. -/
theorem forever_of_lapses {ssid : Ssid} (hrun : (machine json).Run s ts t)
    (hlapses : ∀ x ∈ ts, (∃ k, x.event = .lapseSession k) ∨ ∃ k, x.event = .lapseUser k)
    (hforever : KeyStore.Forever s.sessions ssid) : KeyStore.Forever t.sessions ssid := by
  refine hrun.invariant_of (I := fun r => KeyStore.Forever r.sessions ssid) hforever hlapses ?_
  rintro r e r' out hr hs (⟨k, rfl⟩ | ⟨k, rfl⟩)
  · obtain ⟨keys, hkeys, heq⟩ := Option.map_eq_some_iff.mp hs
    cases heq
    exact (KeyStore.forever_lapse hkeys).mpr hr
  · obtain ⟨keys, hkeys, heq⟩ := Option.map_eq_some_iff.mp hs
    cases heq
    exact hr

end RedisKeys
end FiveStones
