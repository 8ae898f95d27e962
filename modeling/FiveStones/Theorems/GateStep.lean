import FiveStones.Gate
import FiveStones.Theorems.Registration
import FiveStones.Theorems.SessionStep

/-! What a callback with its session does: a step of the connections for the user that the lookup finds, and a
step of the sessions. -/

namespace FiveStones

/-- What an event does to the connections, and what to the sessions. -/
inductive GateStep (g : Gate) : GateEvent → Gate → List GateObs → Prop
  | turn {k : Pool} {selectById : Uid → Option Members} {now : Int} {front : Front} {fout : List FrontObs} :
      Front.machine.step g.front (.turn k selectById now) = some (front, fout) →
      GateStep g (.turn k selectById now) { g with front } (fout.map .front)
  | opened {conn : ConnId} {uri : WsUri} {cookie : Text} {selectById : Uid → Option Members} {up : RedisUp} {st : Sessions}
      {who : Option (Ssid × Uid)} {obs : List GateObs} {front : Front} {fout : List FrontObs} :
      Gate.lookup g.sessions up uri cookie = some (st, who, obs) →
      Front.machine.step g.front (.opened conn uri (who.map Prod.snd) selectById) = some (front, fout) →
      GateStep g (.opened conn uri cookie selectById up)
        ⟨front, Gate.renew st up who (Gate.openedMs uri fout), g.cookies.assign conn cookie⟩ (obs ++ fout.map .front)
  | message {conn : ConnId} {uri : WsUri} {closed : Bool} {cookie : Text} {body : Option Json}
      {selectById : Uid → Option Members} {now later : Int} {up : RedisUp} {st : Sessions} {who : Option (Ssid × Uid)}
      {obs : List GateObs} {front : Front} {fout : List FrontObs} :
      g.front.conns conn = some ⟨uri, closed⟩ → g.cookies conn = some cookie →
      Gate.lookup g.sessions up uri cookie = some (st, who, obs) →
      Front.machine.step g.front (.message conn (who.map Prod.snd) body selectById now later) = some (front, fout) →
      GateStep g (.message conn body selectById now later up) { g with front, sessions := st } (obs ++ fout.map .front)
  | closed {conn : ConnId} {uri : WsUri} {closed : Bool} {cookie : Text} {up : RedisUp} {st : Sessions}
      {who : Option (Ssid × Uid)} {obs : List GateObs} {front : Front} {fout : List FrontObs} :
      g.front.conns conn = some ⟨uri, closed⟩ → g.cookies conn = some cookie →
      Gate.lookup g.sessions up uri cookie = some (st, who, obs) →
      Front.machine.step g.front (.closed conn (who.map Prod.snd)) = some (front, fout) →
      GateStep g (.closed conn up) { g with front, sessions := Gate.renew st up who (some sessionTimeout) }
        (obs ++ fout.map .front)
  | drop {conn : ConnId} {front : Front} {fout : List FrontObs} :
      Front.machine.step g.front (.drop conn) = some (front, fout) →
      GateStep g (.drop conn) { g with front } (fout.map .front)
  | login {uid : Uid} {up : RedisUp} :
      GateStep g (.login uid up) { g with sessions := (g.sessions.login up uid).1 }
        [.setCookie (g.sessions.login up uid).2 uid]
  | strangerInfo {cookie : Text} {selectById : Uid → Option Members} {up : RedisUp} {st : Sessions} {resp : Members} :
      g.sessions.getSessionByCookie up cookie "info" = .ok (st, .loginAgain resp) →
      GateStep g (.info cookie selectById up) { g with sessions := st } [.loginAgain resp]
  | info {cookie : Text} {selectById : Uid → Option Members} {up : RedisUp} {st : Sessions} {ssid : Ssid} {uid : Uid} :
      g.sessions.getSessionByCookie up cookie "info" = .ok (st, .session ssid uid) →
      GateStep g (.info cookie selectById up)
        { g with
          sessions := if (selectById uid).isSome then st.sessionExpireWithCache up ssid sessionTimeout else st } []
  | expires {tp : TimerId} {st : Sessions} : g.sessions.expires tp = some st →
      GateStep g (.expires tp) { g with sessions := st } []
  | complete {tp : TimerId} {st : Sessions} : g.sessions.complete tp = some st →
      GateStep g (.complete tp) { g with sessions := st } []
  | lapse {ssid : Ssid} {keys : KeyStore Ssid Text} : g.sessions.cache.keys.lapse ssid = some keys →
      GateStep g (.lapse ssid) { g with sessions := { g.sessions with cache := { g.sessions.cache with keys } } } []

namespace Gate
variable {g g' : Gate} {e : GateEvent} {out : List GateObs}

theorem step_inv (h : machine.step g e = some (g', out)) : GateStep g e g' out := by
  cases e with
  | turn k selectById now =>
    simp only [machine] at h
    split at h
    · cases h
    · rename_i hfront
      cases h
      exact .turn hfront
  | opened conn uri cookie selectById up =>
    simp only [machine] at h
    split at h
    · cases h
    rename_i hlookup
    split at h
    · cases h
    · rename_i hfront
      cases h
      exact .opened hlookup hfront
  | message conn body selectById now later up =>
    simp only [machine] at h
    split at h
    · rename_i hconn hcookie
      split at h
      · cases h
      rename_i hlookup
      split at h
      · cases h
      · rename_i hfront
        cases h
        exact .message hconn hcookie hlookup hfront
    · cases h
  | closed conn up =>
    simp only [machine] at h
    split at h
    · rename_i hconn hcookie
      split at h
      · cases h
      rename_i hlookup
      split at h
      · cases h
      · rename_i hfront
        cases h
        exact .closed hconn hcookie hlookup hfront
    · cases h
  | drop conn =>
    simp only [machine] at h
    split at h
    · cases h
    · rename_i hfront
      cases h
      exact .drop hfront
  | login uid up =>
    cases h
    exact .login
  | info cookie selectById up =>
    simp only [machine] at h
    split at h
    · cases h
    · rename_i hfound
      cases h
      exact .strangerInfo hfound
    · rename_i hfound
      cases h
      exact .info hfound
  | expires tp =>
    obtain ⟨st, hst, heq⟩ := Option.map_eq_some_iff.mp h
    cases heq
    exact .expires hst
  | complete tp =>
    obtain ⟨st, hst, heq⟩ := Option.map_eq_some_iff.mp h
    cases heq
    exact .complete hst
  | lapse ssid =>
    obtain ⟨keys, hkeys, heq⟩ := Option.map_eq_some_iff.mp h
    cases heq
    exact .lapse hkeys

end Gate

/-! ### The connections -/

/-- What the connections put out. -/
def GateObs.toFront : GateObs → Option FrontObs
  | .front o => some o
  | .loginAgain _ | .setCookie .. => none

def frontLog (ts : List GateTrans) : List FrontObs := (Machine.log ts).filterMap GateObs.toFront

theorem filterMap_toFront (fout : List FrontObs) : (fout.map GateObs.front).filterMap GateObs.toFront = fout := by
  rw [List.filterMap_map]
  exact List.filterMap_some

namespace Gate
variable {g g' : Gate} {e : GateEvent} {out : List GateObs} {ts : List GateTrans} {redis : Bool} {st st' : Sessions}
  {up : RedisUp} {uri : WsUri} {cookie : Text} {who : Option (Ssid × Uid)} {obs : List GateObs}

theorem lookup_toFront (h : lookup st up uri cookie = some (st', who, obs)) : obs.filterMap GateObs.toFront = [] := by
  unfold lookup at h
  split at h
  · cases h
    rfl
  split at h
  · cases h
  · cases h
    rfl
  · cases h
    rfl

/-- A step is one of the connections, or none of them. -/
theorem step_front (hs : GateStep g e g' out) :
    (∃ fe, Front.machine.step g.front fe = some (g'.front, out.filterMap GateObs.toFront)) ∨
      (g'.front = g.front ∧ out.filterMap GateObs.toFront = []) := by
  cases hs with
  | turn hfront | drop hfront => exact Or.inl ⟨_, by rwa [filterMap_toFront]⟩
  | opened hlookup hfront | message _ _ hlookup hfront | closed _ _ hlookup hfront =>
    exact Or.inl ⟨_, by rwa [List.filterMap_append, lookup_toFront hlookup, filterMap_toFront, List.nil_append]⟩
  | login | strangerInfo | info | expires | complete | lapse => exact Or.inr ⟨rfl, rfl⟩

/-- The connections of a run make a run of their own, which puts out the same. -/
theorem run_front (h : machine.Run (start redis) ts g) :
    ∃ fs, Front.machine.Run Front.start fs g.front ∧ Machine.log fs = frontLog ts := by
  induction h with
  | nil => exact ⟨[], .nil, rfl⟩
  | @snoc ts g g' e out _ hs ih =>
    obtain ⟨fs, hrun, hlog⟩ := ih
    have hcat : frontLog (ts ++ [⟨g, e, g', out⟩]) = frontLog ts ++ out.filterMap GateObs.toFront := by
      simp [frontLog]
    rw [hcat]
    rcases step_front (step_inv hs) with ⟨fe, hfront⟩ | ⟨hsame, hnone⟩
    · exact ⟨_, hrun.snoc hfront, by rw [Machine.log_snoc, hlog]⟩
    · exact ⟨fs, hsame ▸ hrun, by rw [hlog, hnone, List.append_nil]⟩

end Gate

end FiveStones
