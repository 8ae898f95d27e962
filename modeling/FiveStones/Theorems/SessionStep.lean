import FiveStones.Session

/-! What the operations on sessions do to the users of the sessions, to their timers and to the cached keys. -/

namespace FiveStones

namespace SessionManager
variable {sm : SessionManager} {ssid k : Ssid} {ssp : Session} {timer timer' : Option TimerId}

theorem setTimer_sessions : (sm.setTimer ssid timer).sessions k =
    if k = ssid then (sm.sessions k).map fun ssp => { ssp with timer } else sm.sessions k := rfl

@[simp] theorem setTimer_setTimer : (sm.setTimer ssid timer).setTimer ssid timer' = sm.setTimer ssid timer' := by
  simp only [setTimer, SessionManager.mk.injEq, true_and]
  funext k
  split
  · rw [Option.map_map]
    rfl
  · rfl

theorem setTimer_of_none (h : sm.sessions ssid = some ssp) (htimer : ssp.timer = none) : sm.setTimer ssid none = sm := by
  have hsessions : (sm.setTimer ssid none).sessions = sm.sessions := by
    funext k
    rw [setTimer_sessions]
    split
    · rename_i heq
      rw [heq, h, Option.map_some, ← htimer]
    · rfl
  exact congrArg (SessionManager.mk sm.nextSsid) hsessions

end SessionManager

/-- The timers after `cancel` through a handle. -/
def cancelled (timers : Dict TimerId Timer) (handle : Option TimerId) : Dict TimerId Timer := fun tp =>
  (timers tp).map fun t => if handle = some tp ∧ t.statu = .waiting then { t with statu := .aborted } else t

namespace Sessions
variable {st st' : Sessions} {up : RedisUp} {ssid k : Ssid} {ssp : Session} {uid : Uid} {ms : Int} {tp tp' : TimerId}

@[simp] theorem cancelled_none (timers : Dict TimerId Timer) : cancelled timers none = timers := by
  funext tp
  simp [cancelled]

theorem cancel_eq : st.cancel tp = { st with timers := cancelled st.timers (some tp) } := by
  have htimers : ∀ tp', (st.cancel tp).timers tp' = cancelled st.timers (some tp) tp' := by
    intro tp'
    unfold cancel cancelled
    split
    · rename_i s hwait
      by_cases heq : tp' = tp
      · subst heq
        simp [hwait]
      · have hne : some tp ≠ some tp' := fun h => heq (Option.some.inj h).symm
        simp [Dict.assign_ne heq, hne]
    · rename_i hnot
      by_cases heq : tp' = tp
      · subst heq
        cases ht : st.timers tp' with
        | none => rfl
        | some t =>
          have hwait : t.statu ≠ .waiting := fun h => hnot t.ssid (by rw [ht, ← h])
          simp [hwait]
      · have hne : some tp ≠ some tp' := fun h => heq (Option.some.inj h).symm
        simp [hne]
  have hsame : st.cancel tp = { st with timers := (st.cancel tp).timers } := by
    unfold cancel
    split <;> rfl
  rw [hsame, funext htimers]

/-- A session's lifetime is set: the timer of its handle is cancelled, and there is a new one unless the session
    is to stay forever. -/
theorem setSessionExpireTime_eq (h : st.sm.sessions ssid = some ssp) : st.setSessionExpireTime ssid ms =
    if ms = sessionForever then
      { st with timers := cancelled st.timers ssp.timer, sm := st.sm.setTimer ssid none }
    else
      { st with
        timers := (cancelled st.timers ssp.timer).assign st.nextTimer ⟨ssid, .waiting⟩
        nextTimer := st.nextTimer + 1
        sm := st.sm.setTimer ssid (some st.nextTimer) } := by
  unfold setSessionExpireTime SessionManager.getSessionBySsid
  rw [h]
  simp only
  split
  · rename_i htimer
    simp only [htimer, cancelled_none, SessionManager.setTimer_of_none h htimer, arm]
  · rename_i tp htimer
    simp only [cancel_eq, htimer, arm, SessionManager.setTimer_setTimer]

theorem setSessionExpireTime_none (h : st.sm.sessions ssid = none) : st.setSessionExpireTime ssid ms = st := by
  unfold setSessionExpireTime SessionManager.getSessionBySsid
  rw [h]

/-! ### Users -/

/-- The user of a session. -/
def userOf (st : Sessions) (ssid : Ssid) : Option Uid := (st.sm.sessions ssid).map Session.uid

theorem userOf_setTimer {timer : Option TimerId} {timers : Dict TimerId Timer} {nextTimer : TimerId} {cache : SessionCache} :
    userOf ⟨st.sm.setTimer ssid timer, timers, nextTimer, cache⟩ k = st.userOf k := by
  simp only [userOf, SessionManager.setTimer_sessions]
  split
  · rw [Option.map_map]
    rfl
  · rfl

@[simp] theorem userOf_setSessionExpireTime : (st.setSessionExpireTime ssid ms).userOf k = st.userOf k := by
  cases h : st.sm.sessions ssid with
  | none => rw [setSessionExpireTime_none h]
  | some ssp =>
    rw [setSessionExpireTime_eq h]
    split <;> exact userOf_setTimer

@[simp] theorem userOf_sessionExpireWithCache : (st.sessionExpireWithCache up ssid ms).userOf k = st.userOf k := by
  unfold sessionExpireWithCache
  simp only
  split
  · exact userOf_setSessionExpireTime
  split
  · exact userOf_setSessionExpireTime
  · exact userOf_setSessionExpireTime

/-- A lookup leaves the sessions that are there, and the one that it finds is there. -/
theorem userOf_findSession (h : st.findSession up ssid = (st', some uid)) : st'.userOf ssid = some uid := by
  unfold findSession at h
  split at h
  · rename_i ssp hssp
    cases h
    exact Option.map_eq_some_iff.mpr ⟨ssp, hssp, rfl⟩
  · split at h
    · cases h
    · cases h
      rw [userOf_sessionExpireWithCache]
      simp [userOf, SessionManager.appendSession]

/-- A lookup finds a session that is there, finds none, or restores one that was not there. -/
theorem findSession_cases {who : Option Uid} (h : st.findSession up ssid = (st', who)) :
    (st' = st ∧ who = st.userOf ssid) ∨
      (st.userOf ssid = none ∧ ∃ uid, who = some uid ∧ st.cache.getSession up ssid = some uid ∧
        st' = { st with sm := st.sm.appendSession ⟨ssid, uid, .login, none⟩ }.sessionExpireWithCache up ssid sessionTimeout) := by
  unfold findSession SessionManager.getSessionBySsid at h
  split at h
  · rename_i ssp hssp
    cases h
    exact Or.inl ⟨rfl, by rw [userOf, hssp, Option.map_some]⟩
  · rename_i hnone
    have hgone : st.userOf ssid = none := by rw [userOf, hnone, Option.map_none]
    split at h
    · cases h
      exact Or.inl ⟨rfl, hgone.symm⟩
    · rename_i uid hcache
      cases h
      exact Or.inr ⟨hgone, uid, rfl, hcache, rfl⟩

/-! ### The header -/

/-- The ssid that a header names. -/
def headerSsid (cookie : Text) : Option Ssid :=
  (getCookieVal cookie "SSID".toList).bind fun ssidStr => (Text.stoull ssidStr).toOption

theorem getSessionByCookie_cases {cookie : Text} {optype : String} {found : Found}
    (h : st.getSessionByCookie up cookie optype = .ok (st', found)) :
    (st' = st ∧ ∃ resp, found = .loginAgain resp) ∨
      ∃ ssid uid, found = .session ssid uid ∧ headerSsid cookie = some ssid ∧ st.findSession up ssid = (st', some uid) := by
  unfold getSessionByCookie at h
  split at h
  · cases h
    exact Or.inl ⟨rfl, _, rfl⟩
  split at h
  · cases h
    exact Or.inl ⟨rfl, _, rfl⟩
  · rename_i v hv
    obtain ⟨ssid, hssid, h⟩ := ok_of_bind h
    split at h
    · rename_i st₁ uid hfind
      cases h
      refine Or.inr ⟨ssid, uid, rfl, ?_, hfind⟩
      rw [headerSsid, hv, Option.bind_some, hssid]
      rfl
    · rename_i st₁ hfind
      cases h
      rcases findSession_cases hfind with ⟨rfl, -⟩ | ⟨-, uid, hwho, -⟩
      · exact Or.inl ⟨rfl, _, rfl⟩
      · cases hwho

theorem findSession_of_session {cookie : Text} {optype : String}
    (h : st.getSessionByCookie up cookie optype = .ok (st', .session ssid uid)) :
    headerSsid cookie = some ssid ∧ st.findSession up ssid = (st', some uid) := by
  rcases getSessionByCookie_cases h with ⟨-, _, heq⟩ | ⟨_, _, heq, hssid, hfind⟩
  · cases heq
  · cases heq
    exact ⟨hssid, hfind⟩

theorem eq_of_loginAgain {cookie : Text} {optype : String} {resp : Members}
    (h : st.getSessionByCookie up cookie optype = .ok (st', .loginAgain resp)) : st' = st := by
  rcases getSessionByCookie_cases h with ⟨heq, -⟩ | ⟨_, _, heq, -⟩
  · exact heq
  · cases heq

/-! ### Timers -/

/-- The timer waits or has expired, and would remove the session. -/
def armed (st : Sessions) (tp : TimerId) (ssid : Ssid) : Bool :=
  (st.timers tp).any fun t => t.ssid = ssid && t.statu ≠ .aborted

theorem armed_iff : st.armed tp ssid = true ↔ ∃ statu, st.timers tp = some ⟨ssid, statu⟩ ∧ statu ≠ .aborted := by
  unfold armed
  cases st.timers tp with
  | none => simp
  | some t =>
    simp only [Option.any_some, Bool.and_eq_true, decide_eq_true_eq, Option.some.injEq]
    constructor
    · rintro ⟨rfl, hstatu⟩
      exact ⟨t.statu, rfl, hstatu⟩
    · rintro ⟨statu, rfl, hstatu⟩
      exact ⟨rfl, hstatu⟩

theorem cancelled_eq_some {timers : Dict TimerId Timer} {handle : Option TimerId} {statu : TimerStatu}
    (h : cancelled timers handle tp = some ⟨k, statu⟩) (hstatu : statu ≠ .aborted) :
    timers tp = some ⟨k, statu⟩ ∧ ¬(handle = some tp ∧ statu = .waiting) := by
  obtain ⟨t, ht, heq⟩ := Option.map_eq_some_iff.mp h
  split at heq
  · cases heq
    exact absurd rfl hstatu
  · rename_i hnot
    subst heq
    exact ⟨ht, hnot⟩

/-- After a session's lifetime is set, an armed timer is an old one, or the new one of that session. -/
theorem armed_setSessionExpireTime (h : (st.setSessionExpireTime ssid ms).armed tp k = true) :
    st.armed tp k = true ∨ (k = ssid ∧ tp = st.nextTimer ∧ ms ≠ sessionForever) := by
  cases hssp : st.sm.sessions ssid with
  | none =>
    rw [setSessionExpireTime_none hssp] at h
    exact Or.inl h
  | some ssp =>
    rw [setSessionExpireTime_eq hssp] at h
    obtain ⟨statu, ht, hstatu⟩ := armed_iff.mp h
    split at ht
    · exact Or.inl (armed_iff.mpr ⟨statu, (cancelled_eq_some ht hstatu).1, hstatu⟩)
    · rename_i hms
      rcases Dict.assign_eq_some.mp ht with ⟨rfl, heq⟩ | ⟨-, ht⟩
      · exact Or.inr ⟨congrArg Timer.ssid heq, rfl, hms⟩
      · exact Or.inl (armed_iff.mpr ⟨statu, (cancelled_eq_some ht hstatu).1, hstatu⟩)

theorem expires_eq (h : st.expires tp = some st') :
    (∃ ssid, st.timers tp = some ⟨ssid, .waiting⟩ ∧ st'.timers = st.timers.assign tp ⟨ssid, .expired⟩) ∧
      st'.sm = st.sm ∧ st'.nextTimer = st.nextTimer ∧ st'.cache = st.cache := by
  unfold expires at h
  split at h
  · rename_i ssid hwaiting
    cases h
    exact ⟨⟨ssid, hwaiting, rfl⟩, rfl, rfl, rfl⟩
  · cases h

theorem armed_expires (h : st.expires tp = some st') : st'.armed tp' k = st.armed tp' k := by
  obtain ⟨⟨ssid, hwaiting, htimers⟩, -⟩ := expires_eq h
  by_cases heq : tp' = tp
  · subst heq
    simp [armed, htimers, hwaiting]
  · simp [armed, htimers, Dict.assign_ne heq]

theorem complete_eq (h : st.complete tp = some st') :
    st'.timers = st.timers.erase tp ∧ st'.nextTimer = st.nextTimer ∧ st'.cache = st.cache ∧
      ((∃ ssid, st.timers tp = some ⟨ssid, .expired⟩ ∧ st'.sm = st.sm.removeSession ssid) ∨ st'.sm = st.sm) := by
  unfold complete at h
  split at h
  · rename_i ssid hexpired
    cases h
    exact ⟨rfl, rfl, rfl, Or.inl ⟨ssid, hexpired, rfl⟩⟩
  · cases h
    exact ⟨rfl, rfl, rfl, Or.inr rfl⟩
  · cases h

theorem armed_complete (h : st.complete tp = some st') : st'.armed tp' k = true ↔ tp' ≠ tp ∧ st.armed tp' k = true := by
  obtain ⟨htimers, -⟩ := complete_eq h
  by_cases heq : tp' = tp
  · subst heq
    simp [armed, htimers]
  · simp [armed, htimers, Dict.erase_ne heq, heq]

theorem removeSession_sessions {sm : SessionManager} : (sm.removeSession ssid).sessions k = if k = ssid then none else sm.sessions k := by
  by_cases heq : k = ssid
  · subst heq
    simp [SessionManager.removeSession]
  · simp [SessionManager.removeSession, Dict.erase_ne heq, heq]

/-- A timer that completes gives nobody a session. -/
theorem userOf_of_complete (h : st.complete tp = some st') (huser : st'.userOf k = some uid) : st.userOf k = some uid := by
  rcases (complete_eq h).2.2.2 with ⟨ssid, -, hsm⟩ | hsm
  · rw [userOf, hsm, removeSession_sessions] at huser
    split at huser
    · cases huser
    · exact huser
  · rwa [userOf, hsm] at huser

/-- No timer but a waiting one that the session has the handle of would remove it. -/
def Recallable (st : Sessions) (ssid : Ssid) : Prop :=
  ∀ tp < st.nextTimer, st.armed tp ssid = true →
    st.timers tp = some ⟨ssid, .waiting⟩ ∧ (st.sm.sessions ssid).any (fun ssp => ssp.timer = some tp) = true

/-- The timers are those set so far. -/
def Fresh (st : Sessions) : Prop := ∀ tp t, st.timers tp = some t → tp < st.nextTimer

theorem Fresh.setSessionExpireTime (h : st.Fresh) : (st.setSessionExpireTime ssid ms).Fresh := by
  cases hssp : st.sm.sessions ssid with
  | none => rwa [setSessionExpireTime_none hssp]
  | some ssp =>
    have hcancelled : ∀ tp t, cancelled st.timers ssp.timer tp = some t → tp < st.nextTimer := by
      intro tp t ht
      obtain ⟨t₀, ht₀, -⟩ := Option.map_eq_some_iff.mp ht
      exact h tp t₀ ht₀
    rw [setSessionExpireTime_eq hssp]
    split
    · exact hcancelled
    · intro tp t ht
      rcases Dict.assign_eq_some.mp ht with ⟨rfl, -⟩ | ⟨-, ht⟩
      · exact Nat.lt_succ_self _
      · exact Nat.lt_succ_of_lt (hcancelled tp t ht)

/-- A session that is to stay forever has no armed timer left, if all of them can be cancelled. -/
theorem Recallable.forever (h : st.Recallable ssid) (hfresh : st.Fresh) :
    (st.setSessionExpireTime ssid sessionForever).armed tp ssid = false := by
  by_contra harmed
  rw [Bool.not_eq_false] at harmed
  cases hssp : st.sm.sessions ssid with
  | none =>
    rw [setSessionExpireTime_none hssp] at harmed
    obtain ⟨statu, ht, -⟩ := armed_iff.mp harmed
    have hhandle := (h tp (hfresh tp _ ht) harmed).2
    simp [hssp] at hhandle
  | some ssp =>
    rw [setSessionExpireTime_eq hssp, if_pos rfl] at harmed
    obtain ⟨statu, ht, hstatu⟩ := armed_iff.mp harmed
    obtain ⟨ht, hnot⟩ := cancelled_eq_some ht hstatu
    obtain ⟨hwaiting, hhandle⟩ := h tp (hfresh tp _ ht) (armed_iff.mpr ⟨statu, ht, hstatu⟩)
    rw [ht] at hwaiting
    cases hwaiting
    exact hnot ⟨by simpa [hssp] using hhandle, rfl⟩

end Sessions
end FiveStones
