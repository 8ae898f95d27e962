import FiveStones.Theorems.Header

/-! Whose session an ssid stands for, over logins, the session cache and restarts of the server. -/

namespace FiveStones

/-- The ssids that logins answered, with their users. -/
def SessionObs.answer : SessionObs → Option (Ssid × Uid)
  | .setCookie ssid uid => some (ssid, uid)
  | .found _ => none

def answers (ts : List SessionTrans) : List (Ssid × Uid) := (Machine.log ts).filterMap SessionObs.answer

def Answered (ts : List SessionTrans) (ssid : Ssid) (uid : Uid) : Prop := (ssid, uid) ∈ answers ts

instance (ts : List SessionTrans) (ssid : Ssid) (uid : Uid) : Decidable (Answered ts ssid uid) :=
  inferInstanceAs (Decidable (_ ∈ _))

/-- A header with an ssid that a login answered is resolved to a session of that login's user, or to none. -/
def SsidKept (ts : List SessionTrans) (st : Sessions) : Prop :=
  ∀ ssid uid up cookie optype st' ssid' uid', Answered ts ssid uid → Sessions.headerSsid cookie = some ssid →
    st.getSessionByCookie up cookie optype = .ok (st', .session ssid' uid') → uid' = uid

namespace SessionTrans

/-- The ssid that a login gives out, and its user. -/
def issued (x : SessionTrans) : Option (Ssid × Uid) :=
  match x.event with
  | .login uid _ => some (x.before.sm.nextSsid, uid)
  | _ => none

/-- A login gives out no ssid that an earlier one answered to another user. -/
def Issues (us : List SessionTrans) (x : SessionTrans) : Prop :=
  ∀ a ∈ answers us, ∀ b ∈ x.issued, a.1 = b.1 → a.2 = b.2

-- The answers are gone through, not all pairs of numbers.
instance (us : List SessionTrans) (x : SessionTrans) : Decidable (x.Issues us) :=
  @List.decidableBAll _ _ (fun _ => @Option.decidableForallMem _ _ (fun _ => inferInstance) _) _

end SessionTrans

/-! ### The session cache -/

namespace SessionCache
variable {c : SessionCache} {up : RedisUp} {ssid k : Ssid} {uid : Uid} {ttlSec : Int} {v : Text}

theorem get_of_setSession (h : (c.setSession up ssid uid ttlSec).1.keys.get k = some v) :
    (k = ssid ∧ v = Text.ofUInt64 uid) ∨ c.keys.get k = some v := by
  unfold setSession at h
  split at h
  · simp only at h
    split at h
    · split at h
      · exact KeyStore.get_of_set (KeyStore.get_expire.symm.trans h)
      · exact KeyStore.get_of_set h
    · exact KeyStore.get_of_set h
  · exact Or.inr h

theorem get_of_delSession (h : (c.delSession up ssid).1.keys.get k = some v) : c.keys.get k = some v := by
  unfold delSession at h
  split at h
  · exact KeyStore.get_of_del h
  · exact h

@[simp] theorem get_expireSession : (c.expireSession up ssid ttlSec).1.keys.get k = c.keys.get k := by
  unfold expireSession
  split
  · rfl
  split
  · rfl
  split
  · exact KeyStore.get_expire
  · rfl

theorem getSession_eq_some (h : c.getSession up ssid = some uid) :
    ∃ v, c.keys.get ssid = some v ∧ Text.stoull v = .ok uid := by
  unfold getSession at h
  split at h
  · split at h
    · cases h
    · rename_i v hv
      exact ⟨v, hv, ok_of_toOption h⟩
  · cases h

end SessionCache

namespace Sessions
variable {st st' : Sessions} {up : RedisUp} {ssid k : Ssid} {uid uid' : Uid} {ms : Int} {v : Text} {ts us : List SessionTrans}
  {e : SessionEvent} {out : List SessionObs} {redis : Bool} {who : Option Uid} {tp : TimerId}

theorem cached_of_sessionExpireWithCache (h : (st.sessionExpireWithCache up ssid ms).cache.keys.get k = some v) :
    st.cache.keys.get k = some v := by
  have hsame : (st.setSessionExpireTime ssid ms).cache = st.cache := by
    cases hssp : st.sm.sessions ssid with
    | none => rw [setSessionExpireTime_none hssp]
    | some ssp =>
      rw [setSessionExpireTime_eq hssp]
      split <;> rfl
  unfold sessionExpireWithCache at h
  simp only [hsame] at h
  split at h
  · exact SessionCache.get_of_delSession h
  split at h
  · exact SessionCache.get_expireSession.symm.trans h
  · exact hsame ▸ h

/-! ### Steps -/

/-- Sessions and cached keys stand for users to whom a login answered their ssid, and there is one user for each
    of these. -/
structure Owned (ts : List SessionTrans) (st : Sessions) : Prop where
  session : ∀ ssid uid, st.userOf ssid = some uid → Answered ts ssid uid
  cached : ∀ ssid v uid, st.cache.keys.get ssid = some v → Text.stoull v = .ok uid → Answered ts ssid uid
  unique : ∀ ssid uid uid', Answered ts ssid uid → Answered ts ssid uid' → uid = uid'

theorem Owned.sessionExpireWithCache (h : Owned ts st) : Owned ts (st.sessionExpireWithCache up ssid ms) where
  session k uid hk := h.session k uid (userOf_sessionExpireWithCache.symm.trans hk)
  cached k v uid hv := h.cached k v uid (cached_of_sessionExpireWithCache hv)
  unique := h.unique

theorem Owned.findSession (h : Owned ts st) (hfind : st.findSession up ssid = (st', who)) : Owned ts st' := by
  rcases findSession_cases hfind with ⟨rfl, -⟩ | ⟨-, uid, -, hcache, rfl⟩
  · exact h
  obtain ⟨v, hv, hnumber⟩ := SessionCache.getSession_eq_some hcache
  refine Owned.sessionExpireWithCache ⟨fun k uid' hk => ?_, h.cached, h.unique⟩
  by_cases heq : k = ssid
  · subst heq
    simp only [userOf, SessionManager.appendSession, Dict.assign_self, Option.map_some, Option.some.injEq] at hk
    exact hk ▸ h.cached k v uid hv hnumber
  · simp only [userOf, SessionManager.appendSession, Dict.assign_ne heq] at hk
    exact h.session k uid' hk

theorem Owned.mono (h : Owned ts st) (hanswers : answers us = answers ts) : Owned us st := by
  have hiff : ∀ ssid uid, Answered us ssid uid ↔ Answered ts ssid uid := fun ssid uid => by rw [Answered, hanswers, Answered]
  exact ⟨fun ssid uid hk => (hiff ssid uid).mpr (h.session ssid uid hk),
    fun ssid v uid hv hnumber => (hiff ssid uid).mpr (h.cached ssid v uid hv hnumber),
    fun ssid uid uid' ha ha' => h.unique ssid uid uid' ((hiff ssid uid).mp ha) ((hiff ssid uid').mp ha')⟩

theorem answers_snoc (ts : List SessionTrans) (x : SessionTrans) :
    answers (ts ++ [x]) = answers ts ++ x.out.filterMap SessionObs.answer := by
  simp [answers]

/-- What a request looks up belongs to a user who was answered the ssid. -/
theorem Owned.kept (h : Owned ts st) : SsidKept ts st := by
  intro ssid uid up cookie optype st' ssid' uid' hanswered hssid hfound
  obtain ⟨hssid', hfind⟩ := findSession_of_session hfound
  obtain rfl := Option.some.inj (hssid.symm.trans hssid')
  exact h.unique _ _ _ ((h.findSession hfind).session _ _ (userOf_findSession hfind)) hanswered

theorem userOf_login : (st.login up uid).1.userOf k = if k = st.sm.nextSsid then some uid else st.userOf k := by
  change userOf (sessionExpireWithCache { st with sm := st.sm.createSession uid .login } up st.sm.nextSsid sessionTimeout) k = _
  rw [userOf_sessionExpireWithCache]
  split
  · rename_i heq
    simp [userOf, SessionManager.createSession, heq]
  · rename_i hne
    simp only [userOf, SessionManager.createSession, Dict.assign_ne hne]

theorem Owned.login (h : Owned ts st) (hx : SessionTrans.Issues ts ⟨st, .login uid up, st', out⟩)
    (hanswers : answers us = answers ts ++ [(st.sm.nextSsid, uid)]) : Owned us (st.login up uid).1 := by
  have hanswered : ∀ k u, Answered us k u ↔ Answered ts k u ∨ (k = st.sm.nextSsid ∧ u = uid) := by
    intro k u
    rw [Answered, hanswers, List.mem_append, List.mem_singleton, Prod.mk.injEq, Answered]
  refine ⟨fun k u hk => (hanswered k u).mpr ?_, fun k v u hv hnumber => (hanswered k u).mpr ?_, fun k u u' ha ha' => ?_⟩
  · rw [userOf_login] at hk
    split at hk
    · rename_i heq
      exact Or.inr ⟨heq, (Option.some.inj hk).symm⟩
    · exact Or.inl (h.session k u hk)
  · rcases SessionCache.get_of_setSession hv with ⟨hk, rfl⟩ | hold
    · rw [Text.stoull_ofUInt64] at hnumber
      exact Or.inr ⟨hk, (Except.ok.inj hnumber).symm⟩
    · have hcached : ({ st with sm := st.sm.createSession uid .login } : Sessions).cache.keys.get k = some v :=
        cached_of_sessionExpireWithCache hold
      exact Or.inl (h.cached k v u hcached hnumber)
  · rcases (hanswered k u).mp ha with ha | ⟨hk, rfl⟩
    · rcases (hanswered k u').mp ha' with ha' | ⟨hk, rfl⟩
      · exact h.unique k u u' ha ha'
      · exact hx (k, u) ha _ rfl hk
    · rcases (hanswered k u').mp ha' with ha' | ⟨-, rfl⟩
      · exact (hx (k, u') ha' _ rfl hk).symm
      · rfl

theorem Owned.fewer (h : Owned ts st) (huser : ∀ k u, st'.userOf k = some u → st.userOf k = some u)
    (hcache : st'.cache = st.cache) : Owned ts st' where
  session k u hk := h.session k u (huser k u hk)
  cached := by
    rw [hcache]
    exact h.cached
  unique := h.unique

theorem Owned.expires (h : Owned ts st) (hst : st.expires tp = some st') : Owned ts st' := by
  obtain ⟨-, hsm, -, hcache⟩ := expires_eq hst
  refine h.fewer (fun k u hk => ?_) hcache
  rwa [userOf, hsm] at hk

theorem Owned.complete (h : Owned ts st) (hst : st.complete tp = some st') : Owned ts st' :=
  h.fewer (fun _ _ hk => userOf_of_complete hst hk) (complete_eq hst).2.2.1

theorem Owned.step (h : Owned ts st) (hs : machine.step st e = some (st', out))
    (hx : SessionTrans.Issues ts ⟨st, e, st', out⟩) : Owned (ts ++ [⟨st, e, st', out⟩]) st' := by
  have hkeep : out.filterMap SessionObs.answer = [] → Owned ts st' → Owned (ts ++ [⟨st, e, st', out⟩]) st' :=
    fun hnone h => h.mono (by rw [answers_snoc, hnone, List.append_nil])
  cases e with
  | login uid up =>
    obtain ⟨rfl, rfl⟩ := Prod.mk.inj (Option.some.inj hs)
    exact h.login hx (answers_snoc _ _)
  | request cookie optype ms up =>
    simp only [machine] at hs
    split at hs
    · cases hs
    · rename_i st₁ ssid uid hfound
      cases hs
      refine hkeep rfl ?_
      obtain ⟨-, hfind⟩ := findSession_of_session hfound
      cases ms with
      | none => exact h.findSession hfind
      | some ms => exact (h.findSession hfind).sessionExpireWithCache
    · rename_i st₁ resp hfound
      cases hs
      refine hkeep rfl ?_
      exact eq_of_loginAgain hfound ▸ h
  | expires tp =>
    obtain ⟨st₁, hst, heq⟩ := Option.map_eq_some_iff.mp hs
    cases heq
    exact hkeep rfl (h.expires hst)
  | complete tp =>
    obtain ⟨st₁, hst, heq⟩ := Option.map_eq_some_iff.mp hs
    cases heq
    exact hkeep rfl (h.complete hst)
  | lapse ssid =>
    obtain ⟨keys, hkeys, heq⟩ := Option.map_eq_some_iff.mp hs
    cases heq
    exact hkeep rfl ⟨h.session, fun k v u hv => h.cached k v u (KeyStore.get_of_lapse hkeys hv), h.unique⟩
  | restart redis =>
    obtain ⟨rfl, rfl⟩ := Prod.mk.inj (Option.some.inj hs)
    exact hkeep rfl ⟨fun k u hk => (by cases hk), h.cached, h.unique⟩

theorem owned_start (redis : Bool) : Owned [] (start redis) where
  session _ _ hk := by cases hk
  cached _ _ _ hv := by cases hv
  unique _ _ _ ha := absurd ha List.not_mem_nil

/-! ### Runs -/

/-- The header that a client sends after its login. -/
theorem headerSsid_answered (ssid : Ssid) : headerSsid ("SSID=".toList ++ Text.ofUInt64 ssid) = some ssid := by
  have hdigit : ∀ c ∈ Text.ofUInt64 ssid, c.isDigit = true := fun c hc => Nat.isDigit_of_mem_toDigits (by decide) (by decide) hc
  have heq : '=' ∉ Text.ofUInt64 ssid := fun hmem => absurd (hdigit _ hmem) (by decide)
  have hsep : ¬"; ".toList <:+: Text.ofUInt64 ssid :=
    fun hcut => absurd (hdigit ';' (hcut.subset (List.mem_cons_self ..))) (by decide)
  have hne : Text.ofUInt64 ssid ≠ [] := Nat.toDigits_ne_nil
  rw [headerSsid, getCookieVal_ssid hne heq hsep, Option.bind_some, Text.stoull_ofUInt64]
  rfl

/-- A session that is there is what its ssid is resolved to. -/
theorem getSessionByCookie_of_userOf {cookie : Text} (hssid : headerSsid cookie = some ssid) (h : st.userOf ssid = some uid)
    (optype : String) : st.getSessionByCookie up cookie optype = .ok (st, .session ssid uid) := by
  obtain ⟨ssp, hssp, rfl⟩ := Option.map_eq_some_iff.mp h
  obtain ⟨v, hv, hnumber⟩ := Option.bind_eq_some_iff.mp hssid
  have hne : cookie ≠ [] := by
    rintro rfl
    simp [getCookieVal] at hv
  have hfind : st.findSession up ssid = (st, some ssp.uid) := by
    unfold findSession SessionManager.getSessionBySsid
    rw [hssp]
  unfold getSessionByCookie
  rw [if_neg hne, hv]
  simp only [ok_of_toOption hnumber, bind, Except.bind, hfind]
  rfl

/-- In a run the ssids keep their users just when no login gives out one that an earlier login answered to another
    user. -/
theorem ssid_kept_iff (h : machine.Run (start redis) ts st) :
    (∀ us vs st', ts = us ++ vs → machine.Run (start redis) us st' → SsidKept us st') ↔
      ∀ us x vs, ts = us ++ x :: vs → SessionTrans.Issues us x := by
  constructor
  · intro hkept us x vs hts a ha b hb heq
    subst hts
    obtain ⟨before, e, after, out⟩ := x
    have hus : machine.Run (start redis) us before := h.split.1
    have hs : machine.step before e = some (after, out) := h.split.2.1
    unfold SessionTrans.issued at hb
    split at hb
    · rename_i uid up hevent
      obtain rfl : e = .login uid up := hevent
      obtain ⟨rfl, rfl⟩ := Prod.mk.inj (Option.some.inj hs)
      obtain rfl := Option.some.inj hb
      -- The session that the login has created is what the earlier user's header is resolved to.
      have hafter : (before.login up uid).1.userOf a.1 = some uid := by
        rw [userOf_login, if_pos heq]
      refine (hkept (us ++ [_]) vs _ (List.append_cons ..) (hus.snoc hs) a.1 a.2 .all _ "" _ _ _ ?_ (headerSsid_answered a.1)
        (getSessionByCookie_of_userOf (headerSsid_answered a.1) hafter "")).symm
      rw [Answered, answers_snoc]
      exact List.mem_append_left _ ha
    · cases hb
  · intro hC us vs st' hts hus
    refine (hus.invariant_along (owned_start redis) (fun us' x vs' hus' => hC us' x (vs' ++ vs) ?_)
      fun hi hs hx => hi.step hs hx).kept
    rw [hts, hus', List.append_assoc, List.cons_append]

/-- The server starts again, a client comes back with its ssid, and the next login is by the user who had the next
    ssid before. -/
theorem ssid_kept_iff_restart : ∃ (ts : List SessionTrans) (st : Sessions), machine.Run (start true) ts st ∧
    Answered ts 1 1 ∧ SsidKept ts st := by
  obtain ⟨ts, st, h, hC, hanswered⟩ := Machine.Run.exists_of_exec machine (start true)
    [.login 1 .all, .login 2 .all, .restart true, .request firstCookie "info" (some sessionTimeout) .all, .login 2 .all]
    (fun (ts : List SessionTrans) _ => (∀ i, (hi : i < ts.length) → SessionTrans.Issues (ts.take i) (ts.get ⟨i, hi⟩)) ∧
      Answered ts 1 1) (by decide +kernel)
  exact ⟨ts, st, h, hanswered,
    (ssid_kept_iff h).mpr (fun us x vs => Machine.Run.forall_split hC) ts [] st (List.append_nil ts).symm h⟩

/-- The server starts again and gives the first ssid to another user. -/
theorem ssid_lost : ¬∀ redis (ts : List SessionTrans) st, machine.Run (start redis) ts st → SsidKept ts st := by
  intro hall
  obtain ⟨ts, st, h, hanswered, hafter⟩ := Machine.Run.exists_of_exec machine (start true)
    [.login 1 .all, .restart true, .login 2 .all]
    (fun (ts : List SessionTrans) st => Answered ts 1 1 ∧ st.userOf 1 = some 2) (by decide +kernel)
  cases hall true ts st h 1 1 .all _ "" _ _ _ hanswered (headerSsid_answered 1)
    (getSessionByCookie_of_userOf (headerSsid_answered 1) hafter "")

end Sessions
end FiveStones
