import FiveStones.Theorems.Overlap
import FiveStones.Theorems.Refusal

/-! Sessions that open connections need, and the timers that would take them away. -/

namespace FiveStones

namespace Sessions
variable {st st' : Sessions} {up : RedisUp} {ssid k : Ssid} {uid : Uid} {ms : Int} {tp : TimerId} {who : Option Uid}

/-- The session is there, and no timer is armed that would remove it. -/
structure Kept (st : Sessions) (ssid : Ssid) : Prop where
  there : st.userOf ssid ≠ none
  safe : ∀ tp, st.armed tp ssid = false

theorem sessionExpireWithCache_eq (st : Sessions) (up : RedisUp) (ssid : Ssid) (ms : Int) :
    ∃ cache, st.sessionExpireWithCache up ssid ms = { st.setSessionExpireTime ssid ms with cache } := by
  unfold sessionExpireWithCache
  simp only
  split
  · exact ⟨_, rfl⟩
  split
  · exact ⟨_, rfl⟩
  · exact ⟨_, rfl⟩

theorem Kept.sessionExpireWithCache (h : st.Kept k) (hms : k = ssid → ms = sessionForever) :
    (st.sessionExpireWithCache up ssid ms).Kept k where
  there := by
    rw [userOf_sessionExpireWithCache]
    exact h.there
  safe tp := by
    obtain ⟨cache, heq⟩ := sessionExpireWithCache_eq st up ssid ms
    by_contra harmed
    rw [Bool.not_eq_false, heq] at harmed
    rcases armed_setSessionExpireTime harmed with hold | ⟨hk, -, hne⟩
    · cases hold.symm.trans (h.safe tp)
    · exact hne (hms hk)

theorem Kept.findSession (h : st.Kept k) (hfind : st.findSession up ssid = (st', who)) : st'.Kept k := by
  rcases findSession_cases hfind with ⟨rfl, -⟩ | ⟨hgone, uid, -, -, rfl⟩
  · exact h
  · have hne : k ≠ ssid := fun heq => h.there (heq ▸ hgone)
    refine Kept.sessionExpireWithCache ⟨?_, h.safe⟩ fun heq => absurd heq hne
    have hsame : userOf { st with sm := st.sm.appendSession ⟨ssid, uid, .login, none⟩ } k = st.userOf k := by
      simp only [userOf, SessionManager.appendSession, Dict.assign_ne hne]
    rw [hsame]
    exact h.there

theorem Kept.login (h : st.Kept k) (hne : k ≠ st.sm.nextSsid) : (st.login up uid).1.Kept k := by
  have hcreated : Kept { st with sm := st.sm.createSession uid .login } k := by
    refine ⟨?_, h.safe⟩
    have hsame : userOf { st with sm := st.sm.createSession uid .login } k = st.userOf k := by
      simp only [userOf, SessionManager.createSession, Dict.assign_ne hne]
    rw [hsame]
    exact h.there
  have hexpire : Kept (Sessions.sessionExpireWithCache { st with sm := st.sm.createSession uid .login } up st.sm.nextSsid sessionTimeout) k :=
    hcreated.sessionExpireWithCache fun heq => absurd heq hne
  exact ⟨hexpire.there, hexpire.safe⟩

theorem Kept.expires (h : st.Kept k) (hst : st.expires tp = some st') : st'.Kept k where
  there := by
    rw [userOf, (expires_eq hst).2.1]
    exact h.there
  safe tp' := (armed_expires hst).trans (h.safe tp')

theorem Kept.complete (h : st.Kept k) (hst : st.complete tp = some st') : st'.Kept k where
  there := by
    rcases (complete_eq hst).2.2.2 with ⟨ssid, hexpired, hsm⟩ | hsm
    · -- The session that goes is another one: a timer for this one would be armed.
      have hne : k ≠ ssid := by
        rintro rfl
        cases (armed_iff.mpr ⟨_, hexpired, by decide⟩).symm.trans (h.safe tp)
      rw [userOf, hsm, removeSession_sessions, if_neg hne]
      exact h.there
    · rw [userOf, hsm]
      exact h.there
  safe tp' := by
    by_contra harmed
    rw [Bool.not_eq_false] at harmed
    cases ((armed_complete hst).mp harmed).2.symm.trans (h.safe tp')

instance (st : Sessions) (ssid : Ssid) : Decidable (st.Recallable ssid) := inferInstanceAs (Decidable (∀ _ < _, _ → _))

/-! ### Timers set so far -/

theorem Fresh.sessionExpireWithCache (h : st.Fresh) : (st.sessionExpireWithCache up ssid ms).Fresh := by
  obtain ⟨cache, heq⟩ := sessionExpireWithCache_eq st up ssid ms
  rw [heq]
  exact h.setSessionExpireTime

theorem Fresh.findSession (h : st.Fresh) (hfind : st.findSession up ssid = (st', who)) : st'.Fresh := by
  rcases findSession_cases hfind with ⟨rfl, -⟩ | ⟨-, uid, -, -, rfl⟩
  · exact h
  · exact Fresh.sessionExpireWithCache h

theorem Fresh.login (h : st.Fresh) : (st.login up uid).1.Fresh := by
  have hset : Fresh ({ st with sm := st.sm.createSession uid .login }.sessionExpireWithCache up st.sm.nextSsid
    sessionTimeout) := Fresh.sessionExpireWithCache h
  exact hset

theorem Fresh.expires (h : st.Fresh) (hst : st.expires tp = some st') : st'.Fresh := by
  obtain ⟨⟨ssid, hwaiting, htimers⟩, -, hnext, -⟩ := expires_eq hst
  intro tp' t ht
  rw [htimers] at ht
  rw [hnext]
  rcases Dict.assign_eq_some.mp ht with ⟨rfl, -⟩ | ⟨-, ht⟩
  · exact h tp' _ hwaiting
  · exact h tp' t ht

theorem Fresh.complete (h : st.Fresh) (hst : st.complete tp = some st') : st'.Fresh := by
  obtain ⟨htimers, hnext, -⟩ := complete_eq hst
  intro tp' t ht
  rw [htimers] at ht
  rw [hnext]
  exact h tp' t (Dict.erase_eq_some.mp ht).2

/-- A session whose timers can all be cancelled is found, or restored, in such a state. -/
theorem Recallable.findSession (h : st.Recallable ssid) (hfresh : st.Fresh)
    (hfind : st.findSession up ssid = (st', who)) : st'.Recallable ssid := by
  rcases findSession_cases hfind with ⟨rfl, -⟩ | ⟨hgone, uid, -, -, rfl⟩
  · exact h
  · intro tp _ harmed
    have hssp : (st.sm.appendSession ⟨ssid, uid, .login, none⟩).sessions ssid = some ⟨ssid, uid, .login, none⟩ := Dict.assign_self
    have hnone : st.sm.sessions ssid = none := Option.map_eq_none_iff.mp hgone
    obtain ⟨cache, heq⟩ := sessionExpireWithCache_eq { st with sm := st.sm.appendSession ⟨ssid, uid, .login, none⟩ } up ssid
      sessionTimeout
    rw [heq] at harmed ⊢
    rcases armed_setSessionExpireTime harmed with hold | ⟨-, rfl, -⟩
    · obtain ⟨statu, ht, -⟩ := armed_iff.mp hold
      have hhandle := (h tp (hfresh tp _ ht) hold).2
      simp [hnone] at hhandle
    · rw [setSessionExpireTime_eq hssp, if_neg (by decide)]
      exact ⟨Dict.assign_self, by simp [SessionManager.setTimer_sessions, hssp]⟩

end Sessions

/-! ### Connections that hold a session -/

/-- An open connection to the hall or to a room. -/
def Front.Holds (f : Front) (conn : ConnId) : Prop :=
  (f.conns conn).any (fun c => c.uri = .hall || c.uri = .room) = true ∧ f.server.isOpen conn = true

instance (f : Front) (conn : ConnId) : Decidable (f.Holds conn) := inferInstanceAs (Decidable (_ ∧ _))

namespace FrontStep
variable {f f' : Front} {e : FrontEvent} {out : List FrontObs} {conn : ConnId} {uid : Uid} {resp : Members}

theorem opened_new {uri : WsUri} {user : Option Uid} {selectById : Uid → Option Members}
    (hs : FrontStep f (.opened conn uri user selectById) f' out) : f.conns conn = none := by
  cases hs with
  | entered hnew | twice hnew | roomless hnew | hall hnew | room hnew => exact hnew

/-- A connection that holds a session held it before, and is not the one that closes, or opens in this step. -/
theorem holds (hs : FrontStep f e f' out) (h : f'.Holds conn) :
    (f.Holds conn ∧ ∀ user, e ≠ .closed conn user) ∨
      ∃ uri user selectById, e = .opened conn uri user selectById ∧ f.conns conn = none ∧ (uri = .hall ∨ uri = .room) := by
  have hopened : ∀ {conn' uri user selectById}, f.conns conn' = none → (f.connect conn' uri).Holds conn →
      (f.Holds conn ∧ ∀ user', FrontEvent.opened conn' uri user selectById ≠ .closed conn user') ∨
        ∃ uri' user' selectById', FrontEvent.opened conn' uri user selectById = .opened conn uri' user' selectById' ∧
          f.conns conn = none ∧ (uri' = .hall ∨ uri' = .room) := by
    intro conn' uri user selectById hnew h
    by_cases heq : conn = conn'
    · subst heq
      have huri : uri = .hall ∨ uri = .room := by
        simpa [Front.connect] using h.1
      exact Or.inr ⟨uri, user, selectById, rfl, hnew, huri⟩
    · refine Or.inl ⟨⟨?_, ?_⟩, fun user' hevent => by cases hevent⟩
      · exact (congrArg (Option.any _) (Dict.assign_ne heq)).symm.trans h.1
      · exact (Function.update_of_ne heq _ _).symm.trans h.2
  have hclosed : ∀ {conn' uri user}, (f.disconnect conn' uri).Holds conn →
      f.Holds conn ∧ ∀ user', FrontEvent.closed conn' user ≠ .closed conn user' := by
    intro conn' uri user h
    have hne : conn ≠ conn' := by
      rintro rfl
      cases (Function.update_self ..).symm.trans h.2
    refine ⟨⟨?_, ?_⟩, fun user' hevent => hne (FrontEvent.closed.inj hevent).1.symm⟩
    · exact (congrArg (Option.any _) (Dict.assign_ne hne)).symm.trans h.1
    · exact (Function.update_of_ne hne _ _).symm.trans h.2
  cases hs with
  | turn hturn =>
    refine Or.inl ⟨?_, fun user hevent => by cases hevent⟩
    cases hturn <;> exact h
  | spoken | roomMessage | joined => exact Or.inl ⟨h, fun user hevent => by cases hevent⟩
  | entered hnew | twice hnew | roomless hnew | hall hnew | room hnew => exact hopened hnew h
  | left | leftHall | leftRoom | leftSpectate => exact Or.inl (hclosed h)
  | @drop conn' =>
    refine Or.inl ⟨⟨h.1, ?_⟩, fun user hevent => by cases hevent⟩
    have hne : conn ≠ conn' := by
      rintro rfl
      cases (Function.update_self ..).symm.trans h.2
    exact (Function.update_of_ne hne _ _).symm.trans h.2

end FrontStep

namespace Gate
variable {g g' : Gate} {e : GateEvent} {out : List GateObs} {conn : ConnId} {ssid : Ssid} {uid : Uid}

/-- The session that the header of a connection names. -/
def ssidOf (g : Gate) (conn : ConnId) : Option Ssid := (g.cookies conn).bind Sessions.headerSsid

/-- An open connection to the hall or to a room that came with the session. -/
def Holds (g : Gate) (conn : ConnId) (ssid : Ssid) : Prop := g.front.Holds conn ∧ g.ssidOf conn = some ssid

instance (g : Gate) (conn : ConnId) (ssid : Ssid) : Decidable (g.Holds conn ssid) := inferInstanceAs (Decidable (_ ∧ _))

theorem holds_inv (hs : GateStep g e g' out) (h : g'.Holds conn ssid) :
    (g.Holds conn ssid ∧ ∀ up, e ≠ .closed conn up) ∨
      ∃ uri cookie selectById up, e = .opened conn uri cookie selectById up ∧ g.front.conns conn = none ∧
        (uri = .hall ∨ uri = .room) ∧ Sessions.headerSsid cookie = some ssid := by
  cases hs with
  | turn hfront | message _ _ _ hfront | drop hfront =>
    rcases (Front.step_inv hfront).holds h.1 with ⟨hold, -⟩ | ⟨_, _, _, hevent, -⟩
    · exact Or.inl ⟨⟨hold, h.2⟩, fun up hevent => by cases hevent⟩
    · cases hevent
  | @opened conn' uri cookie selectById up _ _ _ _ _ hlookup hfront =>
    rcases (Front.step_inv hfront).holds h.1 with ⟨hold, -⟩ | ⟨_, _, _, hevent, hnew, huri⟩
    · have hne : conn ≠ conn' := by
        rintro rfl
        have hthere := hold.1
        rw [(Front.step_inv hfront).opened_new] at hthere
        cases hthere
      refine Or.inl ⟨⟨hold, ?_⟩, fun up hevent => by cases hevent⟩
      have hssid := h.2
      simp only [ssidOf, Dict.assign_ne hne] at hssid
      exact hssid
    · cases hevent
      refine Or.inr ⟨uri, cookie, selectById, up, rfl, hnew, huri, ?_⟩
      have hssid := h.2
      simp only [ssidOf, Dict.assign_self, Option.bind_some] at hssid
      exact hssid
  | closed _ _ _ hfront =>
    rcases (Front.step_inv hfront).holds h.1 with ⟨hold, hnot⟩ | ⟨_, _, _, hevent, -⟩
    · refine Or.inl ⟨⟨hold, h.2⟩, fun up hevent => ?_⟩
      cases hevent
      exact hnot _ rfl
    · cases hevent
  | login | strangerInfo | info | expires | complete | lapse => exact Or.inl ⟨h, fun up hevent => by cases hevent⟩

end Gate

namespace GateTrans
variable {us : List GateTrans} {x : GateTrans}

/-- The session whose lifetime the event limits to the timeout, and the connection that it closes: a connection
    that closes limits the session that it came with, `info` the session of a user who has a record, and a login
    the session that it creates. -/
def limits (x : GateTrans) : Option (Ssid × Option ConnId) :=
  match x.event with
  | .closed conn _ =>
    if (x.before.front.conns conn).any (fun c => c.uri = .other) then none
    else (x.before.ssidOf conn).map fun ssid => (ssid, some conn)
  | .info cookie selectById _ =>
    (Sessions.headerSsid cookie).bind fun ssid => (x.before.sessions.userOf ssid).bind fun uid =>
      if (selectById uid).isSome then some (ssid, none) else none
  | .login .. => some (x.before.sessions.sm.nextSsid, none)
  | _ => none

/-- The session with which a connection to the hall or to a room opens. -/
def opener (x : GateTrans) : Option Ssid :=
  match x.event with
  | .opened _ .hall cookie _ _ | .opened _ .room cookie _ _ => Sessions.headerSsid cookie
  | _ => none

/-- A step that takes no session away from an open connection: it limits no session that another admitted
    connection to the hall or to a room holds, and if it admits one, all armed timers of its session can be
    cancelled. -/
def Keeps (us : List GateTrans) (x : GateTrans) : Prop :=
  (∀ l ∈ x.limits, ∀ a ∈ gateAdmissions us, some a.1 ≠ l.2 → ¬x.before.Holds a.1 l.1) ∧
  (gateAdmissions [x] ≠ [] → ∀ ssid ∈ x.opener, x.before.sessions.Recallable ssid)

-- The limits and admissions are gone through, not all numbers of sessions and connections.
instance (us : List GateTrans) (x : GateTrans) : Decidable (x.Keeps us) :=
  @instDecidableAnd _ _
    (@Option.decidableForallMem _ _ (fun _ => @List.decidableBAll _ _ (fun _ => inferInstance) _) _)
    (@forall_prop_decidable _ _ inferInstance fun _ => @Option.decidableForallMem _ _ (fun _ => inferInstance) _)

end GateTrans

/-- While an admitted connection to the hall or to a room is open, its session is there, and no timer is armed that
    would remove it. -/
def SessionsKept (ts : List GateTrans) (g : Gate) : Prop :=
  ∀ conn uid ssid, Gate.Admitted ts conn uid → g.Holds conn ssid → g.sessions.Kept ssid

namespace Gate
variable {g g' : Gate} {e : GateEvent} {out : List GateObs} {conn : ConnId} {ssid : Ssid} {uid : Uid} {ts us : List GateTrans}
  {redis : Bool} {st st' : Sessions} {up : RedisUp} {uri : WsUri} {cookie : Text} {who : Option (Ssid × Uid)}
  {obs : List GateObs}

/-- The lookup of a callback leaves the sessions alone, or finds the one that the header names. -/
theorem lookup_cases (h : lookup st up uri cookie = some (st', who, obs)) :
    (st' = st ∧ who = none) ∨
      ∃ ssid uid, who = some (ssid, uid) ∧ uri ≠ .other ∧ Sessions.headerSsid cookie = some ssid ∧
        st.findSession up ssid = (st', some uid) := by
  unfold lookup at h
  split at h
  · cases h
    exact Or.inl ⟨rfl, rfl⟩
  rename_i huri
  split at h
  · cases h
  · rename_i hfound
    cases h
    obtain ⟨hssid, hfind⟩ := Sessions.findSession_of_session hfound
    exact Or.inr ⟨_, _, rfl, huri, hssid, hfind⟩
  · rename_i hfound
    cases h
    exact Or.inl ⟨Sessions.eq_of_loginAgain hfound, rfl⟩

theorem kept_lookup (hk : st.Kept ssid) (h : lookup st up uri cookie = some (st', who, obs)) : st'.Kept ssid := by
  rcases lookup_cases h with ⟨rfl, -⟩ | ⟨_, _, -, -, -, hfind⟩
  · exact hk
  · exact hk.findSession hfind

theorem kept_renew (hk : st.Kept ssid) {ms : Option Int} (hms : ∀ uid, who = some (ssid, uid) → ms = none ∨ ms = some sessionForever) :
    (renew st up who ms).Kept ssid := by
  cases who with
  | none => exact hk
  | some x =>
    cases ms with
    | none => exact hk
    | some ms =>
      refine hk.sessionExpireWithCache fun heq => ?_
      rcases hms x.2 (by rw [heq]) with h | h
      · cases h
      · exact Option.some.inj h

theorem openedMs_cases (uri : WsUri) (fout : List FrontObs) : openedMs uri fout = none ∨ openedMs uri fout = some sessionForever := by
  unfold openedMs
  split
  · split
    · exact Or.inr rfl
    · exact Or.inl rfl
  · split
    · exact Or.inr rfl
    · exact Or.inl rfl
  · exact Or.inr rfl
  · exact Or.inl rfl

/-- A step that does not limit a session keeps it. -/
theorem kept_step (hs : GateStep g e g' out) (hk : g.sessions.Kept ssid)
    (hlimits : ∀ c, GateTrans.limits ⟨g, e, g', out⟩ ≠ some (ssid, c)) : g'.sessions.Kept ssid := by
  cases hs with
  | turn | drop | lapse => exact ⟨hk.there, hk.safe⟩
  | opened hlookup => exact kept_renew (kept_lookup hk hlookup) fun _ _ => openedMs_cases _ _
  | message _ _ hlookup => exact kept_lookup hk hlookup
  | @closed conn uri _ cookie _ _ _ _ _ _ hconn hcookie hlookup =>
    refine kept_renew (kept_lookup hk hlookup) fun uid hwho => ?_
    rcases lookup_cases hlookup with ⟨-, hnone⟩ | ⟨ssid', uid', hwho', huri, hssid, -⟩
    · cases hwho.symm.trans hnone
    · cases hwho.symm.trans hwho'
      refine absurd ?_ (hlimits (some conn))
      simp [GateTrans.limits, hconn, huri, ssidOf, hcookie, hssid]
  | login =>
    refine hk.login fun heq => hlimits none ?_
    rw [heq]
    rfl
  | strangerInfo hfound =>
    exact Sessions.eq_of_loginAgain hfound ▸ hk
  | @info cookie selectById up st ssid' uid hfound =>
    obtain ⟨hssid, hfind⟩ := Sessions.findSession_of_session hfound
    have hk' := hk.findSession hfind
    by_cases hrecord : (selectById uid).isSome = true
    · simp only [hrecord, ↓reduceIte]
      refine hk'.sessionExpireWithCache fun heq => ?_
      subst heq
      rcases Sessions.findSession_cases hfind with ⟨-, huser⟩ | ⟨hgone, -⟩
      · refine absurd ?_ (hlimits none)
        simp [GateTrans.limits, hssid, ← huser, hrecord]
      · exact absurd hgone hk.there
    · simp only [hrecord, Bool.false_eq_true, ↓reduceIte]
      exact hk'
  | expires hst => exact hk.expires hst
  | complete hst => exact hk.complete hst

theorem fresh_lookup (hf : st.Fresh) (h : lookup st up uri cookie = some (st', who, obs)) : st'.Fresh := by
  rcases lookup_cases h with ⟨rfl, -⟩ | ⟨_, _, -, -, -, hfind⟩
  · exact hf
  · exact hf.findSession hfind

theorem fresh_renew (hf : st.Fresh) {ms : Option Int} : (renew st up who ms).Fresh := by
  cases who with
  | none => exact hf
  | some x =>
    cases ms with
    | none => exact hf
    | some ms => exact hf.sessionExpireWithCache

theorem fresh_step (hs : GateStep g e g' out) (hf : g.sessions.Fresh) : g'.sessions.Fresh := by
  cases hs with
  | turn | drop | lapse => exact hf
  | opened hlookup | closed _ _ hlookup => exact fresh_renew (fresh_lookup hf hlookup)
  | message _ _ hlookup => exact fresh_lookup hf hlookup
  | login => exact hf.login
  | strangerInfo hfound =>
    exact Sessions.eq_of_loginAgain hfound ▸ hf
  | @info cookie selectById up st ssid uid hfound =>
    have hf' : st.Fresh := hf.findSession (Sessions.findSession_of_session hfound).2
    have hset : (st.sessionExpireWithCache up ssid sessionTimeout).Fresh := hf'.sessionExpireWithCache
    by_cases hrecord : (selectById uid).isSome = true
    · simp only [hrecord, ↓reduceIte]
      exact hset
    · simp only [hrecord, Bool.false_eq_true, ↓reduceIte]
      exact hf'
  | expires hst => exact hf.expires hst
  | complete hst => exact hf.complete hst

/-- A lookup puts nothing out for the connections. -/
theorem mem_front (h : lookup st up uri cookie = some (st', who, obs)) {o : FrontObs} {fout : List FrontObs}
    (ho : .front o ∈ obs ++ fout.map GateObs.front) : o ∈ fout := by
  rcases List.mem_append.mp ho with ho | ho
  · have hmem : o ∈ obs.filterMap GateObs.toFront := List.mem_filterMap.mpr ⟨_, ho, rfl⟩
    rw [lookup_toFront h] at hmem
    cases hmem
  · obtain ⟨o', ho', heq⟩ := List.mem_map.mp ho
    exact GateObs.front.inj heq ▸ ho'

/-- An open that admits its user keeps the session, if the timers of the session can be cancelled. -/
theorem kept_opened {selectById : Uid → Option Members} (hs : GateStep g (.opened conn uri cookie selectById up) g' out)
    (hf : g.sessions.Fresh) (huri : uri = .hall ∨ uri = .room) (hssid : Sessions.headerSsid cookie = some ssid)
    (hrecall : g.sessions.Recallable ssid) (hadm : ∃ uid resp, .front (.admitted conn uid resp) ∈ out) :
    g'.sessions.Kept ssid := by
  obtain ⟨uid, resp, hout⟩ := hadm
  cases hs with
  | @opened _ _ _ _ _ st who obs front fout hlookup hfront =>
    have hmem := mem_front hlookup hout
    rcases lookup_cases hlookup with ⟨-, rfl⟩ | ⟨ssid', uid', rfl, -, hssid', hfind⟩
    · rw [Option.map_none] at hfront
      cases Front.step_inv hfront with
      | entered => cases hmem
    · obtain rfl := Option.some.inj (hssid.symm.trans hssid')
      have hms : openedMs uri fout = some sessionForever := by
        rcases huri with rfl | rfl <;> exact if_pos (List.any_eq_true.mpr ⟨_, hmem, rfl⟩)
      simp only [hms, renew, Sessions.renew]
      obtain ⟨cache, heq⟩ := Sessions.sessionExpireWithCache_eq st up ssid sessionForever
      rw [heq]
      refine ⟨fun hnone => ?_, fun tp => ?_⟩
      · have huser : (st.setSessionExpireTime ssid sessionForever).userOf ssid = some uid' :=
          Sessions.userOf_setSessionExpireTime.trans (Sessions.userOf_findSession hfind)
        cases huser.symm.trans hnone
      · exact (hrecall.findSession hf hfind).forever (hf.findSession hfind)

/-! ### Runs -/

structure Alive (ts : List GateTrans) (g : Gate) : Prop where
  fresh : g.sessions.Fresh
  opened : ∀ conn uid, Admitted ts conn uid → g.front.conns conn ≠ none
  kept : SessionsKept ts g

theorem admitted_snoc (h : Admitted (ts ++ [⟨g, e, g', out⟩]) conn uid) :
    Admitted ts conn uid ∨ ∃ resp, .front (.admitted conn uid resp) ∈ out := by
  simp only [Admitted, gateAdmissions, Machine.log_snoc, List.filterMap_append, List.mem_append] at h
  refine h.imp_right fun h => ?_
  obtain ⟨o, ho, heq⟩ := List.mem_filterMap.mp h
  unfold GateObs.admission at heq
  split at heq
  · cases heq
    exact ⟨_, ho⟩
  · cases heq

theorem front_inv (hs : GateStep g e g' out) :
    (∃ fe, FrontStep g.front fe g'.front (out.filterMap GateObs.toFront)) ∨
      (g'.front = g.front ∧ out.filterMap GateObs.toFront = []) :=
  (step_front hs).imp_left fun ⟨fe, hfront⟩ => ⟨fe, Front.step_inv hfront⟩

/-- Who is admitted in a step opens the connection, or comes to the spectators. -/
theorem admitted_conns (hs : GateStep g e g' out) {resp : Members} (h : .front (.admitted conn uid resp) ∈ out) :
    g'.front.conns conn ≠ none ∧
      (g.front.conns conn = none ∨ ∃ closed, g.front.conns conn = some ⟨.spectate, closed⟩) := by
  have hmem : FrontObs.admitted conn uid resp ∈ out.filterMap GateObs.toFront := List.mem_filterMap.mpr ⟨_, h, rfl⟩
  rcases front_inv hs with ⟨fe, hfront⟩ | ⟨-, hnone⟩
  · exact hfront.admitted_conns hmem
  · rw [hnone] at hmem
    cases hmem

theorem conns_step (hs : GateStep g e g' out) (h : g.front.conns conn ≠ none) : g'.front.conns conn ≠ none := by
  rcases front_inv hs with ⟨fe, hfront⟩ | ⟨hsame, -⟩
  · obtain ⟨c, hc⟩ := Option.ne_none_iff_exists'.mp h
    obtain ⟨closed, hc'⟩ := hfront.conns hc
    intro hnone
    cases hc'.symm.trans hnone
  · rwa [hsame]

/-- A connection that closes is the only one that its close may take the session from. -/
theorem limits_conn {c : Option ConnId} (h : GateTrans.limits ⟨g, e, g', out⟩ = some (ssid, c))
    (hnot : ∀ up, e ≠ .closed conn up) : some conn ≠ c := by
  rintro rfl
  unfold GateTrans.limits at h
  split at h
  · rename_i conn' up hevent
    split at h
    · cases h
    · obtain ⟨_, -, heq⟩ := Option.map_eq_some_iff.mp h
      obtain rfl := Option.some.inj (Prod.mk.inj heq).2
      exact hnot up hevent
  · obtain ⟨_, -, h⟩ := Option.bind_eq_some_iff.mp h
    obtain ⟨_, -, h⟩ := Option.bind_eq_some_iff.mp h
    split at h <;> cases h
  · cases h
  · cases h

theorem Alive.step (hi : Alive ts g) (hs : GateStep g e g' out) (hx : GateTrans.Keeps ts ⟨g, e, g', out⟩) :
    Alive (ts ++ [⟨g, e, g', out⟩]) g' where
  fresh := fresh_step hs hi.fresh
  opened conn uid h := by
    rcases admitted_snoc h with hadm | ⟨resp, hout⟩
    · exact conns_step hs (hi.opened conn uid hadm)
    · exact (admitted_conns hs hout).1
  kept conn uid ssid h hholds := by
    rcases holds_inv hs hholds with ⟨hold, hnot⟩ | ⟨uri, cookie, selectById, up, rfl, hnew, huri, hssid⟩
    · rcases admitted_snoc h with hadm | ⟨resp, hout⟩
      · exact kept_step hs (hi.kept conn uid ssid hadm hold) fun c hlimits =>
          hx.1 (ssid, c) hlimits (conn, uid) hadm (limits_conn hlimits hnot) hold
      · -- The connection was there, and not for spectators.
        have huri := hold.1.1
        rcases (admitted_conns hs hout).2 with hnone | ⟨closed, hspectate⟩
        · simp [hnone] at huri
        · simp [hspectate] at huri
    · rcases admitted_snoc h with hadm | ⟨resp, hout⟩
      · exact absurd hnew (hi.opened conn uid hadm)
      · refine kept_opened hs hi.fresh huri hssid (hx.2 ?_ ssid ?_) ⟨uid, resp, hout⟩
        · have hmem : (conn, uid) ∈ gateAdmissions [⟨g, .opened conn uri cookie selectById up, g', out⟩] :=
            List.mem_filterMap.mpr ⟨.front (.admitted conn uid resp), by simpa [Machine.log] using hout, rfl⟩
          exact List.ne_nil_of_mem hmem
        · rcases huri with rfl | rfl <;> exact hssid

theorem alive_start (redis : Bool) : Alive [] (start redis) where
  fresh _ _ ht := by cases ht
  opened _ _ hadm := absurd hadm List.not_mem_nil
  kept _ _ _ hadm := absurd hadm List.not_mem_nil

/-- As long as every step takes no session from an open connection, the sessions that open connections need live. -/
theorem sessions_kept (h : machine.Run (start redis) ts g) (hC : ∀ us x vs, ts = us ++ x :: vs → x.Keeps us) :
    SessionsKept ts g :=
  (h.invariant_along (alive_start redis) hC fun hi hs hx => hi.step (step_inv hs) hx).kept

/-- A user asks for `info`, comes to the hall, leaves it and comes back. -/
theorem sessions_kept_again : ∃ (ts : List GateTrans) (g : Gate), machine.Run (start true) ts g ∧ Admitted ts 2 1 ∧
    g.Holds 2 1 ∧ SessionsKept ts g := by
  obtain ⟨ts, g, h, hC, hadm, hholds⟩ := Machine.Run.exists_of_exec machine (start true)
    [.login 1 .all, .info firstCookie newcomer .all, .opened 1 .hall firstCookie newcomer .all, .closed 1 .all,
      .info firstCookie newcomer .all, .opened 2 .hall firstCookie newcomer .all]
    (fun (ts : List GateTrans) g => (∀ i, (hi : i < ts.length) → GateTrans.Keeps (ts.take i) (ts.get ⟨i, hi⟩)) ∧
      Admitted ts 2 1 ∧ g.Holds 2 1) (by decide +kernel)
  exact ⟨ts, g, h, hadm, hholds, sessions_kept h fun us x vs => Machine.Run.forall_split hC⟩

/-- A user in the hall asks for `info`: a timer is armed that will remove the session. -/
theorem session_limited : ¬∀ redis (ts : List GateTrans) g, machine.Run (start redis) ts g → SessionsKept ts g := by
  intro hall
  obtain ⟨ts, g, h, hadm, hholds, harmed⟩ := Machine.Run.exists_of_exec machine (start false)
    [.login 1 .all, .opened 1 .hall firstCookie newcomer .all, .info firstCookie newcomer .all]
    (fun (ts : List GateTrans) g => Admitted ts 1 1 ∧ g.Holds 1 1 ∧ g.sessions.armed 1 1 = true) (by decide +kernel)
  cases harmed.symm.trans ((hall false ts g h 1 1 1 hadm hholds).safe 1)

end Gate
end FiveStones
