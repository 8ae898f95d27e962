import FiveStones.Theorems.Lifetime

/-! Refused connections over sessions that come and go: a run against the same run without one of them. -/

namespace FiveStones

/-- The lookup of a header brings a session back from the session cache. -/
def Sessions.Restores (st : Sessions) (up : RedisUp) (cookie : Text) : Prop :=
  ∃ ssid, headerSsid cookie = some ssid ∧ st.userOf ssid = none ∧ st.cache.getSession up ssid ≠ none

def GateEvent.conn : GateEvent → Option ConnId
  | .opened conn .. | .message conn .. | .closed conn _ | .drop conn => some conn
  | .turn .. | .login .. | .info .. | .expires _ | .complete _ | .lapse _ => none

namespace Gate
variable {g g' k : Gate} {e : GateEvent} {out : List GateObs} {conn : ConnId} {uid : Uid} {ts us : List GateTrans}
  {redis : Bool} {st st' : Sessions} {up : RedisUp} {uri : WsUri} {cookie : Text} {who : Option (Ssid × Uid)}
  {obs : List GateObs}

/-- A lookup that restores nothing leaves the sessions alone. -/
theorem lookup_sessions (h : lookup st up uri cookie = some (st', who, obs)) (hno : ¬st.Restores up cookie) : st' = st := by
  rcases lookup_cases h with ⟨rfl, -⟩ | ⟨ssid, uid, -, -, hssid, hfind⟩
  · rfl
  · rcases Sessions.findSession_cases hfind with ⟨rfl, -⟩ | ⟨hgone, uid', -, hcache, -⟩
    · rfl
    · exact absurd ⟨ssid, hssid, hgone, by simp [hcache]⟩ hno

/-- What a callback of `conn` changes besides `conn` itself: what it changes for the user whom it finds, the lifetime
    of that user's session when it is a close, and the sessions when it brings one back. -/
inductive Touches (g : Gate) (conn : ConnId) : GateEvent → Prop
  | opened {uri : WsUri} {cookie : Text} {selectById : Uid → Option Members} {up : RedisUp} {st : Sessions} {ssid : Ssid}
      {uid : Uid} {obs : List GateObs} : lookup g.sessions up uri cookie = some (st, some (ssid, uid), obs) →
      g.front.Touches conn (.opened conn uri (some uid) selectById) → Touches g conn (.opened conn uri cookie selectById up)
  | message {body : Option Json} {selectById : Uid → Option Members} {now later : Int} {up : RedisUp} {uid : Uid} :
      g.userBehind up conn = some uid → g.front.Touches conn (.message conn (some uid) body selectById now later) →
      Touches g conn (.message conn body selectById now later up)
  | closed {up : RedisUp} {uid : Uid} : g.userBehind up conn = some uid → Touches g conn (.closed conn up)
  | restoredOpen {uri : WsUri} {cookie : Text} {selectById : Uid → Option Members} {up : RedisUp} :
      g.sessions.Restores up cookie → Touches g conn (.opened conn uri cookie selectById up)
  | restoredMessage {cookie : Text} {body : Option Json} {selectById : Uid → Option Members} {now later : Int} {up : RedisUp} :
      g.cookies conn = some cookie → g.sessions.Restores up cookie →
      Touches g conn (.message conn body selectById now later up)

/-- The two states differ at most in what they know of `conn` itself. -/
structure AlikeOff (conn : ConnId) (g k : Gate) : Prop where
  front : g.front.AlikeOff conn k.front
  sessions : k.sessions = g.sessions
  cookies : ∀ conn', conn' ≠ conn → k.cookies conn' = g.cookies conn'

theorem AlikeOff.refl (conn : ConnId) (g : Gate) : AlikeOff conn g g := ⟨.refl conn _, rfl, fun _ _ => rfl⟩

/-- Two states that differ from one off `conn` do not differ from each other off `conn`. -/
theorem AlikeOff.euclidean (h : AlikeOff conn g k) (h' : AlikeOff conn g g') : AlikeOff conn g' k where
  front := h.front.euclidean h'.front
  sessions := h.sessions.trans h'.sessions.symm
  cookies c hc := (h.cookies c hc).trans (h'.cookies c hc).symm

/-- A step of another connection, or of none, goes the same way in both states. -/
theorem AlikeOff.step (h : AlikeOff conn g k) (habsent : ∀ t uid, g.front.entry t uid ≠ some conn)
    (he : e.conn ≠ some conn) (hs : machine.step g e = some (g', out)) :
    ∃ k', machine.step k e = some (k', out) ∧ AlikeOff conn g' k' := by
  have front {fe : FrontEvent} {front : Front} {fout : List FrontObs} (hfe : fe.conn = e.conn)
      (hfront : Front.machine.step g.front fe = some (front, fout)) :
      ∃ front', Front.machine.step k.front fe = some (front', fout) ∧ front.AlikeOff conn front' :=
    h.front.step habsent (hfe ▸ he) hfront
  cases step_inv hs with
  | turn hfront | drop hfront =>
    obtain ⟨front', hfront', halike⟩ := front rfl hfront
    exact ⟨{ k with front := front' }, by simp only [machine, hfront'], halike, h.sessions, h.cookies⟩
  | @opened conn' uri cookie _ up st who _ _ fout hlookup hfront =>
    obtain ⟨front', hfront', halike⟩ := front rfl hfront
    refine ⟨⟨front', renew st up who (openedMs uri fout), k.cookies.assign conn' cookie⟩,
      by simp only [machine, h.sessions, hlookup, hfront'], halike, rfl, fun c hc => ?_⟩
    by_cases heq : c = conn'
    · simp only [heq, Dict.assign_self]
    · simp only [Dict.assign_ne heq, h.cookies c hc]
  | @message conn' _ _ _ _ _ _ _ _ st _ _ _ _ hconn hcookie hlookup hfront =>
    have hne : conn' ≠ conn := fun heq => he (congrArg some heq)
    obtain ⟨front', hfront', halike⟩ := front rfl hfront
    have hconn' := (h.front.conns conn' hne).trans hconn
    have hcookie' := (h.cookies conn' hne).trans hcookie
    exact ⟨{ k with front := front', sessions := st }, by simp only [machine, hconn', hcookie', h.sessions, hlookup, hfront'],
      halike, rfl, h.cookies⟩
  | @closed conn' _ _ _ up st who _ _ _ hconn hcookie hlookup hfront =>
    have hne : conn' ≠ conn := fun heq => he (congrArg some heq)
    obtain ⟨front', hfront', halike⟩ := front rfl hfront
    have hconn' := (h.front.conns conn' hne).trans hconn
    have hcookie' := (h.cookies conn' hne).trans hcookie
    exact ⟨{ k with front := front', sessions := renew st up who (some sessionTimeout) },
      by simp only [machine, hconn', hcookie', h.sessions, hlookup, hfront'], halike, rfl, h.cookies⟩
  | @login uid up =>
    exact ⟨{ k with sessions := (g.sessions.login up uid).1 }, by simp only [machine, h.sessions], h.front, rfl, h.cookies⟩
  | @strangerInfo _ _ _ st _ hfound =>
    exact ⟨{ k with sessions := st }, by simp only [machine, h.sessions, hfound], h.front, rfl, h.cookies⟩
  | @info _ selectById up st ssid uid hfound =>
    exact ⟨{ k with sessions := if (selectById uid).isSome then st.sessionExpireWithCache up ssid sessionTimeout else st },
      by simp only [machine, h.sessions, hfound], h.front, rfl, h.cookies⟩
  | @expires _ st hst | @complete _ st hst =>
    exact ⟨{ k with sessions := st }, by simp only [machine, h.sessions, hst, Option.map_some], h.front, rfl, h.cookies⟩
  | @lapse _ keys hkeys =>
    exact ⟨{ k with sessions := { g.sessions with cache := { g.sessions.cache with keys } } },
      by simp only [machine, h.sessions, hkeys, Option.map_some], h.front, rfl, h.cookies⟩

/-- What the callbacks book. -/
def payments (ts : List GateTrans) : List Call := FiveStones.payments (frontLog ts)

/-- The connections that were refused when they opened. -/
def refusals (ts : List GateTrans) : List ConnId := FiveStones.refusals (frontLog ts)

theorem payments_snoc (ts : List GateTrans) (x : GateTrans) :
    payments (ts ++ [x]) = payments ts ++ FiveStones.payments (x.out.filterMap GateObs.toFront) := by
  simp [payments, FiveStones.payments, frontLog]

theorem userBehind_eq {closed : Bool} (hconn : g.front.conns conn = some ⟨uri, closed⟩) (hcookie : g.cookies conn = some cookie)
    (hlookup : lookup g.sessions up uri cookie = some (st, who, obs)) : g.userBehind up conn = who.map Prod.snd := by
  simp [userBehind, hconn, hcookie, hlookup]

/-- An open callback that admits nobody sets no lifetime. -/
theorem openedMs_of_refused {fout : List FrontObs} (huri : uri ≠ .spectate) (h : ∀ conn uid resp, .admitted conn uid resp ∉ fout) :
    openedMs uri fout = none := by
  rcases openedMs_cases uri fout with hms | hms
  · exact hms
  unfold openedMs at hms
  cases uri with
  | hall | room =>
    simp only at hms
    split at hms
    · rename_i hany
      obtain ⟨o, ho, hadm⟩ := List.any_eq_true.mp hany
      cases o with
      | admitted conn uid resp => exact absurd ho (h conn uid resp)
      | server | refused | answer => cases hadm
    · cases hms
  | spectate => exact absurd rfl huri
  | other => cases hms

/-- An event of a connection that stands in no table is felt nowhere else, unless it touches something. -/
theorem own_step (hs : machine.step g e = some (g', out)) (he : e.conn = some conn)
    (habsent : ∀ t uid, g.front.entry t uid ≠ some conn) (hrefused : ∀ uid resp, .front (.admitted conn uid resp) ∉ out)
    (huri : ∀ closed, g'.front.conns conn ≠ some ⟨.spectate, closed⟩) (hfree : ¬g.Touches conn e) :
    AlikeOff conn g g' ∧ FiveStones.payments (out.filterMap GateObs.toFront) = [] := by
  have front {fe : FrontEvent} {front : Front} {fout : List FrontObs} (hfront : Front.machine.step g.front fe = some (front, fout))
      (hfe : fe.conn = some conn) (hout : out.filterMap GateObs.toFront = fout) (hafter : g'.front = front)
      (hfree : ¬g.front.Touches conn fe) :
      g.front.AlikeOff conn front ∧ FiveStones.payments (out.filterMap GateObs.toFront) = [] := by
    subst hout hafter
    refine Front.own_step hfront hfe habsent (fun uid resp hadm => ?_) (fun closed hspectate => ?_) hfree
    · obtain ⟨o, ho, heq⟩ := List.mem_filterMap.mp hadm
      cases o with
      | front o =>
        cases heq
        exact hrefused uid resp ho
      | loginAgain | setCookie => cases heq
    · obtain ⟨closed', hspectate'⟩ := (Front.step_inv hfront).conns hspectate
      exact huri closed' hspectate'
  have looked {obs : List GateObs} {st : Sessions} {up : RedisUp} {uri : WsUri} {cookie : Text} {who : Option (Ssid × Uid)}
      {fout : List FrontObs} (hlookup : lookup g.sessions up uri cookie = some (st, who, obs)) :
      (obs ++ fout.map GateObs.front).filterMap GateObs.toFront = fout := by
    rw [List.filterMap_append, lookup_toFront hlookup, filterMap_toFront, List.nil_append]
  cases step_inv hs with
  | turn | login | strangerInfo | info | expires | complete | lapse => cases he
  | drop hfront =>
    obtain ⟨halike, hpay⟩ := front hfront he (filterMap_toFront _) rfl nofun
    exact ⟨⟨halike, rfl, fun _ _ => rfl⟩, hpay⟩
  | @opened _ uri cookie _ up st who obs _ fout hlookup hfront =>
    obtain rfl := Option.some.inj he
    obtain rfl := lookup_sessions hlookup fun hres => hfree (.restoredOpen hres)
    obtain ⟨halike, hpay⟩ := front hfront rfl (looked hlookup) rfl fun htouches => by
      cases who with
      | none => cases htouches
      | some x => exact hfree (.opened hlookup htouches)
    have hms : openedMs uri fout = none := by
      cases (Front.step_inv hfront).doors with
      | opened hnew hconns =>
        refine openedMs_of_refused ?_ fun c uid resp hadm => ?_
        · rintro rfl
          exact huri false (by rw [hconns, Dict.assign_self])
        · generalize who.map Prod.snd = user at hfront
          cases Front.step_inv hfront with
          | hall | room =>
            refine hrefused uid resp (List.mem_append_right _ (List.mem_map_of_mem ?_))
            cases List.mem_singleton.mp hadm
            exact hadm
          | entered => cases hadm
          | twice | roomless => cases List.mem_singleton.mp hadm
    refine ⟨⟨halike, ?_, fun c hc => Dict.assign_ne hc⟩, hpay⟩
    rw [hms]
    cases who <;> rfl
  | @message _ uri _ cookie body selectById now later up st who obs _ fout hconn hcookie hlookup hfront =>
    obtain rfl := Option.some.inj he
    obtain rfl := lookup_sessions hlookup fun hres => hfree (.restoredMessage hcookie hres)
    obtain ⟨halike, hpay⟩ := front hfront rfl (looked hlookup) rfl fun htouches => by
      have hbehind := userBehind_eq hconn hcookie hlookup
      cases who with
      | none => cases htouches
      | some x => exact hfree (.message hbehind htouches)
    exact ⟨⟨halike, rfl, fun _ _ => rfl⟩, hpay⟩
  | @closed _ uri _ cookie up st who obs _ fout hconn hcookie hlookup hfront =>
    obtain rfl := Option.some.inj he
    have hbehind := userBehind_eq hconn hcookie hlookup
    cases who with
    | some x => exact absurd (.closed hbehind) hfree
    | none =>
      obtain ⟨halike, hpay⟩ := front hfront rfl (looked hlookup) rfl nofun
      rcases lookup_cases hlookup with ⟨rfl, -⟩ | ⟨_, _, hwho, -⟩
      · exact ⟨⟨halike, rfl, fun _ _ => rfl⟩, hpay⟩
      · cases hwho

/-- The tables, the queues, the rooms and the scores are those of the run without the events of `conn`. -/
def Unfelt (redis : Bool) (ts : List GateTrans) (g : Gate) (conn : ConnId) : Prop :=
  ∃ (ts' : List GateTrans) (k : Gate), machine.Run (start redis) ts' k ∧
    ts'.map (·.event) = (ts.map (·.event)).filter (·.conn ≠ some conn) ∧ k.front.server.om = g.front.server.om ∧
    k.front.server.queues = g.front.server.queues ∧ k.front.server.rm = g.front.server.rm ∧ payments ts' = payments ts

/-- The run without the events of `conn`, as far as it has come. -/
def Shadow (redis : Bool) (conn : ConnId) (ts : List GateTrans) (g : Gate) : Prop :=
  ∃ (ts' : List GateTrans) (k : Gate), machine.Run (start redis) ts' k ∧
    ts'.map (·.event) = (ts.map (·.event)).filter (·.conn ≠ some conn) ∧ AlikeOff conn g k ∧ payments ts' = payments ts

/-- What is known of a step in a run where `conn` is refused. -/
structure Barred (conn : ConnId) (x : GateTrans) : Prop where
  absent : ∀ t uid, x.before.front.entry t uid ≠ some conn
  refused : ∀ uid resp, .front (.admitted conn uid resp) ∉ x.out
  uri : ∀ closed, x.after.front.conns conn ≠ some ⟨.spectate, closed⟩

theorem Shadow.step (hi : Shadow redis conn ts g) (hs : machine.step g e = some (g', out))
    (hx : Barred conn ⟨g, e, g', out⟩) (hfree : ¬g.Touches conn e) : Shadow redis conn (ts ++ [⟨g, e, g', out⟩]) g' := by
  obtain ⟨ts', k, hrun, hevents, halike, hpay⟩ := hi
  by_cases he : e.conn = some conn
  · obtain ⟨hown, hnone⟩ := own_step hs he hx.absent hx.refused hx.uri hfree
    refine ⟨ts', k, hrun, ?_, halike.euclidean hown, ?_⟩
    · simp [hevents, he]
    · rw [payments_snoc, hnone, List.append_nil, hpay]
  · obtain ⟨k', hs', halike'⟩ := halike.step hx.absent he hs
    refine ⟨_, k', hrun.snoc hs', ?_, halike', ?_⟩
    · simp [hevents, he]
    · rw [payments_snoc, payments_snoc, hpay]

/-- A refused connection is barred from every step of its run. -/
theorem run_barred (h : machine.Run (start redis) ts g) (href : conn ∈ refusals ts) {vs : List GateTrans} {x : GateTrans}
    (heq : ts = us ++ x :: vs) : Barred conn x := by
  obtain ⟨fs, hfs, hlog⟩ := run_front h
  obtain ⟨⟨uri, closed, hconn, huri⟩, hnever⟩ := (Front.run_refusals hfs).refused conn (hlog ▸ href)
  have hnever : ∀ uid, ¬Admitted ts conn uid := fun uid hadm => hnever uid ((admitted_of_log hlog).mpr hadm)
  subst heq
  obtain ⟨hus, hs, hvs⟩ := h.split
  refine ⟨fun t uid hentry => ?_, fun uid resp hout => ?_, fun closed' hspectate => ?_⟩
  · obtain ⟨fs', hfs', hlog'⟩ := run_front hus
    have hadm := (admitted_of_log hlog').mp ((Front.run_registered hfs').2 t uid conn hentry).1
    refine hnever uid ?_
    simp only [Admitted, gateAdmissions, Machine.log_append, List.filterMap_append]
    exact List.mem_append_left _ hadm
  · refine hnever uid (List.mem_filterMap.mpr ⟨.front (.admitted conn uid resp), ?_, rfl⟩)
    exact List.mem_flatMap.mpr ⟨x, List.mem_append_right _ (List.mem_cons_self ..), hout⟩
  · -- A connection keeps the uri that it came to.
    have hlast : ∃ closed, g.front.conns conn = some ⟨.spectate, closed⟩ := by
      refine hvs.invariant (I := fun g => ∃ closed, g.front.conns conn = some ⟨.spectate, closed⟩) ⟨closed', hspectate⟩ ?_
      rintro g e g' out ⟨closed, hi⟩ hs
      rcases front_inv (step_inv hs) with ⟨fe, hfront⟩ | ⟨hsame, -⟩
      · exact hfront.conns hi
      · exact ⟨closed, hsame ▸ hi⟩
    obtain ⟨closed'', hconn'⟩ := hlast
    obtain ⟨rfl, -⟩ := Conn.mk.inj (Option.some.inj (hconn.symm.trans hconn'))
    exact huri rfl

/-- A refused connection is not felt, as long as none of its events touches anything. -/
theorem refused_unfelt (h : machine.Run (start redis) ts g) (href : conn ∈ refusals ts)
    (hfree : ∀ x ∈ ts, ¬x.before.Touches conn x.event) : Unfelt redis ts g conn := by
  have hshadow : Shadow redis conn ts g := by
    refine h.invariant_along (I := Shadow redis conn) (C := fun _ x => Barred conn x ∧ ¬x.before.Touches conn x.event)
      ⟨[], start redis, .nil, rfl, .refl conn _, rfl⟩ ?_ fun hi hs hx => hi.step hs hx.1 hx.2
    rintro us x vs rfl
    exact ⟨run_barred h href rfl, hfree x (List.mem_append_right _ (List.mem_cons_self ..))⟩
  obtain ⟨ts', k, hrun, hevents, halike, hpay⟩ := hshadow
  obtain ⟨i, hserver, -⟩ := halike.front.server
  refine ⟨ts', k, hrun, hevents, ?_, ?_, ?_, hpay⟩ <;> rw [hserver] <;> rfl

/-- A user who has logged in twice opens the hall with both sessions; the second one is refused, loses its session, and
    closes. -/
theorem refused_unfelt_twice : ∃ (ts : List GateTrans) (g : Gate), machine.Run (start false) ts g ∧ 2 ∈ refusals ts ∧
    g.front.conns 2 = some ⟨.hall, true⟩ ∧ g.front.server.om.gameHall 1 = some 1 ∧ Unfelt false ts g 2 := by
  obtain ⟨ts, g, h, href, hclosed, hin, hquiet⟩ := Machine.Run.exists_of_exec machine (start false)
    [.login 1 .all, .login 1 .all, .opened 1 .hall (cookieSsid 1) newcomer .all, .opened 2 .hall (cookieSsid 2) newcomer .all,
      .message 2 none newcomer 0 0 .all, .expires 1, .complete 1, .closed 2 .all]
    (fun (ts : List GateTrans) g => 2 ∈ refusals ts ∧ g.front.conns 2 = some ⟨.hall, true⟩ ∧
      g.front.server.om.gameHall 1 = some 1 ∧ ∀ x ∈ ts, x.before.sessions.cache.redis = false ∧ (match x.event with
      | .opened _ uri _ _ _ => uri ≠ .room
      | .message _ body .. => body.isNone
      | .closed conn up => x.before.userBehind up conn = none
      | _ => True : Bool)) (by decide +kernel)
  refine ⟨ts, g, h, href, hclosed, hin, refused_unfelt h href fun x hx htouches => ?_⟩
  obtain ⟨hredis, hevent⟩ := hquiet x hx
  have hno : ∀ up cookie, ¬x.before.sessions.Restores up cookie := by
    rintro up cookie ⟨ssid, -, -, hcache⟩
    simp [SessionCache.getSession, SessionCache.reaches, hredis] at hcache
  generalize x.event = e at hevent htouches
  cases htouches with
  | opened _ htouches =>
    cases htouches with
    | hall => simp at hevent
  | message _ htouches =>
    cases htouches with
    | queue _ hrequeues => cases hrequeues <;> simp at hevent
    | room => simp at hevent
  | closed hbehind => simp [hbehind] at hevent
  | restoredOpen hres | restoredMessage _ hres => exact hno _ _ hres

/-- A user in the hall opens a connection to a room, and there is none: the hall has lost the user. -/
theorem refused_felt : ¬∀ redis (ts : List GateTrans) g conn, machine.Run (start redis) ts g → conn ∈ refusals ts →
    Unfelt redis ts g conn := by
  intro hall
  obtain ⟨ts, g, h, hevents, href, hgone⟩ := Machine.Run.exists_of_exec_events machine (start false)
    [.login 1 .all, .opened 1 .hall (cookieSsid 1) newcomer .all, .opened 2 .room (cookieSsid 1) newcomer .all]
    (fun (ts : List GateTrans) g => 2 ∈ refusals ts ∧ g.front.server.om.gameHall 1 = none) (by decide +kernel)
  obtain ⟨ts', k, hrun, hevents', hom, -⟩ := hall false ts g 2 h href
  rw [hevents] at hevents'
  have hin : k.front.server.om.gameHall 1 = some 1 :=
    hrun.forall_of_exec _ (fun _ k => k.front.server.om.gameHall 1 = some 1) hevents' (by decide +kernel)
  rw [hom, hgone] at hin
  cases hin

end Gate
end FiveStones
