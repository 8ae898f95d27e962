import FiveStones.Theorems.GateStep

/-! Close callbacks over sessions that come and go: what they leave in the tables of connections. -/

namespace FiveStones

/-- Who was admitted, and with which connection. -/
def GateObs.admission : GateObs → Option (ConnId × Uid)
  | .front (.admitted conn uid _) => some (conn, uid)
  | _ => none

def gateAdmissions (ts : List GateTrans) : List (ConnId × Uid) := (Machine.log ts).filterMap GateObs.admission

namespace Gate
variable {g g' : Gate} {ts us vs : List GateTrans} {x : GateTrans} {conn : ConnId} {uid : Uid} {up : RedisUp} {redis : Bool}

def Admitted (ts : List GateTrans) (conn : ConnId) (uid : Uid) : Prop := (conn, uid) ∈ gateAdmissions ts

theorem admitted_of_log {fs : List FrontTrans} (hlog : Machine.log fs = frontLog ts) :
    FiveStones.Admitted fs conn uid ↔ Admitted ts conn uid := by
  rw [admitted_iff]
  constructor
  · rintro ⟨x, hx, resp, hout⟩
    have hmem : FrontObs.admitted conn uid resp ∈ frontLog ts := hlog ▸ List.mem_flatMap.mpr ⟨x, hx, hout⟩
    obtain ⟨o, ho, hfront⟩ := List.mem_filterMap.mp hmem
    refine List.mem_filterMap.mpr ⟨o, ho, ?_⟩
    cases o with
    | front o =>
      obtain rfl := Option.some.inj hfront
      rfl
    | loginAgain | setCookie => cases hfront
  · intro hadm
    obtain ⟨o, ho, heq⟩ := List.mem_filterMap.mp hadm
    unfold GateObs.admission at heq
    split at heq
    · rename_i conn' uid' resp
      cases heq
      have hmem : FrontObs.admitted conn uid resp ∈ frontLog ts := List.mem_filterMap.mpr ⟨_, ho, rfl⟩
      obtain ⟨x, hx, hout⟩ := List.mem_flatMap.mp (hlog ▸ hmem)
      exact ⟨x, hx, resp, hout⟩
    · cases heq

/-- The session user that a callback of the connection finds. -/
def userBehind (g : Gate) (up : RedisUp) (conn : ConnId) : Option Uid :=
  match g.front.conns conn, g.cookies conn with
  | some ⟨uri, _⟩, some cookie => (lookup g.sessions up uri cookie).bind fun x => x.2.1.map Prod.snd
  | _, _ => none

end Gate

namespace GateTrans

/-- A step leaves no entry of `conn`, and keeps the entries of other open connections of its user. -/
structure Tidies (us : List GateTrans) (x : GateTrans) (conn : ConnId) : Prop where
  gone : ∀ t uid, x.after.front.entry t uid ≠ some conn
  kept : ∀ t uid other, Gate.Admitted us conn uid → other ≠ conn → x.before.front.server.isOpen other = true →
    x.before.front.entry t uid = some other → x.after.front.entry t uid = some other

/-- The close callback of `conn` finds the session of the user who stands in a table with `conn`; the user that it
    finds does not stand there with another open connection; and a room that goes away has no open connection
    of the user among its spectators. -/
structure Finds (us : List GateTrans) (x : GateTrans) (conn : ConnId) (up : RedisUp) : Prop where
  found : ∀ t uid, x.before.front.entry t uid = some conn → x.before.userBehind up conn = some uid
  newest : ∀ t uid other closed, x.before.userBehind up conn = some uid → Gate.Admitted us conn uid →
    x.before.front.conns conn = some ⟨t.uri, closed⟩ → other ≠ conn → x.before.front.server.isOpen other = true →
    x.before.front.entry t uid ≠ some other
  watching : ∀ uid uid' rid other closed, x.before.userBehind up conn = some uid → Gate.Admitted us conn uid' →
    x.before.front.conns conn = some ⟨.room, closed⟩ → x.before.front.server.rm.lastOut uid = some rid →
    other ≠ conn → x.before.front.server.isOpen other = true → x.before.front.entry (.watch rid) uid' ≠ some other

end GateTrans

namespace Gate
variable {g g' : Gate} {ts us vs : List GateTrans} {x : GateTrans} {conn : ConnId} {uid : Uid} {up : RedisUp} {redis : Bool}

/-- In every run a close callback tidies up just when it finds the right user, and no newer connection of that
    user. -/
theorem close_tidies_iff (h : machine.Run (start redis) ts g) (hts : ts = us ++ x :: vs) (hx : x.event = .closed conn up) :
    GateTrans.Tidies us x conn ↔ GateTrans.Finds us x conn up := by
  subst hts
  obtain ⟨before, e, after, out⟩ := x
  obtain rfl : e = .closed conn up := hx
  have hus : machine.Run (start redis) us before := h.split.1
  have hs : machine.step before (.closed conn up) = some (after, out) := h.split.2.1
  obtain ⟨fs, hrun, hlog⟩ := run_front hus
  obtain ⟨hconsistent, hregistered⟩ := Front.run_registered hrun
  cases step_inv hs with
  | @closed _ uri closed cookie _ st who obs front fout hconn hcookie hlookup hfront =>
    have huser : before.userBehind up conn = who.map Prod.snd := by
      simp only [userBehind, hconn, hcookie, hlookup, Option.bind_some]
    have hiff := Front.tidies_iff hconsistent hregistered (Front.step_inv hfront)
    constructor
    · intro htidies
      obtain ⟨hfound, hnewest, hwatching⟩ := hiff.mp
        ⟨htidies.gone, fun t uid other hadm => htidies.kept t uid other ((admitted_of_log hlog).mp hadm)⟩
      exact ⟨fun t uid hentry => huser.trans (hfound t uid hentry),
        fun t uid other closed hu hadm => hnewest t uid other closed (huser.symm.trans hu) ((admitted_of_log hlog).mpr hadm),
        fun uid uid' rid other closed hu hadm =>
          hwatching uid uid' rid other closed (huser.symm.trans hu) ((admitted_of_log hlog).mpr hadm)⟩
    · intro hfinds
      obtain ⟨hgone, hkept⟩ := hiff.mpr
        ⟨fun t uid hentry => huser.symm.trans (hfinds.found t uid hentry),
          fun t uid other closed hu hadm =>
            hfinds.newest t uid other closed (huser.trans hu) ((admitted_of_log hlog).mp hadm),
          fun uid uid' rid other closed hu hadm =>
            hfinds.watching uid uid' rid other closed (huser.trans hu) ((admitted_of_log hlog).mp hadm)⟩
      exact ⟨hgone, fun t uid other hadm => hkept t uid other ((admitted_of_log hlog).mpr hadm)⟩

instance (ts : List GateTrans) (conn : ConnId) (uid : Uid) : Decidable (Admitted ts conn uid) :=
  inferInstanceAs (Decidable (_ ∈ _))

/-- A user in the hall closes the connection. -/
theorem close_tidies_iff_hall : ∃ (us : List GateTrans) (x : GateTrans), machine.Run (start false) (us ++ [x]) x.after ∧
    x.event = .closed 1 .all ∧ Admitted us 1 1 ∧ (GateTrans.Tidies us x 1 ↔ GateTrans.Finds us x 1 .all) := by
  obtain ⟨us, x, h, hx, hadm⟩ := Machine.Run.exists_step_of_exec machine (start false)
    [.login 1 .all, .opened 1 .hall firstCookie newcomer .all] (.closed 1 .all) (fun us _ => Admitted us 1 1) (by decide +kernel)
  exact ⟨us, x, h, hx, hadm, close_tidies_iff h rfl hx⟩

/-- A connection that is not open any more is closed after the next one of its user was admitted: the entry of
    the next one is gone. -/
theorem close_untidy : ¬∀ redis (ts : List GateTrans) g us x vs conn up, machine.Run (start redis) ts g →
    ts = us ++ x :: vs → x.event = .closed conn up → (∃ uid, Admitted us conn uid) → GateTrans.Tidies us x conn := by
  intro hall
  obtain ⟨us, x, h, hx, hadm, hopen, hbefore, hafter⟩ := Machine.Run.exists_step_of_exec machine (start false)
    [.login 1 .all, .opened 1 .hall firstCookie newcomer .all, .drop 1, .opened 2 .hall firstCookie newcomer .all] (.closed 1 .all)
    (fun us x => Admitted us 1 1 ∧ x.before.front.server.isOpen 2 = true ∧ x.before.front.entry .hall 1 = some 2 ∧
      x.after.front.entry .hall 1 = none) (by decide +kernel)
  cases hafter.symm.trans ((hall _ _ _ _ _ _ _ _ h rfl hx ⟨1, hadm⟩).kept .hall 1 2 hadm (by decide) hopen hbefore)

end Gate
end FiveStones
