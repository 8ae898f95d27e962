import Mathlib.Data.List.Nodup
import FiveStones.Theorems.Hosting

/-! Whom a room's broadcast reaches. -/

namespace FiveStones

namespace Front
variable {ts : List FrontTrans} {f : Front} {rid : Rid} {r : Room} {env : Env} {watchers : List Uid} {conn conn' : ConnId}
  {uid uid' : Uid}

/-- A connection always comes with the cookie of one user. -/
def OneUser (ts : List FrontTrans) : Prop := ∀ conn uid uid', Admitted ts conn uid → Admitted ts conn uid' → uid = uid'

/-- The room connections that a handler sees are entries of the table: all of them, but for a user who is leaving. -/
def Sees (f : Front) (env : Env) : Prop := ∀ uid conn, env.om.gameRoom uid = some conn → f.server.om.gameRoom uid = some conn

theorem mem_getConn {om : OnlineManager} {isOpen : ConnId → Bool} :
    conn ∈ (om.getConnFromGameRoom isOpen uid).toList ↔ om.gameRoom uid = some conn ∧ isOpen conn = true := by
  simp [OnlineManager.getConnFromGameRoom, Option.filter_eq_some_iff]

theorem mem_broadcastTo : conn ∈ r.broadcastTo env watchers ↔
    (∃ uid, r.Seats uid ∧ env.om.gameRoom uid = some conn ∧ env.isOpen conn = true) ∨
      ∃ uid ∈ watchers, r.spectatorConns uid = some conn := by
  simp only [Room.broadcastTo, List.mem_append, mem_getConn, List.mem_filterMap]
  constructor
  · rintro ((h | h) | h)
    · exact Or.inl ⟨_, Or.inl rfl, h⟩
    · exact Or.inl ⟨_, Or.inr rfl, h⟩
    · exact Or.inr h
  · rintro (⟨uid, rfl | rfl, h⟩ | h)
    · exact Or.inl (Or.inl h)
    · exact Or.inl (Or.inr h)
    · exact Or.inr h

theorem admitted_player (h : Registered ts f) (hsees : f.Sees env) (hentry : env.om.gameRoom uid = some conn) :
    Admitted ts conn uid ∧ ∃ closed, f.conns conn = some ⟨.room, closed⟩ := h .room uid conn (hsees uid conn hentry)

theorem admitted_watcher (h : Registered ts f) (hr : f.server.rm.rooms rid = some r) (hentry : r.spectatorConns uid = some conn) :
    Admitted ts conn uid ∧ ∃ closed, f.conns conn = some ⟨.spectate, closed⟩ :=
  h (.watch rid) uid conn (Option.bind_eq_some_iff.mpr ⟨r, hr, hentry⟩)

theorem broadcastTo_nodup (h : Registered ts f) (hone : OneUser ts) (hsees : f.Sees env) (hr : f.server.rm.rooms rid = some r)
    (hne : r.whiteId ≠ r.blackId) (hwatchers : watchers.Nodup) : (r.broadcastTo env watchers).Nodup := by
  have hplayers : ∀ {uid uid' conn}, conn ∈ (env.om.getConnFromGameRoom env.isOpen uid).toList →
      conn ∈ (env.om.getConnFromGameRoom env.isOpen uid').toList → uid = uid' := fun hconn hconn' =>
    hone _ _ _ (admitted_player h hsees (mem_getConn.mp hconn).1).1 (admitted_player h hsees (mem_getConn.mp hconn').1).1
  have hone' : ∀ uid, (env.om.getConnFromGameRoom env.isOpen uid).toList.Nodup := fun uid => by
    cases env.om.getConnFromGameRoom env.isOpen uid <;> simp
  have hwatch : (watchers.filterMap r.spectatorConns).Nodup := List.Nodup.filterMap (fun uid uid' conn hconn hconn' =>
    hone conn uid uid' (admitted_watcher h hr hconn).1 (admitted_watcher h hr hconn').1) hwatchers
  refine List.nodup_append.mpr ⟨List.nodup_append.mpr ⟨hone' _, hone' _, ?_⟩, hwatch, ?_⟩
  · rintro conn hwhite _ hblack rfl
    exact hne (hplayers hwhite hblack)
  · rintro conn hplayer _ hwatcher rfl
    -- A connection came to `/room` or to `/spectate`, and not to both.
    obtain ⟨uid, hentry⟩ : ∃ uid, env.om.gameRoom uid = some conn := by
      rcases List.mem_append.mp hplayer with hmem | hmem <;> exact ⟨_, (mem_getConn.mp hmem).1⟩
    obtain ⟨uid', -, hentry'⟩ := List.mem_filterMap.mp hwatcher
    obtain ⟨-, closed, hconn⟩ := admitted_player h hsees hentry
    obtain ⟨-, closed', hconn'⟩ := admitted_watcher h hr hentry'
    cases hconn.symm.trans hconn'

/-- A broadcast of a room goes once to the open connection of each of its players, and once to the connection of each of
    its spectators, and to nobody else: each of them was let in for its user, at `/room` or at `/spectate`. -/
theorem broadcast_once (h : machine.Run start ts f) (hpairs : Pairs ts) (hone : OneUser ts) (hsees : f.Sees env)
    (hr : f.server.rm.rooms rid = some r) (hwatchers : watchers.Nodup)
    (hall : ∀ uid conn, r.spectatorConns uid = some conn → uid ∈ watchers) :
    (r.broadcastTo env watchers).Nodup ∧
      (∀ uid conn, (r.Seats uid ∧ env.om.gameRoom uid = some conn ∧ env.isOpen conn = true) ∨ r.spectatorConns uid = some conn →
        conn ∈ r.broadcastTo env watchers) ∧
      ∀ conn ∈ r.broadcastTo env watchers, ∃ uid closed, Admitted ts conn uid ∧
        ((r.Seats uid ∧ f.conns conn = some ⟨.room, closed⟩) ∨
          (r.spectatorConns uid = some conn ∧ f.conns conn = some ⟨.spectate, closed⟩)) := by
  obtain ⟨-, hregistered⟩ := run_registered h
  obtain ⟨-, -, hne, -⟩ := run_seated h hpairs hr
  refine ⟨broadcastTo_nodup hregistered hone hsees hr hne hwatchers, ?_, fun conn hconn => ?_⟩
  · rintro uid conn (hplayer | hwatcher)
    · exact mem_broadcastTo.mpr (Or.inl ⟨uid, hplayer⟩)
    · exact mem_broadcastTo.mpr (Or.inr ⟨uid, hall uid conn hwatcher, hwatcher⟩)
  · rcases mem_broadcastTo.mp hconn with ⟨uid, hseat, hentry, -⟩ | ⟨uid, -, hentry⟩
    · obtain ⟨hadm, closed, hconn⟩ := admitted_player hregistered hsees hentry
      exact ⟨uid, closed, hadm, Or.inl ⟨hseat, hconn⟩⟩
    · obtain ⟨hadm, closed, hconn⟩ := admitted_watcher hregistered hr hentry
      exact ⟨uid, closed, hadm, Or.inr ⟨hentry, hconn⟩⟩

/-- Users 1 and 2 are in their room, and user 3 watches their game. -/
theorem broadcast_once_watched : ∃ (ts : List FrontTrans) (f : Front) (r : Room), machine.Run start ts f ∧
    f.server.rm.rooms 1 = some r ∧ r.broadcastTo (f.server.env newcomer 0 0) [3] = [3, 4, 5] ∧
      (r.broadcastTo (f.server.env newcomer 0 0) [3]).Nodup := by
  obtain ⟨ts, f, h, ⟨hpairs, hadm⟩, hconns, hsome⟩ := Machine.Run.exists_of_exec machine start
    (pairing ++ [.opened 3 .room (some 1) newcomer, .opened 4 .room (some 2) newcomer, .opened 5 .spectate (some 3) newcomer,
      .message 5 (some 3) (some (.obj [("optype", .str "spectate_join"), ("room_id", .int 1)])) newcomer 0 0])
    (fun (ts : List FrontTrans) f => (Pairs ts ∧ admissions ts = [(1, 1), (2, 2), (3, 1), (4, 2), (5, 3)]) ∧
      ([1, 2, 3, 4].all fun conn => (f.conns conn).all fun w => w.uri ≠ .spectate) = true ∧
      ((f.server.rm.rooms 1).any fun r => r.broadcastTo (f.server.env newcomer 0 0) [3] = [3, 4, 5]) = true) (by decide +kernel)
  obtain ⟨r, hr, hto⟩ := (Option.any_eq_true _ _).mp hsome
  have hone : OneUser ts := fun conn uid uid' hin hin' => by
    simp only [Admitted, hadm, List.mem_cons, Prod.mk.injEq, List.not_mem_nil, or_false] at hin hin'
    rcases hin with ⟨rfl, rfl⟩ | ⟨rfl, rfl⟩ | ⟨rfl, rfl⟩ | ⟨rfl, rfl⟩ | ⟨rfl, rfl⟩ <;> simpa [eq_comm] using hin'
  have hall : ∀ uid conn, r.spectatorConns uid = some conn → uid ∈ [3] := fun uid conn hentry => by
    obtain ⟨hin, closed, hconn⟩ := admitted_watcher (run_registered h).2 hr hentry
    have hspectate := fun hmem => List.all_eq_true.mp hconns conn hmem
    simp only [hconn, Option.all_some] at hspectate
    simp only [Admitted, hadm, List.mem_cons, Prod.mk.injEq, List.not_mem_nil, or_false] at hin
    rcases hin with ⟨rfl, -⟩ | ⟨rfl, -⟩ | ⟨rfl, -⟩ | ⟨rfl, -⟩ | ⟨-, rfl⟩ <;> simp at hspectate ⊢
  exact ⟨ts, f, r, h, hr, of_decide_eq_true hto,
    (broadcast_once h hpairs hone (fun _ _ h => h) hr (by simp) hall).1⟩

end Front
end FiveStones
