import FiveStones.Lib.Simulation
import FiveStones.Theorems.Settlement
import FiveStones.Theorems.Refusal

/-! The rooms of the server. Whatever arrives on any connection, and whatever the match threads do, each room that is
created lives a run of its own, as `Room.machine` has them, until it is taken away: all that holds of the runs of a room
holds of every room of the server. -/

namespace FiveStones

namespace Room
variable (env : Env) (r : Room) (m : Members) (conns : Dict Uid ConnId)

/-! ### A room without its spectators -/

/-- The room with other spectators. -/
def watchedBy : Room := { r with spectatorConns := conns }

/-- The rooms differ in their spectators at most. -/
def SameGame (r r' : Room) : Prop := r' = r.watchedBy r'.spectatorConns

/-- The same answer of the room with other spectators. -/
def watchedAnswer (x : Room × List Call) : Room × List Call := (x.1.watchedBy conns, x.2)

theorem handleChess_watchedBy : (r.watchedBy conns).handleChess env m =
    (r.handleChess env m).map fun x => (x.1.watchedBy conns, x.2) := by
  simp only [handleChess]
  cases (m.get "row").asInt with
  | error => rfl
  | ok row =>
  cases (m.get "col").asInt with
  | error => rfl
  | ok col =>
  cases (m.get "uid").asUInt64 with
  | error => rfl
  | ok uid =>
    simp only [bind, Except.bind]
    cases Cell.of? row col with
    | none => rfl
    | some c =>
      simp only [watchedBy, apply_ite (Except.map _)]
      rfl

theorem passTurn_watchedBy (uid : Uid) (ms : Nat) :
    (r.watchedBy conns).passTurn env uid ms = (r.passTurn env uid ms).watchedBy conns := by
  by_cases htiming : r.timingStarted = true
  · by_cases hturn : r.turnUid = r.whiteId <;> simp [passTurn, watchedBy, opponentOf, curTotalLeftMs, htiming, hturn]
  · simp [passTurn, watchedBy, opponentOf, htiming]

theorem afterChess_watchedBy (uid : Uid) (ms : Nat) (resp : Members) : (r.watchedBy conns).afterChess env uid ms resp =
    (r.afterChess env uid ms resp).map (watchedAnswer conns) := by
  simp only [afterChess]
  cases (resp.get "result").asBool with
  | error => rfl
  | ok accepted =>
  cases (resp.get "winner").asUInt64 with
  | error => rfl
  | ok winner =>
    simp only [bind, Except.bind, passTurn_watchedBy]
    split_ifs <;> rfl

theorem putChess_watchedBy : (r.watchedBy conns).putChess env m = (r.putChess env m).map (watchedAnswer conns) := by
  simp only [putChess, handleChess_watchedBy]
  cases (m.get "uid").asUInt64 with
  | error => rfl
  | ok uid =>
    cases hchess : r.handleChess env m with
    | error =>
      simp only [bind, Except.bind, apply_ite (Except.map _)]
      rfl
    | ok x =>
      simp only [bind, Except.bind, apply_ite (Except.map _), ← afterChess_watchedBy]
      rfl

theorem timeout_watchedBy : (r.watchedBy conns).timeout env m = (r.timeout env m).map (watchedAnswer conns) := by
  simp only [timeout]
  cases (m.get "uid").asUInt64 with
  | error => rfl
  | ok uid =>
    simp only [bind, Except.bind, apply_ite (Except.map _)]
    rfl

theorem rematchInvite_watchedBy :
    (r.watchedBy conns).rematchInvite env m = (r.rematchInvite env m).map (watchedAnswer conns) := by
  simp only [rematchInvite]
  cases (m.get "uid").asUInt64 with
  | error => rfl
  | ok uid =>
    simp only [bind, Except.bind, apply_ite (Except.map _)]
    rfl

theorem rematchAccept_watchedBy :
    (r.watchedBy conns).rematchAccept env m = (r.rematchAccept env m).map (watchedAnswer conns) := by
  simp only [rematchAccept]
  cases (m.get "uid").asUInt64 with
  | error => rfl
  | ok uid =>
    simp only [bind, Except.bind, apply_ite (Except.map _)]
    rfl

/-- The handlers do not look at the spectators. -/
theorem handleRequest_watchedBy (req : Json) :
    (r.watchedBy conns).handleRequest env req = (r.handleRequest env req).map (watchedAnswer conns) := by
  simp only [handleRequest, putChess_watchedBy, timeout_watchedBy, rematchInvite_watchedBy, rematchAccept_watchedBy]
  cases req.members with
  | error => rfl
  | ok m =>
    simp only [bind, Except.bind]
    cases (m.get "room_id").asUInt64 with
    | error => rfl
    | ok roomId =>
    cases (m.get "optype").asString with
    | error => rfl
    | ok optype =>
      cases handleChat m with
      | error | ok =>
        simp only [apply_ite (Except.map _)]
        rfl

theorem handleExit_watchedBy (uid : Uid) : (r.watchedBy conns).handleExit uid = watchedAnswer conns (r.handleExit uid) := by
  simp only [handleExit, watchedBy]
  cases r.statu <;> rfl

namespace SameGame
variable {env r} {r' r'' : Room} {req : Json} {calls : List Call} {uid : Uid}

theorem refl (r : Room) : SameGame r r := rfl

theorem trans (h : SameGame r r') (h' : SameGame r' r'') : SameGame r r'' := by
  rw [SameGame, h] at h'
  exact h'

theorem seats_iff (h : SameGame r r') : r'.Seats uid ↔ r.Seats uid := by
  rw [h]
  exact Iff.rfl

/-- What one room answers the other answers too, and they have the same game again. -/
theorem handleRequest (h : SameGame r r') (hreq : r'.handleRequest env req = .ok (r'', calls)) :
    ∃ r₁, r.handleRequest env req = .ok (r₁, calls) ∧ SameGame r₁ r'' := by
  rw [h, handleRequest_watchedBy] at hreq
  cases hr : r.handleRequest env req with
  | error => simp [hr, Except.map] at hreq
  | ok x =>
    obtain ⟨rfl, rfl⟩ := Prod.mk.inj (Except.ok.inj (hr ▸ hreq))
    exact ⟨x.1, rfl, rfl⟩

theorem handleExit (h : SameGame r r') (uid : Uid) :
    (r'.handleExit uid).2 = (r.handleExit uid).2 ∧ SameGame (r.handleExit uid).1 (r'.handleExit uid).1 := by
  rw [h, handleExit_watchedBy]
  exact ⟨rfl, rfl⟩

end SameGame

end Room

/-! ### What a step of the server is for its rooms -/

namespace RoomManager
variable {rm rm' : RoomManager} {rid : Rid} {r r' : Room} {uid : Uid} {conn : ConnId}

/-- The rooms differ in their spectators at most. -/
structure Rewatched (rm rm' : RoomManager) : Prop where
  nextRid : rm'.nextRid = rm.nextRid
  rooms : ∀ {rid r'}, rm'.rooms rid = some r' → ∃ r, rm.rooms rid = some r ∧ r.SameGame r'

theorem Rewatched.refl (rm : RoomManager) : Rewatched rm rm := ⟨rfl, fun h => ⟨_, h, rfl⟩⟩

theorem rewatched_removeSpectatorUser (rm : RoomManager) (uid : Uid) : Rewatched rm (rm.removeSpectatorUser uid) where
  nextRid := rfl
  rooms h := by
    obtain ⟨r, hr, rfl⟩ := Option.map_eq_some_iff.mp h
    exact ⟨r, hr, rfl⟩

/-- What a step does to the rooms, with the calls that it makes and the rooms that it creates: it changes spectators at
    most, creates a room, or is an event for one of them. -/
inductive HostStep (rm : RoomManager) : Option (Rid × RoomEvent) → RoomManager → List Call → List Room → Prop
  | watch {rm' : RoomManager} {calls : List Call} : Rewatched rm rm' → (∀ c ∈ calls, c.pays = false) →
      HostStep rm none rm' calls []
  | create (uid1 uid2 : Uid) (now : Int) :
      HostStep rm none (rm.addRoom uid1 uid2 now) [] [Room.create rm.nextRid uid1 uid2 now]
  | request {rid : Rid} {r r' : Room} {env : Env} {req : Json} {calls : List Call} : rm.rooms rid = some r →
      r.handleRequest env req = .ok (r', calls) →
      HostStep rm (some (rid, .request env req)) (rm.setRoom rid r') calls []
  | exit {rid : Rid} {r : Room} {uid : Uid} {rm' : RoomManager} : rm.rooms rid = some r → r.Seats uid →
      rm'.nextRid = rm.nextRid →
      (∀ rid' r', rm'.rooms rid' = some r' → if rid' = rid then r' = (r.handleExit uid).1 else rm.rooms rid' = some r') →
      HostStep rm (some (rid, .exit uid)) rm' (r.handleExit uid).2 []

theorem Consistent.exit (h : Consistent rm) (hfind : rm.findRoom uid = some (rid, r)) :
    HostStep rm (some (rid, .exit uid)) (rm.removeRoomUser uid).1 (rm.removeRoomUser uid).2 [] := by
  obtain ⟨hu, hr⟩ := findRoom_eq_some.mp hfind
  have hcalls : (rm.removeRoomUser uid).2 = (r.handleExit uid).2 := by simp only [removeRoomUser, hfind]
  have hseat : r.Seats uid := by
    obtain ⟨r₀, hr₀, hseat⟩ := h.named hu
    exact Option.some.inj (hr₀.symm.trans hr) ▸ hseat
  rw [hcalls]
  refine .exit hr hseat (removeRoomUser_mapStep rm uid).nextRid fun rid' r' hr' => ?_
  rw [h.rooms_removeRoomUser] at hr'
  split at hr'
  · cases hr'
  rw [hu] at hr'
  by_cases heq : rid' = rid
  · subst heq
    rw [if_pos rfl, hr] at hr'
    rw [if_pos rfl]
    exact (Option.some.inj hr').symm
  · rw [if_neg (by simpa using Ne.symm heq)] at hr'
    rw [if_neg heq]
    exact hr'

variable {act : Option (Rid × RoomEvent)} {calls : List Call} {rooms : List Room} {e : RoomEvent}

theorem HostStep.nextRid_le (hs : HostStep rm act rm' calls rooms) : rm.nextRid ≤ rm'.nextRid := by
  cases hs with
  | watch h => exact h.nextRid.ge
  | create => exact Nat.le_succ _
  | request => exact Nat.le_refl _
  | exit _ _ hnext => exact hnext.ge

theorem HostStep.nextRid_le_succ (hs : HostStep rm act rm' calls rooms) : rm'.nextRid ≤ rm.nextRid + 1 := by
  cases hs with
  | watch h => exact h.nextRid.le.trans (Nat.le_succ _)
  | create => exact Nat.le_refl _
  | request => exact Nat.le_succ _
  | exit _ _ hnext => exact hnext.le.trans (Nat.le_succ _)

/-- Any other step leaves the game of a room alone. -/
theorem HostStep.other (hs : HostStep rm act rm' calls rooms) (hc : Consistent rm) (hborn : rid < rm.nextRid)
    (hno : ∀ e, act ≠ some (rid, e)) (hr' : rm'.rooms rid = some r') : ∃ r, rm.rooms rid = some r ∧ r.SameGame r' := by
  cases hs with
  | watch h => exact h.rooms hr'
  | create =>
    rw [hc.addRoom_rooms, if_neg (Nat.ne_of_lt hborn)] at hr'
    exact ⟨r', hr', .refl r'⟩
  | @request rid' =>
    have hne : rid ≠ rid' := fun heq => hno _ (by rw [heq])
    exact ⟨r', (setRoom_ne hne).symm.trans hr', .refl r'⟩
  | @exit rid' _ _ _ _ _ _ hrooms =>
    have hne : rid ≠ rid' := fun heq => hno _ (by rw [heq])
    have hroom := hrooms _ _ hr'
    rw [if_neg hne] at hroom
    exact ⟨r', hroom, .refl r'⟩

/-- A step for a room is a step of the room. -/
theorem HostStep.own (hs : HostStep rm (some (rid, e)) rm' calls rooms) (hroom : ∀ r', rm.rooms rid = some r' → r.SameGame r') :
    ∃ r₁, Room.machine.step r e = some (r₁, calls) ∧ (∀ r', rm'.rooms rid = some r' → r₁.SameGame r') ∧
      RoomTrans.SeatedExit ⟨r, e, r₁, calls⟩ := by
  cases hs with
  | @request _ r₀ r₂ env req _ hr hreq =>
    obtain ⟨r₁, hreq', hsame⟩ := (hroom r₀ hr).handleRequest hreq
    refine ⟨r₁, congrArg Except.toOption hreq', fun r' hr' => ?_, nofun⟩
    obtain rfl := Option.some.inj (setRoom_self.symm.trans hr')
    exact hsame
  | @exit _ r₀ uid _ hr hseat _ hrooms =>
    obtain ⟨hcalls, hsame⟩ := (hroom r₀ hr).handleExit uid
    refine ⟨(r.handleExit uid).1, by rw [hcalls]; rfl, fun r' hr' => ?_, fun v hv => ?_⟩
    · have heq := hrooms _ _ hr'
      rw [if_pos rfl] at heq
      exact heq ▸ hsame
    · obtain rfl := RoomEvent.exit.inj hv
      exact (hroom r₀ hr).seats_iff.mp hseat

/-- A room that the server holds after a step was there before, or is a new one. -/
theorem HostStep.origin (hs : HostStep rm act rm' calls rooms) (hc : Consistent rm) (hr' : rm'.rooms rid = some r') :
    (∃ r, rm.rooms rid = some r) ∨ ∃ r₀ ∈ rooms, r₀.roomId = rid := by
  cases hs with
  | watch h =>
    obtain ⟨r, hr, -⟩ := h.rooms hr'
    exact Or.inl ⟨r, hr⟩
  | create =>
    rw [hc.addRoom_rooms] at hr'
    split at hr'
    · rename_i heq
      exact Or.inr ⟨_, List.mem_singleton_self _, heq.symm⟩
    · exact Or.inl ⟨r', hr'⟩
  | @request rid' r _ _ _ _ hr =>
    by_cases heq : rid = rid'
    · exact Or.inl ⟨r, heq ▸ hr⟩
    · exact Or.inl ⟨r', (setRoom_ne heq).symm.trans hr'⟩
  | @exit rid' r _ _ hr _ _ hrooms =>
    have hroom := hrooms _ _ hr'
    split at hroom
    · rename_i heq
      exact Or.inl ⟨r, heq ▸ hr⟩
    · exact Or.inl ⟨r', hroom⟩

theorem HostStep.created (hs : HostStep rm act rm' calls rooms) (hc : Consistent rm) (hr : r ∈ rooms) :
    (∃ now, r = Room.create r.roomId r.whiteId r.blackId now) ∧ r.roomId < rm'.nextRid ∧
      ∀ r', rm'.rooms r.roomId = some r' → r.SameGame r' := by
  cases hs with
  | watch | request | exit => cases hr
  | create uid1 uid2 now =>
    obtain rfl := List.mem_singleton.mp hr
    refine ⟨⟨now, rfl⟩, Nat.lt_succ_self _, fun r' hr' => ?_⟩
    rw [hc.addRoom_rooms, if_pos (show (Room.create rm.nextRid uid1 uid2 now).roomId = rm.nextRid from rfl)] at hr'
    exact Option.some.inj hr' ▸ .refl _

theorem HostStep.paid {c : Call} (hs : HostStep rm act rm' calls rooms) (hcall : c ∈ calls) (hpays : c.pays = true) :
    ∃ rid e r, act = some (rid, e) ∧ rm.rooms rid = some r := by
  cases hs with
  | watch _ hno => simp [hno c hcall] at hpays
  | create => cases hcall
  | request hr | exit hr => exact ⟨_, _, _, rfl, hr⟩

end RoomManager

/-- A call that a callback makes. -/
def FrontObs.call : FrontObs → Option Call
  | .server (.call c) => some c
  | .server _ | .admitted .. | .refused .. | .answer .. => none

/-- A room that a match thread creates. -/
def FrontObs.room : FrontObs → Option Room
  | .server (.created _ r) => some r
  | .server (.round _) | .server (.popped ..) | .server (.absent ..) | .server (.pushed ..) | .server (.removed ..)
  | .server (.call _) | .admitted .. | .refused .. | .answer .. => none

/-- The room that an event reaches, and what the event is for that room. -/
def FrontEvent.forRoom (f : Front) : FrontEvent → Option (Rid × RoomEvent)
  | message conn (some uid) (some req) selectById now later =>
    if f.conns conn = some ⟨.room, false⟩ then
      (f.server.rm.findRoom uid).map fun x => (x.1, .request (f.server.env selectById now later) req)
    else none
  | closed conn (some uid) =>
    if f.conns conn = some ⟨.room, false⟩ then (f.server.rm.findRoom uid).map fun x => (x.1, .exit uid) else none
  | turn .. | opened .. | message .. | closed .. | drop .. => none

/-- What a step is for the room `rid`. -/
def FrontTrans.inRoom (rid : Rid) (x : FrontTrans) : Option (RoomEvent × List Call) :=
  (x.event.forRoom x.before).bind fun y => if y.1 = rid then some (y.2, x.out.filterMap FrontObs.call) else none

namespace Front
variable {f f' : Front} {e : FrontEvent} {out : List FrontObs} {uid : Uid} {conn : ConnId} {k : Pool} {r : Room}
  {ts us vs : List FrontTrans} {x : FrontTrans}

theorem call_calls (calls : List Call) : (calls.map fun c => FrontObs.server (.call c)).filterMap FrontObs.call = calls := by
  rw [List.filterMap_map]
  exact List.filterMap_some

theorem room_calls (calls : List Call) : (calls.map fun c => FrontObs.server (.call c)).filterMap FrontObs.room = [] := by
  rw [List.filterMap_map, List.filterMap_eq_nil_iff]
  exact fun _ _ => rfl

theorem forRoom_room {req : Json} {selectById : Uid → Option Members} {now later : Int}
    (hconn : f.conns conn = some ⟨.room, false⟩) : (FrontEvent.message conn (some uid) (some req) selectById now later).forRoom f =
      (f.server.rm.findRoom uid).map fun x => (x.1, .request (f.server.env selectById now later) req) := if_pos hconn

theorem forRoom_elsewhere {uri : WsUri} {user : Option Uid} {body : Option Json} {selectById : Uid → Option Members}
    {now later : Int} (hconn : f.conns conn = some ⟨uri, false⟩) (huri : uri ≠ .room) :
    (FrontEvent.message conn user body selectById now later).forRoom f = none := by
  have hne : f.conns conn ≠ some ⟨.room, false⟩ := by simp [hconn, huri]
  cases user <;> cases body <;> simp [FrontEvent.forRoom, hne]

theorem forRoom_closed {uri : WsUri} (hconn : f.conns conn = some ⟨uri, false⟩) :
    (FrontEvent.closed conn (some uid)).forRoom f =
      if uri = .room then (f.server.rm.findRoom uid).map fun x => (x.1, .exit uid) else none := by
  simp [FrontEvent.forRoom, hconn]

/-- A hall message calls nobody, and creates no room. -/
theorem wsmsgGameHall_quiet {s s' : Server} {selectById : Uid → Option Members} {body : Option Json} {obs : List Obs}
    {resp : Members} (h : s.wsmsgGameHall selectById uid body = .ok (s', obs, resp)) :
    (obs.map FrontObs.server).filterMap FrontObs.call = [] ∧ (obs.map FrontObs.server).filterMap FrontObs.room = [] := by
  have hmatch : ∀ {t : Server} {o : List Obs},
      s.matchStart selectById uid = .ok (t, o) ∨ s.matchStop selectById uid = .ok (t, o) →
      (o.map FrontObs.server).filterMap FrontObs.call = [] ∧ (o.map FrontObs.server).filterMap FrontObs.room = [] := by
    intro t o h
    rcases h with h | h
    all_goals
      obtain ⟨pool?, -, h⟩ := ok_of_bind h
      cases pool? <;>
      · obtain ⟨-, rfl⟩ := Prod.mk.inj (Except.ok.inj h)
        exact ⟨rfl, rfl⟩
  unfold Server.wsmsgGameHall at h
  split at h
  · cases h
    exact ⟨rfl, rfl⟩
  · obtain ⟨m, -, h⟩ := ok_of_bind h
    obtain ⟨optype, -, h⟩ := ok_of_bind h
    split at h
    · obtain ⟨⟨t, o⟩, ht, h⟩ := ok_of_bind h
      cases h
      exact hmatch (Or.inl ht)
    split at h
    · obtain ⟨⟨t, o⟩, ht, h⟩ := ok_of_bind h
      cases h
      exact hmatch (Or.inr ht)
    split at h <;> cases h <;> exact ⟨rfl, rfl⟩

theorem message_host {s : Server} {uri : WsUri} {body : Option Json} {selectById : Uid → Option Members} {now later : Int}
    (hconn : f.conns conn = some ⟨uri, false⟩) (h : onMessage f.server conn uri uid body selectById now later = .ok (s, out)) :
    RoomManager.HostStep f.server.rm ((FrontEvent.message conn (some uid) body selectById now later).forRoom f) s.rm
      (out.filterMap FrontObs.call) (out.filterMap FrontObs.room) := by
  cases uri with
  | hall =>
    obtain ⟨⟨s, obs, resp⟩, hmsg, h⟩ := ok_of_bind h
    obtain ⟨rfl, rfl⟩ := Prod.mk.inj (Except.ok.inj h)
    obtain ⟨queues, rfl⟩ := Server.wsmsgGameHall_inv hmsg
    obtain ⟨hcall, hroom⟩ := wsmsgGameHall_quiet hmsg
    rw [forRoom_elsewhere hconn (by decide), List.filterMap_append, List.filterMap_append, hcall, hroom]
    exact .watch (.refl _) (by simp [FrontObs.call])
  | room =>
    obtain ⟨⟨rm, calls⟩, hmsg, h⟩ := ok_of_bind h
    obtain ⟨rfl, rfl⟩ := Prod.mk.inj (Except.ok.inj h)
    rw [call_calls, room_calls]
    cases body with
    | none =>
      rcases RoomManager.wsmsgGameRoom_cases hmsg with ⟨rfl, resp, rfl⟩ | ⟨_, _, _, _, -, hbody, -⟩
      · exact .watch (.refl _) (by simp [Call.pays])
      · cases hbody
    | some req =>
      rw [forRoom_room hconn]
      cases hfind : f.server.rm.findRoom uid with
      | none =>
        simp only [RoomManager.wsmsgGameRoom, hfind, Except.ok.injEq, Prod.mk.injEq] at hmsg
        obtain ⟨rfl, rfl⟩ := hmsg
        exact .watch (.refl _) (by simp [Call.pays])
      | some x =>
        simp only [RoomManager.wsmsgGameRoom, hfind] at hmsg
        obtain ⟨⟨r', calls'⟩, hreq, hmsg⟩ := ok_of_bind hmsg
        obtain ⟨rfl, rfl⟩ := Prod.mk.inj (Except.ok.inj hmsg)
        exact .request (RoomManager.findRoom_eq_some.mp hfind).2 hreq
  | spectate =>
    obtain ⟨⟨s, o⟩, hmsg, h⟩ := ok_of_bind h
    obtain ⟨rfl, rfl⟩ := Prod.mk.inj (Except.ok.inj h)
    rw [forRoom_elsewhere hconn (by decide)]
    rcases Server.wsmsgSpectate_inv hmsg with ⟨rfl, resp, rfl⟩ | ⟨rid, r, resp, hr, -, rfl, rfl⟩
    · exact .watch (.refl _) (by simp [FrontObs.call])
    · refine .watch ⟨rfl, fun {rid' r'} hr' => ?_⟩ (by simp [FrontObs.call])
      by_cases heq : rid' = rid
      · subst heq
        obtain rfl := Option.some.inj (RoomManager.setRoom_self.symm.trans hr')
        exact ⟨r, hr, rfl⟩
      · exact (RoomManager.rewatched_removeSpectatorUser _ uid).rooms ((RoomManager.setRoom_ne heq).symm.trans hr')
  | other =>
    obtain ⟨rfl, rfl⟩ := Prod.mk.inj (Except.ok.inj h)
    rw [forRoom_elsewhere hconn (by decide)]
    exact .watch (.refl _) (by simp)

theorem step_host (hc : f.server.rm.Consistent) (h : machine.step f e = some (f', out)) :
    RoomManager.HostStep f.server.rm (e.forRoom f) f'.server.rm (out.filterMap FrontObs.call)
      (out.filterMap FrontObs.room) := by
  cases e with
  | turn k selectById now =>
    cases step_inv h with
    | turn hturn =>
      cases hturn with
      | @seat uid1 uid2 => exact .create uid1 uid2 now
      | round | walk | pop | absent | back | lost => exact .watch (.refl _) (by simp [FrontObs.call])
  | opened =>
    cases step_inv h with
    | entered | twice | roomless | hall | room => exact .watch (.refl _) (by simp [FrontObs.call])
  | message conn user body selectById now later =>
    simp only [machine] at h
    split at h
    · cases h
      exact .watch (.refl _) (by simp)
    · rename_i hconn
      split at h
      · cases h
      · rename_i hmsg
        cases h
        exact message_host hconn hmsg
    · cases h
  | closed conn user =>
    cases step_inv h with
    | left hconn hgone =>
      have hnone : (FrontEvent.closed conn user).forRoom f = none := by
        rcases hgone with rfl | rfl
        · rfl
        · cases user with
          | none => rfl
          | some uid => exact forRoom_closed hconn
      rw [hnone]
      exact .watch (.refl _) (by simp)
    | leftHall hconn =>
      rw [forRoom_closed hconn]
      exact .watch (.refl _) (by simp)
    | leftSpectate hconn =>
      rw [forRoom_closed hconn]
      exact .watch (RoomManager.rewatched_removeSpectatorUser _ _) (by simp)
    | @leftRoom _ uid hconn =>
      rw [call_calls, room_calls, forRoom_closed hconn, if_pos rfl]
      cases hfind : f.server.rm.findRoom uid with
      | none =>
        simp only [RoomManager.removeRoomUser, hfind]
        exact .watch (.refl _) (by simp)
      | some x => exact hc.exit hfind
  | drop =>
    cases step_inv h with
    | drop => exact .watch (.refl _) (by simp)

/-! ### Runs -/

/-- The room of the server under this id has the game of `r`, or has been taken away. -/
structure Shows (rid : Rid) (f : Front) (r : Room) : Prop where
  consistent : f.server.rm.Consistent
  born : rid < f.server.rm.nextRid
  room : ∀ r', f.server.rm.rooms rid = some r' → r.SameGame r'

theorem Shows.other {rid : Rid} (hi : Shows rid f r) (h : machine.step f e = some (f', out))
    (hno : FrontTrans.inRoom rid ⟨f, e, f', out⟩ = none) : Shows rid f' r := by
  have hs := step_host hi.consistent h
  refine ⟨(step_inv h).consistent hi.consistent, hi.born.trans_le hs.nextRid_le, fun r' hr' => ?_⟩
  obtain ⟨r₀, hr₀, hsame⟩ := hs.other hi.consistent hi.born (fun e' hact => by simp [FrontTrans.inRoom, hact] at hno) hr'
  exact (hi.room r₀ hr₀).trans hsame

theorem Shows.own {rid : Rid} {e' : RoomEvent} {calls : List Call} (hi : Shows rid f r)
    (h : machine.step f e = some (f', out)) (hview : FrontTrans.inRoom rid ⟨f, e, f', out⟩ = some (e', calls)) :
    ∃ r₁, Room.machine.step r e' = some (r₁, calls) ∧ Shows rid f' r₁ ∧ RoomTrans.SeatedExit ⟨r, e', r₁, calls⟩ := by
  obtain ⟨⟨rid', e₁⟩, hact, hview⟩ := Option.bind_eq_some_iff.mp hview
  split at hview
  · rename_i heq
    obtain ⟨rfl, rfl⟩ := Prod.mk.inj (Option.some.inj hview)
    obtain rfl : rid' = rid := heq
    have hs := step_host hi.consistent h
    rw [show e.forRoom f = some (rid', e₁) from hact] at hs
    obtain ⟨r₁, hstep, hroom, hseated⟩ := hs.own hi.room
    exact ⟨r₁, hstep, ⟨(step_inv h).consistent hi.consistent, hi.born.trans_le hs.nextRid_le, hroom⟩, hseated⟩
  · cases hview

/-- The rooms of a run of the server, with what reached them since they were created. -/
structure Hosts (ts : List FrontTrans) (f : Front) : Prop where
  runs : ∀ us x vs r₀, ts = us ++ x :: vs → r₀ ∈ x.out.filterMap FrontObs.room →
    ∃ (ws : List RoomTrans) (r : Room), Room.machine.Run r₀ ws r ∧
      ws.map (fun y => (y.event, y.out)) = vs.filterMap (FrontTrans.inRoom r₀.roomId) ∧
      (∀ y ∈ ws, y.SeatedExit) ∧ ∀ r', f.server.rm.rooms r₀.roomId = some r' → r.SameGame r'
  held : ∀ rid r, f.server.rm.rooms rid = some r →
    ∃ us x vs r₀, ts = us ++ x :: vs ∧ r₀ ∈ x.out.filterMap FrontObs.room ∧ r₀.roomId = rid
  paid : ∀ us x vs c, ts = us ++ x :: vs → c ∈ x.out.filterMap FrontObs.call → c.pays = true →
    ∃ us' y vs' r₀, us = us' ++ y :: vs' ∧ r₀ ∈ y.out.filterMap FrontObs.room ∧ (x.inRoom r₀.roomId).isSome = true

theorem run_consistent (h : machine.Run start ts f) : f.server.rm.Consistent :=
  h.invariant (I := fun f => f.server.rm.Consistent) RoomManager.consistent_empty fun hi hs => (step_inv hs).consistent hi

theorem run_nextRid_le (h : machine.Run start ts f) : f.server.rm.nextRid ≤ ts.length + 1 := by
  refine (h.invariant_along (I := fun ts f => f.server.rm.Consistent ∧ f.server.rm.nextRid ≤ ts.length + 1)
    (C := fun _ _ => True) ⟨RoomManager.consistent_empty, Nat.le_refl _⟩ (fun _ _ _ _ => trivial) ?_).2
  rintro ts f e f' out ⟨hc, hle⟩ hs -
  refine ⟨(step_inv hs).consistent hc, ?_⟩
  rw [List.length_append, List.length_singleton]
  exact (step_host hc hs).nextRid_le_succ.trans (Nat.succ_le_succ hle)

/-- The code counts the rooms in 64 bits, which no run of fewer than `2 ^ 64` steps gets past. -/
theorem run_roomId_lt (h : machine.Run start ts f) (hlen : ts.length < 2 ^ 64) {rid : Rid}
    (hr : f.server.rm.rooms rid = some r) : r.roomId < 2 ^ 64 := by
  obtain ⟨hid, hborn⟩ := (run_consistent h).ids hr
  calc r.roomId = rid := hid
    _ ≤ ts.length := Nat.le_of_lt_succ (Nat.lt_of_lt_of_le hborn (run_nextRid_le h))
    _ < 2 ^ 64 := hlen

/-- Every room that the server holds has been created in the run. -/
theorem run_held (h : machine.Run start ts f) {rid : Rid} (hr : f.server.rm.rooms rid = some r) :
    ∃ us x vs r₀, ts = us ++ x :: vs ∧ r₀ ∈ x.out.filterMap FrontObs.room ∧ r₀.roomId = rid := by
  refine (h.invariant_along (I := fun ts f => f.server.rm.Consistent ∧ ∀ rid r, f.server.rm.rooms rid = some r →
    ∃ us x vs r₀, ts = us ++ x :: vs ∧ r₀ ∈ x.out.filterMap FrontObs.room ∧ r₀.roomId = rid) (C := fun _ _ => True)
    ⟨RoomManager.consistent_empty, nofun⟩ (fun _ _ _ _ => trivial) ?_).2 rid r hr
  rintro ts f e f' out ⟨hc, hi⟩ hs -
  refine ⟨(step_inv hs).consistent hc, fun rid r hr => ?_⟩
  rcases (step_host hc hs).origin hc hr with ⟨r₁, hr₁⟩ | ⟨r₀, hr₀, hid⟩
  · obtain ⟨us, x, vs, r₀, rfl, hr₀, hid⟩ := hi rid r₁ hr₁
    exact ⟨us, x, vs ++ [⟨f, e, f', out⟩], r₀, by simp, hr₀, hid⟩
  · exact ⟨ts, ⟨f, e, f', out⟩, [], r₀, rfl, hr₀, hid⟩

/-- Each room of the server lives a run of a room: from its creation on it takes a step for every message of its players
    and for every departure of one, with the same calls, and nothing else changes its game. Every room is one that a match
    thread has created, and only such a room books wins and losses. -/
theorem hosts_rooms (h : machine.Run start ts f) : Hosts ts f where
  runs us x vs r₀ heq hr₀ := by
    subst heq
    obtain ⟨hus, hs, hvs⟩ := h.split
    have hc := run_consistent hus
    have hcreated := (step_host hc hs).created hc hr₀
    have hshows : Shows r₀.roomId x.after r₀ := ⟨(step_inv hs).consistent hc, hcreated.2.1, hcreated.2.2⟩
    obtain ⟨ws, r, hrun, hi, hmap, hseated⟩ := hvs.component (N := Room.machine) (Q := RoomTrans.SeatedExit)
      (fun hi hs hno => hi.other hs hno) (fun hi hs hview => hi.own hs hview) hshows
    exact ⟨ws, r, hrun, hmap, hseated, hi.room⟩
  held rid r hr := run_held h hr
  paid us x vs c heq hcall hpays := by
    subst heq
    obtain ⟨hus, hs, -⟩ := h.split
    obtain ⟨rid, e, r, hact, hr⟩ := (step_host (run_consistent hus) hs).paid hcall hpays
    obtain ⟨us', y, vs', r₀, heq, hr₀, hid⟩ := run_held hus hr
    exact ⟨us', y, vs', r₀, heq, hr₀, by simp [FrontTrans.inRoom, hact, hid]⟩

/-- The room of users 1 and 2, until user 1 has left it. -/
theorem hosts_rooms_left : ∃ (ts : List FrontTrans) (f : Front), machine.Run start ts f ∧
    ts.flatMap (fun x => x.out.filterMap FrontObs.room) ≠ [] ∧ Hosts ts f := by
  obtain ⟨ts, f, h, hroom⟩ := Machine.Run.exists_of_exec machine start
    (pairing ++ [.opened 3 .room (some 1) newcomer, .opened 4 .room (some 2) newcomer, .closed 3 (some 1)])
    (fun (ts : List FrontTrans) _ => (ts.flatMap fun x => x.out.filterMap FrontObs.room).isEmpty = false) (by decide +kernel)
  exact ⟨ts, f, h, by simpa using hroom, hosts_rooms h⟩

end Front

/-! ### Who is paid -/

namespace Room
variable {env : Env} {r r' : Room} {m : Members} {uid loser : Uid} {out : List Call} {e : RoomEvent}

theorem opponentOf_seats (r : Room) (uid : Uid) : r.Seats (r.opponentOf uid) := by
  unfold opponentOf
  split
  · exact Or.inr rfl
  · exact Or.inl rfl

/-- Only a player of the room loses. -/
theorem step_loser (hw : r.whiteId ≠ 0) (hb : r.blackId ≠ 0) (hturn : r.Seats r.turnUid)
    (hs : machine.step r e = some (r', out)) (hlose : loser ∈ loses out) : r.Seats loser := by
  rcases step_cases hw hb hs with ⟨env, req, m, rfl, -, hreq⟩ | ⟨uid, rfl, rfl, rfl⟩
  · cases hreq with
    | idle | placed | invite | accept => simp [loses] at hlose
    | timeUp =>
      obtain rfl : loser = r.turnUid := by simpa [timedOut, loses] using hlose
      exact hturn
    | walkover | claimed | won =>
      obtain rfl : loser = r.opponentOf _ := by simpa [loses] using hlose
      exact r.opponentOf_seats _
  · simp only [handleExit] at hlose
    split at hlose
    · obtain rfl : loser = _ := by simpa [loses] using hlose
      split
      · exact Or.inl rfl
      · exact Or.inr rfl
    · simp [loses] at hlose

end Room

namespace Front
variable {f : Front} {ts : List FrontTrans} {rid : Rid} {r : Room}

/-- The match threads seat two different users, and nobody whose id is 0. -/
def Pairs (ts : List FrontTrans) : Prop :=
  ∀ x ∈ ts, ∀ r₀ ∈ x.out.filterMap FrontObs.room, r₀.whiteId ≠ 0 ∧ r₀.blackId ≠ 0 ∧ r₀.whiteId ≠ r₀.blackId

instance (ts : List FrontTrans) : Decidable (Pairs ts) := inferInstanceAs (Decidable (∀ x ∈ ts, _))

theorem run_seated (h : machine.Run start ts f) (hpairs : Pairs ts) (hr : f.server.rm.rooms rid = some r) :
    r.whiteId ≠ 0 ∧ r.blackId ≠ 0 ∧ r.whiteId ≠ r.blackId ∧ r.Seats r.turnUid := by
  obtain ⟨us, x, vs, r₀, rfl, hr₀, rfl⟩ := run_held h hr
  obtain ⟨ws, r₁, hrun, -, -, hroom⟩ := (hosts_rooms h).runs us x vs r₀ rfl hr₀
  obtain ⟨hw, hb, hne⟩ := hpairs x (by simp) r₀ hr₀
  obtain ⟨hus, hs, -⟩ := h.split
  have hc := run_consistent hus
  obtain ⟨⟨now, hnew⟩, -⟩ := (step_host hc hs).created hc hr₀
  rw [hnew] at hrun
  have hseated := Room.run_seated hrun hw hb
  rw [hroom r hr]
  exact ⟨hseated.white_ne_zero hw hb, hseated.black_ne_zero hw hb, hseated.seats_ne hne, hseated.turn⟩

/-- Whatever the server does, a step of it books nothing, or it ends the running game of one room, and books one win and
    one loss, the loss for a player of that room and the win for another user. -/
theorem settles_everywhere (h : machine.Run start ts f) (hpairs : Pairs ts) : ∀ x ∈ ts,
    (wins (x.out.filterMap FrontObs.call) = [] ∧ loses (x.out.filterMap FrontObs.call) = []) ∨
      ∃ rid r winner loser, x.before.server.rm.rooms rid = some r ∧ r.statu = .gameStart ∧
        (∀ r', x.after.server.rm.rooms rid = some r' → r'.statu = .gameOver) ∧ winner ≠ loser ∧ r.Seats loser ∧
        wins (x.out.filterMap FrontObs.call) = [winner] ∧ loses (x.out.filterMap FrontObs.call) = [loser] := by
  intro x hx
  obtain ⟨us, vs, rfl, hus, hs⟩ := h.split_mem hx
  have hhost := step_host (run_consistent hus) hs
  by_cases hpays : ∃ c ∈ x.out.filterMap FrontObs.call, c.pays = true
  · obtain ⟨c, hcall, hpays⟩ := hpays
    obtain ⟨rid, e, r, hact, hr⟩ := hhost.paid hcall hpays
    obtain ⟨hw, hb, hne, hturn⟩ := run_seated hus (fun y hy => hpairs y (by simp [hy])) hr
    rw [hact] at hhost
    obtain ⟨r₁, hstep, hroom, -⟩ := hhost.own (r := r) fun r' hr' => Option.some.inj (hr.symm.trans hr') ▸ .refl r
    rcases Room.step_settles hne hw hb hstep with ⟨hends, winner, loser, hdiff, hwins, hloses⟩ | ⟨-, hnothing⟩
    · refine Or.inr ⟨rid, r, winner, loser, hr, hends.1, fun r' hr' => ?_, hdiff,
        Room.step_loser hw hb hturn hstep (by simp [hloses]), hwins, hloses⟩
      rw [hroom r' hr']
      exact hends.2
    · exact Or.inl hnothing
  · have hnone : ∀ c ∈ x.out.filterMap FrontObs.call, c.pays = false := by simpa using hpays
    refine Or.inl ⟨List.filterMap_eq_nil_iff.mpr fun c hc => ?_, List.filterMap_eq_nil_iff.mpr fun c hc => ?_⟩ <;>
      · have hno := hnone c hc
        cases c <;> simp_all [Call.pays]

/-- User 1 leaves the room that the match thread has made for 1 and 2. -/
theorem settles_everywhere_left : ∃ (ts : List FrontTrans) (f : Front), machine.Run start ts f ∧
    wins ((Machine.log ts).filterMap FrontObs.call) = [2] ∧ ∀ x ∈ ts,
      (wins (x.out.filterMap FrontObs.call) = [] ∧ loses (x.out.filterMap FrontObs.call) = []) ∨
        ∃ rid r winner loser, x.before.server.rm.rooms rid = some r ∧ r.statu = .gameStart ∧
          (∀ r', x.after.server.rm.rooms rid = some r' → r'.statu = .gameOver) ∧ winner ≠ loser ∧ r.Seats loser ∧
          wins (x.out.filterMap FrontObs.call) = [winner] ∧ loses (x.out.filterMap FrontObs.call) = [loser] := by
  obtain ⟨ts, f, h, hpairs, hwins⟩ := Machine.Run.exists_of_exec machine start
    (pairing ++ [.opened 3 .room (some 1) newcomer, .opened 4 .room (some 2) newcomer, .closed 3 (some 1)])
    (fun (ts : List FrontTrans) _ => Pairs ts ∧ wins ((Machine.log ts).filterMap FrontObs.call) = [2]) (by decide +kernel)
  exact ⟨ts, f, h, hwins, settles_everywhere h hpairs⟩

end Front
end FiveStones
