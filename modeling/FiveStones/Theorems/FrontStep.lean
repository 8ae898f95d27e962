import FiveStones.Front
import FiveStones.Theorems.ServerStep

/-! What a callback can do to the tables of connections and to the rooms. The results on connections are
derived from this list and never look at the code again. -/

namespace FiveStones

namespace Server
variable {s s' : Server} {uid : Uid} {conn : ConnId} {selectById : Uid → Option Members} {out : List Obs}

@[simp] theorem connect_om : (s.connect conn).om = s.om := rfl
@[simp] theorem connect_rm : (s.connect conn).rm = s.rm := rfl
@[simp] theorem connect_isOpen : (s.connect conn).isOpen = Function.update s.isOpen conn true := rfl
@[simp] theorem disconnect_om : (s.disconnect conn).om = s.om := rfl
@[simp] theorem disconnect_rm : (s.disconnect conn).rm = s.rm := rfl
@[simp] theorem disconnect_isOpen : (s.disconnect conn).isOpen = Function.update s.isOpen conn false := rfl

@[simp] theorem connect_connect : (s.connect conn).connect conn = s.connect conn := by
  simp [connect]

theorem inGameHall_connect (h : s.om.gameHall uid ≠ some conn) : (s.connect conn).inGameHall uid = s.inGameHall uid := by
  unfold inGameHall OnlineManager.inGameHall
  simp only [connect_om, connect_isOpen]
  cases hentry : s.om.gameHall uid with
  | none => rfl
  | some conn' =>
    have hne : conn' ≠ conn := fun heq => h (heq ▸ hentry)
    simp [OnlineManager.connIsOnline, hne]

theorem inGameRoom_connect (h : s.om.gameRoom uid ≠ some conn) : (s.connect conn).inGameRoom uid = s.inGameRoom uid := by
  unfold inGameRoom OnlineManager.inGameRoom
  simp only [connect_om, connect_isOpen]
  cases hentry : s.om.gameRoom uid with
  | none => rfl
  | some conn' =>
    have hne : conn' ≠ conn := fun heq => h (heq ▸ hentry)
    simp [OnlineManager.connIsOnline, hne]

theorem wsopenGameHall_eq_ite : s.wsopenGameHall uid conn =
    if (s.connect conn).inGameHall uid || (s.connect conn).inGameRoom uid then s.connect conn
    else { s.connect conn with om := s.om.enterGameHall uid conn } := rfl

theorem wsopenGameRoom_eq_ite : s.wsopenGameRoom uid conn =
    if (s.connect conn).inGameRoom uid then s.connect conn
    else
      let om := if (s.connect conn).inGameHall uid then s.om.exitGameHall uid else s.om
      match s.rm.getRoomByUid uid with
      | none => { s.connect conn with om }
      | some _ => { s.connect conn with om := om.enterGameRoom uid conn } := by
  by_cases hroom : (s.connect conn).inGameRoom uid = true
  · rw [if_pos hroom]
    exact if_pos hroom
  rw [if_neg hroom]
  refine (if_neg hroom).trans ?_
  by_cases hhall : (s.connect conn).inGameHall uid = true
  · rw [if_pos hhall]
    simp only [connect] at hhall ⊢
    cases hr : s.rm.getRoomByUid uid <;> simp only [hhall, ↓reduceIte, hr]
  · rw [if_neg hhall]
    simp only [connect] at hhall ⊢
    cases hr : s.rm.getRoomByUid uid <;> simp only [hhall, Bool.false_eq_true, ↓reduceIte, hr]

/-- A hall message changes the queues at most. -/
theorem wsmsgGameHall_inv {body : Option Json} {resp : Members}
    (h : s.wsmsgGameHall selectById uid body = .ok (s', out, resp)) : ∃ queues, s' = { s with queues } := by
  have hmatch : ∀ {t : Server} {o : List Obs},
      s.matchStart selectById uid = .ok (t, o) ∨ s.matchStop selectById uid = .ok (t, o) →
      ∃ queues, t = { s with queues } := by
    intro t o h
    rcases h with h | h
    all_goals
      obtain ⟨pool?, -, h⟩ := ok_of_bind h
      cases pool? with
      | none =>
        obtain ⟨rfl, -⟩ := Prod.mk.inj (Except.ok.inj h)
        exact ⟨_, rfl⟩
      | some pool =>
        obtain ⟨rfl, -⟩ := Prod.mk.inj (Except.ok.inj h)
        exact ⟨_, rfl⟩
  unfold wsmsgGameHall at h
  split at h
  · cases h
    exact ⟨_, rfl⟩
  · rename_i req
    obtain ⟨m, -, h⟩ := ok_of_bind h
    obtain ⟨optype, -, h⟩ := ok_of_bind h
    split at h
    · obtain ⟨⟨t, o⟩, ht, h⟩ := ok_of_bind h
      cases h
      exact hmatch (Or.inl ht)
    split at h
    · obtain ⟨⟨t, o⟩, ht, h⟩ := ok_of_bind h
      cases h
      exact hmatch (Or.inr ht)
    split at h
    · cases h
      exact ⟨_, rfl⟩
    · cases h
      exact ⟨_, rfl⟩

/-- The room manager after the user has joined the spectators of `r`. -/
def joined (s : Server) (rid : Rid) (r : Room) (uid : Uid) (conn : ConnId) : RoomManager :=
  (s.rm.removeSpectatorUser uid).setRoom rid ((r.removeSpectator uid).addSpectator uid conn)

theorem wsmsgSpectate_inv {body : Option Json} {o : FrontObs}
    (h : s.wsmsgSpectate selectById uid conn body = .ok (s', o)) :
    (s' = s ∧ ∃ resp, o = .answer conn resp) ∨
      ∃ rid r resp, s.rm.rooms rid = some r ∧ r.statu = .gameStart ∧ s' = { s with rm := s.joined rid r uid conn } ∧
        o = .admitted conn uid resp := by
  unfold wsmsgSpectate at h
  split at h
  · cases h
    exact Or.inl ⟨rfl, _, rfl⟩
  · obtain ⟨m, -, h⟩ := ok_of_bind h
    obtain ⟨optype, -, h⟩ := ok_of_bind h
    split at h
    · obtain ⟨rid, -, h⟩ := ok_of_bind h
      split at h
      · cases h
        exact Or.inl ⟨rfl, _, rfl⟩
      · rename_i r hr
        split at h
        · cases h
          exact Or.inl ⟨rfl, _, rfl⟩
        · rename_i hstatu
          cases h
          exact Or.inr ⟨_, r, _, hr, by simpa using hstatu, rfl, rfl⟩
    · cases h
      exact Or.inl ⟨rfl, _, rfl⟩

theorem hallReady_cases (s : Server) (uid : Uid) (conn : ConnId) :
    ((s.inGameHall uid = true ∨ s.inGameRoom uid = true) ∧ ∃ resp, s.hallReady uid conn = .refused conn uid resp) ∨
      (s.inGameHall uid = false ∧ s.inGameRoom uid = false ∧ ∃ resp, s.hallReady uid conn = .admitted conn uid resp) := by
  unfold hallReady
  split
  · rename_i h
    exact Or.inl ⟨by simpa using h, _, rfl⟩
  · rename_i h
    simp only [Bool.or_eq_true, not_or, Bool.not_eq_true] at h
    exact Or.inr ⟨h.1, h.2, _, rfl⟩

theorem roomReady_cases (s : Server) (uid : Uid) (conn : ConnId) (selectById : Uid → Option Members) :
    (s.inGameRoom uid = true ∧ ∃ resp, s.roomReady uid conn selectById = .refused conn uid resp) ∨
      (s.inGameRoom uid = false ∧ s.rm.getRoomByUid uid = none ∧
        ∃ resp, s.roomReady uid conn selectById = .refused conn uid resp) ∨
      (s.inGameRoom uid = false ∧ ∃ r, s.rm.getRoomByUid uid = some r ∧
        ∃ resp, s.roomReady uid conn selectById = .admitted conn uid resp) := by
  unfold roomReady
  split
  · rename_i h
    exact Or.inl ⟨h, _, rfl⟩
  · rename_i h
    split
    · rename_i hnone
      exact Or.inr (Or.inl ⟨by simpa using h, hnone, _, rfl⟩)
    · rename_i r hr
      exact Or.inr (Or.inr ⟨by simpa using h, r, hr, _, rfl⟩)

end Server

/-- What an event does, by what becomes of the tables, of the rooms and of the connection. -/
inductive FrontStep (f : Front) : FrontEvent → Front → List FrontObs → Prop
  | turn {k : Pool} {selectById : Uid → Option Members} {now : Int} {s : Server} {out : List Obs} :
      Server.TurnStep f.server k selectById now s out →
      FrontStep f (.turn k selectById now) { f with server := s } (out.map .server)
  | entered {conn : ConnId} {uri : WsUri} {user : Option Uid} {selectById : Uid → Option Members} :
      f.conns conn = none → (user = none ∨ uri = .spectate ∨ uri = .other) →
      FrontStep f (.opened conn uri user selectById) (f.connect conn uri) []
  | twice {conn : ConnId} {uri : WsUri} {uid : Uid} {selectById : Uid → Option Members} {resp : Members} :
      f.conns conn = none →
      ((uri = .hall ∧ (f.server.connect conn).inGameHall uid = true) ∨
        ((uri = .hall ∨ uri = .room) ∧ (f.server.connect conn).inGameRoom uid = true)) →
      FrontStep f (.opened conn uri (some uid) selectById) (f.connect conn uri) [.refused conn uid resp]
  | roomless {conn : ConnId} {uid : Uid} {selectById : Uid → Option Members} {om : OnlineManager} {resp : Members} :
      f.conns conn = none → (f.server.connect conn).inGameRoom uid = false → f.server.rm.getRoomByUid uid = none →
      om = (if (f.server.connect conn).inGameHall uid then f.server.om.exitGameHall uid else f.server.om) →
      FrontStep f (.opened conn .room (some uid) selectById)
        { f.connect conn .room with server := { f.server.connect conn with om } } [.refused conn uid resp]
  | hall {conn : ConnId} {uid : Uid} {selectById : Uid → Option Members} {resp : Members} :
      f.conns conn = none → (f.server.connect conn).inGameHall uid = false →
      (f.server.connect conn).inGameRoom uid = false →
      FrontStep f (.opened conn .hall (some uid) selectById)
        { f.connect conn .hall with server := { f.server.connect conn with om := f.server.om.enterGameHall uid conn } }
        [.admitted conn uid resp]
  | room {conn : ConnId} {uid : Uid} {selectById : Uid → Option Members} {om : OnlineManager} {r : Room}
      {resp : Members} :
      f.conns conn = none → (f.server.connect conn).inGameRoom uid = false → f.server.rm.getRoomByUid uid = some r →
      om = (if (f.server.connect conn).inGameHall uid then f.server.om.exitGameHall uid else f.server.om) →
      FrontStep f (.opened conn .room (some uid) selectById)
        { f.connect conn .room with server := { f.server.connect conn with om := om.enterGameRoom uid conn } }
        [.admitted conn uid resp]
  | spoken {conn : ConnId} {uri : WsUri} {user : Option Uid} {body : Option Json} {selectById : Uid → Option Members}
      {now later : Int} {queues : Pool → List Uid} {out : List FrontObs} :
      f.conns conn = some ⟨uri, false⟩ → (∀ o ∈ out, (∃ x, o = .server x) ∨ ∃ resp, o = .answer conn resp) →
      FrontStep f (.message conn user body selectById now later) { f with server := { f.server with queues } } out
  | roomMessage {conn : ConnId} {uid : Uid} {body : Option Json} {selectById : Uid → Option Members} {now later : Int}
      {rm : RoomManager} {calls : List Call} :
      f.conns conn = some ⟨.room, false⟩ →
      f.server.rm.wsmsgGameRoom (f.server.env selectById now later) uid body = .ok (rm, calls) →
      FrontStep f (.message conn (some uid) body selectById now later) { f with server := { f.server with rm } }
        (calls.map fun c => .server (.call c))
  | joined {conn : ConnId} {uid : Uid} {body : Option Json} {selectById : Uid → Option Members} {now later : Int}
      {rid : Rid} {r : Room} {resp : Members} :
      f.conns conn = some ⟨.spectate, false⟩ → f.server.rm.rooms rid = some r → r.statu = .gameStart →
      FrontStep f (.message conn (some uid) body selectById now later)
        { f with server := { f.server with rm := f.server.joined rid r uid conn } } [.admitted conn uid resp]
  | left {conn : ConnId} {uri : WsUri} {user : Option Uid} :
      f.conns conn = some ⟨uri, false⟩ → (user = none ∨ uri = .other) →
      FrontStep f (.closed conn user) (f.disconnect conn uri) []
  | leftHall {conn : ConnId} {uid : Uid} : f.conns conn = some ⟨.hall, false⟩ →
      FrontStep f (.closed conn (some uid))
        { f.disconnect conn .hall with
          server := { f.server.disconnect conn with om := f.server.om.exitGameHall uid } } []
  | leftRoom {conn : ConnId} {uid : Uid} : f.conns conn = some ⟨.room, false⟩ →
      FrontStep f (.closed conn (some uid))
        { f.disconnect conn .room with
          server := { f.server.disconnect conn with
            om := f.server.om.exitGameRoom uid
            rm := (f.server.rm.removeRoomUser uid).1 } }
        ((f.server.rm.removeRoomUser uid).2.map fun c => .server (.call c))
  | leftSpectate {conn : ConnId} {uid : Uid} : f.conns conn = some ⟨.spectate, false⟩ →
      FrontStep f (.closed conn (some uid))
        { f.disconnect conn .spectate with
          server := { f.server.disconnect conn with rm := f.server.rm.removeSpectatorUser uid } } []
  | drop {conn : ConnId} {c : Conn} : f.conns conn = some c →
      FrontStep f (.drop conn) { f with server := f.server.disconnect conn } []

namespace Front
variable {f f' : Front} {conn : ConnId} {uri : WsUri} {uid : Uid} {selectById : Uid → Option Members}
  {s : Server} {out : List FrontObs} {e : FrontEvent}

theorem onOpen_inv (hnew : f.conns conn = none)
    (h : onOpen (f.connect conn uri).server conn uri uid selectById = (s, out)) :
    FrontStep f (.opened conn uri (some uid) selectById) { f.connect conn uri with server := s } out := by
  cases uri with
  | hall =>
    obtain ⟨rfl, rfl⟩ := Prod.mk.inj h
    rw [Server.wsopenGameHall_eq_ite]
    simp only [connect, Server.connect_connect]
    rcases (f.server.connect conn).hallReady_cases uid conn with ⟨hin, resp, hresp⟩ | ⟨hhall, hroom, resp, hresp⟩
    · rw [if_pos (by simpa using hin), hresp]
      exact .twice hnew (hin.imp (⟨rfl, ·⟩) (⟨Or.inl rfl, ·⟩))
    · rw [if_neg (by simp [hhall, hroom]), hresp]
      exact .hall hnew hhall hroom
  | room =>
    obtain ⟨rfl, rfl⟩ := Prod.mk.inj h
    rw [Server.wsopenGameRoom_eq_ite]
    simp only [connect, Server.connect_connect, Server.connect_rm, Server.connect_om]
    rcases (f.server.connect conn).roomReady_cases uid conn selectById with
      ⟨hroom, resp, hresp⟩ | ⟨hroom, hnone, resp, hresp⟩ | ⟨hroom, r, hr, resp, hresp⟩
    · rw [if_pos hroom, hresp]
      exact .twice hnew (Or.inr ⟨Or.inr rfl, hroom⟩)
    · rw [Server.connect_rm] at hnone
      rw [if_neg (by simp [hroom]), hresp]
      simp only [hnone]
      exact .roomless hnew hroom hnone rfl
    · rw [Server.connect_rm] at hr
      rw [if_neg (by simp [hroom]), hresp]
      simp only [hr]
      exact .room hnew hroom hr rfl
  | spectate =>
    obtain ⟨rfl, rfl⟩ := Prod.mk.inj h
    exact .entered hnew (Or.inr (Or.inl rfl))
  | other =>
    obtain ⟨rfl, rfl⟩ := Prod.mk.inj h
    exact .entered hnew (Or.inr (Or.inr rfl))

theorem onMessage_inv {body : Option Json} {now later : Int} (hconn : f.conns conn = some ⟨uri, false⟩)
    (h : onMessage f.server conn uri uid body selectById now later = .ok (s, out)) :
    FrontStep f (.message conn (some uid) body selectById now later) { f with server := s } out := by
  cases uri with
  | hall =>
    obtain ⟨⟨s, obs, resp⟩, hmsg, h⟩ := ok_of_bind h
    obtain ⟨rfl, rfl⟩ := Prod.mk.inj (Except.ok.inj h)
    obtain ⟨queues, rfl⟩ := Server.wsmsgGameHall_inv hmsg
    refine .spoken hconn fun o ho => ?_
    rcases List.mem_append.mp ho with ho | ho
    · obtain ⟨x, -, rfl⟩ := List.mem_map.mp ho
      exact Or.inl ⟨x, rfl⟩
    · exact Or.inr ⟨resp, List.mem_singleton.mp ho⟩
  | room =>
    obtain ⟨⟨rm, calls⟩, hmsg, h⟩ := ok_of_bind h
    obtain ⟨rfl, rfl⟩ := Prod.mk.inj (Except.ok.inj h)
    exact .roomMessage hconn hmsg
  | spectate =>
    obtain ⟨⟨s, o⟩, hmsg, h⟩ := ok_of_bind h
    obtain ⟨rfl, rfl⟩ := Prod.mk.inj (Except.ok.inj h)
    rcases Server.wsmsgSpectate_inv hmsg with ⟨rfl, resp, rfl⟩ | ⟨rid, r, resp, hr, hrun, rfl, rfl⟩
    · exact .spoken hconn fun o ho => Or.inr ⟨resp, List.mem_singleton.mp ho⟩
    · exact .joined hconn hr hrun
  | other =>
    obtain ⟨rfl, rfl⟩ := Prod.mk.inj (Except.ok.inj h)
    exact .spoken hconn fun o ho => by cases ho

theorem onClose_inv (hconn : f.conns conn = some ⟨uri, false⟩)
    (h : onClose (f.disconnect conn uri).server uri uid = (s, out)) :
    FrontStep f (.closed conn (some uid)) { f.disconnect conn uri with server := s } out := by
  cases uri with
  | hall =>
    obtain ⟨rfl, rfl⟩ := Prod.mk.inj h
    exact .leftHall hconn
  | room =>
    obtain ⟨rfl, rfl⟩ := Prod.mk.inj h
    exact .leftRoom hconn
  | spectate =>
    obtain ⟨rfl, rfl⟩ := Prod.mk.inj h
    exact .leftSpectate hconn
  | other =>
    obtain ⟨rfl, rfl⟩ := Prod.mk.inj h
    exact .left hconn (Or.inr rfl)

theorem step_inv (h : machine.step f e = some (f', out)) : FrontStep f e f' out := by
  cases e with
  | turn k selectById now =>
    simp only [machine] at h
    split at h
    · cases h
    · rename_i hturn
      cases h
      exact .turn (Server.turn_inv hturn)
  | opened conn uri user selectById =>
    simp only [machine] at h
    split at h
    · cases h
    · rename_i hnew
      cases user with
      | none =>
        cases h
        exact .entered hnew (Or.inl rfl)
      | some uid =>
        cases h
        exact onOpen_inv hnew rfl
  | message conn user body selectById now later =>
    simp only [machine] at h
    split at h
    · rename_i hconn
      cases h
      exact .spoken hconn fun o ho => by cases ho
    · rename_i hconn
      split at h
      · cases h
      · rename_i hmsg
        cases h
        exact onMessage_inv hconn hmsg
    · cases h
  | closed conn user =>
    simp only [machine] at h
    split at h
    · rename_i hconn
      cases user with
      | none =>
        cases h
        exact .left hconn (Or.inl rfl)
      | some uid =>
        cases h
        exact onClose_inv hconn rfl
    · cases h
  | drop conn =>
    simp only [machine] at h
    split at h
    · cases h
    · rename_i hconn
      cases h
      exact .drop hconn

end Front

/-! ### The connections -/

/-- What becomes of the connections, and of which of them are open. -/
inductive Doors (f f' : Front) : FrontEvent → Prop
  | opened {conn : ConnId} {uri : WsUri} {user : Option Uid} {selectById : Uid → Option Members} : f.conns conn = none →
      f'.conns = f.conns.assign conn ⟨uri, false⟩ → f'.server.isOpen = Function.update f.server.isOpen conn true →
      Doors f f' (.opened conn uri user selectById)
  | closed {conn : ConnId} {uri : WsUri} {user : Option Uid} : f.conns conn = some ⟨uri, false⟩ →
      f'.conns = f.conns.assign conn ⟨uri, true⟩ → f'.server.isOpen = Function.update f.server.isOpen conn false →
      Doors f f' (.closed conn user)
  | drop {conn : ConnId} : f'.conns = f.conns → f'.server.isOpen = Function.update f.server.isOpen conn false →
      Doors f f' (.drop conn)
  | turn {k : Pool} {selectById : Uid → Option Members} {now : Int} : f'.conns = f.conns →
      f'.server.isOpen = f.server.isOpen → Doors f f' (.turn k selectById now)
  | message {conn : ConnId} {user : Option Uid} {body : Option Json} {selectById : Uid → Option Members} {now later : Int} :
      f'.conns = f.conns → f'.server.isOpen = f.server.isOpen → Doors f f' (.message conn user body selectById now later)

theorem FrontStep.doors {f f' : Front} {e : FrontEvent} {out : List FrontObs} (hs : FrontStep f e f' out) : Doors f f' e := by
  cases hs with
  | turn hturn => exact .turn rfl (by cases hturn <;> rfl)
  | spoken | roomMessage | joined => exact .message rfl rfl
  | entered hnew | twice hnew | roomless hnew | hall hnew | room hnew => exact .opened hnew rfl rfl
  | left hconn | leftHall hconn | leftRoom hconn | leftSpectate hconn => exact .closed hconn rfl rfl
  | drop => exact .drop rfl rfl

namespace Doors
variable {f f' : Front} {e : FrontEvent} {conn : ConnId} {uri : WsUri}

/-- What is closed stays closed. -/
theorem shut (hd : Doors f f' e) (h : f.conns conn = some ⟨uri, true⟩) : f'.conns conn = some ⟨uri, true⟩ := by
  cases hd with
  | opened hnew hconns =>
    rw [hconns, Dict.assign_ne fun heq => by simp [← heq, h] at hnew]
    exact h
  | closed hconn hconns =>
    rw [hconns, Dict.assign_ne fun heq => by simp [← heq, h] at hconn]
    exact h
  | drop hconns | turn hconns | message hconns => exact hconns ▸ h

/-- A connection that has been closed is not open. -/
theorem stays_shut (hd : Doors f f' e) (hi : ∀ conn uri, f.conns conn = some ⟨uri, true⟩ → f.server.isOpen conn = false)
    (h : f'.conns conn = some ⟨uri, true⟩) : f'.server.isOpen conn = false := by
  cases hd with
  | opened _ hconns hopen =>
    rw [hconns] at h
    rcases Dict.assign_eq_some.mp h with ⟨-, heq⟩ | ⟨hne, h⟩
    · cases heq
    · rw [hopen, Function.update_of_ne hne]
      exact hi conn uri h
  | closed _ hconns hopen =>
    rw [hconns] at h
    rcases Dict.assign_eq_some.mp h with ⟨rfl, -⟩ | ⟨hne, h⟩
    · rw [hopen, Function.update_self]
    · rw [hopen, Function.update_of_ne hne]
      exact hi conn uri h
  | drop hconns hopen =>
    rw [hconns] at h
    rw [hopen, Function.update_apply]
    split
    · rfl
    · exact hi conn uri h
  | turn hconns hopen | message hconns hopen =>
    rw [hconns] at h
    rw [hopen]
    exact hi conn uri h

/-- A connection that is open is new, or was open before. -/
theorem wasOpen (hd : Doors f f' e) (h : f'.server.isOpen conn = true) : f.conns conn = none ∨ f.server.isOpen conn = true := by
  cases hd with
  | @opened conn' _ _ _ hnew _ hopen =>
    by_cases heq : conn = conn'
    · exact Or.inl (heq ▸ hnew)
    · rw [hopen, Function.update_of_ne heq] at h
      exact Or.inr h
  | @closed conn' _ _ _ _ hopen | @drop conn' _ hopen =>
    by_cases heq : conn = conn'
    · rw [hopen, heq, Function.update_self] at h
      cases h
    · rw [hopen, Function.update_of_ne heq] at h
      exact Or.inr h
  | turn _ hopen | message _ hopen => exact Or.inr (hopen ▸ h)

end Doors

/-- A user comes into the hall with a new connection. -/
theorem FrontStep.admitted_hall {f f' : Front} {e : FrontEvent} {out : List FrontObs} {conn : ConnId} {uid : Uid} {resp : Members}
    (hs : FrontStep f e f' out) (hadm : FrontObs.admitted conn uid resp ∈ out) (hconn : f'.conns conn = some ⟨.hall, false⟩) :
    ∃ selectById, e = .opened conn .hall (some uid) selectById := by
  cases hs with
  | hall =>
    cases List.mem_singleton.mp hadm
    exact ⟨_, rfl⟩
  | room =>
    cases List.mem_singleton.mp hadm
    cases hconn.symm.trans Dict.assign_self
  | joined hspectate =>
    cases List.mem_singleton.mp hadm
    cases hconn.symm.trans hspectate
  | turn | roomMessage | leftRoom =>
    obtain ⟨x, -, heq⟩ := List.mem_map.mp hadm
    cases heq
  | spoken _ hout =>
    rcases hout _ hadm with ⟨x, heq⟩ | ⟨resp, heq⟩ <;> cases heq
  | twice | roomless => cases List.mem_singleton.mp hadm
  | entered | left | leftHall | leftSpectate | drop => cases hadm

/-! ### The rooms -/

namespace Room
variable {env : Env} {r r' r'' : Room} {out : List Call}

/-- A handler that lets nobody leave: the seats and the count of players stay. -/
structure Stays (r r' : Room) : Prop extends Keeps r r' where
  playerCount : r'.playerCount = r.playerCount

theorem Stays.refl (r : Room) : Stays r r := ⟨.refl r, rfl⟩

theorem Stays.trans (h : Stays r r') (h' : Stays r' r'') : Stays r r'' where
  roomId := h'.roomId.trans h.roomId
  playerCount := h'.playerCount.trans h.playerCount
  sides := by
    rcases h.sides with ⟨hw, hb⟩ | ⟨hw, hb⟩ <;> rcases h'.sides with ⟨hw', hb'⟩ | ⟨hw', hb'⟩ <;>
      simp [hw, hb, hw', hb']

theorem handleRequest_stays {req : Json} (h : r.handleRequest env req = .ok (r', out)) : Stays r r' := by
  refine ⟨handleRequest_keeps h, ?_⟩
  obtain ⟨m, -, hstep | ⟨-, uid, ms, rfl⟩⟩ := handleRequest_cases h
  · cases hstep with
    | placed => rw [passTurn_eq]
    | idle | timeUp | walkover | claimed | won | invite | accept => rfl
  · rw [passTurn_eq]

theorem removeSpectator_stays (r : Room) (uid : Uid) : Stays r (r.removeSpectator uid) := ⟨⟨rfl, Or.inl ⟨rfl, rfl⟩⟩, rfl⟩

theorem addSpectator_stays (r : Room) (uid : Uid) (conn : ConnId) : Stays r (r.addSpectator uid conn) :=
  ⟨⟨rfl, Or.inl ⟨rfl, rfl⟩⟩, rfl⟩

end Room

namespace RoomManager
variable {env : Env} {rm rm' rm'' : RoomManager} {rid : Rid} {r r' : Room} {uid : Uid}

/-- No room comes or goes, nobody is routed elsewhere, and each room keeps its seats and its count. -/
structure Steady (rm rm' : RoomManager) : Prop where
  nextRid : rm'.nextRid = rm.nextRid
  users : rm'.users = rm.users
  before : ∀ {rid r'}, rm'.rooms rid = some r' → ∃ r, rm.rooms rid = some r ∧ r.Stays r'
  after : ∀ {rid r}, rm.rooms rid = some r → ∃ r', rm'.rooms rid = some r' ∧ r.Stays r'

theorem Steady.refl (rm : RoomManager) : Steady rm rm := ⟨rfl, rfl, fun h => ⟨_, h, .refl _⟩, fun h => ⟨_, h, .refl _⟩⟩

theorem Steady.trans (h : Steady rm rm') (h' : Steady rm' rm'') : Steady rm rm'' where
  nextRid := h'.nextRid.trans h.nextRid
  users := h'.users.trans h.users
  before hr'' := by
    obtain ⟨r', hr', hstay'⟩ := h'.before hr''
    obtain ⟨r, hr, hstay⟩ := h.before hr'
    exact ⟨r, hr, hstay.trans hstay'⟩
  after hr := by
    obtain ⟨r', hr', hstay⟩ := h.after hr
    obtain ⟨r'', hr'', hstay'⟩ := h'.after hr'
    exact ⟨r'', hr'', hstay.trans hstay'⟩

theorem Steady.setRoom (hr : rm.rooms rid = some r) (hstay : r.Stays r') : Steady rm (rm.setRoom rid r') where
  nextRid := rfl
  users := rfl
  before {rid' r₀} hr₀ := by
    by_cases heq : rid' = rid
    · subst heq
      rw [setRoom_self, Option.some.injEq] at hr₀
      exact ⟨r, hr, hr₀ ▸ hstay⟩
    · rw [setRoom_ne heq] at hr₀
      exact ⟨r₀, hr₀, .refl r₀⟩
  after {rid' r₀} hr₀ := by
    by_cases heq : rid' = rid
    · subst heq
      rw [hr, Option.some.injEq] at hr₀
      exact ⟨r', setRoom_self, hr₀ ▸ hstay⟩
    · exact ⟨r₀, (setRoom_ne heq).trans hr₀, .refl r₀⟩

theorem Steady.removeSpectatorUser (rm : RoomManager) (uid : Uid) : Steady rm (rm.removeSpectatorUser uid) where
  nextRid := rfl
  users := rfl
  before hr' := by
    obtain ⟨r, hr, rfl⟩ := Option.map_eq_some_iff.mp hr'
    exact ⟨r, hr, r.removeSpectator_stays uid⟩
  after {rid r} hr := ⟨r.removeSpectator uid, Option.map_eq_some_iff.mpr ⟨r, hr, rfl⟩, r.removeSpectator_stays uid⟩

theorem wsmsgGameRoom_steady {body : Option Json} {calls : List Call}
    (h : rm.wsmsgGameRoom env uid body = .ok (rm', calls)) : Steady rm rm' := by
  rcases wsmsgGameRoom_cases h with ⟨rfl, -⟩ | ⟨rid, r, req, r', hfind, -, hreq, rfl⟩
  · exact .refl rm'
  · exact .setRoom (findRoom_eq_some.mp hfind).2 (Room.handleRequest_stays hreq)

theorem Consistent.steady (h : Consistent rm) (hs : Steady rm rm') : Consistent rm' where
  ids hr' := by
    obtain ⟨r, hr, hstay⟩ := hs.before hr'
    exact ⟨hstay.roomId.trans (h.ids hr).1, hs.nextRid ▸ (h.ids hr).2⟩
  named hu := by
    rw [hs.users] at hu
    obtain ⟨r, hr, hseat⟩ := h.named hu
    obtain ⟨r', hr', hstay⟩ := hs.after hr
    exact ⟨r', hr', (hstay.seats _).mpr hseat⟩

end RoomManager

namespace FrontStep
variable {f f' : Front} {e : FrontEvent} {out : List FrontObs}

/-- Rooms come with a match thread, and lose players with the close of a room connection. -/
theorem rooms (hs : FrontStep f e f' out) :
    f.server.rm.Steady f'.server.rm ∨
      (∃ k selectById now uid1 uid2, e = .turn k selectById now ∧ f'.server.rm = f.server.rm.addRoom uid1 uid2 now) ∨
      ∃ conn uid, e = .closed conn (some uid) ∧ f.conns conn = some ⟨.room, false⟩ ∧
        f'.server.rm = (f.server.rm.removeRoomUser uid).1 := by
  cases hs with
  | turn hturn =>
    cases hturn with
    | seat => exact Or.inr (Or.inl ⟨_, _, _, _, _, rfl, rfl⟩)
    | round | walk | pop | absent | back | lost => exact Or.inl (.refl _)
  | entered | twice | roomless | hall | room | spoken | left | leftHall | drop => exact Or.inl (.refl _)
  | roomMessage _ hmsg => exact Or.inl (RoomManager.wsmsgGameRoom_steady hmsg)
  | @joined conn uid _ _ _ _ rid r _ _ hr _ =>
    have hr' : (f.server.rm.removeSpectatorUser uid).rooms rid = some (r.removeSpectator uid) :=
      Option.map_eq_some_iff.mpr ⟨r, hr, rfl⟩
    exact Or.inl ((RoomManager.Steady.removeSpectatorUser _ uid).trans (.setRoom hr' (Room.addSpectator_stays _ uid conn)))
  | leftSpectate => exact Or.inl (.removeSpectatorUser _ _)
  | leftRoom hconn => exact Or.inr (Or.inr ⟨_, _, rfl, hconn, rfl⟩)

theorem consistent (hs : FrontStep f e f' out) (h : f.server.rm.Consistent) : f'.server.rm.Consistent := by
  rcases hs.rooms with hsteady | ⟨_, _, _, _, _, -, heq⟩ | ⟨_, uid, -, -, heq⟩
  · exact h.steady hsteady
  · exact heq ▸ h.addRoom
  · exact heq ▸ h.mapStep (RoomManager.removeRoomUser_mapStep _ uid)

end FrontStep

end FiveStones
