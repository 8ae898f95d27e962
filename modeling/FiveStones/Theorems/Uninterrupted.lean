import FiveStones.IoThread
import FiveStones.Lib.Simulation
import FiveStones.Theorems.FrontStep

/-! A callback that nothing interrupts: its accesses, one after the other, come to the one step that `Front` takes
for it. Every run of `Front` is therefore a run of the network thread. -/

namespace FiveStones
namespace IoThread
variable {t t' u : IoThread} {f f' : Front} {conn : ConnId} {uri : WsUri} {uid : Uid} {body : Option Json}
  {selectById : Uid → Option Members} {reads : ConnId → Bool} {now later : Int} {out out' : List FrontObs} {s : Server}

/-- An access, and the rest of the callback. -/
theorem reaches_next (hs : t.next selectById reads now later = some (t', out)) (h : machine.Reaches t' out' u) :
    machine.Reaches t (out ++ out') u := by
  have hstep : machine.step t (.next selectById reads now later) = some (t', out) := hs
  exact .cons hstep h

theorem reaches_last (hs : t.next selectById reads now later = some (t', out)) : machine.Reaches t out t' := by
  have hstep : machine.step t (.next selectById reads now later) = some (t', out) := hs
  exact .one hstep

/-! ### Opens -/

theorem hall_reaches (hopen : s.connect conn = s) (selectById : Uid → Option Members) :
    machine.Reaches ⟨{ f with server := s }, .hallInHall uid conn⟩ [s.hallReady uid conn]
      ⟨{ f with server := s.wsopenGameHall uid conn }, .idle⟩ := by
  let go (pc : IoPc) := (IoThread.mk { f with server := s } pc).next selectById s.isOpen 0 0
  rw [Server.wsopenGameHall_eq_ite, hopen]
  unfold Server.hallReady
  by_cases hhall : s.inGameHall uid = true
  · have hread : go (.hallInHall uid conn) = some _ := if_pos hhall
    simp only [hhall, Bool.true_or, ↓reduceIte]
    exact reaches_last hread
  have hread : go (.hallInHall uid conn) = some _ := if_neg hhall
  by_cases hroom : s.inGameRoom uid = true
  · have hread' : go (.hallInRoom uid conn) = some _ := if_pos hroom
    simp only [hroom, Bool.or_true, ↓reduceIte]
    exact reaches_next hread (reaches_last hread')
  · have hread' : go (.hallInRoom uid conn) = some _ := if_neg hroom
    have henter : go (.enterHall uid conn) = some _ := rfl
    simp only [hhall, hroom, Bool.or_self, Bool.false_eq_true, ↓reduceIte]
    exact reaches_next hread (reaches_next hread' (reaches_last henter))

/-- From the search for the room on, with `om` as the callback has left it so far. -/
theorem findRoom_reaches (om : OnlineManager) (selectById : Uid → Option Members) :
    machine.Reaches ⟨{ f with server := { s with om } }, .findRoom uid conn⟩
      [match s.rm.getRoomByUid uid with
        | none => .refused conn uid (refuse "room_ready" "没有找到玩家的房间信息")
        | some r => .admitted conn uid (s.roomJoined uid r selectById)]
      ⟨{ f with server := match s.rm.getRoomByUid uid with
        | none => { s with om }
        | some _ => { s with om := om.enterGameRoom uid conn } }, .idle⟩ := by
  let go (pc : IoPc) := (IoThread.mk { f with server := { s with om } } pc).next selectById s.isOpen 0 0
  cases hr : s.rm.getRoomByUid uid with
  | none =>
    have hfind : go (.findRoom uid conn) =
        some (⟨{ f with server := { s with om } }, .idle⟩, [.refused conn uid (refuse "room_ready" "没有找到玩家的房间信息")]) := by
      simp [go, next, server, goto, hr]
    exact reaches_last hfind
  | some r =>
    have hfind : go (.findRoom uid conn) = some (⟨{ f with server := { s with om } }, .enterRoom uid conn r⟩, []) := by
      simp [go, next, server, goto, hr]
    have henter : go (.enterRoom uid conn r) = some _ := rfl
    exact reaches_next hfind (reaches_last henter)

theorem room_reaches (hopen : s.connect conn = s) (selectById : Uid → Option Members) :
    machine.Reaches ⟨{ f with server := s }, .roomInRoom uid conn⟩ [s.roomReady uid conn selectById]
      ⟨{ f with server := s.wsopenGameRoom uid conn }, .idle⟩ := by
  let go (pc : IoPc) := (IoThread.mk { f with server := s } pc).next selectById s.isOpen 0 0
  have hread : go (.roomInRoom uid conn) = some _ := rfl
  refine reaches_next hread ?_
  rw [Server.wsopenGameRoom_eq_ite, hopen]
  by_cases hroom : s.inGameRoom uid = true
  · have hread' : go (.roomInHall uid conn (s.inGameRoom uid)) = some _ := if_pos hroom
    rw [Server.roomReady, if_pos hroom, if_pos hroom]
    exact reaches_last hread'
  rw [Server.roomReady, if_neg hroom, if_neg hroom]
  by_cases hhall : s.inGameHall uid = true
  · have hread' : go (.roomInHall uid conn (s.inGameRoom uid)) = some _ := (if_neg hroom).trans (if_pos hhall)
    have hleave : go (.leaveHall uid conn) = some _ := rfl
    rw [if_pos hhall]
    exact reaches_next hread' (reaches_next hleave (findRoom_reaches (s.om.exitGameHall uid) selectById))
  · have hread' : go (.roomInHall uid conn (s.inGameRoom uid)) = some _ := (if_neg hroom).trans (if_neg hhall)
    rw [if_neg hhall]
    exact reaches_next hread' (findRoom_reaches s.om selectById)

theorem onOpen_reaches (hopen : s.connect conn = s) (uri : WsUri) (selectById : Uid → Option Members) :
    machine.Reaches ⟨{ f with server := s }, .onOpen conn uid uri⟩ (Front.onOpen s conn uri uid selectById).2
      ⟨{ f with server := (Front.onOpen s conn uri uid selectById).1 }, .idle⟩ := by
  cases uri with
  | hall => exact hall_reaches hopen selectById
  | room => exact room_reaches hopen selectById
  | spectate | other => exact .refl

/-! ### Messages -/

theorem spectateTarget_of_wsmsgSpectate {s' : Server} {o : FrontObs}
    (h : s.wsmsgSpectate selectById uid conn body = .ok (s', o)) :
    (∃ resp, s.spectateTarget body = .ok (.inl resp) ∧ s' = s ∧ o = .answer conn resp) ∨
      ∃ rid r, s.spectateTarget body = .ok (.inr rid) ∧ s.rm.rooms rid = some r ∧
        s' = { s with rm := s.joined rid r uid conn } ∧
        o = .admitted conn uid (Server.spectateReady (s.env selectById 0 0) ((r.removeSpectator uid).addSpectator uid conn)) := by
  unfold Server.wsmsgSpectate at h
  split at h
  · cases h
    exact Or.inl ⟨_, rfl, rfl, rfl⟩
  · obtain ⟨m, hm, h⟩ := ok_of_bind h
    obtain ⟨optype, hoptype, h⟩ := ok_of_bind h
    simp only [Server.spectateTarget, hm, hoptype, bind, Except.bind, pure, Except.pure]
    split at h
    · rename_i hjoin
      obtain ⟨rid, hrid, h⟩ := ok_of_bind h
      simp only [hjoin, ↓reduceIte, hrid]
      cases hr : s.rm.getRoomByRid rid.toNat with
      | none =>
        simp only [hr] at h ⊢
        cases h
        exact Or.inl ⟨_, rfl, rfl, rfl⟩
      | some r =>
        simp only [hr] at h ⊢
        split at h
        · rename_i hstatu
          cases h
          exact Or.inl ⟨_, if_pos hstatu, rfl, rfl⟩
        · rename_i hstatu
          cases h
          exact Or.inr ⟨_, r, if_neg hstatu, hr, rfl, rfl⟩
    · rename_i hjoin
      cases h
      exact Or.inl ⟨_, if_neg hjoin, rfl, rfl⟩

theorem spectate_reaches {s' : Server} {o : FrontObs} (h : s.wsmsgSpectate selectById uid conn body = .ok (s', o)) :
    machine.Reaches ⟨{ f with server := s }, .spectate uid conn body⟩ [o] ⟨{ f with server := s' }, .idle⟩ := by
  let go (s : Server) (pc : IoPc) := (IoThread.mk { f with server := s } pc).next selectById s.isOpen 0 0
  rcases spectateTarget_of_wsmsgSpectate h with ⟨resp, htarget, rfl, rfl⟩ | ⟨rid, r, htarget, hr, rfl, rfl⟩
  · have hread : go s' (.spectate uid conn body) = some (⟨{ f with server := s' }, .idle⟩, [.answer conn resp]) := by
      simp [go, next, server, goto, htarget]
    exact reaches_last hread
  · have hread : go s (.spectate uid conn body) = some (⟨{ f with server := s }, .unwatch uid conn rid⟩, []) := by
      simp [go, next, server, goto, htarget]
    have hunwatch : go s (.unwatch uid conn rid) = some _ := rfl
    have hr' : (s.rm.removeSpectatorUser uid).rooms rid = some (r.removeSpectator uid) :=
      Option.map_eq_some_iff.mpr ⟨r, hr, rfl⟩
    have hwatch : go { s with rm := s.rm.removeSpectatorUser uid } (.watch uid conn rid) =
        some (⟨{ f with server := { s with rm := s.joined rid r uid conn } }, .idle⟩,
          [.admitted conn uid (Server.spectateReady (s.env selectById 0 0) ((r.removeSpectator uid).addSpectator uid conn))]) := by
      simp only [go, next, server, goto, setServer, hr']
      rfl
    exact reaches_next hread (reaches_next hunwatch (reaches_last hwatch))

theorem onMessage_reaches (h : Front.onMessage f.server conn uri uid body selectById now later = .ok (s, out)) :
    machine.Reaches ⟨f, .onMessage conn uid body uri⟩ out ⟨{ f with server := s }, .idle⟩ := by
  let go (pc : IoPc) := (IoThread.mk f pc).next selectById f.server.isOpen now later
  cases uri with
  | hall =>
    obtain ⟨⟨s, obs, resp⟩, hmsg, h⟩ := ok_of_bind h
    obtain ⟨rfl, rfl⟩ := Prod.mk.inj (Except.ok.inj h)
    have hanswer : go (.hallMessage uid conn body) =
        some (⟨{ f with server := s }, .idle⟩, obs.map .server ++ [.answer conn resp]) := by
      simp only [go, next, server, goto, setServer, hmsg]
    exact reaches_last hanswer
  | room =>
    obtain ⟨⟨rm, calls⟩, hmsg, h⟩ := ok_of_bind h
    obtain ⟨rfl, rfl⟩ := Prod.mk.inj (Except.ok.inj h)
    rw [Server.env] at hmsg
    have hanswer : go (.roomMessage uid body) =
        some (⟨{ f with server := { f.server with rm } }, .idle⟩, calls.map fun c => .server (.call c)) := by
      simp only [go, next, server, goto, setServer, hmsg]
    exact reaches_last hanswer
  | spectate =>
    obtain ⟨⟨s, o⟩, hmsg, h⟩ := ok_of_bind h
    obtain ⟨rfl, rfl⟩ := Prod.mk.inj (Except.ok.inj h)
    exact spectate_reaches hmsg
  | other =>
    obtain ⟨rfl, rfl⟩ := Prod.mk.inj (Except.ok.inj h)
    exact .refl

/-! ### Closes -/

theorem onClose_reaches (uri : WsUri) (uid : Uid) :
    machine.Reaches ⟨f, .onClose uid uri⟩ (Front.onClose f.server uri uid).2
      ⟨{ f with server := (Front.onClose f.server uri uid).1 }, .idle⟩ := by
  let go (f : Front) (pc : IoPc) := (IoThread.mk f pc).next newcomer f.server.isOpen 0 0
  cases uri with
  | hall =>
    have hexit : go f (.exitHall uid) = some _ := rfl
    exact reaches_last hexit
  | room =>
    have hexit : go f (.exitRoom uid) = some _ := rfl
    have hremove : go { f with server := { f.server with om := f.server.om.exitGameRoom uid } } (.removeUser uid) = some _ :=
      rfl
    exact reaches_next hexit (reaches_last hremove)
  | spectate =>
    have hremove : go f (.removeSpectator uid) = some _ := rfl
    exact reaches_last hremove
  | other => exact .refl

/-! ### Runs -/

/-- A step of `Front` is a run of the network thread, from between two callbacks to between two callbacks. -/
theorem step_reaches {e : FrontEvent} (hs : Front.machine.step f e = some (f', out)) :
    machine.Reaches ⟨f, .idle⟩ out ⟨f', .idle⟩ := by
  cases e with
  | turn k selectById now =>
    simp only [Front.machine] at hs
    split at hs
    · cases hs
    · rename_i s obs hturn
      cases hs
      have hstep : machine.step ⟨f, .idle⟩ (.turn k selectById now) =
          some (⟨{ f with server := s }, .idle⟩, obs.map .server) := by
        simp only [machine, server, hturn]
        rfl
      exact .one hstep
  | opened conn uri user selectById =>
    simp only [Front.machine] at hs
    split at hs
    · cases hs
    · rename_i hnew
      have hbegin : machine.step ⟨f, .idle⟩ (.opened conn uri user) =
          some (⟨f.connect conn uri, user.elim .idle fun uid => .onOpen conn uid uri⟩, []) := by
        simp only [machine, hnew]
      cases user with
      | none =>
        cases hs
        exact .one hbegin
      | some uid =>
        cases hs
        exact .cons hbegin (onOpen_reaches (f := f.connect conn uri) Server.connect_connect uri selectById)
  | message conn user body selectById now later =>
    simp only [Front.machine] at hs
    split at hs
    · rename_i hconn
      cases hs
      have hbegin : machine.step ⟨f, .idle⟩ (.message conn none body) = some (⟨f, .idle⟩, []) := by
        simp only [machine, hconn]
        rfl
      exact .one hbegin
    · rename_i uri uid hconn
      have hbegin : machine.step ⟨f, .idle⟩ (.message conn (some uid) body) =
          some (⟨f, .onMessage conn uid body uri⟩, []) := by
        simp only [machine, hconn]
        rfl
      split at hs
      · cases hs
      · rename_i hmsg
        cases hs
        exact .cons hbegin (onMessage_reaches hmsg)
    · cases hs
  | closed conn user =>
    simp only [Front.machine] at hs
    split at hs
    · rename_i uri hconn
      have hbegin : machine.step ⟨f, .idle⟩ (.closed conn user) =
          some (⟨f.disconnect conn uri, user.elim .idle fun uid => .onClose uid uri⟩, []) := by
        simp only [machine, hconn]
      cases user with
      | none =>
        cases hs
        exact .one hbegin
      | some uid =>
        cases hs
        exact .cons hbegin (onClose_reaches uri uid)
    · cases hs
  | drop conn =>
    simp only [Front.machine] at hs
    split at hs
    · cases hs
    · rename_i hconn
      cases hs
      have hdrop : machine.step ⟨f, .idle⟩ (.drop conn) =
          some (⟨{ f with server := f.server.disconnect conn }, .idle⟩, []) := by
        simp only [machine, hconn]
        rfl
      exact .one hdrop

/-- What the callbacks do and put out when nothing interrupts them, they do and put out among all the rest. -/
theorem uninterrupted {ts : List FrontTrans} (h : Front.machine.Run Front.start ts f) :
    machine.Reaches start (Machine.log ts) ⟨f, .idle⟩ := by
  have hstep : ∀ {f t e f' out}, t = IoThread.mk f .idle → Front.machine.step f e = some (f', out) →
      ∃ t', machine.Reaches t out t' ∧ t' = IoThread.mk f' .idle := by
    intro f t e f' out ht hs
    subst ht
    exact ⟨_, step_reaches hs, rfl⟩
  obtain ⟨t, hreach, rfl⟩ := h.refine hstep rfl
  exact hreach

end IoThread
end FiveStones
