import FiveStones.IoThread
import FiveStones.Lib.Simulation
import FiveStones.Theorems.Registration

/-! Nobody is in the hall and in a room at once, and nobody watches two rooms, while connections go at any moment,
also in the middle of a callback.

A read that has found nobody stays true until the write that it is for: only the network thread enters anyone, and
a connection that goes takes nobody anywhere. -/

namespace FiveStones

/-! ### What an access can do -/

/-- The next access of a callback, by what it does to the server and where the callback then stands. -/
inductive NextStep (s : Server) : IoPc → Server → IoPc → Prop
  | ends {pc : IoPc} : NextStep s pc s .idle
  | notInHall {uid : Uid} {conn : ConnId} : NextStep s (.hallInHall uid conn) s (.hallInRoom uid conn)
  | notInRoom {uid : Uid} {conn : ConnId} : s.inGameRoom uid = false →
      NextStep s (.hallInRoom uid conn) s (.enterHall uid conn)
  | enterHall {uid : Uid} {conn : ConnId} :
      NextStep s (.enterHall uid conn) { s with om := s.om.enterGameHall uid conn } .idle
  | roomInRoom {uid : Uid} {conn : ConnId} :
      NextStep s (.roomInRoom uid conn) s (.roomInHall uid conn (s.inGameRoom uid))
  | inHall {uid : Uid} {conn : ConnId} : NextStep s (.roomInHall uid conn false) s (.leaveHall uid conn)
  | outOfHall {uid : Uid} {conn : ConnId} : s.inGameHall uid = false →
      NextStep s (.roomInHall uid conn false) s (.findRoom uid conn)
  | leaveHall {uid : Uid} {conn : ConnId} :
      NextStep s (.leaveHall uid conn) { s with om := s.om.exitGameHall uid } (.findRoom uid conn)
  | findRoom {uid : Uid} {conn : ConnId} {r : Room} : NextStep s (.findRoom uid conn) s (.enterRoom uid conn r)
  | enterRoom {uid : Uid} {conn : ConnId} {r : Room} :
      NextStep s (.enterRoom uid conn r) { s with om := s.om.enterGameRoom uid conn } .idle
  | hallMessage {uid : Uid} {conn : ConnId} {body : Option Json} {queues : Pool → List Uid} :
      NextStep s (.hallMessage uid conn body) { s with queues } .idle
  | roomMessage {env : Env} {uid : Uid} {body : Option Json} {rm : RoomManager} {calls : List Call} :
      s.rm.wsmsgGameRoom env uid body = .ok (rm, calls) → NextStep s (.roomMessage uid body) { s with rm } .idle
  | spectate {uid : Uid} {conn : ConnId} {body : Option Json} {rid : Rid} :
      NextStep s (.spectate uid conn body) s (.unwatch uid conn rid)
  | unwatch {uid : Uid} {conn : ConnId} {rid : Rid} :
      NextStep s (.unwatch uid conn rid) { s with rm := s.rm.removeSpectatorUser uid } (.watch uid conn rid)
  | watch {uid : Uid} {conn : ConnId} {rid : Rid} {r : Room} : s.rm.rooms rid = some r →
      NextStep s (.watch uid conn rid) { s with rm := s.rm.setRoom rid (r.addSpectator uid conn) } .idle
  | exitHall {uid : Uid} : NextStep s (.exitHall uid) { s with om := s.om.exitGameHall uid } .idle
  | exitRoom {uid : Uid} : NextStep s (.exitRoom uid) { s with om := s.om.exitGameRoom uid } (.removeUser uid)
  | removeUser {uid : Uid} : NextStep s (.removeUser uid) { s with rm := (s.rm.removeRoomUser uid).1 } .idle
  | removeSpectator {uid : Uid} :
      NextStep s (.removeSpectator uid) { s with rm := s.rm.removeSpectatorUser uid } .idle

namespace IoThread
variable {t t' : IoThread} {out : List FrontObs} {selectById : Uid → Option Members} {reads : ConnId → Bool}
  {now later : Int} {e : IoEvent}

theorem next_inv (h : t.next selectById reads now later = some (t', out)) :
    t'.front.conns = t.front.conns ∧ NextStep t.server t.pc t'.server t'.pc := by
  unfold next at h
  simp only at h
  split at h
  · cases h
  · rename_i hpc
    split at h
    · cases h
      exact ⟨rfl, .ends⟩
    · cases h
      exact ⟨rfl, hpc ▸ .notInHall⟩
  · rename_i hpc
    split at h
    · cases h
      exact ⟨rfl, .ends⟩
    · rename_i hroom
      cases h
      exact ⟨rfl, hpc ▸ .notInRoom (by simpa using hroom)⟩
  · rename_i hpc
    cases h
    exact ⟨rfl, hpc ▸ .enterHall⟩
  · rename_i hpc
    cases h
    exact ⟨rfl, hpc ▸ .roomInRoom⟩
  · rename_i inRoom hpc
    split at h
    · cases h
      exact ⟨rfl, .ends⟩
    · rename_i hroom
      obtain rfl : inRoom = false := by simpa using hroom
      split at h
      · cases h
        exact ⟨rfl, hpc ▸ .inHall⟩
      · rename_i hhall
        cases h
        exact ⟨rfl, hpc ▸ .outOfHall (by simpa using hhall)⟩
  · rename_i hpc
    cases h
    exact ⟨rfl, hpc ▸ .leaveHall⟩
  · rename_i hpc
    split at h
    · cases h
      exact ⟨rfl, .ends⟩
    · cases h
      exact ⟨rfl, hpc ▸ .findRoom⟩
  · rename_i hpc
    cases h
    exact ⟨rfl, hpc ▸ .enterRoom⟩
  · rename_i hpc
    split at h
    · cases h
    · rename_i s obs resp hmsg
      cases h
      obtain ⟨queues, rfl⟩ := Server.wsmsgGameHall_inv hmsg
      exact ⟨rfl, hpc ▸ .hallMessage⟩
  · rename_i hpc
    split at h
    · cases h
    · rename_i hmsg
      cases h
      exact ⟨rfl, hpc ▸ .roomMessage hmsg⟩
  · rename_i hpc
    split at h
    · cases h
    · cases h
      exact ⟨rfl, .ends⟩
    · cases h
      exact ⟨rfl, hpc ▸ .spectate⟩
  · rename_i hpc
    cases h
    exact ⟨rfl, hpc ▸ .unwatch⟩
  · rename_i hpc
    split at h
    · cases h
      exact ⟨rfl, .ends⟩
    · rename_i hr
      cases h
      exact ⟨rfl, hpc ▸ .watch hr⟩
  · rename_i hpc
    cases h
    exact ⟨rfl, hpc ▸ .exitHall⟩
  · rename_i hpc
    cases h
    exact ⟨rfl, hpc ▸ .exitRoom⟩
  · rename_i hpc
    cases h
    exact ⟨rfl, hpc ▸ .removeUser⟩
  · rename_i hpc
    cases h
    exact ⟨rfl, hpc ▸ .removeSpectator⟩

end IoThread

/-! ### Fewer and fewer -/

namespace Server
variable {s s' : Server} {uid uid' : Uid} {conn : ConnId}

/-- Nobody is in the hall and in a room, and nobody watches two rooms. -/
structure Exclusive (s : Server) : Prop where
  apart : ∀ uid, ¬(s.inGameHall uid = true ∧ s.inGameRoom uid = true)
  single : ∀ uid rid rid', s.rm.spectator rid uid ≠ none → s.rm.spectator rid' uid ≠ none → rid = rid'

/-- Whoever is anywhere in `s'` is there in `s`. -/
structure Within (s' s : Server) : Prop where
  hall : ∀ {uid}, s'.inGameHall uid = true → s.inGameHall uid = true
  room : ∀ {uid}, s'.inGameRoom uid = true → s.inGameRoom uid = true
  watch : ∀ {rid uid}, s'.rm.spectator rid uid ≠ none → s.rm.spectator rid uid ≠ none

theorem Within.refl (s : Server) : Within s s := ⟨id, id, id⟩

theorem Exclusive.within (h : s.Exclusive) (hw : Within s' s) : s'.Exclusive where
  apart uid hboth := h.apart uid ⟨hw.hall hboth.1, hw.room hboth.2⟩
  single uid rid rid' hrid hrid' := h.single uid rid rid' (hw.watch hrid) (hw.watch hrid')

/-- Where the presence stays as it is, the spectators may go. -/
theorem Within.of_rm (hom : s'.om = s.om) (hopen : s'.isOpen = s.isOpen)
    (hwatch : ∀ {rid uid}, s'.rm.spectator rid uid ≠ none → s.rm.spectator rid uid ≠ none) : Within s' s where
  hall hin := by
    unfold inGameHall at hin ⊢
    rwa [← hom, ← hopen]
  room hin := by
    unfold inGameRoom at hin ⊢
    rwa [← hom, ← hopen]
  watch := hwatch

theorem inGameHall_exit : ({ s with om := s.om.exitGameHall uid }).inGameHall uid' = true ↔
    uid' ≠ uid ∧ s.inGameHall uid' = true := by
  unfold inGameHall OnlineManager.inGameHall OnlineManager.exitGameHall
  by_cases heq : uid' = uid
  · subst heq
    simp [OnlineManager.connIsOnline]
  · simp [Dict.erase_ne heq, heq]

theorem inGameRoom_exit : ({ s with om := s.om.exitGameRoom uid }).inGameRoom uid' = true ↔
    uid' ≠ uid ∧ s.inGameRoom uid' = true := by
  unfold inGameRoom OnlineManager.inGameRoom OnlineManager.exitGameRoom
  by_cases heq : uid' = uid
  · subst heq
    simp [OnlineManager.connIsOnline]
  · simp [Dict.erase_ne heq, heq]

theorem inGameHall_enter (h : uid' ≠ uid) :
    ({ s with om := s.om.enterGameHall uid conn }).inGameHall uid' = s.inGameHall uid' := by
  simp [inGameHall, OnlineManager.inGameHall, OnlineManager.enterGameHall, Dict.assign_ne h]

theorem inGameRoom_enter (h : uid' ≠ uid) :
    ({ s with om := s.om.enterGameRoom uid conn }).inGameRoom uid' = s.inGameRoom uid' := by
  simp [inGameRoom, OnlineManager.inGameRoom, OnlineManager.enterGameRoom, Dict.assign_ne h]

theorem Within.exitHall : Within { s with om := s.om.exitGameHall uid } s := ⟨fun h => (inGameHall_exit.mp h).2, id, id⟩

theorem Within.exitRoom : Within { s with om := s.om.exitGameRoom uid } s := ⟨id, fun h => (inGameRoom_exit.mp h).2, id⟩

/-- A connection that leaves the open state takes nobody anywhere. -/
theorem connIsOnline_update {isOpen : ConnId → Bool} {entry : Option ConnId}
    (h : OnlineManager.connIsOnline (Function.update isOpen conn false) entry = true) :
    OnlineManager.connIsOnline isOpen entry = true := by
  cases entry with
  | none => exact h
  | some conn' =>
    simp only [OnlineManager.connIsOnline, Function.update_apply] at h ⊢
    split at h
    · cases h
    · exact h

theorem Within.disconnect : Within (s.disconnect conn) s := ⟨connIsOnline_update, connIsOnline_update, id⟩

/-- A connection that no table knows opens for nobody yet. -/
theorem Within.connect (hhall : ∀ uid, s.om.gameHall uid ≠ some conn) (hroom : ∀ uid, s.om.gameRoom uid ≠ some conn) :
    Within (s.connect conn) s where
  hall hin := by rwa [← inGameHall_connect (hhall _)]
  room hin := by rwa [← inGameRoom_connect (hroom _)]
  watch := id

theorem Exclusive.enterHall (h : s.Exclusive) (hroom : s.inGameRoom uid = false) :
    Exclusive { s with om := s.om.enterGameHall uid conn } where
  apart uid' hboth := by
    by_cases heq : uid' = uid
    · subst heq
      exact Bool.false_ne_true (hroom.symm.trans hboth.2)
    · exact h.apart uid' ⟨inGameHall_enter heq ▸ hboth.1, hboth.2⟩
  single := h.single

theorem Exclusive.enterRoom (h : s.Exclusive) (hhall : s.inGameHall uid = false) :
    Exclusive { s with om := s.om.enterGameRoom uid conn } where
  apart uid' hboth := by
    by_cases heq : uid' = uid
    · subst heq
      exact Bool.false_ne_true (hhall.symm.trans hboth.1)
    · exact h.apart uid' ⟨hboth.1, inGameRoom_enter heq ▸ hboth.2⟩
  single := h.single

theorem Exclusive.watch (h : s.Exclusive) {rid : Rid} {r : Room} (hr : s.rm.rooms rid = some r)
    (hnone : ∀ rid, s.rm.spectator rid uid = none) :
    Exclusive { s with rm := s.rm.setRoom rid (r.addSpectator uid conn) } where
  apart := h.apart
  single uid' rid₁ rid₂ h₁ h₂ := by
    have hother : ∀ {rid'}, rid' ≠ rid →
        (s.rm.setRoom rid (r.addSpectator uid conn)).spectator rid' uid' = s.rm.spectator rid' uid' := by
      intro rid' hne
      rw [RoomManager.spectator, RoomManager.setRoom_ne hne, RoomManager.spectator]
    by_cases heq : uid' = uid
    · subst heq
      have hrid : ∀ {rid'}, (s.rm.setRoom rid (r.addSpectator uid' conn)).spectator rid' uid' ≠ none → rid' = rid := by
        intro rid' hin
        by_contra hne
        exact hin ((hother hne).trans (hnone rid'))
      exact (hrid h₁).trans (hrid h₂).symm
    · have hsame : ∀ rid', (s.rm.setRoom rid (r.addSpectator uid conn)).spectator rid' uid' = s.rm.spectator rid' uid' := by
        intro rid'
        by_cases hne : rid' = rid
        · subst hne
          rw [RoomManager.spectator, RoomManager.setRoom_self, RoomManager.spectator, hr]
          exact Dict.assign_ne heq
        · exact hother hne
      rw [hsame] at h₁ h₂
      exact h.single uid' rid₁ rid₂ h₁ h₂

end Server

/-! ### What a callback knows -/

namespace IoPc

/-- The connection that the callback may enter. -/
def entering : IoPc → Option ConnId
  | hallInHall _ conn | hallInRoom _ conn | enterHall _ conn | roomInRoom _ conn | roomInHall _ conn _
  | leaveHall _ conn | findRoom _ conn | enterRoom _ conn _ => some conn
  | _ => none

/-- What the reads of the callback have found and its writes rely on. -/
def Found (s : Server) : IoPc → Prop
  | enterHall uid _ => s.inGameRoom uid = false
  | findRoom uid _ | enterRoom uid _ _ => s.inGameHall uid = false
  | watch uid _ _ => ∀ rid, s.rm.spectator rid uid = none
  | _ => True

theorem Found.within {s s' : Server} {pc : IoPc} (h : pc.Found s) (hw : Server.Within s' s) : pc.Found s' := by
  cases pc with
  | enterHall uid conn => exact Bool.eq_false_iff.mpr fun hin => Bool.eq_false_iff.mp h (hw.room hin)
  | findRoom uid conn => exact Bool.eq_false_iff.mpr fun hin => Bool.eq_false_iff.mp h (hw.hall hin)
  | enterRoom uid conn r => exact Bool.eq_false_iff.mpr fun hin => Bool.eq_false_iff.mp h (hw.hall hin)
  | watch uid conn rid =>
    intro rid'
    by_contra hin
    exact hw.watch hin (h rid')
  | _ => trivial

end IoPc

namespace NextStep
variable {s s' : Server} {pc pc' : IoPc} {uid : Uid} {conn : ConnId}

theorem consistent (hs : NextStep s pc s' pc') (h : s.rm.Consistent) : s'.rm.Consistent := by
  cases hs with
  | roomMessage hmsg => exact h.steady (RoomManager.wsmsgGameRoom_steady hmsg)
  | unwatch | removeSpectator => exact h.steady (.removeSpectatorUser _ _)
  | watch hr => exact h.steady (.setRoom hr (Room.addSpectator_stays _ _ _))
  | removeUser => exact h.mapStep (RoomManager.removeRoomUser_mapStep _ _)
  | ends | notInHall | notInRoom | enterHall | roomInRoom | inHall | outOfHall | leaveHall | findRoom | enterRoom
  | hallMessage | spectate | exitHall | exitRoom => exact h

theorem entering (hs : NextStep s pc s' pc') (h : pc'.entering = some conn) : pc.entering = some conn := by
  cases hs with
  | notInHall | notInRoom | roomInRoom | inHall | outOfHall | leaveHall | findRoom => exact h
  | ends | enterHall | enterRoom | hallMessage | roomMessage | spectate | unwatch | watch | exitHall | exitRoom | removeUser
  | removeSpectator => cases h

/-- An entry of the hall or of the rooms is old, or of the connection that the callback may enter. -/
theorem entry (hs : NextStep s pc s' pc') (h : s'.om.gameHall uid = some conn ∨ s'.om.gameRoom uid = some conn) :
    (s.om.gameHall uid = some conn ∨ s.om.gameRoom uid = some conn) ∨ pc.entering = some conn := by
  cases hs with
  | enterHall =>
    rcases h with h | h
    · rcases Dict.assign_eq_some.mp h with ⟨-, rfl⟩ | ⟨-, h⟩
      · exact Or.inr rfl
      · exact Or.inl (Or.inl h)
    · exact Or.inl (Or.inr h)
  | enterRoom =>
    rcases h with h | h
    · exact Or.inl (Or.inl h)
    · rcases Dict.assign_eq_some.mp h with ⟨-, rfl⟩ | ⟨-, h⟩
      · exact Or.inr rfl
      · exact Or.inl (Or.inr h)
  | leaveHall | exitHall => exact Or.inl (h.imp_left fun h => (Dict.erase_eq_some.mp h).2)
  | exitRoom => exact Or.inl (h.imp_right fun h => (Dict.erase_eq_some.mp h).2)
  | ends | notInHall | notInRoom | roomInRoom | inHall | outOfHall | findRoom | hallMessage | roomMessage | spectate
  | unwatch | watch | removeUser | removeSpectator => exact Or.inl h

/-- One access keeps presence exclusive, and finds out what the next ones rely on. -/
theorem exclusive (hs : NextStep s pc s' pc') (hc : s.rm.Consistent) (h : s.Exclusive) (hfound : pc.Found s) :
    s'.Exclusive ∧ pc'.Found s' := by
  have hremove : ∀ {uid' rid uid}, (s.rm.removeSpectatorUser uid').spectator rid uid ≠ none →
      s.rm.spectator rid uid ≠ none := by
    intro uid' rid uid hin
    rw [RoomManager.spectator_removeSpectatorUser] at hin
    split at hin
    · exact absurd rfl hin
    · exact hin
  cases hs with
  | ends | notInHall | roomInRoom | inHall | spectate => exact ⟨h, trivial⟩
  | notInRoom hroom => exact ⟨h, hroom⟩
  | outOfHall hhall => exact ⟨h, hhall⟩
  | findRoom => exact ⟨h, hfound⟩
  | enterHall => exact ⟨h.enterHall hfound, trivial⟩
  | enterRoom => exact ⟨h.enterRoom hfound, trivial⟩
  | leaveHall => exact ⟨h.within .exitHall, Bool.eq_false_iff.mpr fun hin => (Server.inGameHall_exit.mp hin).1 rfl⟩
  | exitHall => exact ⟨h.within .exitHall, trivial⟩
  | exitRoom => exact ⟨h.within .exitRoom, trivial⟩
  | hallMessage => exact ⟨h.within (.of_rm rfl rfl id), trivial⟩
  | roomMessage hmsg =>
    exact ⟨h.within (.of_rm rfl rfl fun hin => by rwa [← RoomManager.spectator_wsmsgGameRoom hmsg]), trivial⟩
  | removeUser =>
    refine ⟨h.within (.of_rm rfl rfl fun hin => ?_), trivial⟩
    rw [hc.spectator_removeRoomUser] at hin
    split at hin
    · exact absurd rfl hin
    · exact hin
  | removeSpectator => exact ⟨h.within (.of_rm rfl rfl hremove), trivial⟩
  | unwatch =>
    exact ⟨h.within (.of_rm rfl rfl hremove), fun rid => RoomManager.spectator_removeSpectatorUser.trans (if_pos rfl)⟩
  | watch hr => exact ⟨h.watch hr hfound, trivial⟩

end NextStep

/-- A match thread seats players, and admits nobody. -/
theorem Server.TurnStep.frame {s s' : Server} {k : Pool} {selectById : Uid → Option Members} {now : Int} {out : List Obs}
    (hs : TurnStep s k selectById now s' out) (hc : s.rm.Consistent) :
    s'.om = s.om ∧ s'.rm.Consistent ∧ Within s' s := by
  cases hs with
  | seat => exact ⟨rfl, hc.addRoom, .of_rm rfl rfl fun hin => by rwa [← hc.spectator_addRoom]⟩
  | round | walk | pop | absent | back | lost => exact ⟨rfl, hc, .of_rm rfl rfl id⟩

/-! ### Runs -/

namespace IoThread
variable {t t' : IoThread} {ts : List IoTrans} {e : IoEvent} {out : List FrontObs}

structure Inv (t : IoThread) : Prop where
  consistent : t.server.rm.Consistent
  exclusive : t.server.Exclusive
  found : t.pc.Found t.server
  known : ∀ {uid conn}, t.server.om.gameHall uid = some conn ∨ t.server.om.gameRoom uid = some conn →
    t.front.conns conn ≠ none
  entering : ∀ {conn}, t.pc.entering = some conn → t.front.conns conn ≠ none

theorem inv_start : start.Inv where
  consistent := RoomManager.consistent_empty
  exclusive := ⟨fun _ h => (by cases h.1), fun _ _ _ h => absurd rfl h⟩
  found := trivial
  known h := by rcases h with h | h <;> cases h
  entering h := by cases h

/-- The callback stands where it stood, and the tables are as they were. -/
theorem Inv.within (h : t.Inv) {s : Server} (hw : Server.Within s t.server) (hom : s.om = t.server.om)
    (hc : s.rm.Consistent) : (t.setServer s).Inv where
  consistent := hc
  exclusive := h.exclusive.within hw
  found := h.found.within hw
  known hentry := h.known (hom ▸ hentry)
  entering := h.entering

theorem known_assign {conns : Dict ConnId Conn} {conn conn' : ConnId} {c : Conn} (h : conns conn ≠ none) :
    conns.assign conn' c conn ≠ none := by
  by_cases heq : conn = conn'
  · simp [heq]
  · rwa [Dict.assign_ne heq]

theorem found_onOpen {s : Server} {conn : ConnId} {uri : WsUri} (user : Option Uid) :
    (user.elim IoPc.idle fun uid => .onOpen conn uid uri).Found s := by
  cases user <;> cases uri <;> trivial

theorem found_onClose {s : Server} {uri : WsUri} (user : Option Uid) :
    (user.elim IoPc.idle fun uid => .onClose uid uri).Found s ∧
      (user.elim IoPc.idle fun uid => .onClose uid uri).entering = none := by
  cases user <;> cases uri <;> exact ⟨trivial, rfl⟩

theorem found_onMessage {s : Server} {conn : ConnId} {uri : WsUri} {body : Option Json} (user : Option Uid) :
    (user.elim IoPc.idle fun uid => .onMessage conn uid body uri).Found s ∧
      (user.elim IoPc.idle fun uid => .onMessage conn uid body uri).entering = none := by
  cases user <;> cases uri <;> exact ⟨trivial, rfl⟩

theorem entering_onOpen {conn conn' : ConnId} {uri : WsUri} {user : Option Uid}
    (h : (user.elim IoPc.idle fun uid => .onOpen conn uid uri).entering = some conn') : conn' = conn := by
  cases user with
  | none => cases h
  | some uid => cases uri <;> cases h <;> rfl

theorem Inv.next (h : t.Inv) (hconns : t'.front.conns = t.front.conns) (hs : NextStep t.server t.pc t'.server t'.pc) :
    t'.Inv := by
  obtain ⟨hexclusive, hfound⟩ := hs.exclusive h.consistent h.exclusive h.found
  refine ⟨hs.consistent h.consistent, hexclusive, hfound, ?_, ?_⟩
  · intro uid conn hentry
    rw [hconns]
    rcases hs.entry hentry with hentry | hentering
    · exact h.known hentry
    · exact h.entering hentering
  · intro conn hentering
    rw [hconns]
    exact h.entering (hs.entering hentering)

theorem Inv.step (h : t.Inv) (hs : machine.step t e = some (t', out)) : t'.Inv := by
  cases e with
  | turn k selectById now =>
    simp only [machine] at hs
    split at hs
    · cases hs
    · rename_i hturn
      cases hs
      obtain ⟨hom, hc, hw⟩ := (Server.turn_inv hturn).frame h.consistent
      exact h.within hw hom hc
  | opened conn uri user =>
    simp only [machine] at hs
    split at hs
    · rename_i hpc hnew
      cases hs
      have hfresh : ∀ uid, t.server.om.gameHall uid ≠ some conn ∧ t.server.om.gameRoom uid ≠ some conn :=
        fun uid => ⟨fun hentry => h.known (Or.inl hentry) hnew, fun hentry => h.known (Or.inr hentry) hnew⟩
      exact {
        consistent := h.consistent
        exclusive := h.exclusive.within (.connect (fun uid => (hfresh uid).1) fun uid => (hfresh uid).2)
        found := found_onOpen user
        known := fun hentry => known_assign (h.known hentry)
        entering := fun hentering => by simp [entering_onOpen hentering, Front.connect] }
    · cases hs
  | message conn user body =>
    simp only [machine] at hs
    split at hs
    · cases hs
      obtain ⟨hfound, hnone⟩ := found_onMessage (s := t.server) user
      exact ⟨h.consistent, h.exclusive, hfound, h.known, fun hentering => by cases hnone.symm.trans hentering⟩
    · cases hs
  | closed conn user =>
    simp only [machine] at hs
    split at hs
    · cases hs
      obtain ⟨hfound, hnone⟩ := found_onClose (s := t.server.disconnect conn) user
      exact {
        consistent := h.consistent
        exclusive := h.exclusive.within .disconnect
        found := hfound
        known := fun hentry => known_assign (h.known hentry)
        entering := fun hentering => by cases hnone.symm.trans hentering }
    · cases hs
  | next selectById reads now later =>
    obtain ⟨hconns, hnext⟩ := next_inv hs
    exact h.next hconns hnext
  | drop conn =>
    simp only [machine] at hs
    split at hs
    · cases hs
    · cases hs
      exact h.within .disconnect rfl h.consistent

theorem run_inv (h : machine.Run start ts t) : t.Inv := h.invariant inv_start Inv.step

/-- In every state of every run, also in the middle of a callback: nobody is in the hall and in a room, and nobody is
    among the spectators of two rooms. -/
theorem presence_exclusive (h : machine.Run start ts t) (uid : Uid) :
    ¬(t.server.inGameHall uid = true ∧ t.server.inGameRoom uid = true) ∧
      ∀ rid rid' r r', t.server.rm.rooms rid = some r → t.server.rm.rooms rid' = some r' →
        r.spectatorConns uid ≠ none → r'.spectatorConns uid ≠ none → rid = rid' := by
  have hx := (run_inv h).exclusive
  refine ⟨hx.apart uid, ?_⟩
  intro rid rid' r r' hr hr' hin hin'
  refine hx.single uid rid rid' ?_ ?_
  · rwa [RoomManager.spectator, hr]
  · rwa [RoomManager.spectator, hr']

/-- The accesses of a callback, with nothing in between. -/
def accesses (n : Nat) : List IoEvent := List.replicate n (.next newcomer (fun _ => true) 0 0)

/-- Users 1 and 2 are paired, and user 2 comes to the room with connection 3. When the callback has found user 2 in no
    room, the hall connection goes, so its entry stays. User 3 watches the game. -/
def lingering : List IoEvent :=
  .opened 1 .hall (some 1) :: accesses 3 ++ .opened 2 .hall (some 2) :: accesses 3 ++
    .message 1 (some 1) (some matchStartMsg) :: accesses 1 ++ .message 2 (some 2) (some matchStartMsg) :: accesses 1 ++
    List.replicate 8 (.turn .normal newcomer 0) ++
    .opened 3 .room (some 2) :: accesses 1 ++ .drop 2 :: accesses 3 ++
    .opened 4 .spectate (some 3) ::
    .message 4 (some 3) (some (.obj [("optype", .str "spectate_join"), ("room_id", .int 1)])) :: accesses 3

theorem presence_exclusive_lingering : ∃ (ts : List IoTrans) (t : IoThread), machine.Run start ts t ∧
    (t.server.om.gameHall 2 = some 2 ∧ t.server.inGameRoom 2 = true ∧
      (t.server.rm.rooms 1).any (fun r => r.spectatorConns 3 = some 4) = true) ∧
    ∀ uid, ¬(t.server.inGameHall uid = true ∧ t.server.inGameRoom uid = true) ∧
      ∀ rid rid' r r', t.server.rm.rooms rid = some r → t.server.rm.rooms rid' = some r' →
        r.spectatorConns uid ≠ none → r'.spectatorConns uid ≠ none → rid = rid' := by
  obtain ⟨ts, t, h, hin⟩ := Machine.Run.exists_of_exec machine start lingering
    (fun _ t => t.server.om.gameHall 2 = some 2 ∧ t.server.inGameRoom 2 = true ∧
      (t.server.rm.rooms 1).any (fun r => r.spectatorConns 3 = some 4) = true) (by decide +kernel)
  exact ⟨ts, t, h, hin, fun uid => presence_exclusive h uid⟩

end IoThread
end FiveStones
