import FiveStones.Theorems.Load

/-! Nobody plays twice at a time: how often a user is waiting, held by a match thread, or in a running game. -/

namespace FiveStones

namespace Room
variable {env : Env} {r r' : Room} {m : Members} {out : List Call}

/-- The request accepts a rematch, and starts it. -/
structure AcceptsRematch (env : Env) (r : Room) (m : Members) : Prop where
  asks : Asks r m "rematch_accept"
  ended : r.statu = .gameOver
  invited : r.rematchInitiatorUid ≠ 0
  other : ∃ uid, (m.get "uid").asUInt64 = .ok uid ∧ r.Seats uid ∧ uid ≠ r.rematchInitiatorUid
  online : r.bothPlayersOnline env = true

theorem RequestStep.acceptsRematch (hs : RequestStep env r m r' out) (hover : r.statu = .gameOver)
    (hrun : r'.statu = .gameStart) : AcceptsRematch env r m := by
  have absurd_of_running (h : r.statu = .gameStart) : AcceptsRematch env r m := by
    rw [hover] at h
    cases h
  cases hs with
  | idle => exact absurd_of_running hrun
  | timeUp h => exact absurd_of_running h
  | walkover hadm | claimed hadm => exact absurd_of_running hadm.running
  | placed hpl | won hpl => exact absurd_of_running hpl.running
  | invite => exact absurd_of_running hrun
  | accept asks huid _ hseat hinit hne honline => exact ⟨asks, hover, hinit, ⟨_, huid, hseat, hne⟩, honline⟩

theorem acceptsRematch_of_restart {req : Json} (h : r.handleRequest env req = .ok (r', out))
    (hover : r.statu = .gameOver) (hrun : r'.statu = .gameStart) : ∃ m, req.members = .ok m ∧ r.AcceptsRematch env m := by
  obtain ⟨m, hm, hstep | ⟨-, uid, ms, rfl⟩⟩ := handleRequest_cases h
  · exact ⟨m, hm, hstep.acceptsRematch hover hrun⟩
  · rw [passTurn_statu, hover] at hrun
    cases hrun

end Room

namespace RoomManager
variable {rm rm' : RoomManager} {rid rid' : Rid} {r r' : Room} {uid uid1 uid2 : Uid} {now : Int}

/-- The room `rid` has a running game, with `uid` in a seat. -/
def RunsIn (rm : RoomManager) (rid : Rid) (uid : Uid) : Prop :=
  ∃ r, rm.rooms rid = some r ∧ r.statu = .gameStart ∧ r.Seats uid

theorem RunsIn.of_addRoom (hc : Consistent rm) (h : RunsIn (rm.addRoom uid1 uid2 now) rid uid) :
    (rid = rm.nextRid ∧ (uid = uid1 ∨ uid = uid2)) ∨ RunsIn rm rid uid := by
  obtain ⟨r, hr, hrun, hseat⟩ := h
  rw [hc.addRoom_rooms] at hr
  split at hr
  · rename_i heq
    obtain rfl := Option.some.inj hr
    exact Or.inl ⟨heq, hseat⟩
  · exact Or.inr ⟨r, hr, hrun, hseat⟩

/-- The step starts another game in the room `rid`, for `uid` among others. -/
def Restarts (rm rm' : RoomManager) (rid : Rid) (uid : Uid) : Prop :=
  ∃ r r', rm.rooms rid = some r ∧ rm'.rooms rid = some r' ∧ r.statu = .gameOver ∧ r'.statu = .gameStart ∧ r.Seats uid

theorem not_restarts_of_eq (h : rm'.rooms rid = rm.rooms rid) : ¬Restarts rm rm' rid uid := by
  rintro ⟨r, r', hr, hr', hover, hrun, -⟩
  rw [h, hr, Option.some.injEq] at hr'
  rw [← hr', hover] at hrun
  cases hrun

/-- A game that runs after a step that creates no room ran before, or was started again by it. -/
theorem RunsIn.of_mapStep (hs : MapStep rm rm') (h : RunsIn rm' rid uid) : RunsIn rm rid uid ∨ Restarts rm rm' rid uid := by
  obtain ⟨r', hr', hrun, hseat⟩ := h
  obtain ⟨r, hr, hkeep⟩ := hs.keeps hr'
  have hseat' := (hkeep.seats uid).mp hseat
  cases hstatu : r.statu with
  | gameStart => exact Or.inl ⟨r, hr, hstatu, hseat'⟩
  | gameOver => exact Or.inr ⟨r, r', hr, hr', hstatu, hrun, hseat'⟩

/-- A room that restarts with a message is the one that the message came to, and accepted a rematch. -/
theorem Restarts.of_message {env : Env} {body : Option Json} {calls : List Call} {v : Uid}
    (h : rm.wsmsgGameRoom env uid body = .ok (rm', calls)) (hr : Restarts rm rm' rid v) :
    ∃ m r, body.map Json.members = some (.ok m) ∧ rm.findRoom uid = some (rid, r) ∧ r.AcceptsRematch env m ∧ r.Seats v := by
  rcases wsmsgGameRoom_cases h with ⟨rfl, -⟩ | ⟨rid₀, r₀, req, r₁, hfind, rfl, hreq, rfl⟩
  · exact (not_restarts_of_eq rfl hr).elim
  · by_cases heq : rid = rid₀
    · subst heq
      obtain ⟨r, r', hr, hr', hover, hrun, hseat⟩ := hr
      have hr₀ := (findRoom_eq_some.mp hfind).2
      rw [hr, Option.some.injEq] at hr₀
      rw [setRoom_self, Option.some.injEq] at hr'
      subst hr₀ hr'
      obtain ⟨m, hm, haccepts⟩ := Room.acceptsRematch_of_restart hreq hover hrun
      exact ⟨m, r, by simp [hm], hfind, haccepts, hseat⟩
    · exact (not_restarts_of_eq (setRoom_ne heq) hr).elim

theorem not_restarts_handleExit : ¬Restarts rm (rm.setRoom rid' (r.handleExit uid).1) rid uid1 := by
  by_cases heq : rid = rid'
  · subst heq
    rintro ⟨-, r', -, hr', -, hrun, -⟩
    rw [setRoom_self, Room.handleExit_fst, Option.some.injEq] at hr'
    rw [← hr'] at hrun
    cases hrun
  · exact not_restarts_of_eq (setRoom_ne heq)

theorem not_restarts_removeRoomUser : ¬Restarts rm (rm.removeRoomUser uid).1 rid uid1 := by
  unfold removeRoomUser
  split
  · exact not_restarts_of_eq rfl
  simp only
  split
  · rintro ⟨r, r', hr, hr', hgame⟩
    rw [removeRoom_rooms] at hr'
    split at hr'
    · cases hr'
    · exact not_restarts_handleExit ⟨r, r', hr, hr', hgame⟩
  · exact not_restarts_handleExit

end RoomManager

namespace Server
variable {s s' : Server} {k pool : Pool} {pc : Pc} {uid v : Uid} {q : List Uid} {out : List Obs} {now : Int}
  {selectById : Uid → Option Members} {e : ServerEvent} {ts : List ServerTrans}

def Free (s : Server) (uid : Uid) : Prop := s.load uid = 0 ∧ ∀ rid, ¬s.rm.RunsIn rid uid

/-! ### Who waits or plays, waits or plays once -/

structure Booked (s : Server) : Prop where
  consistent : s.rm.Consistent
  once : ∀ uid, s.load uid ≤ 1
  playing : ∀ {rid uid}, s.rm.RunsIn rid uid → s.load uid = 0
  single : ∀ {rid rid' uid}, s.rm.RunsIn rid uid → s.rm.RunsIn rid' uid → rid = rid'

theorem booked_start : Booked start where
  consistent := RoomManager.consistent_empty
  once _ := Nat.zero_le 1
  playing h := by obtain ⟨r, hr, -⟩ := h; cases hr
  single h := by obtain ⟨r, hr, -⟩ := h; cases hr

theorem Booked.of_le (h : Booked s) (hrm : s'.rm = s.rm) (hle : ∀ uid, s'.load uid ≤ s.load uid) : Booked s' where
  consistent := hrm ▸ h.consistent
  once uid := (hle uid).trans (h.once uid)
  playing {_ uid} hruns := Nat.le_zero.mp (h.playing (hrm ▸ hruns) ▸ hle uid)
  single hruns hruns' := h.single (hrm ▸ hruns) (hrm ▸ hruns')

/-- Two users that a match thread holds are not the same, and neither of them plays. -/
theorem Booked.held (h : Booked s) {uid1 uid2 : Uid} (hheld : s.hands k = [uid1, uid2]) :
    uid1 ≠ uid2 ∧ ∀ uid ∈ s.hands k, ∀ rid, ¬s.rm.RunsIn rid uid := by
  constructor
  · rintro rfl
    have hle := (hands_count_le s k uid1).trans (h.once uid1)
    simp [hheld] at hle
  · intro uid huid rid hruns
    have hle := (hands_count_le s k uid).trans (Nat.le_of_eq (h.playing hruns))
    have hpos := List.count_pos_iff.mpr huid
    omega

theorem Booked.seat (h : Booked s) {uid1 uid2 : Uid} (hheld : s.hands k = [uid1, uid2]) :
    Booked ({ s with rm := s.rm.addRoom uid1 uid2 now }.goto k .size) := by
  have hload := load_seat hheld (s.rm.addRoom uid1 uid2 now)
  obtain ⟨-, hidle⟩ := h.held hheld
  have hnew : ∀ {rid uid}, uid = uid1 ∨ uid = uid2 → ¬s.rm.RunsIn rid uid := fun huid =>
    hidle _ (by rw [hheld]; simpa using huid) _
  refine ⟨h.consistent.addRoom, fun uid => (Nat.le.intro (hload uid)).trans (h.once uid), ?_, ?_⟩
  · intro rid uid hruns
    have hle := Nat.le.intro (hload uid)
    rcases hruns.of_addRoom h.consistent with ⟨-, huid⟩ | hruns
    · have hpos : 0 < [uid1, uid2].count uid := List.count_pos_iff.mpr (by simpa using huid)
      have honce := h.once uid
      have hload := hload uid
      omega
    · exact Nat.le_zero.mp (h.playing hruns ▸ hle)
  · intro rid rid' uid hruns hruns'
    rcases hruns.of_addRoom h.consistent with ⟨rfl, huid⟩ | hruns
    · rcases hruns'.of_addRoom h.consistent with ⟨rfl, -⟩ | hruns'
      · rfl
      · exact absurd hruns' (hnew huid)
    · rcases hruns'.of_addRoom h.consistent with ⟨rfl, huid⟩ | hruns'
      · exact absurd hruns (hnew huid)
      · exact h.single hruns hruns'

theorem Booked.turn (h : Booked s) (hs : TurnStep s k selectById now s' out) : Booked s' := by
  have hle := hs.load_le
  cases hs with
  | seat hpc => exact h.seat (hands_create hpc)
  | round | walk | pop | absent | back | lost => exact h.of_le rfl hle

theorem Booked.start (h : Booked s) (hfree : s.Free uid) : Booked (s.push pool uid) where
  consistent := h.consistent
  once v := by
    rw [load_push]
    by_cases heq : uid = v
    · subst heq
      simp [hfree.1]
    · simpa [heq] using h.once v
  playing {_ v} hruns := by
    have hne : uid ≠ v := by
      rintro rfl
      exact hfree.2 _ hruns
    rw [load_push, h.playing hruns]
    simp [hne]
  single := h.single

/-- The events of a connection start another game only by an accepted rematch. -/
theorem step_restarts {rid : Rid} (h : machine.step s e = some (s', out)) (hconn : e.OfConnection)
    (hr : RoomManager.Restarts s.rm s'.rm rid v) :
    ∃ uid body selectById now later m r, e = .roomMessage uid body selectById now later ∧
      body.map Json.members = some (.ok m) ∧ s.rm.findRoom uid = some (rid, r) ∧
      r.AcceptsRematch ⟨s.om, s.isOpen, selectById, now, later⟩ m ∧ r.Seats v := by
  cases e with
  | turn | matchStart | matchStop => exact hconn.elim
  | hallOpen uid conn =>
    obtain ⟨om, isOpen, heq⟩ := wsopenGameHall_eq s uid conn
    simp only [machine, heq, Option.some.injEq, Prod.mk.injEq] at h
    obtain ⟨rfl, rfl⟩ := h
    exact (RoomManager.not_restarts_of_eq rfl hr).elim
  | roomOpen uid conn =>
    obtain ⟨om, isOpen, heq⟩ := wsopenGameRoom_eq s uid conn
    simp only [machine, heq, Option.some.injEq, Prod.mk.injEq] at h
    obtain ⟨rfl, rfl⟩ := h
    exact (RoomManager.not_restarts_of_eq rfl hr).elim
  | hallClose uid | drop conn =>
    cases h
    exact (RoomManager.not_restarts_of_eq rfl hr).elim
  | roomClose uid =>
    cases h
    exact (RoomManager.not_restarts_removeRoomUser hr).elim
  | roomMessage uid body selectById now later =>
    simp only [machine] at h
    split at h
    · cases h
    · rename_i rm calls hmsg
      cases h
      obtain ⟨m, r, hbody, hfind, haccepts, hseat⟩ := hr.of_message hmsg
      exact ⟨uid, body, selectById, now, later, m, r, rfl, hbody, hfind, haccepts, hseat⟩

end Server

namespace ServerTrans

/-- Who asks for a match, and whose rematch is accepted, waits nowhere and plays nowhere before the step. -/
structure Exclusive (x : ServerTrans) : Prop where
  start : ∀ uid selectById, x.event = .matchStart uid selectById → selectById uid ≠ none → x.before.Free uid
  rematch : ∀ uid body selectById now later m rid r, x.event = .roomMessage uid body selectById now later →
    body.map Json.members = some (.ok m) → x.before.rm.findRoom uid = some (rid, r) →
    r.AcceptsRematch ⟨x.before.om, x.before.isOpen, selectById, now, later⟩ m → ∀ v, r.Seats v → x.before.Free v

end ServerTrans

namespace Server
variable {s s' : Server} {uid : Uid} {out : List Obs} {e : ServerEvent} {ts : List ServerTrans}

theorem Booked.step (h : Booked s) (hs : machine.step s e = some (s', out))
    (hx : ServerTrans.Exclusive ⟨s, e, s', out⟩) : Booked s' := by
  cases step_inv hs with
  | turn hturn => exact h.turn hturn
  | start hpool => exact h.start (hx.start _ _ rfl (poolOfUser_some hpool))
  | startLost | stopLost => exact h
  | stop => exact h.of_le rfl (load_remove_le s _ _)
  | @network _ om isOpen rm calls hconn hmap =>
    have hload : ∀ uid, load { s with om, isOpen, rm } uid = s.load uid := load_congr rfl rfl
    -- A game that was not running is one that an accepted rematch starts, and there is one such room.
    have hrestart : ∀ {rid v}, RoomManager.Restarts s.rm rm rid v → s.Free v := fun hr => by
      obtain ⟨uid, body, selectById, now, later, m, r, he, hbody, hfind, haccepts, hseat⟩ := step_restarts hs hconn hr
      exact hx.rematch uid body selectById now later m _ r he hbody hfind haccepts _ hseat
    refine ⟨h.consistent.mapStep hmap, fun uid => hload uid ▸ h.once uid, ?_, ?_⟩
    · intro rid v hruns
      rw [hload]
      rcases hruns.of_mapStep hmap with hruns | hr
      · exact h.playing hruns
      · exact (hrestart hr).1
    · intro rid rid' v hruns hruns'
      rcases hruns.of_mapStep hmap with hruns | hr
      · rcases hruns'.of_mapStep hmap with hruns' | hr'
        · exact h.single hruns hruns'
        · exact absurd hruns ((hrestart hr').2 rid)
      · rcases hruns'.of_mapStep hmap with hruns' | hr'
        · exact absurd hruns' ((hrestart hr).2 rid')
        · obtain ⟨uid, body, selectById, now, later, m, r, he, -, hfind, -⟩ := step_restarts hs hconn hr
          obtain ⟨uid', body', selectById', now', later', m', r', he', -, hfind', -⟩ := step_restarts hs hconn hr'
          cases he.symm.trans he'
          exact (Prod.mk.inj (Option.some.inj (hfind.symm.trans hfind'))).1

theorem run_booked (h : machine.Run start ts s) (hx : ∀ x ∈ ts, x.Exclusive) : Booked s :=
  h.invariant_of booked_start hx Booked.step

/-- Nobody is booked twice: no room was created with one user in both seats, and no user has a seat in two running games. -/
structure SinglyBooked (ts : List ServerTrans) (s : Server) : Prop where
  seats : ∀ x ∈ ts, ∀ k r, .created k r ∈ x.out → r.whiteId ≠ r.blackId
  games : ∀ rid rid' uid, s.rm.RunsIn rid uid → s.rm.RunsIn rid' uid → rid = rid'

/-- As long as no request comes from who waits or plays already, nobody is booked twice. -/
theorem singly_booked (h : machine.Run start ts s) (hx : ∀ x ∈ ts, x.Exclusive) : SinglyBooked ts s where
  seats _ hmem _ _ hr := by
    obtain ⟨hbooked, hs⟩ := h.before_of booked_start hx Booked.step hmem
    obtain ⟨uid1, uid2, now, hpc, rfl⟩ := (step_inv hs).created hr
    exact (hbooked.held (hands_create hpc)).1
  games _ _ _ := (run_booked h hx).single

theorem free_of_noRoom (h : machine.Run start ts s) (hload : s.load uid = 0) (hnext : s.rm.nextRid = 1)
    (hzero : (s.rm.rooms 0).isNone) : s.Free uid := by
  refine ⟨hload, ?_⟩
  rintro rid ⟨r, hr, -⟩
  have hlt := ((run_consistent h).ids hr).2
  rw [hnext, Nat.lt_one_iff] at hlt
  subst hlt
  simp [hr] at hzero

/-- Two users who come to the hall and ask for a match, and the eight steps that seat them. -/
def pairing : List ServerEvent :=
  [.hallOpen 1 1, .hallOpen 2 2, .matchStart 1 newcomer, .matchStart 2 newcomer] ++
    List.replicate 8 (.turn .normal newcomer 0)

/-- Two users who ask once each are seated, and not twice. -/
theorem singly_booked_pairing : ∃ (ts : List ServerTrans) (s : Server), machine.Run start ts s ∧ s.rm.nextRid = 2 ∧
    SinglyBooked ts s := by
  obtain ⟨ts, s, h, hfresh, hnext⟩ := Machine.Run.exists_of_exec machine start pairing
    (fun (ts : List ServerTrans) s => (∀ x ∈ ts, (match x.event with
      | .matchStart uid _ => decide (x.before.load uid = 0 ∧ x.before.rm.nextRid = 1) && (x.before.rm.rooms 0).isNone
      | .roomMessage .. => false
      | _ => true) = true) ∧ s.rm.nextRid = 2) (by decide +kernel)
  refine ⟨ts, s, h, hnext, singly_booked h fun x hx => ?_⟩
  have hx' := hfresh x hx
  obtain ⟨us, vs, rfl, hus, -⟩ := h.split_mem hx
  constructor
  · intro uid selectById he _
    simp only [he, Bool.and_eq_true, decide_eq_true_eq] at hx'
    exact free_of_noRoom hus hx'.1.1 hx'.1.2 hx'.2
  · intro uid body selectById now later m rid r he
    simp [he] at hx'

/-- A user who asks twice is seated against itself. -/
theorem seated_alone : ¬∀ (ts : List ServerTrans) s, machine.Run start ts s → SinglyBooked ts s := by
  intro hall
  obtain ⟨ts, s, h, hself⟩ := Machine.Run.exists_of_exec machine start
    ([.hallOpen 1 1, .matchStart 1 newcomer, .matchStart 1 newcomer] ++ List.replicate 8 (.turn .normal newcomer 0))
    (fun (ts : List ServerTrans) _ => ∃ x ∈ ts, (x.out.any fun
      | .created _ r => r.whiteId = r.blackId
      | _ => false) = true) (by decide +kernel)
  obtain ⟨x, hx, hself⟩ := hself
  obtain ⟨obs, hobs, hself⟩ := List.any_eq_true.mp hself
  cases obs with
  | created k r => exact (hall ts s h).seats x hx k r hobs (by simpa using hself)
  | round | popped | absent | pushed | removed | call => cases hself

end Server
end FiveStones
