import FiveStones.Theorems.Registration

/-! The count of players in a room against the players who have left it. -/

namespace FiveStones

namespace FrontTrans

/-- The connection that stands for `uid` in `_game_room` closes, while `uid` is routed to the room `rid`. -/
def departs (x : FrontTrans) (uid : Uid) (rid : Rid) : Bool :=
  match x.event with
  | .closed conn _ => x.before.server.om.gameRoom uid = some conn && x.before.server.rm.users uid = some rid
  | _ => false

/-- `/room` admits `uid`, who is routed to the room `rid`. -/
def enters (x : FrontTrans) (uid : Uid) (rid : Rid) : Bool :=
  match x.event with
  | .opened _ .room _ _ =>
    x.before.server.rm.users uid = some rid && x.out.any fun
      | .admitted _ v _ => v = uid
      | _ => false
  | _ => false

end FrontTrans

/-- `uid` has left the room `rid`, and has not come back. -/
def hasLeft (uid : Uid) (rid : Rid) (ts : List FrontTrans) : Bool :=
  ts.foldl (fun left x => x.departs uid rid || (left && !x.enters uid rid)) false

theorem hasLeft_snoc {uid : Uid} {rid : Rid} {ts : List FrontTrans} {x : FrontTrans} :
    hasLeft uid rid (ts ++ [x]) = (x.departs uid rid || (hasLeft uid rid ts && !x.enters uid rid)) := by
  simp [hasLeft, List.foldl_append]

def present (uid : Uid) (rid : Rid) (ts : List FrontTrans) : Nat := if hasLeft uid rid ts then 0 else 1

/-- After the steps `ts`, each room with two players counts those who have not left or have come back, and was
    taken away only when none of them was in it. -/
structure DeparturesCounted (ts : List FrontTrans) (f : Front) : Prop where
  count : ∀ rid r, f.server.rm.rooms rid = some r → r.whiteId ≠ r.blackId →
    r.playerCount = present r.whiteId rid ts + present r.blackId rid ts
  removal : ∀ x ∈ ts, ∀ rid r uid, x.before.server.rm.rooms rid = some r → x.after.server.rm.rooms rid = none →
    r.whiteId ≠ r.blackId → r.Seats uid → x.before.server.rm.users uid = some rid →
    x.after.server.inGameRoom uid = false

namespace FrontTrans

def roomOpener (x : FrontTrans) : Option Uid :=
  match x.event with
  | .opened _ .room user _ => user
  | _ => none

def closing (x : FrontTrans) : Option (ConnId × Option Uid) :=
  match x.event with
  | .closed conn user => some (conn, user)
  | _ => none

/-- A step that the count follows: nobody who has left is let in again, a room connection that closes is the one
    that stands for its user, and the close of that one finds the user's session. -/
def Counts (us : List FrontTrans) (x : FrontTrans) : Prop :=
  (∀ uid ∈ x.roomOpener, ∀ rid ∈ x.before.server.rm.users uid,
    x.before.server.inGameRoom uid = false → hasLeft uid rid us = false) ∧
  ∀ c ∈ x.closing,
    (∀ uid ∈ c.2, x.before.conns c.1 = some ⟨.room, false⟩ → x.before.server.rm.users uid ≠ none →
      x.before.server.om.gameRoom uid = some c.1) ∧
    ∀ a ∈ admissions us, a.1 = c.1 → x.before.server.om.gameRoom a.2 = some c.1 → x.before.server.rm.users a.2 ≠ none →
      c.2 = some a.2

-- The user and the admissions are gone through, not all numbers of users.
instance (us : List FrontTrans) : DecidablePred (Counts us) := fun _ =>
  @instDecidableAnd _ _
    (@Option.decidableForallMem _ _ (fun _ => @Option.decidableForallMem _ _ (fun _ => inferInstance) _) _)
    (@Option.decidableForallMem _ _ (fun _ => @instDecidableAnd _ _
      (@Option.decidableForallMem _ _ (fun _ => inferInstance) _)
      (@List.decidableBAll _ _ (fun _ => inferInstance) _)) _)

theorem Counts.closes {us : List FrontTrans} {f f' : Front} {conn : ConnId} {uid : Uid} {out : List FrontObs}
    (h : Counts us ⟨f, .closed conn (some uid), f', out⟩) (hconn : f.conns conn = some ⟨.room, false⟩)
    (hu : f.server.rm.users uid ≠ none) : f.server.om.gameRoom uid = some conn :=
  (h.2 (conn, some uid) rfl).1 uid rfl hconn hu

theorem Counts.finds {us : List FrontTrans} {f f' : Front} {conn : ConnId} {user : Option Uid} {uid : Uid}
    {out : List FrontObs} (h : Counts us ⟨f, .closed conn user, f', out⟩) (hadm : Admitted us conn uid)
    (hentry : f.server.om.gameRoom uid = some conn) (hu : f.server.rm.users uid ≠ none) : user = some uid :=
  (h.2 (conn, user) rfl).2 (conn, uid) hadm rfl hentry hu

end FrontTrans

/-! ### Steps -/

structure Counted (ts : List FrontTrans) (f : Front) : Prop where
  consistent : f.server.rm.Consistent
  registered : Registered ts f
  count : ∀ rid r, f.server.rm.rooms rid = some r → r.whiteId ≠ r.blackId →
    r.playerCount = present r.whiteId rid ts + present r.blackId rid ts
  old : ∀ uid rid, hasLeft uid rid ts = true → rid < f.server.rm.nextRid
  away : ∀ uid rid, hasLeft uid rid ts = true → f.server.rm.users uid = some rid → f.server.om.gameRoom uid = none

namespace FrontStep
variable {f f' : Front} {e : FrontEvent} {out : List FrontObs} {us : List FrontTrans} {uid : Uid} {rid : Rid} {conn : ConnId}
  {user : Option Uid}

/-- The step is the close of a room connection whose user is found. -/
def RoomClose (f : Front) (e : FrontEvent) (uid : Uid) : Prop :=
  ∃ conn, e = .closed conn (some uid) ∧ f.conns conn = some ⟨.room, false⟩

theorem roomClose (hs : FrontStep f e f' out) (h : RoomClose f e uid) :
    f'.server.rm = (f.server.rm.removeRoomUser uid).1 ∧ f'.server.om = f.server.om.exitGameRoom uid := by
  obtain ⟨conn, rfl, hconn⟩ := h
  cases hs with
  | leftRoom => exact ⟨rfl, rfl⟩
  | left hconn' hnone =>
    rw [hconn] at hconn'
    cases hconn'
    rcases hnone with h | h <;> cases h
  | leftHall hconn' | leftSpectate hconn' =>
    rw [hconn] at hconn'
    cases hconn'

/-- Who is admitted with a room connection opens it in this step. -/
theorem admitted_room (hs : FrontStep f e f' out) {resp : Members} (h : .admitted conn uid resp ∈ out)
    (hconn : f'.conns conn = some ⟨.room, false⟩) :
    ∃ selectById, e = .opened conn .room (some uid) selectById ∧ f.conns conn = none ∧
      (f.server.connect conn).inGameRoom uid = false := by
  cases hs with
  | room hnew hroom =>
    obtain ⟨rfl, rfl, -⟩ := FrontObs.admitted.inj (List.mem_singleton.mp h)
    exact ⟨_, rfl, hnew, hroom⟩
  | hall hnew =>
    obtain ⟨rfl, rfl, -⟩ := FrontObs.admitted.inj (List.mem_singleton.mp h)
    cases Dict.assign_self.symm.trans hconn
  | joined hconn' =>
    obtain ⟨rfl, rfl, -⟩ := FrontObs.admitted.inj (List.mem_singleton.mp h)
    cases hconn'.symm.trans hconn
  | spoken _ hout =>
    rcases hout _ h with ⟨x, hx⟩ | ⟨r, hx⟩ <;> cases hx
  | turn | entered | twice | roomless | roomMessage | left | leftHall | leftRoom | leftSpectate | drop => simp at h

end FrontStep
namespace Counted
variable {f f' : Front} {e : FrontEvent} {out : List FrontObs} {us : List FrontTrans} {uid uid' : Uid} {rid : Rid}
  {conn : ConnId}

theorem departs_inv (hi : Counted us f) (hs : FrontStep f e f' out) (hx : FrontTrans.Counts us ⟨f, e, f', out⟩)
    (h : FrontTrans.departs ⟨f, e, f', out⟩ uid rid = true) :
    FrontStep.RoomClose f e uid ∧ f.server.rm.users uid = some rid := by
  unfold FrontTrans.departs at h
  split at h
  · rename_i conn user heq
    obtain rfl : e = .closed conn user := heq
    simp only [Bool.and_eq_true, decide_eq_true_eq] at h
    obtain ⟨hentry, hu⟩ := h
    obtain ⟨hadm, closed, hconn⟩ := hi.registered .room uid conn hentry
    obtain rfl := hx.finds hadm hentry (by simp [hu])
    obtain ⟨uri, hconn', -⟩ := Front.closed_entry hi.consistent hs
    obtain rfl : closed = false := by
      rw [hconn] at hconn'
      cases hconn'
      rfl
    exact ⟨⟨conn, rfl, hconn⟩, hu⟩
  · cases h

/-- A connection that is new stands in no table. -/
theorem inGameRoom_connect (hi : Counted us f) (hnew : f.conns conn = none) :
    (f.server.connect conn).inGameRoom uid = f.server.inGameRoom uid := by
  refine Server.inGameRoom_connect fun hentry => ?_
  obtain ⟨-, closed, hconn⟩ := hi.registered .room uid conn hentry
  cases hnew.symm.trans hconn

theorem enters_inv (hi : Counted us f) (hs : FrontStep f e f' out) (hx : FrontTrans.Counts us ⟨f, e, f', out⟩)
    (h : FrontTrans.enters ⟨f, e, f', out⟩ uid rid = true) : hasLeft uid rid us = false := by
  unfold FrontTrans.enters at h
  split at h
  · rename_i conn user selectById heq
    obtain rfl : e = .opened conn .room user selectById := heq
    simp only [Bool.and_eq_true, decide_eq_true_eq, List.any_eq_true] at h
    obtain ⟨hu, o, ho, hadm⟩ := h
    split at hadm
    · rename_i conn' uid' resp
      obtain rfl : uid' = uid := by simpa using hadm
      cases hs with
      | room hnew hroom =>
        obtain ⟨rfl, rfl, -⟩ := FrontObs.admitted.inj (List.mem_singleton.mp ho)
        exact hx.1 uid' rfl rid hu (hi.inGameRoom_connect hnew ▸ hroom)
      | entered | twice | roomless => simp at ho
    · cases hadm
  · cases h

theorem hasLeft_step (hi : Counted us f) (hs : FrontStep f e f' out) (hx : FrontTrans.Counts us ⟨f, e, f', out⟩) :
    hasLeft uid rid (us ++ [⟨f, e, f', out⟩]) = (FrontTrans.departs ⟨f, e, f', out⟩ uid rid || hasLeft uid rid us) := by
  rw [hasLeft_snoc]
  cases henters : FrontTrans.enters ⟨f, e, f', out⟩ uid rid with
  | false => simp
  | true => simp [hi.enters_inv hs hx henters]

/-- Nobody departs in a step that is not the close of a room connection. -/
theorem hasLeft_of_not_close (hi : Counted us f) (hs : FrontStep f e f' out) (hx : FrontTrans.Counts us ⟨f, e, f', out⟩)
    (hclose : ¬FrontStep.RoomClose f e uid) : hasLeft uid rid (us ++ [⟨f, e, f', out⟩]) = hasLeft uid rid us := by
  rw [hi.hasLeft_step hs hx]
  cases hdep : FrontTrans.departs ⟨f, e, f', out⟩ uid rid with
  | false => rfl
  | true => exact absurd (hi.departs_inv hs hx hdep).1 hclose

/-- The user of a room connection that closes departs from the room it is routed to, and from no other. -/
theorem departs_of_close (hi : Counted us f) (hs : FrontStep f e f' out) (hx : FrontTrans.Counts us ⟨f, e, f', out⟩)
    (hclose : FrontStep.RoomClose f e uid) : FrontTrans.departs ⟨f, e, f', out⟩ uid rid = true ↔ f.server.rm.users uid = some rid := by
  constructor
  · exact fun h => (hi.departs_inv hs hx h).2
  · intro hu
    obtain ⟨conn, rfl, hconn⟩ := hclose
    have hentry := hx.closes hconn (by simp [hu])
    simp [FrontTrans.departs, hu, hentry]

/-- Who closes a room connection has not left the room before. -/
theorem not_left_of_close (hi : Counted us f) (hx : FrontTrans.Counts us ⟨f, e, f', out⟩)
    (hclose : FrontStep.RoomClose f e uid) (hu : f.server.rm.users uid = some rid) : hasLeft uid rid us = false := by
  obtain ⟨conn, rfl, hconn⟩ := hclose
  cases hleft : hasLeft uid rid us with
  | false => rfl
  | true =>
    have hentry := hx.closes hconn (by simp [hu])
    rw [hi.away uid rid hleft hu] at hentry
    cases hentry

/-- Only the user of the room connection departs. -/
theorem present_of_ne (hi : Counted us f) (hs : FrontStep f e f' out) (hx : FrontTrans.Counts us ⟨f, e, f', out⟩)
    (hclose : FrontStep.RoomClose f e uid) (hne : uid' ≠ uid) :
    present uid' rid (us ++ [⟨f, e, f', out⟩]) = present uid' rid us := by
  unfold present
  rw [hi.hasLeft_of_not_close hs hx]
  rintro ⟨conn', rfl, -⟩
  obtain ⟨conn, hconn, -⟩ := hclose
  cases hconn
  exact hne rfl

/-- The count of a room after the close of a room connection. -/
theorem count_close (hi : Counted us f) (hs : FrontStep f e f' out) (hx : FrontTrans.Counts us ⟨f, e, f', out⟩)
    (hclose : FrontStep.RoomClose f e uid) {r : Room} (hr : f'.server.rm.rooms rid = some r) (hne : r.whiteId ≠ r.blackId) :
    r.playerCount = present r.whiteId rid (us ++ [⟨f, e, f', out⟩]) + present r.blackId rid (us ++ [⟨f, e, f', out⟩]) := by
  rw [(hs.roomClose hclose).1, hi.consistent.rooms_removeRoomUser] at hr
  split at hr
  · cases hr
  split at hr
  · rename_i hu
    obtain ⟨r₀, hr₀, rfl⟩ := Option.map_eq_some_iff.mp hr
    rw [Room.handleExit_fst] at hne ⊢
    simp only at hne ⊢
    have hcount := hi.count rid r₀ hr₀ hne
    have hself : present uid rid us = 1 := if_neg (by simp [hi.not_left_of_close hx hclose hu])
    have hgone : present uid rid (us ++ [⟨f, e, f', out⟩]) = 0 := by
      have hleft : hasLeft uid rid (us ++ [⟨f, e, f', out⟩]) = true := by
        rw [hi.hasLeft_step hs hx, (hi.departs_of_close hs hx hclose).mpr hu, Bool.true_or]
      exact if_pos hleft
    obtain ⟨r₁, hr₁, hseat⟩ := hi.consistent.named hu
    obtain rfl := Option.some.inj (hr₀.symm.trans hr₁)
    rcases hseat with hw | hb
    · have hblack : r₀.blackId ≠ uid := hw ▸ hne.symm
      rw [hi.present_of_ne hs hx hclose hblack, ← hw, hgone]
      rw [← hw, hself] at hcount
      split <;> omega
    · have hwhite : r₀.whiteId ≠ uid := hb ▸ hne
      rw [hi.present_of_ne hs hx hclose hwhite, ← hb, hgone]
      rw [← hb, hself] at hcount
      split <;> omega
  · rename_i hu
    have hsame : ∀ v, present v rid (us ++ [⟨f, e, f', out⟩]) = present v rid us := by
      intro v
      by_cases heq : v = uid
      · subst heq
        have hnot : FrontTrans.departs ⟨f, e, f', out⟩ v rid = false := by
          simpa using fun h => hu ((hi.departs_of_close hs hx hclose).mp h)
        unfold present
        rw [hi.hasLeft_step hs hx, hnot, Bool.false_or]
      · exact hi.present_of_ne hs hx hclose heq
    rw [hsame, hsame]
    exact hi.count rid r hr hne

/-- The count of a room after any other step. -/
theorem count_other (hi : Counted us f) (hs : FrontStep f e f' out) (hx : FrontTrans.Counts us ⟨f, e, f', out⟩)
    (hclose : ∀ uid, ¬FrontStep.RoomClose f e uid) {r : Room} (hr : f'.server.rm.rooms rid = some r)
    (hne : r.whiteId ≠ r.blackId) :
    r.playerCount = present r.whiteId rid (us ++ [⟨f, e, f', out⟩]) + present r.blackId rid (us ++ [⟨f, e, f', out⟩]) := by
  have hsame : ∀ v, present v rid (us ++ [⟨f, e, f', out⟩]) = present v rid us := fun v => by
    unfold present
    rw [hi.hasLeft_of_not_close hs hx (hclose v)]
  rw [hsame, hsame]
  rcases hs.rooms with hsteady | ⟨_, _, now, uid1, uid2, -, heq⟩ | ⟨conn, uid, he, hconn, -⟩
  · obtain ⟨r₀, hr₀, hstay⟩ := hsteady.before hr
    rw [hstay.playerCount]
    rcases hstay.sides with ⟨hw, hb⟩ | ⟨hw, hb⟩
    · rw [hw, hb] at hne ⊢
      exact hi.count rid r₀ hr₀ hne
    · rw [hw, hb] at hne ⊢
      exact (hi.count rid r₀ hr₀ hne.symm).trans (Nat.add_comm _ _)
  · rw [heq, hi.consistent.addRoom_rooms] at hr
    split at hr
    · rename_i hrid
      have hnew : ∀ v, present v rid us = 1 := fun v => if_neg fun hleft =>
        absurd (hi.old v rid hleft) (hrid ▸ Nat.lt_irrefl _)
      rw [hnew, hnew, ← Option.some.inj hr]
      rfl
    · exact hi.count rid r hr hne
  · exact absurd ⟨conn, he, hconn⟩ (hclose uid)

/-- Nobody is routed to an old room that was not the user's before. -/
theorem users_of_old (hs : FrontStep f e f' out) (hu : f'.server.rm.users uid = some rid)
    (hold : rid < f.server.rm.nextRid) : f.server.rm.users uid = some rid := by
  rcases hs.rooms with hsteady | ⟨_, _, now, uid1, uid2, -, heq⟩ | ⟨conn, v, -, -, heq⟩
  · rwa [hsteady.users] at hu
  · rw [heq] at hu
    rcases RoomManager.addRoom_users hu with ⟨rfl, -⟩ | hu
    · exact absurd hold (Nat.lt_irrefl _)
    · exact hu
  · rw [heq] at hu
    exact (RoomManager.removeRoomUser_mapStep _ v).users_old hu

theorem nextRid_le (hs : FrontStep f e f' out) : f.server.rm.nextRid ≤ f'.server.rm.nextRid := by
  rcases hs.rooms with hsteady | ⟨_, _, now, uid1, uid2, -, heq⟩ | ⟨conn, v, -, -, heq⟩
  · exact hsteady.nextRid.ge
  · rw [heq]
    exact Nat.le_succ _
  · rw [heq]
    exact (RoomManager.removeRoomUser_mapStep _ v).nextRid.ge

theorem step (hi : Counted us f) (hs : FrontStep f e f' out) (hx : FrontTrans.Counts us ⟨f, e, f', out⟩) :
    Counted (us ++ [⟨f, e, f', out⟩]) f' where
  consistent := hs.consistent hi.consistent
  registered := Front.Registered.step hi.registered hi.consistent hs
  count rid r hr hne := by
    by_cases hclose : ∃ uid, FrontStep.RoomClose f e uid
    · obtain ⟨uid, hclose⟩ := hclose
      exact hi.count_close hs hx hclose hr hne
    · exact hi.count_other hs hx (not_exists.mp hclose) hr hne
  old uid rid hleft := by
    refine Nat.lt_of_lt_of_le ?_ (nextRid_le hs)
    rw [hi.hasLeft_step hs hx, Bool.or_eq_true] at hleft
    rcases hleft with hdep | hleft
    · obtain ⟨r, hr, -⟩ := hi.consistent.named (hi.departs_inv hs hx hdep).2
      exact (hi.consistent.ids hr).2
    · exact hi.old uid rid hleft
  away uid rid hleft hu := by
    rw [hi.hasLeft_step hs hx, Bool.or_eq_true] at hleft
    rcases hleft with hdep | hleft
    · rw [(hs.roomClose (hi.departs_inv hs hx hdep).1).2]
      exact Dict.erase_self
    · have hu₀ := users_of_old hs hu (hi.old uid rid hleft)
      have hnone := hi.away uid rid hleft hu₀
      cases hentry : f'.server.om.gameRoom uid with
      | none => rfl
      | some conn =>
        rcases hs.entry hi.consistent (t := .room) hentry with hbefore | ⟨⟨resp, hadm⟩, hconn⟩
        · cases hbefore.symm.trans hnone
        · -- The user is let in again, though it has left.
          obtain ⟨selectById, rfl, hnew, hroom⟩ := hs.admitted_room hadm hconn
          have hcame := hx.1 uid rfl rid hu₀ (hi.inGameRoom_connect hnew ▸ hroom)
          cases hcame.symm.trans hleft

/-- A room is taken away only after both of its players have left. -/
theorem removal (hi : Counted us f) (hs : FrontStep f e f' out) (hx : FrontTrans.Counts us ⟨f, e, f', out⟩) {r : Room}
    (hr : f.server.rm.rooms rid = some r) (hgone : f'.server.rm.rooms rid = none) (hne : r.whiteId ≠ r.blackId)
    (hseat : r.Seats uid) (hu : f.server.rm.users uid = some rid) : f'.server.om.gameRoom uid = none := by
  rcases hs.rooms with hsteady | ⟨_, _, now, uid1, uid2, -, heq⟩ | ⟨conn, v, he, hconn, heq⟩
  · obtain ⟨r', hr', -⟩ := hsteady.after hr
    cases hr'.symm.trans hgone
  · rw [heq, hi.consistent.addRoom_rooms] at hgone
    split at hgone
    · cases hgone
    · cases hr.symm.trans hgone
  · have hclose : FrontStep.RoomClose f e v := ⟨conn, he, hconn⟩
    rw [(hs.roomClose hclose).2]
    by_cases huv : uid = v
    · subst huv
      exact Dict.erase_self
    refine (Dict.erase_ne huv).trans ?_
    rw [heq, hi.consistent.rooms_removeRoomUser] at hgone
    split at hgone
    · -- The room counts `v` alone, so `uid` has left it.
      rename_i hlast
      unfold RoomManager.lastOut at hlast
      split at hlast
      · cases hlast
      rename_i rid' r' hfind
      split at hlast
      · rename_i hone
        obtain rfl := Option.some.inj hlast
        obtain ⟨hv, hr'⟩ := RoomManager.findRoom_eq_some.mp hfind
        obtain rfl := Option.some.inj (hr.symm.trans hr')
        obtain ⟨r₁, hr₁, hseat'⟩ := hi.consistent.named hv
        obtain rfl := Option.some.inj (hr.symm.trans hr₁)
        have hcount := hi.count _ r hr hne
        have hself : present v rid' us = 1 := if_neg (by simp [hi.not_left_of_close hx hclose hv])
        have hother : present uid rid' us = 0 := by
          rcases hseat with rfl | rfl <;> rcases hseat' with rfl | rfl <;> first | exact absurd rfl huv | omega
        refine hi.away uid rid' ?_ hu
        by_contra hstays
        simp [present, hstays] at hother
      · cases hlast
    · split at hgone
      · cases Option.map_eq_none_iff.mp hgone |>.symm.trans hr
      · cases hr.symm.trans hgone

end Counted

namespace Front
variable {ts : List FrontTrans} {f : Front}

theorem counted_start : Counted [] start where
  consistent := RoomManager.consistent_empty
  registered t uid conn h := by cases t <;> cases h
  count rid r hr := by cases hr
  old uid rid h := by cases h
  away uid rid h := by cases h

/-- As long as every step is one that the count follows, departures are counted once for each player. -/
theorem departures_counted (h : machine.Run start ts f) (hC : ∀ us x vs, ts = us ++ x :: vs → x.Counts us) :
    DeparturesCounted ts f where
  count := (h.invariant_along counted_start hC fun hi hs hx => hi.step (step_inv hs) hx).count
  removal x hx rid r uid hr hgone hne hseat hu := by
    obtain ⟨us, vs, rfl⟩ := List.append_of_mem hx
    have hus : Counted us x.before := h.split.1.invariant_along counted_start
      (fun us' y vs' heq => hC us' y (vs' ++ x :: vs) (by rw [heq, List.append_assoc, List.cons_append]))
      fun hi hs hx => hi.step (step_inv hs) hx
    have hnone := hus.removal (step_inv h.split.2.1) (hC us x vs rfl) hr hgone hne hseat hu
    unfold Server.inGameRoom OnlineManager.inGameRoom
    rw [hnone]
    rfl

/-- Both users come to the room, and leave it one after the other: the room is taken away with the second. -/
theorem departures_counted_pair : ∃ (ts : List FrontTrans) (f : Front), machine.Run start ts f ∧
    (∃ x ∈ ts, (x.before.server.rm.rooms 1).isSome ∧ (x.after.server.rm.rooms 1).isNone) ∧ DeparturesCounted ts f := by
  obtain ⟨ts, f, h, hC, hgone⟩ := Machine.Run.exists_of_exec machine start
    (pairing ++ [.opened 3 .room (some 1) newcomer, .opened 4 .room (some 2) newcomer, .closed 3 (some 1), .closed 4 (some 2)])
    (fun (ts : List FrontTrans) _ => (∀ i, (hi : i < ts.length) → FrontTrans.Counts (ts.take i) (ts.get ⟨i, hi⟩)) ∧
      ∃ x ∈ ts, (x.before.server.rm.rooms 1).isSome ∧ (x.after.server.rm.rooms 1).isNone) (by decide +kernel)
  exact ⟨ts, f, h, hgone, departures_counted h fun us x vs => Machine.Run.forall_split hC⟩

/-- User 1 leaves, comes back and leaves again: the room is taken away while user 2 is in it. -/
theorem departures_miscounted : ¬∀ (ts : List FrontTrans) f, machine.Run start ts f → DeparturesCounted ts f := by
  intro hall
  obtain ⟨ts, f, h, x, hx, hgone⟩ := Machine.Run.exists_of_exec machine start
    (pairing ++ [.opened 3 .room (some 1) newcomer, .opened 4 .room (some 2) newcomer, .closed 3 (some 1),
      .opened 5 .room (some 1) newcomer, .closed 5 (some 1)])
    (fun (ts : List FrontTrans) _ => ∃ x ∈ ts, (x.before.server.rm.rooms 1).any (fun r => r.whiteId ≠ r.blackId ∧ r.Seats 2 ∧
      (x.after.server.rm.rooms 1).isNone ∧ x.before.server.rm.users 2 = some 1 ∧ x.after.server.inGameRoom 2 = true) = true)
    (by decide +kernel)
  obtain ⟨r, hr, hgone⟩ := (Option.any_eq_true _ _).mp hgone
  simp only [decide_eq_true_eq, Option.isNone_iff_eq_none] at hgone
  obtain ⟨hne, hseat, hnone, hu, hin⟩ := hgone
  cases hin.symm.trans ((hall ts f h).removal x hx 1 r 2 hr hnone hne hseat hu)

end Front
end FiveStones
