import FiveStones.RoomManager
import FiveStones.Theorems.RoomInv

/-! The two maps of the room manager against each other: from a user to a room's id, and from an id to a
room. -/

namespace FiveStones

namespace Room
variable {env : Env} {r r' : Room} {uid : Uid} {out : List Call}

/-- A handler keeps the id of a room, and its two seats up to a swap. -/
structure Keeps (r r' : Room) : Prop where
  roomId : r'.roomId = r.roomId
  sides : (r'.whiteId = r.whiteId ∧ r'.blackId = r.blackId) ∨ (r'.whiteId = r.blackId ∧ r'.blackId = r.whiteId)

theorem Keeps.refl (r : Room) : Keeps r r := ⟨rfl, Or.inl ⟨rfl, rfl⟩⟩

theorem Keeps.seats (h : Keeps r r') (uid : Uid) : r'.Seats uid ↔ r.Seats uid := by
  rcases h.sides with ⟨hw, hb⟩ | ⟨hw, hb⟩
  · rw [Seats, Seats, hw, hb]
  · rw [Seats, Seats, hw, hb, or_comm]

/-- No request gives a seat to anyone else, or another id to the room. -/
theorem RequestStep.keeps {m : Members} (hs : RequestStep env r m r' out) : Keeps r r' := by
  cases hs with
  | idle | timeUp | walkover | claimed | won | invite => exact ⟨rfl, Or.inl ⟨rfl, rfl⟩⟩
  | placed => exact ⟨by rw [passTurn_eq], Or.inl (by simp)⟩
  | accept => exact ⟨rfl, Or.inr ⟨rfl, rfl⟩⟩

theorem handleRequest_keeps {req : Json} (h : r.handleRequest env req = .ok (r', out)) : Keeps r r' := by
  obtain ⟨m, -, hstep | ⟨-, uid, ms, rfl⟩⟩ := handleRequest_cases h
  · exact hstep.keeps
  · exact ⟨by rw [passTurn_eq], Or.inl (by simp)⟩

theorem handleExit_keeps (r : Room) (uid : Uid) : Keeps r (r.handleExit uid).1 := by
  rw [handleExit_fst]
  exact ⟨rfl, Or.inl ⟨rfl, rfl⟩⟩

theorem seats_create {rid : Rid} {uid1 uid2 : Uid} {now : Int} :
    (create rid uid1 uid2 now).Seats uid ↔ uid = uid1 ∨ uid = uid2 := Iff.rfl

end Room

namespace RoomManager
variable {env : Env} {rm rm' : RoomManager} {rid rid' : Rid} {r r' : Room} {uid uid1 uid2 : Uid} {now : Int}

theorem findRoom_eq_some : rm.findRoom uid = some (rid, r) ↔ rm.users uid = some rid ∧ rm.rooms rid = some r := by
  unfold findRoom
  split
  · rename_i h
    simp [h]
  · rename_i rid₀ h
    split
    · rename_i hr
      simp only [reduceCtorEq, h, Option.some.injEq, false_iff, not_and]
      rintro rfl
      simp [hr]
    · rename_i r₀ hr
      simp only [Option.some.injEq, Prod.mk.injEq, h]
      constructor
      · rintro ⟨rfl, rfl⟩
        exact ⟨rfl, hr⟩
      · rintro ⟨rfl, h'⟩
        exact ⟨rfl, Option.some.inj (hr.symm.trans h')⟩

theorem getRoomByUid_eq_some : rm.getRoomByUid uid = some r ↔ ∃ rid, rm.users uid = some rid ∧ rm.rooms rid = some r := by
  simp only [getRoomByUid, Option.map_eq_some_iff, Prod.exists, findRoom_eq_some]
  constructor
  · rintro ⟨rid, r', h, rfl⟩
    exact ⟨rid, h⟩
  · rintro ⟨rid, h⟩
    exact ⟨rid, r, h, rfl⟩

@[simp] theorem setRoom_self : (rm.setRoom rid r).rooms rid = some r := Dict.assign_self

theorem setRoom_ne (h : rid' ≠ rid) : (rm.setRoom rid r).rooms rid' = rm.rooms rid' := Dict.assign_ne h

theorem removeRoom_of_some (h : rm.rooms rid = some r) : rm.removeRoom rid =
    { rm with users := (rm.users.erase r.whiteId).erase r.blackId, rooms := rm.rooms.erase rid } := by
  simp [removeRoom, getRoomByRid, h]

theorem removeRoom_of_none (h : rm.rooms rid = none) : rm.removeRoom rid = rm := by
  simp [removeRoom, getRoomByRid, h]

theorem removeRoom_users (h : rm.rooms rid = some r) :
    (rm.removeRoom rid).users uid = if r.Seats uid then none else rm.users uid := by
  rw [removeRoom_of_some h]
  by_cases hb : uid = r.blackId
  · simp [hb, Room.Seats]
  · by_cases hw : uid = r.whiteId
    · rw [if_pos (show r.Seats uid from Or.inl hw)]
      exact (Dict.erase_ne hb).trans (hw ▸ Dict.erase_self)
    · simp [Dict.erase_ne hb, Dict.erase_ne hw, hw, hb, Room.Seats]

theorem removeRoom_rooms : (rm.removeRoom rid).rooms rid' = if rid' = rid then none else rm.rooms rid' := by
  cases h : rm.rooms rid with
  | none =>
    rw [removeRoom_of_none h]
    split
    · rename_i heq
      rw [heq, h]
    · rfl
  | some r =>
    rw [removeRoom_of_some h]
    split
    · rename_i heq
      simp [heq]
    · rename_i hne
      simp [Dict.erase_ne hne]

/-! ### What holds in any case -/

/-- Ids and keys agree, no id is used twice, and who has a room in `_users` has a seat in it. -/
structure Consistent (rm : RoomManager) : Prop where
  ids : ∀ {rid r}, rm.rooms rid = some r → r.roomId = rid ∧ rid < rm.nextRid
  named : ∀ {uid rid}, rm.users uid = some rid → ∃ r, rm.rooms rid = some r ∧ r.Seats uid

theorem consistent_empty : Consistent empty := ⟨nofun, nofun⟩

theorem Consistent.fresh (h : Consistent rm) : rm.rooms rm.nextRid = none := by
  cases hr : rm.rooms rm.nextRid with
  | none => rfl
  | some r => exact absurd (h.ids hr).2 (Nat.lt_irrefl _)

theorem Consistent.addRoom_rooms (h : Consistent rm) : (rm.addRoom uid1 uid2 now).rooms rid =
    if rid = rm.nextRid then some (Room.create rm.nextRid uid1 uid2 now) else rm.rooms rid := by
  simp only [addRoom, Dict.insert_of_none h.fresh]
  split
  · rename_i heq
    rw [heq, Dict.assign_self]
  · rename_i hne
    rw [Dict.assign_ne hne]

theorem addRoom_users (hu : (rm.addRoom uid1 uid2 now).users uid = some rid) :
    (rid = rm.nextRid ∧ (uid = uid1 ∨ uid = uid2)) ∨ rm.users uid = some rid := by
  rcases Dict.insert_eq_some hu with ⟨rfl, rfl, -⟩ | hu
  · exact Or.inl ⟨rfl, Or.inr rfl⟩
  · rcases Dict.insert_eq_some hu with ⟨rfl, rfl, -⟩ | hu
    · exact Or.inl ⟨rfl, Or.inl rfl⟩
    · exact Or.inr hu

theorem Consistent.addRoom (h : Consistent rm) : Consistent (rm.addRoom uid1 uid2 now) where
  ids hr := by
    rw [h.addRoom_rooms] at hr
    split at hr
    · rename_i heq
      obtain rfl := Option.some.inj hr
      exact ⟨heq.symm, heq ▸ Nat.lt_succ_self _⟩
    · exact ⟨(h.ids hr).1, Nat.lt_succ_of_lt (h.ids hr).2⟩
  named hu := by
    rcases addRoom_users hu with ⟨rfl, hseat⟩ | hu
    · exact ⟨_, by rw [h.addRoom_rooms, if_pos rfl], Room.seats_create.mpr hseat⟩
    · obtain ⟨r, hr, hseat⟩ := h.named hu
      refine ⟨r, ?_, hseat⟩
      rw [h.addRoom_rooms, if_neg (Nat.ne_of_lt (h.ids hr).2), hr]

theorem Consistent.setRoom (h : Consistent rm) (hr : rm.rooms rid = some r)
    (hkeep : r.Keeps r') : Consistent (rm.setRoom rid r') where
  ids {rid' r₀} hr₀ := by
    by_cases heq : rid' = rid
    · subst heq
      simp only [setRoom_self, Option.some.injEq] at hr₀
      subst hr₀
      exact ⟨hkeep.roomId.trans (h.ids hr).1, (h.ids hr).2⟩
    · rw [setRoom_ne heq] at hr₀
      exact h.ids hr₀
  named {uid rid'} hu := by
    obtain ⟨r₀, hr₀, hseat⟩ := h.named hu
    by_cases heq : rid' = rid
    · subst heq
      rw [hr, Option.some.injEq] at hr₀
      subst hr₀
      exact ⟨r', setRoom_self, (hkeep.seats uid).mpr hseat⟩
    · exact ⟨r₀, (setRoom_ne heq).trans hr₀, hseat⟩

theorem Consistent.removeRoom (h : Consistent rm) : Consistent (rm.removeRoom rid) := by
  cases hr : rm.rooms rid with
  | none => rwa [removeRoom_of_none hr]
  | some r =>
    refine ⟨fun hr' => ?_, fun hu => ?_⟩
    · rw [removeRoom_rooms] at hr'
      split at hr'
      · cases hr'
      · rw [removeRoom_of_some hr]
        exact h.ids hr'
    · rw [removeRoom_users hr] at hu
      split at hu
      · cases hu
      · rename_i hseat
        obtain ⟨r', hr', hseat'⟩ := h.named hu
        refine ⟨r', ?_, hseat'⟩
        rw [removeRoom_rooms, if_neg, hr']
        rintro rfl
        exact hseat (Option.some.inj (hr'.symm.trans hr) ▸ hseat')

/-! ### What holds when nobody is given a second room -/

def Mapped (rm : RoomManager) : Prop := ∀ rid r uid, rm.rooms rid = some r → r.Seats uid → rm.users uid = some rid

theorem mapped_empty : Mapped empty := fun _ _ _ hr => nomatch hr

theorem Mapped.addRoom (h : Mapped rm) (hc : Consistent rm) (h1 : rm.users uid1 = none) (h2 : rm.users uid2 = none) :
    Mapped (rm.addRoom uid1 uid2 now) := by
  have hnew : ∀ uid, uid = uid1 ∨ uid = uid2 → (rm.addRoom uid1 uid2 now).users uid = some rm.nextRid := by
    intro uid hu
    simp only [RoomManager.addRoom]
    by_cases heq : uid1 = uid2
    · subst heq
      rw [Dict.insert_of_none h1, Dict.insert_of_some Dict.assign_self, or_self_iff.mp hu, Dict.assign_self]
    · have h2' : (rm.users.insert uid1 rm.nextRid) uid2 = none := by rw [Dict.insert_ne (Ne.symm heq), h2]
      rw [Dict.insert_of_none h2', Dict.insert_of_none h1]
      rcases hu with rfl | rfl
      · rw [Dict.assign_ne heq, Dict.assign_self]
      · rw [Dict.assign_self]
  intro rid r uid hr hseat
  rw [hc.addRoom_rooms] at hr
  split at hr
  · rename_i heq
    obtain rfl := Option.some.inj hr
    rw [heq, hnew uid (Room.seats_create.mp hseat)]
  · -- An old room: its seats had an entry before, so they are not the two new users.
    have hu := h _ _ _ hr hseat
    have hne1 : uid ≠ uid1 := fun heq => by simp [heq, h1] at hu
    have hne2 : uid ≠ uid2 := fun heq => by simp [heq, h2] at hu
    simp only [RoomManager.addRoom, Dict.insert_ne hne2, Dict.insert_ne hne1, hu]

theorem Mapped.setRoom (h : Mapped rm) (hr : rm.rooms rid = some r)
    (hkeep : r.Keeps r') : Mapped (rm.setRoom rid r') := by
  intro rid' r₀ uid hr₀ hseat
  by_cases heq : rid' = rid
  · subst heq
    simp only [setRoom_self, Option.some.injEq] at hr₀
    subst hr₀
    exact h _ _ _ hr ((hkeep.seats uid).mp hseat)
  · rw [setRoom_ne heq] at hr₀
    exact h _ _ _ hr₀ hseat

theorem Mapped.not_seats (h : Mapped rm) (hr : rm.rooms rid = some r) (hr' : rm.rooms rid' = some r')
    (hne : rid' ≠ rid) (hseat : r'.Seats uid) : ¬r.Seats uid := fun hseat' =>
  hne (Option.some.inj ((h _ _ _ hr' hseat).symm.trans (h _ _ _ hr hseat')))

theorem Mapped.removeRoom_users (h : Mapped rm) (hr' : rm.rooms rid' = some r') (hne : rid' ≠ rid)
    (hseat : r'.Seats uid) : (rm.removeRoom rid).users uid = rm.users uid := by
  cases hr : rm.rooms rid with
  | none => rw [removeRoom_of_none hr]
  | some r => rw [RoomManager.removeRoom_users hr, if_neg (h.not_seats hr hr' hne hseat)]

theorem Mapped.removeRoom (h : Mapped rm) : Mapped (rm.removeRoom rid) := by
  intro rid' r' uid hr' hseat
  rw [removeRoom_rooms] at hr'
  split at hr'
  · cases hr'
  · rename_i hne
    rw [h.removeRoom_users hr' hne hseat]
    exact h _ _ _ hr' hseat

/-! ### Steps -/

/-- What a step that creates no room does to the maps: nothing, a handler on a room, a removal, or both. -/
inductive MapStep (rm : RoomManager) : RoomManager → Prop
  | idle : MapStep rm rm
  | touch {rid : Rid} {r r' : Room} : rm.rooms rid = some r →
      r.Keeps r' → MapStep rm (rm.setRoom rid r')
  | remove (rid : Rid) : MapStep rm (rm.removeRoom rid)
  | leave {rid : Rid} {r r' : Room} : rm.rooms rid = some r →
      r.Keeps r' → MapStep rm ((rm.setRoom rid r').removeRoom r'.roomId)

theorem removeRoom_nextRid : (rm.removeRoom rid).nextRid = rm.nextRid := by
  unfold removeRoom
  split <;> rfl

theorem removeRoom_users_old (hu : (rm.removeRoom rid).users uid = some rid') : rm.users uid = some rid' := by
  unfold removeRoom at hu
  split at hu
  · exact hu
  · exact (Dict.erase_eq_some.mp (Dict.erase_eq_some.mp hu).2).2

theorem MapStep.nextRid (hs : MapStep rm rm') : rm'.nextRid = rm.nextRid := by
  cases hs with
  | idle | touch => rfl
  | remove | leave => exact removeRoom_nextRid

/-- Nobody is routed to a room by a step that creates none. -/
theorem MapStep.users_old (hs : MapStep rm rm') (hu : rm'.users uid = some rid) : rm.users uid = some rid := by
  cases hs with
  | idle | touch => exact hu
  | remove => exact removeRoom_users_old hu
  | @leave rid₀ r r' hr hkeep =>
    have hset : (rm.setRoom rid₀ r').users uid = some rid := removeRoom_users_old hu
    exact hset

theorem removeRoomUser_mapStep (rm : RoomManager) (uid : Uid) : MapStep rm (rm.removeRoomUser uid).1 := by
  unfold removeRoomUser
  split
  · exact .idle
  · rename_i rid r hfind
    simp only
    split
    · exact .leave (findRoom_eq_some.mp hfind).2 (Room.handleExit_keeps r uid)
    · exact .touch (findRoom_eq_some.mp hfind).2 (Room.handleExit_keeps r uid)

/-- A message on a room connection is answered and changes nothing, or the room of its user handles it. -/
theorem wsmsgGameRoom_cases {body : Option Json} {calls : List Call}
    (h : rm.wsmsgGameRoom env uid body = .ok (rm', calls)) :
    (rm' = rm ∧ ∃ resp, calls = [.reply resp]) ∨
      ∃ rid r req r', rm.findRoom uid = some (rid, r) ∧ body = some req ∧ r.handleRequest env req = .ok (r', calls) ∧
        rm' = rm.setRoom rid r' := by
  unfold wsmsgGameRoom at h
  split at h
  · cases h
    exact Or.inl ⟨rfl, _, rfl⟩
  · cases h
    exact Or.inl ⟨rfl, _, rfl⟩
  · rename_i rid r req hfind
    obtain ⟨⟨r', out⟩, hreq, h⟩ := ok_of_bind h
    cases h
    exact Or.inr ⟨rid, r, req, r', hfind, rfl, hreq, rfl⟩

theorem wsmsgGameRoom_mapStep {body : Option Json} {calls : List Call}
    (h : rm.wsmsgGameRoom env uid body = .ok (rm', calls)) : MapStep rm rm' := by
  rcases wsmsgGameRoom_cases h with ⟨rfl, -⟩ | ⟨rid, r, req, r', hfind, -, hreq, rfl⟩
  · exact .idle
  · exact .touch (findRoom_eq_some.mp hfind).2 (Room.handleRequest_keeps hreq)

def Creates (out : List RoomsOut) (r : Room) : Prop := .created r ∈ out

theorem step_cases {e : RoomsEvent} {out : List RoomsOut} (h : machine.step rm e = some (rm', out)) :
    (MapStep rm rm' ∧ ∀ r, ¬Creates out r) ∨
      ∃ uid1 uid2 now, rm' = rm.addRoom uid1 uid2 now ∧ ∀ r, Creates out r ↔ r = Room.create rm.nextRid uid1 uid2 now := by
  cases e with
  | create env uid1 uid2 =>
    simp only [machine, createRoom] at h
    split at h
    · cases h
      exact Or.inl ⟨.idle, fun r hr => by cases hr⟩
    split at h
    · cases h
      exact Or.inl ⟨.idle, fun r hr => by cases hr⟩
    · cases h
      exact Or.inr ⟨uid1, uid2, env.now, rfl, fun r => by simp [Creates]⟩
  | removeRoom rid =>
    cases h
    exact Or.inl ⟨.remove rid, fun r hr => by cases hr⟩
  | removeRoomUser uid =>
    simp only [machine, Option.some.injEq, Prod.mk.injEq] at h
    obtain ⟨rfl, rfl⟩ := h
    exact Or.inl ⟨removeRoomUser_mapStep rm uid, fun r hr => by simp [Creates] at hr⟩
  | exit rid uid =>
    simp only [machine] at h
    split at h
    · cases h
    · rename_i r hr
      cases h
      exact Or.inl ⟨.touch hr (Room.handleExit_keeps r uid), fun r hr => by simp [Creates] at hr⟩
  | message env uid body =>
    simp only [machine] at h
    split at h
    · cases h
    · rename_i rm₁ calls hmsg
      cases h
      exact Or.inl ⟨wsmsgGameRoom_mapStep hmsg, fun r hr => by simp [Creates] at hr⟩

theorem Consistent.mapStep (h : Consistent rm) (hs : MapStep rm rm') : Consistent rm' := by
  cases hs with
  | idle => exact h
  | touch hr hkeep => exact h.setRoom hr hkeep
  | remove => exact h.removeRoom
  | leave hr hkeep => exact (h.setRoom hr hkeep).removeRoom

theorem Consistent.step {e : RoomsEvent} {out : List RoomsOut} (h : Consistent rm)
    (hs : machine.step rm e = some (rm', out)) : Consistent rm' := by
  rcases step_cases hs with ⟨hstep, -⟩ | ⟨uid1, uid2, now, rfl, -⟩
  · exact h.mapStep hstep
  · exact h.addRoom

end RoomManager

namespace RoomsTrans

/-- When the step creates a room, neither of its users has a room in `_users` yet. -/
def Unroomed (x : RoomsTrans) : Prop :=
  ∀ r, RoomManager.Creates x.out r → x.before.users r.whiteId = none ∧ x.before.users r.blackId = none

def Leaves (x : RoomsTrans) (uid : Uid) (rid : Rid) : Prop :=
  (x.event = .removeRoomUser uid ∧ x.before.users uid = some rid) ∨ x.event = .exit rid uid

end RoomsTrans

namespace RoomManager

/-- `create_room` has returned the room `rid` for `uid` in the steps `ts`, and since then `uid` has not left it
    and it has not been removed. -/
inductive Holds (uid : Uid) (rid : Rid) : List RoomsTrans → Prop
  | created {ts : List RoomsTrans} {x : RoomsTrans} {r : Room} :
      Creates x.out r → r.roomId = rid → r.Seats uid → Holds uid rid (ts ++ [x])
  | kept {ts : List RoomsTrans} {x : RoomsTrans} :
      Holds uid rid ts → ¬x.Leaves uid rid → x.after.rooms rid ≠ none → Holds uid rid (ts ++ [x])

/-- The two maps agree after the steps `ts`: who was given a room and still has it is routed to it, who is
    routed has a seat there, and a removal has taken nothing from the seats of other rooms. -/
structure MapsAgree (ts : List RoomsTrans) (rm : RoomManager) : Prop where
  routed : ∀ uid rid, Holds uid rid ts → ∃ r, rm.getRoomByUid uid = some r ∧ r.roomId = rid
  named : ∀ uid rid, rm.users uid = some rid → ∃ r, rm.rooms rid = some r ∧ r.Seats uid
  removal : ∀ x ∈ ts, ∀ rid, x.before.rooms rid ≠ none → x.after.rooms rid = none →
    ∀ rid' r uid, rid' ≠ rid → x.before.rooms rid' = some r → r.Seats uid → x.after.users uid = x.before.users uid

variable {ts : List RoomsTrans} {rm rm' : RoomManager} {e : RoomsEvent} {out : List RoomsOut}

theorem Mapped.step (h : Mapped rm) (hc : Consistent rm) (hs : machine.step rm e = some (rm', out))
    (hun : RoomsTrans.Unroomed ⟨rm, e, rm', out⟩) : Mapped rm' := by
  rcases step_cases hs with ⟨hstep, -⟩ | ⟨uid1, uid2, now, rfl, hcreates⟩
  · cases hstep with
    | idle => exact h
    | touch hr hkeep => exact h.setRoom hr hkeep
    | remove => exact h.removeRoom
    | leave hr hkeep => exact (h.setRoom hr hkeep).removeRoom
  · obtain ⟨h1, h2⟩ := hun _ ((hcreates _).mpr rfl)
    exact h.addRoom hc h1 h2

/-- A room after a step that creates none was there before, with the same seats. -/
theorem MapStep.keeps (hs : MapStep rm rm') (hr' : rm'.rooms rid = some r') : ∃ r, rm.rooms rid = some r ∧ r.Keeps r' := by
  have hset : ∀ {rid₀ r₀ r₁}, rm.rooms rid₀ = some r₀ → r₀.Keeps r₁ → (rm.setRoom rid₀ r₁).rooms rid = some r' →
      ∃ r, rm.rooms rid = some r ∧ r.Keeps r' := by
    intro rid₀ r₀ r₁ hr₀ hkeep hr'
    by_cases heq : rid = rid₀
    · subst heq
      rw [setRoom_self, Option.some.injEq] at hr'
      exact ⟨r₀, hr₀, hr' ▸ hkeep⟩
    · rw [setRoom_ne heq] at hr'
      exact ⟨r', hr', .refl r'⟩
  cases hs with
  | idle => exact ⟨r', hr', .refl r'⟩
  | touch hr₀ hkeep => exact hset hr₀ hkeep hr'
  | remove rid₀ =>
    rw [removeRoom_rooms] at hr'
    split at hr'
    · cases hr'
    · exact ⟨r', hr', .refl r'⟩
  | leave hr₀ hkeep =>
    rw [removeRoom_rooms] at hr'
    split at hr'
    · cases hr'
    · exact hset hr₀ hkeep hr'

theorem step_seats (hc : Consistent rm) (hs : machine.step rm e = some (rm', out)) (hr : rm.rooms rid = some r)
    (hr' : rm'.rooms rid = some r') : r'.Seats uid ↔ r.Seats uid := by
  rcases step_cases hs with ⟨hstep, -⟩ | ⟨uid1, uid2, now, rfl, -⟩
  · obtain ⟨r₀, hr₀, hkeep⟩ := hstep.keeps hr'
    rw [hkeep.seats, Option.some.inj (hr.symm.trans hr₀)]
  · rw [hc.addRoom_rooms, if_neg (Nat.ne_of_lt (hc.ids hr).2)] at hr'
    rw [Option.some.inj (hr.symm.trans hr')]

theorem Mapped.removal (h : Mapped rm) (hc : Consistent rm) (hs : machine.step rm e = some (rm', out))
    (hlive : rm.rooms rid ≠ none) (hgone : rm'.rooms rid = none) (hne : rid' ≠ rid) (hr' : rm.rooms rid' = some r')
    (hseat : r'.Seats uid) : rm'.users uid = rm.users uid := by
  rcases step_cases hs with ⟨hstep, -⟩ | ⟨uid1, uid2, now, rfl, -⟩
  · cases hstep with
    | idle => rfl
    | touch => rfl
    | remove rid₀ =>
      rw [removeRoom_rooms] at hgone
      split at hgone
      · rename_i heq
        exact h.removeRoom_users hr' (heq ▸ hne) hseat
      · exact absurd hgone hlive
    | @leave rid₀ r₀ r₁ hr₀ hkeep =>
      have hid : r₁.roomId = rid₀ := hkeep.roomId.trans (hc.ids hr₀).1
      rw [removeRoom_rooms] at hgone
      split at hgone
      · rename_i heq
        have hne₀ : rid' ≠ rid₀ := hid ▸ heq ▸ hne
        refine Mapped.removeRoom_users (h.setRoom hr₀ hkeep) ?_ (heq ▸ hne) hseat
        exact (setRoom_ne hne₀).trans hr'
      · by_cases heq : rid = rid₀
        · simp [heq] at hgone
        · rw [setRoom_ne heq] at hgone
          exact absurd hgone hlive
  · rw [hc.addRoom_rooms] at hgone
    split at hgone
    · cases hgone
    · exact absurd hgone hlive

/-! ### Runs -/

theorem run_consistent (h : machine.Run empty ts rm) : Consistent rm := h.invariant consistent_empty Consistent.step

theorem run_mapped (h : machine.Run empty ts rm) (hun : ∀ x ∈ ts, x.Unroomed) : Consistent rm ∧ Mapped rm :=
  h.invariant_of (I := fun rm => Consistent rm ∧ Mapped rm) ⟨consistent_empty, mapped_empty⟩ hun
    fun hi hs hx => ⟨hi.1.step hs, hi.2.step hi.1 hs hx⟩

theorem holds_seat (h : machine.Run empty ts rm) (hholds : Holds uid rid ts) : ∃ r, rm.rooms rid = some r ∧ r.Seats uid := by
  induction h with
  | nil =>
    generalize hts : [] = ts at hholds
    cases hholds <;> simp at hts
  | @snoc ts rm₀ rm₁ e out h hs ih =>
    have hc := run_consistent h
    generalize hts : ts ++ [⟨rm₀, e, rm₁, out⟩] = ts' at hholds
    cases hholds with
    | @created _ x r hcreates hid hseat =>
      obtain ⟨rfl, rfl⟩ := List.append_singleton_inj.mp hts
      rcases step_cases hs with ⟨-, hnone⟩ | ⟨uid1, uid2, now, rfl, hcr⟩
      · exact absurd hcreates (hnone r)
      · obtain rfl := (hcr r).mp hcreates
        refine ⟨_, ?_, hseat⟩
        exact hc.addRoom_rooms.trans (if_pos hid.symm)
    | @kept _ x hholds _ hlive =>
      obtain ⟨rfl, rfl⟩ := List.append_singleton_inj.mp hts
      obtain ⟨r, hr, hseat⟩ := ih hholds
      obtain ⟨r', hr'⟩ := Option.ne_none_iff_exists'.mp hlive
      exact ⟨r', hr', (step_seats hc hs hr hr').mpr hseat⟩

/-- As long as rooms are created for users without one, the two maps agree. -/
theorem maps_agree (h : machine.Run empty ts rm) (hun : ∀ x ∈ ts, x.Unroomed) : MapsAgree ts rm where
  routed uid rid hholds := by
    obtain ⟨r, hr, hseat⟩ := holds_seat h hholds
    obtain ⟨hc, hmapped⟩ := run_mapped h hun
    exact ⟨r, getRoomByUid_eq_some.mpr ⟨rid, hmapped _ _ _ hr hseat, hr⟩, (hc.ids hr).1⟩
  named _ _ hu := (run_consistent h).named hu
  removal x hx rid hlive hgone rid' r uid hne hr hseat := by
    obtain ⟨⟨hc, hmapped⟩, hs⟩ := h.before_of (I := fun rm => Consistent rm ∧ Mapped rm)
      ⟨consistent_empty, mapped_empty⟩ hun (fun hi hs hx => ⟨hi.1.step hs, hi.2.step hi.1 hs hx⟩) hx
    exact hmapped.removal hc hs hlive hgone hne hr hseat

/-- The same for two users who both leave, and then meet again in another room. -/
theorem maps_agree_again : ∃ (ts : List RoomsTrans) (rm : RoomManager), machine.Run empty ts rm ∧
    rm.nextRid = 3 ∧ MapsAgree ts rm := by
  obtain ⟨ts, rm, h, hun, hnext⟩ := Machine.Run.exists_of_exec machine empty
    [.create (.allPresent 0) 1 2, .removeRoomUser 1, .removeRoomUser 2, .create (.allPresent 0) 1 2]
    (fun (ts : List RoomsTrans) rm => ((∀ x ∈ ts, (x.out.all fun
      | .created r => x.before.users r.whiteId = none ∧ x.before.users r.blackId = none
      | .call _ => true) = true) ∧ rm.nextRid = 3)) (by decide +kernel)
  refine ⟨ts, rm, h, hnext, maps_agree h fun x hx r hr => ?_⟩
  simpa using List.all_eq_true.mp (hun x hx) _ hr

/-- User 1 leaves room 1, in which user 2 stays, and is given room 2: every message of 1 still goes to room 1. -/
theorem maps_disagree : ¬∀ (ts : List RoomsTrans) rm, machine.Run empty ts rm → MapsAgree ts rm := by
  intro hall
  have h1 : machine.Run empty [⟨_, .create (.allPresent 0) 1 2, _, _⟩] _ := Machine.Run.nil.snoc rfl
  have h3 := (h1.snoc (e := .removeRoomUser 1) rfl).snoc (e := .create (.allPresent 0) 1 3) rfl
  obtain ⟨r, hr, hid⟩ := (hall _ _ h3).routed 1 2 (.created (List.mem_singleton_self _) rfl (Or.inl rfl))
  obtain ⟨rid, hu, hr⟩ := getRoomByUid_eq_some.mp hr
  cases hu
  cases hr
  cases hid

end RoomManager
end FiveStones
