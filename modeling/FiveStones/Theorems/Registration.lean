import FiveStones.Theorems.FrontStep

/-! Which connection stands under a user in the hall, in the rooms and among the spectators, and what a close
callback leaves of these entries. -/

namespace FiveStones

/-- Who was admitted, and with which connection. -/
def admissions (ts : List FrontTrans) : List (ConnId × Uid) :=
  ts.flatMap fun x => x.out.filterMap fun
    | .admitted conn uid _ => some (conn, uid)
    | _ => none

def Admitted (ts : List FrontTrans) (conn : ConnId) (uid : Uid) : Prop := (conn, uid) ∈ admissions ts

theorem admitted_iff {ts : List FrontTrans} {conn : ConnId} {uid : Uid} :
    Admitted ts conn uid ↔ ∃ x ∈ ts, ∃ resp, FrontObs.admitted conn uid resp ∈ x.out := by
  simp only [Admitted, admissions, List.mem_flatMap, List.mem_filterMap]
  constructor
  · rintro ⟨x, hx, o, ho, heq⟩
    split at heq
    · cases heq
      exact ⟨x, hx, _, ho⟩
    · cases heq
  · rintro ⟨x, hx, resp, ho⟩
    exact ⟨x, hx, _, ho, rfl⟩

theorem Admitted.snoc {ts : List FrontTrans} {conn : ConnId} {uid : Uid} (h : Admitted ts conn uid) (x : FrontTrans) :
    Admitted (ts ++ [x]) conn uid := by
  obtain ⟨y, hy, hadm⟩ := admitted_iff.mp h
  exact admitted_iff.mpr ⟨y, List.mem_append_left _ hy, hadm⟩

theorem Admitted.last {ts : List FrontTrans} {x : FrontTrans} {conn : ConnId} {uid : Uid} {resp : Members}
    (h : FrontObs.admitted conn uid resp ∈ x.out) : Admitted (ts ++ [x]) conn uid :=
  admitted_iff.mpr ⟨x, List.mem_append_right _ (List.mem_singleton_self x), resp, h⟩

namespace RoomManager
variable {env : Env} {rm rm' : RoomManager} {rid rid' : Rid} {r r' : Room} {uid uid' : Uid}

/-- Who watches which room: what a user has among the spectators of a room. -/
def spectator (rm : RoomManager) (rid : Rid) (uid : Uid) : Option ConnId := (rm.rooms rid).bind fun r => r.spectatorConns uid

theorem handleRequest_spectatorConns {req : Json} {out : List Call} (h : r.handleRequest env req = .ok (r', out)) :
    r'.spectatorConns = r.spectatorConns := by
  obtain ⟨m, -, hstep | ⟨-, uid, ms, rfl⟩⟩ := Room.handleRequest_cases h
  · cases hstep with
    | placed => rw [Room.passTurn_eq]
    | idle | timeUp | walkover | claimed | won | invite | accept => rfl
  · rw [Room.passTurn_eq]

theorem spectator_setRoom (hr : rm.rooms rid = some r) (h : r'.spectatorConns = r.spectatorConns) :
    (rm.setRoom rid r').spectator rid' uid = rm.spectator rid' uid := by
  unfold spectator
  by_cases heq : rid' = rid
  · subst heq
    rw [setRoom_self, hr, Option.bind_some, Option.bind_some, h]
  · rw [setRoom_ne heq]

theorem spectator_wsmsgGameRoom {body : Option Json} {calls : List Call}
    (h : rm.wsmsgGameRoom env uid body = .ok (rm', calls)) : rm'.spectator rid uid' = rm.spectator rid uid' := by
  rcases wsmsgGameRoom_cases h with ⟨rfl, -⟩ | ⟨rid, r, req, r', hfind, -, hreq, rfl⟩
  · rfl
  · exact spectator_setRoom (findRoom_eq_some.mp hfind).2 (handleRequest_spectatorConns hreq)

theorem spectator_removeSpectatorUser : (rm.removeSpectatorUser uid).spectator rid uid' =
    if uid' = uid then none else rm.spectator rid uid' := by
  unfold spectator removeSpectatorUser Room.removeSpectator
  cases hr : rm.rooms rid with
  | none => simp [hr]
  | some r =>
    split
    · rename_i heq
      simp [hr, heq]
    · rename_i hne
      simp [hr, Dict.erase_ne hne]

theorem Consistent.spectator_addRoom (h : Consistent rm) {uid1 uid2 : Uid} {now : Int} :
    (rm.addRoom uid1 uid2 now).spectator rid uid = rm.spectator rid uid := by
  unfold spectator
  rw [h.addRoom_rooms]
  split
  · rename_i heq
    rw [heq, h.fresh]
    rfl
  · rfl

/-- The room that is taken away when `uid` leaves: the one that counts no other player. -/
def lastOut (rm : RoomManager) (uid : Uid) : Option Rid :=
  match rm.findRoom uid with
  | none => none
  | some (rid, r) => if r.playerCount ≤ 1 then some rid else none

theorem Consistent.rooms_removeRoomUser (h : Consistent rm) : (rm.removeRoomUser uid).1.rooms rid =
    if rm.lastOut uid = some rid then none
    else if rm.users uid = some rid then (rm.rooms rid).map fun r => (r.handleExit uid).1 else rm.rooms rid := by
  cases hfind : rm.findRoom uid with
  | none =>
    simp only [removeRoomUser, lastOut, hfind, reduceCtorEq, ↓reduceIte]
    split
    · rename_i hu
      cases hr : rm.rooms rid with
      | none => rfl
      | some r =>
        rw [findRoom_eq_some.mpr ⟨hu, hr⟩] at hfind
        cases hfind
    · rfl
  | some found =>
    obtain ⟨rid₀, r⟩ := found
    obtain ⟨hu, hr⟩ := findRoom_eq_some.mp hfind
    have hcount : (r.handleExit uid).1.playerCount = 0 ↔ r.playerCount ≤ 1 := by
      rw [Room.handleExit_fst]
      simp only
      split <;> omega
    have hid : (r.handleExit uid).1.roomId = rid₀ := (Room.handleExit_keeps r uid).roomId.trans (h.ids hr).1
    have hset : (rm.setRoom rid₀ (r.handleExit uid).1).rooms rid =
        if rid₀ = rid then (rm.rooms rid).map fun r => (r.handleExit uid).1 else rm.rooms rid := by
      split
      · rename_i heq
        subst heq
        rw [setRoom_self, hr, Option.map_some]
      · rename_i hne
        exact setRoom_ne (Ne.symm hne)
    simp only [removeRoomUser, lastOut, hfind, hcount, hid, hu, Option.some.injEq]
    split
    · rw [removeRoom_rooms, hset]
      by_cases heq : rid₀ = rid
      · simp [heq]
      · simp [heq, Ne.symm heq]
    · rw [hset]
      simp

/-- The close of a room connection leaves the spectators of every room but one that it takes away. -/
theorem Consistent.spectator_removeRoomUser (h : Consistent rm) : (rm.removeRoomUser uid).1.spectator rid uid' =
    if rm.lastOut uid = some rid then none else rm.spectator rid uid' := by
  unfold spectator
  rw [h.rooms_removeRoomUser]
  split
  · rfl
  · split
    · cases rm.rooms rid with
      | none => rfl
      | some r => simp only [Option.map_some, Option.bind_some, Room.handleExit_fst]
    · rfl

end RoomManager

/-- The tables that hold connections: the hall, the rooms, and the spectators of each room. -/
inductive ConnTable
  | hall
  | room
  | watch (rid : Rid)

/-- The uri whose connections stand in the table. -/
def ConnTable.uri : ConnTable → WsUri
  | hall => .hall
  | room => .room
  | watch _ => .spectate

namespace Front

/-- The connection of a user in a table. -/
def entry (f : Front) : ConnTable → Uid → Option ConnId
  | .hall => f.server.om.gameHall
  | .room => f.server.om.gameRoom
  | .watch rid => f.server.rm.spectator rid

variable {f f' : Front} {out : List FrontObs} {conn : ConnId} {user : Option Uid}

/-- The entries that a close callback erases when it finds `user`. -/
inductive Clears (f : Front) (uri : WsUri) (user : Option Uid) : ConnTable → Uid → Prop
  | own {t : ConnTable} {uid : Uid} : user = some uid → t.uri = uri → Clears f uri user t uid
  | room {uid uid' : Uid} {rid : Rid} : user = some uid → uri = .room → f.server.rm.lastOut uid = some rid →
      Clears f uri user (.watch rid) uid'

theorem closed_entry (hc : f.server.rm.Consistent) (hs : FrontStep f (.closed conn user) f' out) :
    ∃ uri, f.conns conn = some ⟨uri, false⟩ ∧
      ∀ t uid, (f.Clears uri user t uid → f'.entry t uid = none) ∧ (¬f.Clears uri user t uid → f'.entry t uid = f.entry t uid) := by
  cases hs with
  | @left _ uri _ hconn hnone =>
    refine ⟨uri, hconn, fun t uid => ⟨?_, fun _ => rfl⟩⟩
    rintro (⟨huser, huri⟩ | ⟨huser, huri, -⟩)
    · rcases hnone with rfl | rfl
      · cases huser
      · cases t <;> cases huri
    · rcases hnone with rfl | rfl
      · cases huser
      · cases huri
  | @leftHall _ uid₀ hconn =>
    refine ⟨.hall, hconn, fun t uid => ⟨?_, fun hnot => ?_⟩⟩
    · rintro (⟨huser, huri⟩ | ⟨-, huri, -⟩)
      · obtain rfl := Option.some.inj huser
        cases t <;> cases huri
        exact Dict.erase_self
      · cases huri
    · cases t with
      | hall => exact Dict.erase_ne fun heq => hnot (.own (congrArg some heq.symm) rfl)
      | room | watch => rfl
  | @leftRoom _ uid₀ hconn =>
    refine ⟨.room, hconn, fun t uid => ⟨?_, fun hnot => ?_⟩⟩
    · rintro (⟨huser, huri⟩ | ⟨huser, huri, hlast⟩)
      · obtain rfl := Option.some.inj huser
        cases t <;> cases huri
        exact Dict.erase_self
      · obtain rfl := Option.some.inj huser
        exact hc.spectator_removeRoomUser.trans (if_pos hlast)
    · cases t with
      | hall => rfl
      | room => exact Dict.erase_ne fun heq => hnot (.own (congrArg some heq.symm) rfl)
      | watch rid => exact hc.spectator_removeRoomUser.trans (if_neg fun hlast => hnot (.room rfl rfl hlast))
  | @leftSpectate _ uid₀ hconn =>
    refine ⟨.spectate, hconn, fun t uid => ⟨?_, fun hnot => ?_⟩⟩
    · rintro (⟨huser, huri⟩ | ⟨-, huri, -⟩)
      · obtain rfl := Option.some.inj huser
        cases t <;> cases huri
        exact RoomManager.spectator_removeSpectatorUser.trans (if_pos rfl)
      · cases huri
    · cases t with
      | hall | room => rfl
      | watch rid =>
        exact RoomManager.spectator_removeSpectatorUser.trans (if_neg fun heq => hnot (.own (congrArg some heq.symm) rfl))

end Front

theorem Server.spectator_joined {s : Server} {rid rid' : Rid} {r : Room} {uid uid' : Uid} {conn : ConnId} :
    (s.joined rid r uid conn).spectator rid' uid' =
      if uid' = uid then if rid' = rid then some conn else none
      else if rid' = rid then r.spectatorConns uid' else s.rm.spectator rid' uid' := by
  by_cases hrid : rid' = rid
  · subst hrid
    simp only [joined, RoomManager.spectator, RoomManager.setRoom_self, Option.bind_some, Room.addSpectator,
      Room.removeSpectator, ↓reduceIte]
    by_cases huid : uid' = uid
    · simp [huid]
    · simp [Dict.assign_ne huid, Dict.erase_ne huid, huid]
  · have hother : (s.joined rid r uid conn).spectator rid' uid' = (s.rm.removeSpectatorUser uid).spectator rid' uid' := by
      simp only [joined, RoomManager.spectator, RoomManager.setRoom_ne hrid]
    rw [hother, RoomManager.spectator_removeSpectatorUser]
    simp [hrid]

namespace FrontStep
variable {f f' : Front} {e : FrontEvent} {out : List FrontObs} {uri : WsUri} {uid : Uid} {conn : ConnId}

theorem conns (hs : FrontStep f e f' out) {closed : Bool} (h : f.conns conn = some ⟨uri, closed⟩) :
    ∃ closed', f'.conns conn = some ⟨uri, closed'⟩ := by
  have hopen : ∀ {conn' uri'}, f.conns conn' = none → ∃ closed', (f.connect conn' uri').conns conn = some ⟨uri, closed'⟩ := by
    intro conn' uri' hnew
    have hne : conn ≠ conn' := by
      rintro rfl
      simp [hnew] at h
    exact ⟨closed, (Dict.assign_ne hne).trans h⟩
  have hclose : ∀ {conn' uri'}, f.conns conn' = some ⟨uri', false⟩ →
      ∃ closed', (f.disconnect conn' uri').conns conn = some ⟨uri, closed'⟩ := by
    intro conn' uri' hconn
    by_cases heq : conn = conn'
    · subst heq
      rw [hconn] at h
      cases h
      exact ⟨true, Dict.assign_self⟩
    · exact ⟨closed, (Dict.assign_ne heq).trans h⟩
  cases hs with
  | turn | spoken | roomMessage | joined | drop => exact ⟨closed, h⟩
  | entered hnew | twice hnew | roomless hnew | hall hnew | room hnew => exact hopen hnew
  | left hconn | leftHall hconn | leftRoom hconn | leftSpectate hconn => exact hclose hconn

/-- An entry of a user is old, or the step admits the user with its connection. -/
theorem entry (hs : FrontStep f e f' out) (hc : f.server.rm.Consistent) {t : ConnTable} (h : f'.entry t uid = some conn) :
    f.entry t uid = some conn ∨
      (∃ resp, .admitted conn uid resp ∈ out) ∧ f'.conns conn = some ⟨t.uri, false⟩ := by
  have hclosed : ∀ {conn' user}, FrontStep f (.closed conn' user) f' out → f.entry t uid = some conn := by
    intro conn' user hs
    obtain ⟨uri, -, hentry⟩ := Front.closed_entry hc hs
    by_cases hclears : f.Clears uri user t uid
    · rw [(hentry t uid).1 hclears] at h
      cases h
    · exact ((hentry t uid).2 hclears).symm.trans h
  cases hs with
  | turn hturn =>
    cases hturn with
    | seat =>
      cases t with
      | hall | room => exact Or.inl h
      | watch rid => exact Or.inl (hc.spectator_addRoom.symm.trans h)
    | round | walk | pop | absent | back | lost => exact Or.inl h
  | entered | twice | spoken | drop => exact Or.inl h
  | left hconn hnone => exact Or.inl (hclosed (.left hconn hnone))
  | leftHall hconn => exact Or.inl (hclosed (.leftHall hconn))
  | leftRoom hconn => exact Or.inl (hclosed (.leftRoom hconn))
  | leftSpectate hconn => exact Or.inl (hclosed (.leftSpectate hconn))
  | roomless _ _ _ hom =>
    subst hom
    cases t with
    | hall =>
      simp only [Front.entry] at h
      split at h
      · exact Or.inl (Dict.erase_eq_some.mp h).2
      · exact Or.inl h
    | room =>
      simp only [Front.entry] at h
      split at h <;> exact Or.inl h
    | watch rid => exact Or.inl h
  | hall hnew =>
    cases t with
    | hall =>
      rcases Dict.assign_eq_some.mp h with ⟨rfl, rfl⟩ | ⟨-, h⟩
      · exact Or.inr ⟨⟨_, List.mem_singleton_self _⟩, Dict.assign_self⟩
      · exact Or.inl h
    | room | watch rid => exact Or.inl h
  | room hnew _ _ hom =>
    subst hom
    cases t with
    | hall =>
      simp only [Front.entry, OnlineManager.enterGameRoom] at h
      split at h
      · exact Or.inl (Dict.erase_eq_some.mp h).2
      · exact Or.inl h
    | room =>
      rcases Dict.assign_eq_some.mp h with ⟨rfl, rfl⟩ | ⟨-, h⟩
      · exact Or.inr ⟨⟨_, List.mem_singleton_self _⟩, Dict.assign_self⟩
      · split at h <;> exact Or.inl h
    | watch rid => exact Or.inl h
  | roomMessage _ hmsg =>
    cases t with
    | hall | room => exact Or.inl h
    | watch rid => exact Or.inl ((RoomManager.spectator_wsmsgGameRoom hmsg).symm.trans h)
  | joined hconn hr =>
    cases t with
    | hall | room => exact Or.inl h
    | watch rid' =>
      simp only [Front.entry, Server.spectator_joined] at h
      split at h
      · rename_i heq
        subst heq
        split at h
        · obtain rfl := Option.some.inj h
          exact Or.inr ⟨⟨_, List.mem_singleton_self _⟩, hconn⟩
        · cases h
      · split at h
        · rename_i heq
          subst heq
          exact Or.inl (by rw [Front.entry, RoomManager.spectator, hr, Option.bind_some, h])
        · exact Or.inl h

end FrontStep

/-- Every entry of a user is a connection with which the user was admitted, and that came to the uri of the
    table. -/
def Registered (ts : List FrontTrans) (f : Front) : Prop :=
  ∀ t uid conn, f.entry t uid = some conn → Admitted ts conn uid ∧ ∃ closed, f.conns conn = some ⟨t.uri, closed⟩

namespace Front
variable {ts us vs : List FrontTrans} {f f' : Front} {x : FrontTrans} {e : FrontEvent} {out : List FrontObs} {uri : WsUri}
  {uid : Uid} {conn : ConnId} {user : Option Uid} {t : ConnTable}

theorem Registered.step (hi : Registered ts f) (hc : f.server.rm.Consistent) (hs : FrontStep f e f' out) :
    Registered (ts ++ [⟨f, e, f', out⟩]) f' := by
  intro t uid conn hentry
  rcases hs.entry hc hentry with hentry | ⟨⟨resp, hadm⟩, hconn⟩
  · obtain ⟨hadm, closed, hconn⟩ := hi t uid conn hentry
    exact ⟨hadm.snoc _, hs.conns hconn⟩
  · exact ⟨.last hadm, false, hconn⟩

theorem run_registered (h : machine.Run start ts f) : f.server.rm.Consistent ∧ Registered ts f := by
  refine h.invariant_along (I := fun ts f => f.server.rm.Consistent ∧ Registered ts f) (C := fun _ _ => True) ⟨?_, ?_⟩
    (fun _ _ _ _ => trivial) fun hi hs _ => ⟨(step_inv hs).consistent hi.1, Registered.step hi.2 hi.1 (step_inv hs)⟩
  · exact RoomManager.consistent_empty
  · intro t uid conn hentry
    cases t <;> cases hentry

end Front

/-! ### Close callbacks -/

namespace FrontTrans

/-- A step leaves no entry of `conn`, and keeps the entries of other open connections of its user. -/
structure Tidies (us : List FrontTrans) (x : FrontTrans) (conn : ConnId) : Prop where
  gone : ∀ t uid, x.after.entry t uid ≠ some conn
  kept : ∀ t uid other, Admitted us conn uid → other ≠ conn → x.before.server.isOpen other = true →
    x.before.entry t uid = some other → x.after.entry t uid = some other

/-- What a close callback that finds `user` must meet in order to tidy up: who stands in a table with the
    connection is found, the user found does not stand there with another open connection, and a room that goes
    away has no open connection of the user among its spectators. -/
structure Finds (us : List FrontTrans) (x : FrontTrans) (conn : ConnId) (user : Option Uid) : Prop where
  found : ∀ t uid, x.before.entry t uid = some conn → user = some uid
  newest : ∀ t uid other closed, user = some uid → Admitted us conn uid → x.before.conns conn = some ⟨t.uri, closed⟩ →
    other ≠ conn → x.before.server.isOpen other = true → x.before.entry t uid ≠ some other
  watching : ∀ uid uid' rid other closed, user = some uid → Admitted us conn uid' →
    x.before.conns conn = some ⟨.room, closed⟩ → x.before.server.rm.lastOut uid = some rid →
    other ≠ conn → x.before.server.isOpen other = true → x.before.entry (.watch rid) uid' ≠ some other

end FrontTrans

namespace Front
variable {ts us vs : List FrontTrans} {f f' : Front} {x : FrontTrans} {e : FrontEvent} {out : List FrontObs} {uri : WsUri}
  {uid : Uid} {conn : ConnId} {user : Option Uid} {t : ConnTable}

/-- A close callback tidies up just when it finds the right user, and no newer connection of that user. -/
theorem tidies_iff (hc : f.server.rm.Consistent) (hi : Registered us f) (hs : FrontStep f (.closed conn user) f' out) :
    FrontTrans.Tidies us ⟨f, .closed conn user, f', out⟩ conn ↔
      FrontTrans.Finds us ⟨f, .closed conn user, f', out⟩ conn user := by
  obtain ⟨uri, hconn, hentry⟩ := closed_entry hc hs
  have huri : ∀ {t : ConnTable} {closed}, f.conns conn = some ⟨t.uri, closed⟩ → t.uri = uri := by
    intro t closed hconn'
    rw [hconn'] at hconn
    cases hconn
    rfl
  constructor
  · intro h
    refine ⟨?_, ?_, ?_⟩
    · intro t uid hold
      by_contra hne
      obtain ⟨-, closed, hconn'⟩ := hi t uid conn hold
      refine h.gone t uid (((hentry t uid).2 ?_).trans hold)
      rintro (⟨huser, -⟩ | ⟨-, hroom, -⟩)
      · exact hne huser
      · cases (huri hconn').trans hroom
    · intro t uid other closed huser hadm hconn' hne hopen hold
      have hnew := h.kept t uid other hadm hne hopen hold
      rw [(hentry t uid).1 (.own huser (huri hconn'))] at hnew
      cases hnew
    · intro uid uid' rid other closed huser hadm hconn' hlast hne hopen hold
      have hnew := h.kept _ uid' other hadm hne hopen hold
      rw [(hentry _ uid').1 (.room huser (huri (t := .room) hconn').symm hlast)] at hnew
      cases hnew
  · intro h
    refine ⟨?_, ?_⟩
    · intro t uid hnew
      by_cases hclears : f.Clears uri user t uid
      · rw [(hentry t uid).1 hclears] at hnew
        cases hnew
      · rw [(hentry t uid).2 hclears] at hnew
        obtain ⟨-, closed, hconn'⟩ := hi t uid conn hnew
        exact hclears (.own (h.found t uid hnew) (huri hconn'))
    · intro t uid other hadm hne hopen hold
      refine ((hentry t uid).2 ?_).trans hold
      rintro (⟨huser, rfl⟩ | ⟨huser, rfl, hlast⟩)
      · exact h.newest t uid other false huser hadm hconn hne hopen hold
      · exact h.watching _ uid _ other false huser hadm hconn hlast hne hopen hold

end Front
end FiveStones
