import FiveStones.Theorems.Hosting
import FiveStones.Theorems.Queueing

/-! A page of the hall goes into a room only when there is one for its user. -/

namespace FiveStones

theorem Members.get_optype_ne {name name' : String} {rest : Members} (hne : name ≠ name') :
    Members.get (("optype", .str name) :: rest) "optype" ≠ .str name' := fun heq => hne (Json.str.inj heq)

namespace HallPage
variable {p : HallPage} {rsp : Members} {infos : List Members}

theorem onMessage_room (h : (p.onMessage rsp).destination = some .room) :
    p.destination = some .room ∨ rsp.get "optype" = .str "match_success" := by
  unfold onMessage at h
  split at h
  · cases h
  · rename_i optype hoptype _
    split at h
    · exact Or.inl h
    split at h
    · exact Or.inl h
    split at h
    · exact Or.inl h
    split at h
    · rename_i heq
      exact Or.inr (heq ▸ hoptype)
    split at h <;> exact Or.inl h
  · exact Or.inl h

theorem catchUp_room (h : (p.catchUp infos).destination = some .room) :
    p.destination = some .room ∨ ∃ rsp ∈ infos, rsp.get "optype" = .str "match_success" := by
  induction infos generalizing p with
  | nil => exact Or.inl h
  | cons rsp infos ih =>
    rcases ih h with hroom | ⟨rsp', hmem, hoptype⟩
    · exact (onMessage_room hroom).imp_right fun hoptype => ⟨rsp, List.mem_cons_self, hoptype⟩
    · exact Or.inr ⟨rsp', List.mem_cons_of_mem _ hmem, hoptype⟩

theorem onRoom_room {i : Nat} (h : (p.onRoom i).destination = some .room) : p.destination = some .room := by
  unfold onRoom at h
  split at h
  · cases h
  · exact h

end HallPage

/-- Whose connections a match thread has looked up. -/
def Pc.Looked (owns : Uid → Prop) : Pc → Prop
  | conn2 uid1 _ => owns uid1
  | hall1 uid1 uid2 | hall2 uid1 uid2 | create uid1 uid2 => owns uid1 ∨ owns uid2
  | size | wait | pop1 | pop2 _ | conn1 _ _ | add _ _ => True

theorem Pc.Looked.mono {pc : Pc} {owns owns' : Uid → Prop} (h : pc.Looked owns) (hmono : ∀ uid, owns uid → owns' uid) :
    pc.Looked owns' := by
  cases pc with
  | conn2 => exact hmono _ h
  | hall1 | hall2 | create => exact h.imp (hmono _) (hmono _)
  | size | wait | pop1 | pop2 | conn1 | add => trivial

namespace Server
variable {s s' : Server} {k : Pool} {conn : ConnId} {conns : List ConnId} {uid : Uid} {owns : Uid → Prop} {out obs : List Obs}
  {now : Int} {selectById : Uid → Option Members} {body : Option Json} {resp : Members}

/-- A connection that a match thread has after its step belongs to one of the users whom it holds. -/
theorem ThreadStep.looked (hs : ThreadStep s k selectById now s' out)
    (howns : ∀ uid, s.om.gameHall uid = some conn → owns uid) (hlooked : conn ∈ conns → (s.pcs k).Looked owns)
    (hmem : conn ∈ s.fetch k conns) : (s'.pcs k).Looked owns := by
  cases hs with
  | @conn1 uid1 uid2 hpc =>
    rw [goto_pcs_self]
    simp only [fetch, hpc] at hmem
    exact howns uid1 (mem_getConnFromGameHall.mp hmem).1
  | @conn2 uid1 uid2 hpc =>
    rw [goto_pcs_self]
    simp only [fetch, hpc, List.mem_append] at hmem
    rcases hmem with hmem | hmem
    · have hfirst := hlooked hmem
      rw [hpc] at hfirst
      exact Or.inl hfirst
    · exact Or.inr (howns uid2 (mem_getConnFromGameHall.mp hmem).1)
  | hall1 hpc | hall2 hpc =>
    rw [goto_pcs_self]
    simp only [fetch, hpc] at hmem
    have hlooked := hlooked hmem
    rwa [hpc] at hlooked
  | @lost _ rest | @back _ rest =>
    rw [goto_pcs_self]
    cases rest <;> trivial
  | few | round | wake | nobody | pop1 | alone | pop2 | gone1 | gone2 | left1 | left2 | create =>
    rw [goto_pcs_self]
    trivial

theorem ThreadStep.seats {r : Room} (hs : ThreadStep s k selectById now s' out) (hcreated : Obs.created k r ∈ out)
    (hlooked : conn ∈ conns → (s.pcs k).Looked owns) (hmem : conn ∈ s.fetch k conns) : ∃ uid, owns uid ∧ r.Seats uid := by
  cases hs with
  | @create uid1 uid2 hpc =>
    cases List.mem_singleton.mp hcreated
    simp only [fetch, hpc] at hmem
    have hlooked := hlooked hmem
    rw [hpc] at hlooked
    rcases hlooked with howns | howns
    · exact ⟨uid1, howns, Room.seats_create.mpr (Or.inl rfl)⟩
    · exact ⟨uid2, howns, Room.seats_create.mpr (Or.inr rfl)⟩
  | round | pop1 | pop2 | gone1 | gone2 | left1 | left2 | back => cases List.mem_singleton.mp hcreated
  | few | wake | nobody | alone | conn1 | conn2 | hall1 | hall2 | lost => cases hcreated

theorem wsmsgGameHall_plain (h : s.wsmsgGameHall selectById uid body = .ok (s', obs, resp)) :
    resp.get "optype" ≠ .str "match_success" := by
  unfold wsmsgGameHall at h
  split at h
  · cases h
    exact fun heq => by cases heq
  · obtain ⟨m, -, h⟩ := ok_of_bind h
    obtain ⟨optype, -, h⟩ := ok_of_bind h
    split at h
    · obtain ⟨⟨t, o⟩, -, h⟩ := ok_of_bind h
      cases h
      exact Members.get_optype_ne (by decide)
    split at h
    · obtain ⟨⟨t, o⟩, -, h⟩ := ok_of_bind h
      cases h
      exact Members.get_optype_ne (by decide)
    split at h <;> cases h <;> exact Members.get_optype_ne (by decide)

end Server

namespace Lobby
variable {l l' : Lobby} {e : LobbyEvent} {fe : FrontEvent} {out : List FrontObs} {conn conn' : ConnId} {c c' : HallClient}
  {rsp : Members} {uid : Uid} {k : Pool} {front : Front} {ts us : List LobbyTrans} {selectById : Uid → Option Members}
  {now : Int}

/-- The page goes into a room, or has been told to. -/
def ToldRoom (c : HallClient) : Prop :=
  c.page.destination = some .room ∨ ∃ rsp ∈ c.inbox, rsp.get "optype" = .str "match_success"

/-- A room has been created for the user. -/
def Seated (us : List LobbyTrans) (uid : Uid) : Prop :=
  ∃ k r, FrontObs.server (.created k r) ∈ Machine.log us ∧ r.Seats uid

/-- The match threads and the pages, such that only users with a room are told. -/
structure Seating (us : List LobbyTrans) (l : Lobby) : Prop where
  sound : l.Sound
  fetched : ∀ k conn, conn ∈ l.fetched k → (l.front.server.pcs k).Looked (l.Owns conn)
  told : ∀ conn c, l.pages conn = some c → ToldRoom c → ∃ uid, c.user = some uid ∧ Seated us uid

theorem seated_snoc (h : Seated us uid) (x : LobbyTrans) : Seated (us ++ [x]) uid := by
  obtain ⟨k, r, hmem, hseat⟩ := h
  exact ⟨k, r, by rw [Machine.log_snoc]; exact List.mem_append_left _ hmem, hseat⟩

/-- The answer to a message from the hall. -/
theorem hall_sent {f f' : Front} {user : Option Uid} {body : Option Json} {closed : Bool} {later : Int}
    (hconn : f.conns conn = some ⟨.hall, closed⟩)
    (hs : Front.machine.step f (.message conn user body selectById now later) = some (f', out)) :
    ∀ o ∈ out, ∀ x ∈ l'.sends o, x.2.get "optype" ≠ .str "match_success" := by
  simp only [Front.machine, hconn] at hs
  split at hs
  · cases hs
    exact fun o ho => absurd ho List.not_mem_nil
  · rename_i uri uid huri
    cases huri
    split at hs
    · cases hs
    · rename_i hmsg
      cases hs
      obtain ⟨⟨s, obs, resp⟩, hhall, hout⟩ := ok_of_bind hmsg
      cases hout
      intro o ho x hx
      rcases List.mem_append.mp ho with ho | ho
      · have hquiet := List.filterMap_eq_nil_iff.mp (Front.wsmsgGameHall_quiet hhall).2 o ho
        obtain ⟨o, -, rfl⟩ := List.mem_map.mp ho
        cases o with
        | created => cases hquiet
        | round | popped | absent | pushed | removed | call => cases hx
      · obtain rfl := List.mem_singleton.mp ho
        obtain rfl := List.mem_singleton.mp hx
        exact Server.wsmsgGameHall_plain hhall
  · cases hs

/-- What the server sends to a page of the hall, but for the match threads, tells nobody to go into a room. -/
theorem sent_plain (hi : l.Sound) (hfe : ∀ k selectById now, fe ≠ .turn k selectById now)
    (hs : Front.machine.step l.front fe = some (front, out)) (hpage : (l.next fe front out).pages conn = some c) :
    ∀ rsp ∈ l'.sentTo out conn, rsp.get "optype" ≠ .str "match_success" := by
  intro rsp hrsp
  obtain ⟨o, ho, hx⟩ := exists_of_sentTo hrsp
  by_cases hfrom : l.fromHall fe = true
  · cases fe with
    | turn k selectById now => exact absurd rfl (hfe k selectById now)
    | opened | closed | drop => cases hfrom
    | message conn' user body selectById now later =>
      obtain ⟨⟨uri, closed⟩, hconn, huri⟩ := (Option.any_eq_true _ _).mp hfrom
      obtain rfl : uri = .hall := of_decide_eq_true huri
      exact hall_sent hconn hs o ho _ hx
  · obtain ⟨-, hout⟩ := elsewhere (Bool.eq_false_iff.mpr hfrom) hfe hs
    obtain ⟨c₀, -, hpage₀ | ⟨user, selectById, rfl, -⟩⟩ := next_pages hpage
    · obtain ⟨closed, hconn⟩ := hi.hall hpage₀
      exact absurd rfl (hout l' o ho _ hx _ hconn)
    · cases user with
      | none =>
        simp only [Front.machine] at hs
        split at hs <;> cases hs
        cases ho
      | some uid =>
        rcases opened_hall hs with rfl | rfl <;>
        · obtain rfl := List.mem_singleton.mp ho
          cases List.mem_singleton.mp hx
          exact Members.get_optype_ne (by decide)

theorem Seating.fetched_next (hi : Seating us l) (hs : Front.machine.step l.front fe = some (front, out)) :
    ∀ k conn, conn ∈ (l.next fe front out).fetched k → (front.server.pcs k).Looked ((l.next fe front out).Owns conn) := by
  intro k conn hmem
  have hmono : ∀ uid, l.Owns conn uid → (l.next fe front out).Owns conn uid := fun uid => hi.sound.next_owns hs
  cases fe with
  | turn k' selectById now =>
    simp only [Front.machine] at hs
    split at hs
    · cases hs
    · rename_i s obs hturn
      cases hs
      have hthread := Server.threadStep hturn
      change conn ∈ Function.update l.fetched k' (l.front.server.fetch k' (l.fetched k')) k at hmem
      by_cases heq : k = k'
      · subst heq
        rw [Function.update_self] at hmem
        exact (hthread.looked (fun uid hentry => hi.sound.owner hentry) (hi.fetched k conn) hmem).mono hmono
      · rw [Function.update_of_ne heq] at hmem
        change (s.pcs k).Looked _
        rw [hthread.pcs_ne heq]
        exact (hi.fetched k conn hmem).mono hmono
  | opened conn' uri user selectById =>
    have hold : conn ∈ l.fetched k := by cases uri <;> exact hmem
    have hlooked := (hi.fetched k conn hold).mono hmono
    cases Front.step_inv hs <;> exact hlooked
  | message | closed | drop =>
    have hlooked := (hi.fetched k conn hmem).mono hmono
    cases Front.step_inv hs <;> exact hlooked

theorem newPage_told (user : Option Uid) : ¬ToldRoom (newPage user) := by
  rintro (hroom | ⟨rsp, hmem, hoptype⟩)
  · cases hroom
  · cases user with
    | none =>
      obtain rfl := List.mem_singleton.mp hmem
      exact Members.get_optype_ne (by decide) hoptype
    | some uid => cases hmem

/-- Whom a match thread tells in its step, it has seated in it. -/
theorem Seating.turn_told (hi : Seating us l) (hs : Front.machine.step l.front (.turn k selectById now) = some (front, out))
    (hold : l.pages conn = some c ∨
      ∃ user selectById', FrontEvent.turn k selectById now = .opened conn .hall user selectById' ∧ c = newPage user)
    (hmem : rsp ∈ (l.next (.turn k selectById now) front out).sentTo out conn) :
    ∃ uid, c.user = some uid ∧ (Seated us uid ∨ ∃ k r, FrontObs.server (.created k r) ∈ out ∧ r.Seats uid) := by
  obtain hpage | ⟨_, _, heq, -⟩ := hold
  swap
  · cases heq
  obtain ⟨o, ho, hx⟩ := exists_of_sentTo hmem
  simp only [Front.machine] at hs
  split at hs
  · cases hs
  · rename_i s obs hturn
    cases hs
    have hthread := Server.threadStep hturn
    obtain ⟨o, hobs, rfl⟩ := List.mem_map.mp ho
    cases o with
    | created k' r =>
      obtain rfl := hthread.created_own hobs
      obtain ⟨conn', hconn, heq⟩ := List.mem_map.mp hx
      cases heq
      have hfetch : conn ∈ l.front.server.fetch k' (l.fetched k') := by simpa [next, deliver, arrange] using hconn
      obtain ⟨uid, ⟨d, hd, huser⟩, hseat⟩ := hthread.seats hobs (hi.fetched k' conn) hfetch
      cases hpage.symm.trans hd
      exact ⟨uid, huser, Or.inr ⟨k', r, ho, hseat⟩⟩
    | round | popped | absent | pushed | removed | call => cases hx

theorem Seating.told_next (hi : Seating us l) (hs : Front.machine.step l.front fe = some (front, out))
    (hpage : (l.next fe front out).pages conn = some c) (htold : ToldRoom c) :
    ∃ uid, c.user = some uid ∧ (Seated us uid ∨ ∃ k r, FrontObs.server (.created k r) ∈ out ∧ r.Seats uid) := by
  obtain ⟨c₀, hc, hold⟩ := next_pages hpage
  -- The page had been told before, or it is told in this step.
  have hcases : ToldRoom c₀ ∨ ∃ rsp ∈ (l.next fe front out).sentTo out conn, rsp.get "optype" = .str "match_success" := by
    rw [hc] at htold
    rcases htold with hroom | ⟨rsp, hmem, hoptype⟩
    · exact Or.inl (Or.inl hroom)
    · rcases List.mem_append.mp hmem with hmem | hmem
      · exact Or.inl (Or.inr ⟨rsp, hmem, hoptype⟩)
      · exact Or.inr ⟨rsp, hmem, hoptype⟩
  have huser : c.user = c₀.user := by rw [hc]
  rw [huser]
  rcases hcases with htold | ⟨rsp, hmem, hoptype⟩
  · rcases hold with hpage₀ | ⟨user, selectById, -, rfl⟩
    · obtain ⟨uid, huser, hseated⟩ := hi.told conn c₀ hpage₀ htold
      exact ⟨uid, huser, Or.inl hseated⟩
    · exact absurd htold (newPage_told user)
  · cases fe with
    | turn k selectById now => exact hi.turn_told hs hold hmem
    | opened | message | closed | drop => exact absurd hoptype (sent_plain hi.sound (fun _ _ _ heq => by cases heq) hs hpage rsp hmem)

theorem Seating.snoc (hi : Seating us l) (x : LobbyTrans) : Seating (us ++ [x]) l where
  sound := hi.sound
  fetched := hi.fetched
  told conn c hpage htold := (hi.told conn c hpage htold).imp fun _ h => ⟨h.1, seated_snoc h.2 x⟩

theorem Seating.put (hi : Seating us l) (hsound : (l.put conn c').Sound) (hpage : l.pages conn = some c)
    (huser : c'.user = c.user) (hback : ToldRoom c' → ToldRoom c) : Seating us (l.put conn c') where
  sound := hsound
  fetched k conn' hmem := (hi.fetched k conn' hmem).mono fun _ => put_owns hpage huser
  told conn' d hpage' htold := by
    rcases put_pages_inv hpage' with ⟨rfl, rfl⟩ | ⟨-, hpage'⟩
    · rw [huser]
      exact hi.told _ c hpage (hback htold)
    · exact hi.told _ d hpage' htold

theorem Seating.next (hi : Seating us l) (hs : Front.machine.step l.front fe = some (front, out)) (x : LobbyTrans)
    (hx : x.out = out) : Seating (us ++ [x]) (l.next fe front out) where
  sound := hi.sound.next hs
  fetched := hi.fetched_next hs
  told conn c hpage htold := by
    obtain ⟨uid, huser, hseated | ⟨k, r, hmem, hseat⟩⟩ := hi.told_next hs hpage htold
    · exact ⟨uid, huser, seated_snoc hseated x⟩
    · refine ⟨uid, huser, k, r, ?_, hseat⟩
      rw [Machine.log_snoc, hx]
      exact List.mem_append_right _ hmem

theorem Seating.step (hi : Seating us l) (hs : LobbyStep l e l' out) : Seating (us ++ [⟨l, e, l', out⟩]) l' := by
  have hsound := hi.sound.step hs
  cases hs with
  | front _ hs => exact hi.next hs _ rfl
  | sent _ hpage => exact (hi.put hsound hpage rfl id).snoc _
  | chosen hpage => exact (hi.put hsound hpage rfl (Or.imp_left HallPage.onRoom_room)).snoc _
  | @read conn c rsp rest hpage hin =>
    refine (hi.put hsound hpage rfl fun htold => ?_).snoc _
    rcases htold with hroom | ⟨rsp', hmem, hoptype⟩
    · exact (HallPage.onMessage_room hroom).imp_right fun hoptype => ⟨rsp, by rw [hin]; exact List.mem_cons_self, hoptype⟩
    · exact Or.inr ⟨rsp', by rw [hin]; exact List.mem_cons_of_mem _ hmem, hoptype⟩
  | @served conn c req rest uid selectById now later fe front out hpage hout huser hfe hs =>
    have hput : Seating us (l.put conn { c with outbox := rest }) := by
      refine hi.put (hi.sound.put hpage rfl fun req hmem => hi.sound.requests hpage ?_) hpage rfl id
      rw [hout]
      exact List.mem_cons_of_mem _ hmem
    exact hput.next hs _ rfl
  | rejected hpage =>
    refine (hi.put hsound hpage rfl (Or.imp_right fun ⟨rsp, hmem, hoptype⟩ => ?_)).snoc _
    rcases List.mem_append.mp hmem with hmem | hmem
    · exact ⟨rsp, hmem, hoptype⟩
    · obtain rfl := List.mem_singleton.mp hmem
      exact absurd hoptype (Members.get_optype_ne (by decide))

theorem run_seating (h : machine.Run start ts l) : Seating ts l :=
  h.invariant_along (I := Seating) (C := fun _ _ => True) ⟨sound_start, nofun, nofun⟩ (fun _ _ _ _ => trivial)
    fun hi hs _ => hi.step (step_inv hs)

/-- A page of the hall goes into a room only when a match thread has created one for its user, in whatever order the pages,
    the connections and the match threads come. -/
theorem goes_to_own_room (h : machine.Run start ts l) (hpage : l.pages conn = some c)
    (hroom : (c.page.catchUp c.inbox).destination = some .room) :
    ∃ uid, c.user = some uid ∧ ∃ k r, FrontObs.server (.created k r) ∈ Machine.log ts ∧ r.Seats uid :=
  (run_seating h).told conn c hpage (HallPage.catchUp_room hroom)

/-- The page of user 1 is told after the match threads have paired users 1 and 2. -/
theorem goes_to_own_room_both : ∃ (ts : List LobbyTrans) (l : Lobby) (c : HallClient), machine.Run start ts l ∧
    l.pages 1 = some c ∧ c.user = some 1 ∧ ∃ k r, FrontObs.server (.created k r) ∈ Machine.log ts ∧ r.Seats 1 := by
  obtain ⟨ts, l, h, hpage⟩ := Machine.Run.exists_of_exec machine start (both ++ turns)
    (fun (_ : List LobbyTrans) l => ((l.pages 1).any fun c => c.user = some 1 ∧
      ((c.page.catchUp c.inbox).destination.any fun d => match d with | .room => true | .login | .spectate _ => false)) = true)
    (by decide +kernel)
  obtain ⟨c, hpage, hc⟩ := (Option.any_eq_true _ _).mp hpage
  obtain ⟨huser, hgoes⟩ := of_decide_eq_true hc
  obtain ⟨d, hd, hroom⟩ := (Option.any_eq_true _ _).mp hgoes
  obtain ⟨uid, huser', hseated⟩ := goes_to_own_room h hpage (by cases d <;> first | exact hd | cases hroom)
  obtain rfl : uid = 1 := Option.some.inj (huser'.symm.trans huser)
  exact ⟨ts, l, c, h, hpage, huser, hseated⟩

end Lobby
end FiveStones
