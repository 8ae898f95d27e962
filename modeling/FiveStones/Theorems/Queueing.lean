import FiveStones.Lobby
import FiveStones.Theorems.Registration
import FiveStones.Theorems.Service

/-! What the page of the hall says of the match, and what the server makes of it. -/

namespace FiveStones

namespace HallPage
variable {p : HallPage} {rsp : Members} {infos infos' : List Members} {i : Nat}

/-- The page after it has read `infos`, in their order. -/
def catchUp (p : HallPage) (infos : List Members) : HallPage := infos.foldl onMessage p

@[simp] theorem catchUp_nil : p.catchUp [] = p := rfl

theorem catchUp_cons : p.catchUp (rsp :: infos) = (p.onMessage rsp).catchUp infos := rfl

theorem catchUp_append : p.catchUp (infos ++ infos') = (p.catchUp infos).catchUp infos' := List.foldl_append

theorem catchUp_snoc : p.catchUp (infos ++ [rsp]) = (p.catchUp infos).onMessage rsp := catchUp_append

/-- What the page asks the server for. -/
inductive Request : Members → Prop
  | matchStart : Request [("optype", .str "match_start")]
  | matchStop : Request [("optype", .str "match_stop")]
  | roomList : Request roomListRequest

theorem request_onMatch (p : HallPage) : Request p.onMatch := by
  unfold onMatch
  split
  · exact .matchStop
  · exact .matchStart

/-- A page that goes elsewhere does not come back. -/
theorem onMessage_destination (h : (p.onMessage rsp).destination = none) : p.destination = none := by
  unfold onMessage at h
  split at h
  · cases h
  · split at h
    · exact h
    split at h
    · exact h
    split at h
    · exact h
    split at h
    · cases h
    split at h <;> exact h
  · exact h

theorem catchUp_destination (h : (p.catchUp infos).destination = none) : p.destination = none := by
  induction infos generalizing p with
  | nil => exact h
  | cons rsp infos ih => exact onMessage_destination (ih h)

theorem onRoom_destination (h : (p.onRoom i).destination = none) : p.onRoom i = p := by
  unfold onRoom at *
  split
  · rename_i r hr
    simp only [hr] at h
    cases h
  · rfl

theorem onMessage_matchSuccess (p : HallPage) (r : Room) :
    p.onMessage (matchSuccess r) = { p with destination := some .room } := rfl

end HallPage

/-! ### What the server does -/

namespace Server
variable {s s' : Server} {uid : Uid} {selectById : Uid → Option Members} {req : Members} {obs : List Obs} {resp : Members}

/-- What a request of the page does, with the record of its user found. -/
inductive HallStep (s : Server) (uid : Uid) : Members → Server → List Obs → Members → Prop
  | start {pool : Pool} : HallStep s uid [("optype", .str "match_start")] (s.push pool uid) [.pushed none pool uid]
      [("optype", .str "match_start"), ("result", .bool true)]
  | stop {pool : Pool} : HallStep s uid [("optype", .str "match_stop")] (s.remove pool uid) [.removed pool uid]
      [("optype", .str "match_stop"), ("result", .bool true)]
  | rooms {rooms : List Json} : HallStep s uid HallPage.roomListRequest s []
      [("optype", .str "room_list"), ("result", .bool true), ("rooms", .arr rooms)]

theorem hallStep (hreq : HallPage.Request req) (hfound : selectById uid ≠ none)
    (h : s.wsmsgGameHall selectById uid (some (.obj req)) = .ok (s', obs, resp)) : HallStep s uid req s' obs resp := by
  have hpool : poolOfUser selectById uid ≠ .ok none := fun hnone => hfound (poolOfUser_none hnone)
  cases hreq with
  | matchStart =>
    obtain ⟨⟨t, o⟩, hstart, h⟩ := ok_of_bind (x := s.matchStart selectById uid) h
    obtain ⟨pool?, hlook, hstart⟩ := ok_of_bind hstart
    cases pool? with
    | none => exact absurd hlook hpool
    | some pool =>
      cases hstart
      cases h
      exact .start
  | matchStop =>
    obtain ⟨⟨t, o⟩, hstop, h⟩ := ok_of_bind (x := s.matchStop selectById uid) h
    obtain ⟨pool?, hlook, hstop⟩ := ok_of_bind hstop
    cases pool? with
    | none => exact absurd hlook hpool
    | some pool =>
      cases hstop
      cases h
      exact .stop
  | roomList =>
    cases h
    exact .rooms

end Server

namespace Front
variable {f f' : Front} {out : List FrontObs} {conn : ConnId} {uid : Uid} {user : Option Uid} {closed : Bool} {req : Members}
  {body : Option Json} {selectById : Uid → Option Members} {now later : Int} {e : FrontEvent}

theorem hall_message (hconn : f.conns conn = some ⟨.hall, closed⟩) (hreq : HallPage.Request req) (hfound : selectById uid ≠ none)
    (h : machine.step f (.message conn (some uid) (some (.obj req)) selectById now later) = some (f', out)) :
    closed = false ∧ ∃ s obs resp, f.server.HallStep uid req s obs resp ∧ f' = { f with server := s } ∧
      out = obs.map .server ++ [.answer conn resp] := by
  cases closed with
  | true => simp [machine, hconn] at h
  | false =>
    simp only [machine, hconn] at h
    split at h
    · cases h
    · rename_i s out' hmsg
      obtain ⟨⟨s, obs, resp⟩, hhall, hout⟩ := ok_of_bind hmsg
      cases hout
      cases h
      exact ⟨rfl, s, obs, resp, Server.hallStep hreq hfound hhall, rfl, rfl⟩

/-- The queues and the match threads do not notice a message that does not come from the hall, and the answer to it goes
    where it came from. -/
theorem message_elsewhere (hhall : ∀ w, f.conns conn = some w → w.uri ≠ .hall)
    (h : machine.step f (.message conn user body selectById now later) = some (f', out)) :
    (f'.server.queues = f.server.queues ∧ f'.server.pcs = f.server.pcs) ∧
      ∀ o ∈ out, (∃ c, o = .server (.call c)) ∨ (∃ uid resp, o = .admitted conn uid resp) ∨ ∃ resp, o = .answer conn resp := by
  simp only [machine] at h
  split at h
  · cases h
    exact ⟨⟨rfl, rfl⟩, fun o ho => absurd ho List.not_mem_nil⟩
  · rename_i uri uid hconn
    split at h
    · cases h
    · rename_i s out' hmsg
      cases h
      cases uri with
      | hall => exact absurd rfl (hhall _ hconn)
      | room =>
        obtain ⟨x, -, hout⟩ := ok_of_bind hmsg
        cases hout
        refine ⟨⟨rfl, rfl⟩, fun o ho => ?_⟩
        obtain ⟨c, -, rfl⟩ := List.mem_map.mp ho
        exact Or.inl ⟨c, rfl⟩
      | spectate =>
        obtain ⟨⟨t, o⟩, hjoin, hout⟩ := ok_of_bind hmsg
        cases hout
        rcases Server.wsmsgSpectate_inv hjoin with ⟨rfl, resp, rfl⟩ | ⟨rid, r, resp, -, -, rfl, rfl⟩
        · exact ⟨⟨rfl, rfl⟩, fun o ho => Or.inr (Or.inr ⟨resp, List.mem_singleton.mp ho⟩)⟩
        · exact ⟨⟨rfl, rfl⟩, fun o ho => Or.inr (Or.inl ⟨uid, resp, List.mem_singleton.mp ho⟩)⟩
      | other =>
        cases hmsg
        exact ⟨⟨rfl, rfl⟩, fun o ho => absurd ho List.not_mem_nil⟩
  · cases h

end Front

/-! ### A step -/

/-- What a step of the lobby can be. -/
inductive LobbyStep (l : Lobby) : LobbyEvent → Lobby → List FrontObs → Prop
  | front {e : FrontEvent} {front : Front} {out : List FrontObs} : l.fromHall e = false →
      Front.machine.step l.front e = some (front, out) →
      LobbyStep l (.front e) (l.next e front out) out
  | sent {e : LobbyEvent} {conn : ConnId} {c : HallClient} {req : Members} :
      (e = .press conn ∧ req = c.page.onMatch ∨ e = .timer conn ∧ req = HallPage.roomListRequest) →
      l.pages conn = some c → LobbyStep l e (l.put conn { c with outbox := c.outbox ++ [req] }) []
  | chosen {conn : ConnId} {i : Nat} {c : HallClient} : l.pages conn = some c →
      LobbyStep l (.choose conn i) (l.put conn { c with page := c.page.onRoom i }) []
  | read {conn : ConnId} {c : HallClient} {rsp : Members} {rest : List Members} : l.pages conn = some c →
      c.inbox = rsp :: rest → LobbyStep l (.read conn) (l.put conn { c with page := c.page.onMessage rsp, inbox := rest }) []
  | served {conn : ConnId} {c : HallClient} {req : Members} {rest : List Members} {uid : Uid}
      {selectById : Uid → Option Members} {now later : Int} {e : FrontEvent} {front : Front} {out : List FrontObs} :
      l.pages conn = some c → c.outbox = req :: rest → c.user = some uid →
      e = .message conn (some uid) (some (.obj req)) selectById now later → Front.machine.step l.front e = some (front, out) →
      LobbyStep l (.serve conn selectById now later) ((l.put conn { c with outbox := rest }).next e front out) out
  | rejected {conn : ConnId} {reason : String} {c : HallClient} {req : Members} {rest : List Members} :
      l.pages conn = some c → c.outbox = req :: rest →
      LobbyStep l (.reject conn reason)
        (l.put conn { c with inbox := c.inbox ++ [refuse "hall_ready" reason], outbox := rest }) []

namespace Lobby
variable {l l' : Lobby} {e : LobbyEvent} {out : List FrontObs} {conn conn' : ConnId} {c c' : HallClient} {uid uid1 uid2 : Uid}
  {k : Pool} {front : Front} {ts : List LobbyTrans}

theorem step_inv (h : machine.step l e = some (l', out)) : LobbyStep l e l' out := by
  cases e with
  | front e =>
    simp only [machine] at h
    split at h
    · cases h
    split at h
    · cases h
    · rename_i hfrom _ _ _ hs
      cases h
      exact .front (Bool.eq_false_iff.mpr hfrom) hs
  | press conn =>
    simp only [machine] at h
    split at h
    · split at h <;> cases h
      exact .sent (Or.inl ⟨rfl, rfl⟩) ‹_›
    · cases h
  | timer conn =>
    simp only [machine] at h
    split at h
    · split at h <;> cases h
      exact .sent (Or.inr ⟨rfl, rfl⟩) ‹_›
    · cases h
  | choose conn i =>
    simp only [machine] at h
    split at h
    · split at h <;> cases h
      exact .chosen ‹_›
    · cases h
  | read conn =>
    simp only [machine] at h
    split at h
    · split at h
      · cases h
      · split at h <;> cases h
        exact .read ‹_› ‹_›
    · cases h
  | serve conn selectById now later =>
    simp only [machine] at h
    split at h
    · split at h
      · cases h
      · split at h
        · cases h
        · split at h
          · cases h
          · rename_i hpage _ _ _ hout _ _ huser _ _ _ hs
            cases h
            exact .served hpage hout huser rfl hs
    · cases h
  | reject conn reason =>
    simp only [machine] at h
    split at h
    · split at h <;> cases h
      exact .rejected ‹_› ‹_›
    · cases h

end Lobby

/-! ### Waiting -/

/-- Where a match thread has the connection of a user whom it holds among those that it has looked up, if it is past that. -/
def Pc.Tells (uid : Uid) (conn : ConnId) (conns : List ConnId) : Pc → Prop
  | conn2 uid1 _ => uid1 = uid → conn ∈ conns
  | hall1 _ _ | hall2 _ _ | create _ _ => conn ∈ conns
  | size | wait | pop1 | pop2 _ | conn1 _ _ | add _ _ => True

theorem Pc.tells_afterAdd (uid : Uid) (conn : ConnId) (conns : List ConnId) (rest : List Uid) :
    (Pc.afterAdd rest).Tells uid conn conns := by
  cases rest <;> trivial

namespace Server
variable {s s' : Server} {k k' : Pool} {conn : ConnId} {conns : List ConnId} {uid uid' : Uid} {fetched : Pool → List ConnId}
  {out : List Obs} {now : Int} {selectById : Uid → Option Members}

/-- The user is in a queue, or a match thread holds the user, and will tell the connection if it seats the user. -/
def Waits (s : Server) (fetched : Pool → List ConnId) (conn : ConnId) (uid : Uid) : Prop :=
  ∃ k, uid ∈ s.queues k ∨ uid ∈ s.hands k ∧ (s.pcs k).Tells uid conn (fetched k)

theorem mem_getConnFromGameHall :
    conn ∈ (s.om.getConnFromGameHall s.isOpen uid).toList ↔ s.om.gameHall uid = some conn ∧ s.isOpen conn = true := by
  simp [OnlineManager.getConnFromGameHall, Option.filter_eq_some_iff]

theorem ThreadStep.pcs_ne (hs : ThreadStep s k selectById now s' out) (hne : k' ≠ k) : s'.pcs k' = s.pcs k' := by
  cases hs <;> exact goto_pcs_ne hne

theorem ThreadStep.created_own {r : Room} (hs : ThreadStep s k selectById now s' out) (h : Obs.created k' r ∈ out) : k' = k := by
  cases hs with
  | create =>
    cases List.mem_singleton.mp h
    rfl
  | round | pop1 | pop2 | gone1 | gone2 | left1 | left2 | back => cases List.mem_singleton.mp h
  | few | wake | nobody | alone | conn1 | conn2 | hall1 | hall2 | lost => cases h

/-- A queue loses users to its own match thread only. -/
theorem ThreadStep.queue_ne (hs : ThreadStep s k selectById now s' out) (hne : k' ≠ k) (hmem : uid ∈ s.queues k') :
    uid ∈ s'.queues k' := by
  cases hs with
  | pop1 | pop2 =>
    rw [goto_queues, setQueue_queues_ne hne]
    exact hmem
  | back =>
    rw [goto_queues, push_queues]
    split
    · exact List.mem_append_left _ hmem
    · exact hmem
  | few | round | wake | nobody | alone | conn1 | gone1 | conn2 | gone2 | hall1 | left1 | hall2 | left2 | create | lost =>
    exact hmem

/-- A match thread takes a user out of its queue into its hands. -/
theorem ThreadStep.queue_own (hs : ThreadStep s k selectById now s' out) (hmem : uid ∈ s.queues k) :
    uid ∈ s'.queues k ∨ uid ∈ s'.hands k ∧ ∀ conn conns, (s'.pcs k).Tells uid conn conns := by
  cases hs with
  | @pop1 uid1 q _ hq =>
    rw [hq] at hmem
    rcases List.mem_cons.mp hmem with rfl | hmem
    · exact Or.inr ⟨by simp [Pc.hands], fun _ _ => by rw [goto_pcs_self]; trivial⟩
    · exact Or.inl (by simpa using hmem)
  | @pop2 uid1 uid2 q _ hq =>
    rw [hq] at hmem
    rcases List.mem_cons.mp hmem with rfl | hmem
    · exact Or.inr ⟨by simp [Pc.hands], fun _ _ => by rw [goto_pcs_self]; trivial⟩
    · exact Or.inl (by simpa using hmem)
  | back =>
    refine Or.inl ?_
    rw [goto_queues, push_queues]
    split
    · exact List.mem_append_left _ hmem
    · exact hmem
  | few | round | wake | nobody | alone | conn1 | gone1 | conn2 | gone2 | hall1 | left1 | hall2 | left2 | create | lost =>
    exact Or.inl hmem

/-- Whom a match thread holds, it holds on to, puts back, or seats and tells: a user in the hall is not taken for absent. -/
theorem ThreadStep.held (hs : ThreadStep s k selectById now s' out) (hfinds : ∀ uid, selectById uid ≠ none)
    (hentry : s.om.gameHall uid = some conn) (hopen : s.isOpen conn = true) (hheld : uid ∈ s.hands k)
    (htells : (s.pcs k).Tells uid conn conns) :
    (∃ pool, uid ∈ s'.queues pool) ∨ (uid ∈ s'.hands k ∧ (s'.pcs k).Tells uid conn (s.fetch k conns)) ∨
      ∃ r, out = [.created k r] ∧ conn ∈ s.fetch k conns := by
  have hin : s.inGameHall uid = true := by simp [inGameHall, OnlineManager.inGameHall, hentry, OnlineManager.connIsOnline, hopen]
  have hlook := mem_getConnFromGameHall.mpr ⟨hentry, hopen⟩
  unfold hands at hheld ⊢
  cases hs with
  | few hpc | round hpc | wake hpc | nobody hpc | pop1 hpc => simp [hpc, Pc.hands] at hheld
  | alone hpc => exact Or.inr (Or.inl ⟨by simpa [hpc, Pc.hands] using hheld, by rw [goto_pcs_self]; trivial⟩)
  | pop2 hpc =>
    refine Or.inr (Or.inl ⟨?_, by rw [goto_pcs_self]; trivial⟩)
    simp only [hpc, Pc.hands, List.mem_singleton] at hheld
    simp [Pc.hands, hheld]
  | conn1 hpc =>
    refine Or.inr (Or.inl ⟨by simpa [hpc, Pc.hands] using hheld, ?_⟩)
    rw [goto_pcs_self]
    rintro rfl
    simp only [fetch, hpc]
    exact hlook
  | @gone1 uid1 uid2 hpc hout =>
    refine Or.inr (Or.inl ⟨?_, by rw [goto_pcs_self]; trivial⟩)
    rw [hpc] at hheld
    rcases List.mem_cons.mp hheld with rfl | hheld
    · cases hin.symm.trans hout
    · simpa [Pc.hands] using hheld
  | @conn2 uid1 uid2 hpc =>
    refine Or.inr (Or.inl ⟨by simpa [hpc, Pc.hands] using hheld, ?_⟩)
    rw [goto_pcs_self]
    simp only [fetch, hpc]
    rw [hpc] at hheld htells
    rcases List.mem_cons.mp hheld with rfl | hheld
    · exact List.mem_append_left _ (htells rfl)
    · obtain rfl := List.mem_singleton.mp hheld
      exact List.mem_append_right _ hlook
  | @gone2 uid1 uid2 hpc hout =>
    refine Or.inr (Or.inl ⟨?_, by rw [goto_pcs_self]; trivial⟩)
    rw [hpc] at hheld
    rcases List.mem_cons.mp hheld with rfl | hheld
    · simp [Pc.hands]
    · obtain rfl := List.mem_singleton.mp hheld
      cases hin.symm.trans hout
  | hall1 hpc | hall2 hpc =>
    refine Or.inr (Or.inl ⟨by simpa [hpc, Pc.hands] using hheld, ?_⟩)
    rw [goto_pcs_self]
    simp only [fetch, hpc]
    rwa [hpc] at htells
  | left1 hpc | left2 hpc =>
    exact Or.inr (Or.inl ⟨by simpa [hpc, Pc.hands] using hheld, by rw [goto_pcs_self]; trivial⟩)
  | create hpc =>
    refine Or.inr (Or.inr ⟨_, rfl, ?_⟩)
    simp only [fetch, hpc]
    rwa [hpc] at htells
  | lost _ hnone => exact absurd (poolOfUser_none hnone) (hfinds _)
  | @back uid' rest pool hpc =>
    rw [hpc] at hheld
    rcases List.mem_cons.mp hheld with rfl | hheld
    · exact Or.inl ⟨pool, by simp [push_queues]⟩
    · refine Or.inr (Or.inl ⟨by simpa using hheld, ?_⟩)
      rw [goto_pcs_self]
      exact Pc.tells_afterAdd ..

/-- A step of a match thread leaves a user in the hall waiting, or it seats the user and tells the connection. -/
theorem ThreadStep.waits (hs : ThreadStep s k selectById now s' out) (hfinds : ∀ uid, selectById uid ≠ none)
    (hentry : s.om.gameHall uid = some conn) (hopen : s.isOpen conn = true) (hwaits : s.Waits fetched conn uid) :
    s'.Waits (Function.update fetched k (s.fetch k (fetched k))) conn uid ∨
      ∃ r, out = [.created k r] ∧ conn ∈ s.fetch k (fetched k) := by
  obtain ⟨k', hqueue | ⟨hheld, htells⟩⟩ := hwaits <;> by_cases hk : k' = k
  · subst hk
    rcases hs.queue_own hqueue with hqueue | ⟨hheld, htells⟩
    · exact Or.inl ⟨k', Or.inl hqueue⟩
    · exact Or.inl ⟨k', Or.inr ⟨hheld, htells _ _⟩⟩
  · exact Or.inl ⟨k', Or.inl (hs.queue_ne hk hqueue)⟩
  · subst hk
    rcases hs.held hfinds hentry hopen hheld htells with ⟨pool, hqueue⟩ | ⟨hheld, htells⟩ | hseated
    · exact Or.inl ⟨pool, Or.inl hqueue⟩
    · exact Or.inl ⟨k', Or.inr ⟨hheld, by rwa [Function.update_self]⟩⟩
    · exact Or.inr hseated
  · refine Or.inl ⟨k', Or.inr ⟨?_, ?_⟩⟩
    · rwa [hands, hs.pcs_ne hk]
    · rwa [hs.pcs_ne hk, Function.update_of_ne hk]

end Server

namespace Server.HallStep
variable {s s' : Server} {conn : ConnId} {uid uid' : Uid} {fetched : Pool → List ConnId} {req resp : Members} {obs : List Obs}
  {p : HallPage}

theorem frame (hs : s.HallStep uid' req s' obs resp) : ∃ queues, s' = { s with queues } := by
  cases hs <;> exact ⟨_, rfl⟩

theorem waits_other (hs : s.HallStep uid' req s' obs resp) (hne : uid ≠ uid') (hwaits : s.Waits fetched conn uid) :
    s'.Waits fetched conn uid := by
  obtain ⟨k, hqueue | hheld⟩ := hwaits
  · refine ⟨k, Or.inl ?_⟩
    cases hs with
    | start =>
      rw [push_queues]
      split
      · exact List.mem_append_left _ hqueue
      · exact hqueue
    | stop =>
      rw [remove_queues]
      split
      · exact List.mem_filter.mpr ⟨hqueue, by simpa using hne⟩
      · exact hqueue
    | rooms => exact hqueue
  · refine ⟨k, Or.inr ?_⟩
    cases hs <;> exact hheld

/-- A page that says that its user is being matched, after the answer to its request, has it from this answer or from before. -/
theorem waits_own (hs : s.HallStep uid req s' obs resp) (hmatching : (p.onMessage resp).matching = true)
    (hwaits : p.matching = true → s.Waits fetched conn uid) : s'.Waits fetched conn uid := by
  cases hs with
  | @start pool => exact ⟨pool, Or.inl (by simp [push_queues])⟩
  | stop => cases hmatching
  | rooms => exact hwaits hmatching

end Server.HallStep

namespace Lobby
variable {l l' : Lobby} {e : LobbyEvent} {fe : FrontEvent} {out : List FrontObs} {conn conn' : ConnId} {c c' : HallClient}
  {uid : Uid} {user : Option Uid} {k : Pool} {front : Front} {ts : List LobbyTrans}

/-! ### The pages -/

theorem put_pages : (l.put conn c).pages conn' = if conn' = conn then some c else l.pages conn' := by
  by_cases h : conn' = conn
  · subst h
    simp [put]
  · simp [put, h]

theorem put_pages_inv {d : HallClient} (h : (l.put conn c').pages conn' = some d) :
    conn' = conn ∧ d = c' ∨ conn' ≠ conn ∧ l.pages conn' = some d := by
  rw [put_pages] at h
  split at h
  · exact Or.inl ⟨‹_›, (Option.some.inj h).symm⟩
  · exact Or.inr ⟨‹_›, h⟩

theorem put_page {d : HallClient} (h : (l.put conn c').pages conn' = some d) (hpage : l.pages conn = some c)
    (huser : c.user = c'.user) : ∃ c₀, l.pages conn' = some c₀ ∧ c₀.user = d.user := by
  rcases put_pages_inv h with ⟨rfl, rfl⟩ | ⟨-, h⟩
  · exact ⟨c, hpage, huser⟩
  · exact ⟨d, h, rfl⟩

/-- The page of a new connection of the hall. -/
def newPage (user : Option Uid) : HallClient :=
  ⟨.opened, user, if user = none then [refuse "hall_ready" "没有找到cookie信息,需要重新登录"] else [], []⟩

theorem arrange_pages (h : (l.arrange fe).pages conn = some c) :
    l.pages conn = some c ∨ ∃ user selectById, fe = .opened conn .hall user selectById ∧ c = newPage user := by
  cases fe with
  | opened conn' uri user selectById =>
    cases uri with
    | hall =>
      rcases put_pages_inv h with ⟨rfl, rfl⟩ | ⟨-, h⟩
      · exact Or.inr ⟨user, selectById, rfl, rfl⟩
      · exact Or.inl h
    | room | spectate | other => exact Or.inl h
  | turn | message | closed | drop => exact Or.inl h

/-- A page after a step of the server is an old one, or that of a new connection, with what it has been sent. -/
theorem next_pages (h : (l.next fe front out).pages conn = some c) :
    ∃ c₀, c = { c₀ with inbox := c₀.inbox ++ (l.next fe front out).sentTo out conn } ∧
      (l.pages conn = some c₀ ∨ ∃ user selectById, fe = .opened conn .hall user selectById ∧ c₀ = newPage user) := by
  obtain ⟨c₀, hpage, rfl⟩ := Option.map_eq_some_iff.mp h
  exact ⟨c₀, rfl, arrange_pages hpage⟩

/-! ### Who the pages are -/

/-- The connection is that of a page of the user. -/
def Owns (l : Lobby) (conn : ConnId) (uid : Uid) : Prop := ∃ c, l.pages conn = some c ∧ c.user = some uid

theorem put_owns (hpage : l.pages conn = some c) (huser : c'.user = c.user) (ho : l.Owns conn' uid) :
    (l.put conn c').Owns conn' uid := by
  obtain ⟨d, hd, hsame⟩ := ho
  unfold Owns
  rw [put_pages]
  split
  · rename_i heq
    subst heq
    cases hpage.symm.trans hd
    exact ⟨c', rfl, huser.trans hsame⟩
  · exact ⟨d, hd, hsame⟩

/-- The pages of the hall and their connections. -/
structure Sound (l : Lobby) : Prop where
  consistent : l.front.server.rm.Consistent
  hall : ∀ {conn c}, l.pages conn = some c → ∃ closed, l.front.conns conn = some ⟨.hall, closed⟩
  shut : ∀ {conn uri}, l.front.conns conn = some ⟨uri, true⟩ → l.front.server.isOpen conn = false
  owner : ∀ {conn uid}, l.front.server.om.gameHall uid = some conn → l.Owns conn uid
  requests : ∀ {conn c req}, l.pages conn = some c → req ∈ c.outbox → HallPage.Request req

theorem sound_start : start.Sound :=
  ⟨RoomManager.consistent_empty, nofun, nofun, nofun, nofun⟩

theorem Sound.put (hi : l.Sound) (hpage : l.pages conn = some c) (huser : c'.user = c.user)
    (hreq : ∀ req ∈ c'.outbox, HallPage.Request req) : (l.put conn c').Sound where
  consistent := hi.consistent
  hall hpage' := by
    obtain ⟨c₀, hpage₀, -⟩ := put_page hpage' hpage huser.symm
    exact hi.hall hpage₀
  shut := hi.shut
  owner hentry := put_owns hpage huser (hi.owner hentry)
  requests hpage' hmem := by
    rcases put_pages_inv hpage' with ⟨-, rfl⟩ | ⟨-, hpage'⟩
    · exact hreq _ hmem
    · exact hi.requests hpage' hmem

theorem next_hasPage (h : l.pages conn = some c) (hnew : ∀ uri user selectById, fe ≠ .opened conn uri user selectById) :
    ∃ d, (l.next fe front out).pages conn = some d ∧ d.user = c.user := by
  have harrange : (l.arrange fe).pages conn = some c := by
    cases fe with
    | opened conn' uri user selectById =>
      have hne : conn ≠ conn' := fun heq => hnew uri user selectById (heq ▸ rfl)
      cases uri with
      | hall => exact put_pages.trans ((if_neg hne).trans h)
      | room | spectate | other => exact h
    | turn | message | closed | drop => exact h
  exact ⟨_, Option.map_eq_some_iff.mpr ⟨c, harrange, rfl⟩, rfl⟩

/-- A connection with a page does not open again. -/
theorem Sound.not_opens (hi : l.Sound) (hs : Front.machine.step l.front fe = some (front, out)) (hpage : l.pages conn = some c) :
    ∀ uri user selectById, fe ≠ .opened conn uri user selectById := by
  rintro uri user selectById rfl
  obtain ⟨closed, hconn⟩ := hi.hall hpage
  cases (Front.step_inv hs).doors with
  | opened hnew => cases hnew.symm.trans hconn

theorem Sound.next_owns (hi : l.Sound) (hs : Front.machine.step l.front fe = some (front, out)) (ho : l.Owns conn uid) :
    (l.next fe front out).Owns conn uid := by
  obtain ⟨c, hpage, huser⟩ := ho
  obtain ⟨d, hd, hsame⟩ := next_hasPage hpage (hi.not_opens hs hpage)
  exact ⟨d, hd, hsame.trans huser⟩

theorem Sound.next (hi : l.Sound) (hs : Front.machine.step l.front fe = some (front, out)) : (l.next fe front out).Sound := by
  have hstep := Front.step_inv hs
  refine ⟨hstep.consistent hi.consistent, ?_, ?_, ?_, ?_⟩
  · intro conn c hpage
    obtain ⟨c₀, -, hpage | ⟨user, selectById, rfl, -⟩⟩ := next_pages hpage
    · obtain ⟨closed, hconn⟩ := hi.hall hpage
      exact hstep.conns hconn
    · cases hstep.doors with
      | opened _ hconns => exact ⟨false, (congrFun hconns _).trans Dict.assign_self⟩
  · exact hstep.doors.stays_shut fun _ _ => hi.shut
  · intro conn uid hentry
    rcases hstep.entry hi.consistent (t := .hall) hentry with hentry | ⟨⟨resp, hadm⟩, hconn⟩
    · exact hi.next_owns hs (hi.owner hentry)
    · obtain ⟨selectById, rfl⟩ := hstep.admitted_hall hadm hconn
      exact ⟨_, Option.map_eq_some_iff.mpr ⟨newPage (some uid), put_pages.trans (if_pos rfl), rfl⟩, rfl⟩
  · intro conn c req hpage hmem
    obtain ⟨c₀, rfl, hpage | ⟨user, selectById, -, rfl⟩⟩ := next_pages hpage
    · exact hi.requests hpage hmem
    · cases hmem

theorem Sound.step (hi : l.Sound) (hs : LobbyStep l e l' out) : l'.Sound := by
  cases hs with
  | front _ hs => exact hi.next hs
  | sent hreq hpage =>
    refine hi.put hpage rfl fun req hmem => ?_
    rcases List.mem_append.mp hmem with hmem | hmem
    · exact hi.requests hpage hmem
    · obtain rfl := List.mem_singleton.mp hmem
      rcases hreq with ⟨-, rfl⟩ | ⟨-, rfl⟩
      · exact HallPage.request_onMatch _
      · exact .roomList
  | chosen hpage | read hpage => exact hi.put hpage rfl fun req hmem => hi.requests hpage hmem
  | served hpage hout _ _ hs =>
    refine Sound.next (hi.put hpage rfl fun req hmem => hi.requests hpage ?_) hs
    rw [hout]
    exact List.mem_cons_of_mem _ hmem
  | rejected hpage hout =>
    refine hi.put hpage rfl fun req hmem => hi.requests hpage ?_
    rw [hout]
    exact List.mem_cons_of_mem _ hmem

/-- A page is that of an old connection with the same user, or that of a connection that opens. -/
theorem step_page (hs : LobbyStep l e l' out) (hpage : l'.pages conn = some c) :
    (∃ c₀, l.pages conn = some c₀ ∧ c₀.user = c.user) ∨ ∃ selectById, e = .front (.opened conn .hall c.user selectById) := by
  have hnext : ∀ {l : Lobby} {fe front}, (l.next fe front out).pages conn = some c →
      (∃ c₀, l.pages conn = some c₀ ∧ c₀.user = c.user) ∨ ∃ selectById, fe = .opened conn .hall c.user selectById := by
    intro l fe front hpage
    obtain ⟨c₀, rfl, hpage | ⟨user, selectById, rfl, rfl⟩⟩ := next_pages hpage
    · exact Or.inl ⟨c₀, hpage, rfl⟩
    · exact Or.inr ⟨selectById, rfl⟩
  cases hs with
  | front => exact (hnext hpage).imp_right fun ⟨selectById, heq⟩ => ⟨selectById, heq ▸ rfl⟩
  | sent _ hold | chosen hold | read hold | rejected hold => exact Or.inl (put_page hpage hold rfl)
  | served hold _ _ heq =>
    subst heq
    rcases hnext hpage with ⟨c₀, hpage, huser⟩ | ⟨_, heq⟩
    · obtain ⟨c₁, hpage, huser'⟩ := put_page hpage hold rfl
      exact Or.inl ⟨c₁, hpage, huser'.trans huser⟩
    · cases heq

theorem step_doors (hs : LobbyStep l e l' out) : l'.front = l.front ∨ ∃ fe, Doors l.front l'.front fe := by
  cases hs with
  | front _ hs | served _ _ _ _ hs => exact Or.inr ⟨_, (Front.step_inv hs).doors⟩
  | sent | chosen | read | rejected => exact Or.inl rfl

end Lobby

/-- A page of the hall that opens, with its user. -/
def LobbyEvent.opens : LobbyEvent → Option (ConnId × Uid)
  | front (.opened conn .hall (some uid) _) => some (conn, uid)
  | front _ | press _ | timer _ | choose .. | read _ | serve .. | reject .. => none

/-- A connection whose close callback runs. -/
def LobbyEvent.closes : LobbyEvent → Option ConnId
  | front (.closed conn _) => some conn
  | front _ | press _ | timer _ | choose .. | read _ | serve .. | reject .. => none

/-- Whoever is looked up, there is a record. -/
def LobbyEvent.Finds : LobbyEvent → Prop
  | front (.turn _ selectById _) | serve _ selectById .. => ∀ uid, selectById uid ≠ none
  | front _ | press _ | timer _ | choose .. | read _ | reject .. => True

namespace Lobby
variable {l l' : Lobby} {e : LobbyEvent} {fe : FrontEvent} {out : List FrontObs} {conn conn' : ConnId} {c c' : HallClient}
  {rsp : Members} {uid : Uid} {user : Option Uid} {k : Pool} {front : Front} {ts us : List LobbyTrans} {s : Server}
  {obs : List Obs} {selectById : Uid → Option Members} {now : Int}

/-- A user opens a page of the hall when the pages of the hall that the user had are closed. -/
def OnePage (us : List LobbyTrans) (x : LobbyTrans) : Prop :=
  ∀ p ∈ x.event.opens, ∀ q ∈ us.filterMap fun y => y.event.opens, q.2 = p.2 → some q.1 ∈ us.map fun y => y.event.closes

/-! ### What the pages say -/

/-- The user is in the hall with this connection. -/
def Here (l : Lobby) (conn : ConnId) (uid : Uid) : Prop :=
  l.front.server.om.gameHall uid = some conn ∧ l.front.server.isOpen conn = true

/-- The page stays in the hall and says that its user is being matched, once it has read everything. -/
def SaysMatching (c : HallClient) : Prop :=
  (c.page.catchUp c.inbox).destination = none ∧ (c.page.catchUp c.inbox).matching = true

/-- No page says that its user is being matched, when its user does not wait. -/
def Truthful (l : Lobby) : Prop := ∀ conn c uid, l.pages conn = some c → c.user = some uid → l.Here conn uid → SaysMatching c →
  l.front.server.Waits l.fetched conn uid

/-- A user has one page of the hall at a time. -/
def Solo (l : Lobby) : Prop := ∀ conn conn' c c' uid, l.pages conn = some c → l.pages conn' = some c' → c.user = some uid →
  c'.user = some uid → l.front.conns conn = some ⟨.hall, false⟩ → l.front.conns conn' = some ⟨.hall, false⟩ → conn = conn'

theorem sentTo_nil (h : ∀ o ∈ out, ∀ x ∈ l.sends o, x.1 ≠ conn) : l.sentTo out conn = [] := by
  unfold sentTo
  split
  · refine List.filterMap_eq_nil_iff.mpr fun x hx => ?_
    obtain ⟨o, ho, hx⟩ := List.mem_flatMap.mp hx
    exact if_neg (h o ho x hx)
  · rfl

theorem mem_sentTo {o : FrontObs} (hopen : l.front.server.isOpen conn = true) (ho : o ∈ out) (h : (conn, rsp) ∈ l.sends o) :
    rsp ∈ l.sentTo out conn := by
  unfold sentTo
  rw [if_pos hopen]
  exact List.mem_filterMap.mpr ⟨(conn, rsp), List.mem_flatMap.mpr ⟨o, ho, h⟩, if_pos rfl⟩

theorem exists_of_sentTo (h : rsp ∈ l.sentTo out conn) : ∃ o ∈ out, (conn, rsp) ∈ l.sends o := by
  unfold sentTo at h
  split at h
  · obtain ⟨x, hx, heq⟩ := List.mem_filterMap.mp h
    obtain ⟨o, ho, hx⟩ := List.mem_flatMap.mp hx
    split at heq
    · rename_i hconn
      cases heq
      exact ⟨o, ho, hconn ▸ hx⟩
    · cases heq
  · cases h

theorem sentTo_single {o : FrontObs} (h : l.sends o = [(conn, rsp)]) :
    l.sentTo [o] conn = if l.front.server.isOpen conn then [rsp] else [] := by
  simp [sentTo, h]

theorem not_says_of_gone (h : (c.page.catchUp c.inbox).destination ≠ none) : ¬SaysMatching c := fun hclaim => h hclaim.1

/-- A page that has been told to go into a room does not stay in the hall. -/
theorem not_says_of_success {r : Room} (h : matchSuccess r ∈ c.inbox) : ¬SaysMatching c := by
  obtain ⟨infos, infos', heq⟩ := List.append_of_mem h
  refine not_says_of_gone fun hnone => ?_
  rw [heq, HallPage.catchUp_append, HallPage.catchUp_cons, HallPage.onMessage_matchSuccess] at hnone
  cases HallPage.catchUp_destination hnone

theorem sentTo_hall {s s' : Server} {req resp : Members} (hs : s.HallStep uid req s' obs resp) :
    l.sentTo (obs.map .server ++ [.answer conn resp]) conn' =
      if conn' = conn ∧ l.front.server.isOpen conn' then [resp] else [] := by
  by_cases heq : conn' = conn
  · subst heq
    cases hs <;> simp [sentTo, sends]
  · cases hs <;> simp [sentTo, sends, heq, Ne.symm heq]

theorem Truthful.put (ht : l.Truthful) (hpage : l.pages conn = some c) (huser : c'.user = c.user)
    (hclaim : SaysMatching c' → SaysMatching c) : (l.put conn c').Truthful := by
  intro conn' d uid hpage' huid hhere hd
  rcases put_pages_inv hpage' with ⟨rfl, rfl⟩ | ⟨-, hpage'⟩
  · exact ht _ c uid hpage (huser ▸ huid) hhere (hclaim hd)
  · exact ht _ d uid hpage' huid hhere hd

theorem Solo.put (hi : l.Solo) (hpage : l.pages conn = some c) (huser : c'.user = c.user) : (l.put conn c').Solo := by
  intro conn₁ conn₂ c₁ c₂ uid hpage₁ hpage₂ huser₁ huser₂ hconn₁ hconn₂
  obtain ⟨d₁, hold₁, hsame₁⟩ := put_page hpage₁ hpage huser.symm
  obtain ⟨d₂, hold₂, hsame₂⟩ := put_page hpage₂ hpage huser.symm
  exact hi conn₁ conn₂ d₁ d₂ uid hold₁ hold₂ (hsame₁.trans huser₁) (hsame₂.trans huser₂) hconn₁ hconn₂

theorem opened_hall (hs : Front.machine.step l.front (.opened conn .hall (some uid) selectById) = some (front, out)) :
    out = [.refused conn uid (refuse "hall_ready" "玩家重复登录！")] ∨
      out = [.admitted conn uid [("optype", .str "hall_ready"), ("result", .bool true)]] := by
  simp only [Front.machine] at hs
  split at hs
  · cases hs
  · cases hs
    simp only [Front.onOpen, Server.hallReady]
    split
    · exact Or.inl rfl
    · exact Or.inr rfl

/-- A new page has nothing to say. -/
theorem newPage_silent (hs : Front.machine.step l.front (.opened conn .hall user selectById) = some (front, out)) :
    ¬SaysMatching { newPage user with inbox := (newPage user).inbox ++ l'.sentTo out conn } := by
  cases user with
  | none =>
    refine not_says_of_gone fun hnone => ?_
    cases HallPage.catchUp_destination (p := HallPage.opened.onMessage (refuse "hall_ready" "没有找到cookie信息,需要重新登录")) hnone
  | some uid =>
    rintro ⟨-, hmatching⟩
    rcases opened_hall hs with rfl | rfl <;>
    · rw [sentTo_single rfl] at hmatching
      split at hmatching <;> cases hmatching

/-- What a step of the server leaves of an old page: its connection is no new one, and its user was in the hall with it. -/
theorem Sound.next_here (hi : l.Sound) (hs : Front.machine.step l.front fe = some (front, out)) (hpage : l.pages conn = some c)
    (hhere : (l.next fe front out).Here conn uid) : l.Here conn uid := by
  obtain ⟨closed, hconn⟩ := hi.hall hpage
  have hstep := Front.step_inv hs
  constructor
  · rcases hstep.entry hi.consistent (t := .hall) hhere.1 with hentry | ⟨⟨resp, hadm⟩, hconn'⟩
    · exact hentry
    · obtain ⟨selectById, heq⟩ := hstep.admitted_hall hadm hconn'
      exact absurd heq (hi.not_opens hs hpage _ _ _)
  · rcases hstep.doors.wasOpen hhere.2 with hnew | hopen
    · cases hnew.symm.trans hconn
    · exact hopen

theorem truthful_turn (hi : l.Sound) (ht : l.Truthful) (hfinds : ∀ uid, selectById uid ≠ none)
    (hs : Front.machine.step l.front (.turn k selectById now) = some (front, out)) :
    (l.next (.turn k selectById now) front out).Truthful := by
  intro conn c uid hpage huser hhere hclaim
  obtain ⟨c₀, rfl, hpage₀ | ⟨_, _, heq, -⟩⟩ := next_pages hpage
  swap
  · cases heq
  have hhere₀ := hi.next_here hs hpage₀ hhere
  simp only [Front.machine] at hs
  split at hs
  · cases hs
  · rename_i s obs hturn
    cases hs
    have hthread := Server.threadStep hturn
    by_cases hcreated : ∃ r, Obs.created k r ∈ obs ∧ conn ∈ l.front.server.fetch k (l.fetched k)
    · obtain ⟨r, hmem, hconn⟩ := hcreated
      refine absurd hclaim (not_says_of_success (r := r) (List.mem_append_right _ ?_))
      refine mem_sentTo hhere.2 (List.mem_map_of_mem hmem) (List.mem_map.mpr ⟨conn, ?_, rfl⟩)
      simpa [next, deliver, arrange] using hconn
    · have hquiet : (l.next (.turn k selectById now) { l.front with server := s } (obs.map .server)).sentTo
          (obs.map .server) conn = [] := by
        refine sentTo_nil ?_
        rintro o ho ⟨conn', rsp⟩ hx rfl
        obtain ⟨x, hmem, rfl⟩ := List.mem_map.mp ho
        cases x with
        | created k' r =>
          obtain rfl := hthread.created_own hmem
          obtain ⟨conn'', hconn, heq⟩ := List.mem_map.mp hx
          cases heq
          exact hcreated ⟨r, hmem, by simpa [next, deliver, arrange] using hconn⟩
        | round | popped | absent | pushed | removed | call => cases hx
      rw [hquiet, List.append_nil] at hclaim
      rcases hthread.waits hfinds hhere₀.1 hhere₀.2 (ht conn c₀ uid hpage₀ huser hhere₀ hclaim) with hwaits | ⟨r, rfl, hconn⟩
      · exact hwaits
      · exact absurd ⟨r, List.mem_singleton_self _, hconn⟩ hcreated

/-- An event that is neither a step of a match thread nor a message from the hall. -/
theorem elsewhere (hfrom : l.fromHall fe = false) (hfe : ∀ k selectById now, fe ≠ .turn k selectById now)
    (hs : Front.machine.step l.front fe = some (front, out)) :
    (front.server.queues = l.front.server.queues ∧ front.server.pcs = l.front.server.pcs) ∧
      ∀ (l' : Lobby), ∀ o ∈ out, ∀ x ∈ l'.sends o, ∀ w, l.front.conns x.1 = some w → w.uri ≠ .hall := by
  cases fe with
  | turn k selectById now => exact absurd rfl (hfe k selectById now)
  | message conn user body selectById now later =>
    have hhall : ∀ w, l.front.conns conn = some w → w.uri ≠ .hall := fun w hw => by simpa [fromHall, hw] using hfrom
    obtain ⟨hsame, hout⟩ := Front.message_elsewhere hhall hs
    refine ⟨hsame, fun l' o ho x hx => ?_⟩
    rcases hout o ho with ⟨c, rfl⟩ | ⟨uid, resp, rfl⟩ | ⟨resp, rfl⟩
    · cases hx
    · obtain rfl := List.mem_singleton.mp hx
      exact hhall
    · obtain rfl := List.mem_singleton.mp hx
      exact hhall
  | opened conn uri user selectById =>
    cases Front.step_inv hs with
    | entered => exact ⟨⟨rfl, rfl⟩, nofun⟩
    | twice hnew | roomless hnew | hall hnew | room hnew =>
      refine ⟨⟨rfl, rfl⟩, fun l' o ho x hx w hw => ?_⟩
      obtain rfl := List.mem_singleton.mp ho
      obtain rfl := List.mem_singleton.mp hx
      cases hnew.symm.trans hw
  | closed conn user =>
    cases Front.step_inv hs with
    | left | leftHall | leftSpectate => exact ⟨⟨rfl, rfl⟩, nofun⟩
    | leftRoom =>
      refine ⟨⟨rfl, rfl⟩, fun l' o ho x hx => ?_⟩
      obtain ⟨c, -, rfl⟩ := List.mem_map.mp ho
      cases hx
  | drop conn =>
    cases Front.step_inv hs with
    | drop => exact ⟨⟨rfl, rfl⟩, nofun⟩

theorem truthful_elsewhere (hi : l.Sound) (ht : l.Truthful) (hfrom : l.fromHall fe = false)
    (hfe : ∀ k selectById now, fe ≠ .turn k selectById now) (hs : Front.machine.step l.front fe = some (front, out)) :
    (l.next fe front out).Truthful := by
  intro conn c uid hpage huser hhere hclaim
  obtain ⟨⟨hqueues, hpcs⟩, hout⟩ := elsewhere hfrom hfe hs
  have hfetched : (l.next fe front out).fetched = l.fetched := by
    cases fe with
    | turn k selectById now => exact absurd rfl (hfe k selectById now)
    | opened conn uri => cases uri <;> rfl
    | message | closed | drop => rfl
  obtain ⟨c₀, rfl, hpage₀ | ⟨user, selectById, rfl, rfl⟩⟩ := next_pages hpage
  · obtain ⟨closed, hconn⟩ := hi.hall hpage₀
    have hquiet : (l.next fe front out).sentTo out conn = [] := by
      refine sentTo_nil ?_
      rintro o ho x hx rfl
      exact hout _ o ho x hx _ hconn rfl
    rw [hquiet, List.append_nil] at hclaim
    obtain ⟨k, hwaits⟩ := ht conn c₀ uid hpage₀ huser (hi.next_here hs hpage₀ hhere) hclaim
    refine ⟨k, ?_⟩
    rw [hfetched]
    change uid ∈ front.server.queues k ∨ uid ∈ (front.server.pcs k).hands ∧ (front.server.pcs k).Tells uid conn (l.fetched k)
    rw [hqueues, hpcs]
    exact hwaits
  · exact absurd hclaim (newPage_silent hs)

/-- The server handles a request of a page. -/
theorem truthful_hall (hi : l.Sound) (ht : l.Truthful) (hsolo : l.Solo) {req : Members} {later : Int}
    (hpage : l.pages conn = some c) (huser : c.user = some uid) (hreq : HallPage.Request req) (hfinds : ∀ uid, selectById uid ≠ none)
    (hfe : fe = .message conn (some uid) (some (.obj req)) selectById now later)
    (hs : Front.machine.step l.front fe = some (front, out)) : (l.next fe front out).Truthful := by
  subst hfe
  intro conn' c' uid' hpage' huser' hhere hclaim
  obtain ⟨c₀, rfl, hpage₀ | ⟨_, _, heq, -⟩⟩ := next_pages hpage'
  swap
  · cases heq
  have hhere₀ := hi.next_here hs hpage₀ hhere
  obtain ⟨closed, hconn⟩ := hi.hall hpage
  obtain ⟨rfl, s, obs, resp, hhall, rfl, rfl⟩ := Front.hall_message hconn hreq (hfinds uid) hs
  rw [sentTo_hall hhall] at hclaim
  change s.Waits l.fetched conn' uid'
  by_cases heq : conn' = conn
  · subst heq
    obtain rfl : c₀ = c := Option.some.inj (hpage₀.symm.trans hpage)
    obtain rfl : uid' = uid := Option.some.inj (huser'.symm.trans huser)
    rw [if_pos ⟨rfl, hhere.2⟩] at hclaim
    obtain ⟨hnone, hmatching⟩ := hclaim
    simp only [HallPage.catchUp_snoc] at hnone hmatching
    exact hhall.waits_own hmatching fun hbefore =>
      ht conn' c₀ uid' hpage huser hhere₀ ⟨HallPage.onMessage_destination hnone, hbefore⟩
  · rw [if_neg fun h => heq h.1, List.append_nil] at hclaim
    refine hhall.waits_other ?_ (ht conn' c₀ uid' hpage₀ huser' hhere₀ hclaim)
    rintro rfl
    -- The page of the other connection is open, and a user has one at a time.
    obtain ⟨closed, hconn'⟩ := hi.hall hpage₀
    cases closed with
    | true => cases (hi.shut hconn').symm.trans hhere₀.2
    | false => exact heq (hsolo conn' conn c₀ c uid' hpage₀ hpage huser' huser hconn' hconn)

/-! ### A run -/

/-- What a run has made of the lobby. -/
structure Honest (us : List LobbyTrans) (l : Lobby) : Prop where
  sound : l.Sound
  opened : ∀ conn c uid, l.pages conn = some c → c.user = some uid → (conn, uid) ∈ us.filterMap fun y => y.event.opens
  closed : ∀ conn, some conn ∈ us.map (fun y => y.event.closes) → ∃ uri, l.front.conns conn = some ⟨uri, true⟩
  solo : l.Solo
  truthful : l.Truthful

theorem step_shut {uri : WsUri} (hs : LobbyStep l e l' out) (h : l.front.conns conn = some ⟨uri, true⟩) :
    l'.front.conns conn = some ⟨uri, true⟩ := by
  rcases step_doors hs with heq | ⟨fe, hd⟩
  · rwa [heq]
  · exact hd.shut h

theorem closes_eq (h : e.closes = some conn) : ∃ user, e = .front (.closed conn user) := by
  cases e with
  | front fe =>
    cases fe with
    | closed conn' user =>
      cases h
      exact ⟨user, rfl⟩
    | turn | message | opened | drop => cases h
  | press | timer | choose | read | serve | reject => cases h

theorem step_opened (hs : LobbyStep l e l' out) (hpage : l'.pages conn = some c)
    (huser : c.user = some uid) : (∃ c₀, l.pages conn = some c₀ ∧ c₀.user = some uid) ∨ e.opens = some (conn, uid) := by
  rcases step_page hs hpage with ⟨c₀, hpage₀, hsame⟩ | ⟨selectById, rfl⟩
  · exact Or.inl ⟨c₀, hpage₀, hsame.trans huser⟩
  · exact Or.inr (by rw [huser]; rfl)

theorem Honest.closed_step (hi : Honest us l) (hs : LobbyStep l e l' out)
    (hmem : some conn ∈ (us ++ [⟨l, e, l', out⟩] : List LobbyTrans).map fun y => y.event.closes) :
    ∃ uri, l'.front.conns conn = some ⟨uri, true⟩ := by
  rw [List.map_append, List.mem_append] at hmem
  rcases hmem with hmem | hmem
  · obtain ⟨uri, hconn⟩ := hi.closed conn hmem
    exact ⟨uri, step_shut hs hconn⟩
  · obtain ⟨user, rfl⟩ := closes_eq (List.mem_singleton.mp hmem).symm
    cases hs with
    | front _ hs =>
      cases (Front.step_inv hs).doors with
      | @closed _ uri _ _ hconns => exact ⟨uri, (congrFun hconns _).trans Dict.assign_self⟩
    | sent heq => rcases heq with ⟨heq, -⟩ | ⟨heq, -⟩ <;> cases heq

theorem Honest.solo_step (hi : Honest us l) (hs : LobbyStep l e l' out) (hone : OnePage us ⟨l, e, l', out⟩) : l'.Solo := by
  have hbefore : ∀ {conn c uid}, l'.pages conn = some c → c.user = some uid → l'.front.conns conn = some ⟨.hall, false⟩ →
      (∃ c₀, l.pages conn = some c₀ ∧ c₀.user = some uid ∧ l.front.conns conn = some ⟨.hall, false⟩) ∨
        e.opens = some (conn, uid) := by
    intro conn c uid hpage huser hconn
    refine (step_opened hs hpage huser).imp_left fun ⟨c₀, hpage₀, huser₀⟩ => ⟨c₀, hpage₀, huser₀, ?_⟩
    obtain ⟨closed, hconn₀⟩ := hi.sound.hall hpage₀
    cases closed with
    | true => cases hconn.symm.trans (step_shut hs hconn₀)
    | false => exact hconn₀
  -- An old page of the user who opens a new one is closed.
  have hnew : ∀ {conn conn' c uid}, l.pages conn = some c → c.user = some uid → l.front.conns conn = some ⟨.hall, false⟩ →
      e.opens ≠ some (conn', uid) := by
    intro conn conn' c uid hpage huser hconn hopens
    obtain ⟨uri, hclosed⟩ := hi.closed conn (hone (conn', uid) hopens (conn, uid) (hi.opened conn c uid hpage huser) rfl)
    cases hconn.symm.trans hclosed
  intro conn conn' c c' uid hpage hpage' huser huser' hconn hconn'
  rcases hbefore hpage huser hconn with ⟨c₀, hpage₀, huser₀, hconn₀⟩ | hopens <;>
    rcases hbefore hpage' huser' hconn' with ⟨c₁, hpage₁, huser₁, hconn₁⟩ | hopens'
  · exact hi.solo conn conn' c₀ c₁ uid hpage₀ hpage₁ huser₀ huser₁ hconn₀ hconn₁
  · exact absurd hopens' (hnew hpage₀ huser₀ hconn₀)
  · exact absurd hopens (hnew hpage₁ huser₁ hconn₁)
  · exact (Prod.mk.inj (Option.some.inj (hopens.symm.trans hopens'))).1

theorem Honest.truthful_step (hi : Honest us l) (hs : LobbyStep l e l' out) (hfinds : e.Finds) : l'.Truthful := by
  cases hs with
  | @front fe front out hfrom hs =>
    cases fe with
    | turn k selectById now => exact truthful_turn hi.sound hi.truthful hfinds hs
    | opened | message | closed | drop => exact truthful_elsewhere hi.sound hi.truthful hfrom nofun hs
  | sent _ hpage => exact hi.truthful.put hpage rfl id
  | chosen hpage =>
    refine hi.truthful.put hpage rfl fun hclaim => ?_
    have hsame := HallPage.onRoom_destination (HallPage.catchUp_destination hclaim.1)
    simpa only [SaysMatching, hsame] using hclaim
  | read hpage hin =>
    refine hi.truthful.put hpage rfl fun hclaim => ?_
    unfold SaysMatching
    rw [hin]
    exact hclaim
  | served hpage hout huser hfe hs =>
    have hreq := hi.sound.requests hpage (hout ▸ List.mem_cons_self)
    refine truthful_hall (hi.sound.put hpage rfl fun req hmem => hi.sound.requests hpage ?_) (hi.truthful.put hpage rfl id)
      (hi.solo.put hpage rfl) (put_pages.trans (if_pos rfl)) huser hreq hfinds hfe hs
    rw [hout]
    exact List.mem_cons_of_mem _ hmem
  | rejected hpage hout =>
    refine hi.truthful.put hpage rfl fun hclaim => absurd hclaim (not_says_of_gone fun hnone => ?_)
    rw [HallPage.catchUp_snoc] at hnone
    cases hnone

theorem Honest.step (hi : Honest us l) (hs : LobbyStep l e l' out) (hone : OnePage us ⟨l, e, l', out⟩) (hfinds : e.Finds) :
    Honest (us ++ [⟨l, e, l', out⟩]) l' where
  sound := hi.sound.step hs
  opened conn c uid hpage huser := by
    rw [List.filterMap_append, List.mem_append]
    rcases step_opened hs hpage huser with ⟨c₀, hpage₀, huser₀⟩ | hopens
    · exact Or.inl (hi.opened conn c₀ uid hpage₀ huser₀)
    · exact Or.inr (List.mem_filterMap.mpr ⟨_, List.mem_singleton_self _, hopens⟩)
  closed conn hmem := hi.closed_step hs hmem
  solo := hi.solo_step hs hone
  truthful := hi.truthful_step hs hfinds

theorem run_honest (h : machine.Run start ts l) (hone : ∀ us x vs, ts = us ++ x :: vs → OnePage us x)
    (hfinds : ∀ x ∈ ts, x.event.Finds) : Honest ts l := by
  refine h.invariant_along (I := Honest) (C := fun us (x : LobbyTrans) => OnePage us x ∧ x.event.Finds)
    ⟨sound_start, nofun, nofun, nofun, nofun⟩ (fun us x vs heq => ⟨hone us x vs heq, hfinds x (by simp [heq])⟩) ?_
  exact fun hi hs hx => hi.step (step_inv hs) hx.1 hx.2

/-- When each user has one page of the hall at a time and every user has a record, a page that has read everything and says
    that its user is being matched is right, as long as the user is in the hall with it: the user is in a queue, or a match
    thread holds the user and will tell the page when it has a room. -/
theorem hall_tells_truth (h : machine.Run start ts l) (hone : ∀ us x vs, ts = us ++ x :: vs → OnePage us x)
    (hfinds : ∀ x ∈ ts, x.event.Finds) (hpage : l.pages conn = some c) (huser : c.user = some uid) (hhere : l.Here conn uid)
    (hclaim : SaysMatching c) : l.front.server.Waits l.fetched conn uid :=
  (run_honest h hone hfinds).truthful conn c uid hpage huser hhere hclaim

/-- User 1 comes to the hall, presses the button, and reads the answer, while the match threads wait. -/
def alone : List LobbyEvent :=
  [.front (.opened 1 .hall (some 1) newcomer), .front (.turn .normal newcomer 0), .front (.turn .high newcomer 0),
    .front (.turn .super newcomer 0), .press 1, .serve 1 newcomer 0 0, .read 1, .read 1]

theorem finds_of_events {events : List LobbyEvent} (hevents : ts.map Machine.Trans.event = events)
    (hfinds : ∀ e ∈ events, e.Finds) : ∀ x ∈ ts, x.event.Finds := by
  subst hevents
  exact fun x hx => hfinds _ (List.mem_map_of_mem hx)

theorem saysMatching_of_read (hread : c.inbox.length = 0) (hstays : c.page.destination.isNone = true)
    (hmatching : c.page.matching = true) : SaysMatching c := by
  rw [SaysMatching, List.length_eq_zero_iff.mp hread]
  exact ⟨Option.isNone_iff_eq_none.mp hstays, hmatching⟩

instance (us : List LobbyTrans) (x : LobbyTrans) : Decidable (OnePage us x) := by
  unfold OnePage
  infer_instance

theorem hall_tells_truth_alone : ∃ (ts : List LobbyTrans) (l : Lobby) (c : HallClient), machine.Run start ts l ∧
    l.pages 1 = some c ∧ c.page.matching = true ∧ l.front.server.Waits l.fetched 1 1 := by
  obtain ⟨ts, l, h, hevents, hone, ⟨hentry, hopen⟩, hpage⟩ := Machine.Run.exists_of_exec_events machine start alone
    (fun (ts : List LobbyTrans) l => (∀ i, (hi : i < ts.length) → OnePage (ts.take i) (ts.get ⟨i, hi⟩)) ∧
      (l.front.server.om.gameHall 1 = some 1 ∧ l.front.server.isOpen 1 = true) ∧
      ((l.pages 1).any fun c => c.user = some 1 ∧ (c.page.destination.isNone ∧ c.page.matching ∧ c.inbox.length = 0)) = true)
    (by decide +kernel)
  obtain ⟨c, hpage, hc⟩ := (Option.any_eq_true _ _).mp hpage
  obtain ⟨huser, hstays, hmatching, hread⟩ := of_decide_eq_true hc
  have hclaim := saysMatching_of_read hread hstays hmatching
  exact ⟨ts, l, c, h, hpage, hmatching, hall_tells_truth h (fun us x vs => Machine.Run.forall_split hone)
    (finds_of_events hevents (by simp [alone, LobbyEvent.Finds, newcomer])) hpage huser ⟨hentry, hopen⟩ hclaim⟩

/-! ### The match threads alone -/

theorem catchUp_success {p : HallPage} {infos : List Members} (h : ∀ rsp ∈ infos, ∃ r, rsp = matchSuccess r) :
    infos = [] ∨ (p.catchUp infos).destination = some .room := by
  induction infos using List.reverseRecOn with
  | nil => exact Or.inl rfl
  | append_singleton infos rsp _ =>
    obtain ⟨r, rfl⟩ := h rsp (List.mem_append_right _ (List.mem_singleton_self _))
    exact Or.inr (by rw [HallPage.catchUp_snoc, HallPage.onMessage_matchSuccess])

/-- What a match thread tells the pages. -/
theorem turn_tells (hs : Front.machine.step l.front (.turn k selectById now) = some (front, out)) :
    ∀ rsp ∈ l'.sentTo out conn, ∃ r, rsp = matchSuccess r := by
  simp only [Front.machine] at hs
  split at hs
  · cases hs
  · cases hs
    intro rsp hrsp
    obtain ⟨o, ho, hx⟩ := exists_of_sentTo hrsp
    obtain ⟨o, -, rfl⟩ := List.mem_map.mp ho
    cases o with
    | created k' r =>
      obtain ⟨conn', -, heq⟩ := List.mem_map.mp hx
      cases heq
      exact ⟨r, rfl⟩
    | round | popped | absent | pushed | removed | call => cases hx

/-- The page goes on saying that its user is being matched, or it has been told to go into a room. -/
def Asks (l : Lobby) (conn : ConnId) (uid : Uid) : Prop := l.Here conn uid ∧ ∃ c, l.pages conn = some c ∧ c.user = some uid ∧
  (SaysMatching c ∨ (c.page.catchUp c.inbox).destination = some .room)

theorem Asks.turn (ha : l.Asks conn uid)
    (hs : Front.machine.step l.front (.turn k selectById now) = some (front, out)) :
    (l.next (.turn k selectById now) front out).Asks conn uid := by
  obtain ⟨hhere, c, hpage, huser, hclaim⟩ := ha
  have htells : ∀ rsp ∈ (l.next (.turn k selectById now) front out).sentTo out conn, ∃ r, rsp = matchSuccess r := turn_tells hs
  have hnext : (l.next (.turn k selectById now) front out).pages conn = some { c with
      inbox := c.inbox ++ (l.next (.turn k selectById now) front out).sentTo out conn } :=
    Option.map_eq_some_iff.mpr ⟨c, hpage, rfl⟩
  generalize (l.next (.turn k selectById now) front out).sentTo out conn = infos at hnext htells
  refine ⟨?_, _, hnext, huser, ?_⟩
  · cases Front.step_inv hs with
    | turn hturn => cases hturn <;> exact hhere
  · rcases catchUp_success (p := c.page.catchUp c.inbox) htells with rfl | hroom
    · simpa only [SaysMatching, List.append_nil] using hclaim
    · exact Or.inr (by rw [HallPage.catchUp_append]; exact hroom)

end Lobby

/-- A step of a match thread, with everyone on record. -/
def LobbyEvent.OfMatcher : LobbyEvent → Prop
  | front (.turn _ selectById _) => ∀ uid, selectById uid ≠ none
  | front _ | press _ | timer _ | choose .. | read _ | serve .. | reject .. => False

theorem LobbyEvent.ofMatcher_iff {e : LobbyEvent} (h : e.OfMatcher) :
    ∃ k selectById now, e = .front (.turn k selectById now) ∧ ∀ uid, selectById uid ≠ none := by
  cases e with
  | front fe =>
    cases fe with
    | turn k selectById now => exact ⟨k, selectById, now, rfl, h⟩
    | opened | message | closed | drop => exact h.elim
  | press | timer | choose | read | serve | reject => exact h.elim

namespace Lobby
variable {l l' : Lobby} {conn : ConnId} {c : HallClient} {uid : Uid} {ts us : List LobbyTrans}

theorem run_asks (h : machine.Run l us l') (hturns : ∀ x ∈ us, x.event.OfMatcher) (ha : l.Asks conn uid) : l'.Asks conn uid := by
  refine h.invariant_of (I := fun l => l.Asks conn uid) (C := fun x => x.event.OfMatcher) ha hturns fun hi hs he => ?_
  obtain ⟨k, selectById, now, rfl, -⟩ := LobbyEvent.ofMatcher_iff he
  cases step_inv hs with
  | front _ hturn => exact hi.turn hturn
  | sent heq => rcases heq with ⟨heq, -⟩ | ⟨heq, -⟩ <;> cases heq

/-- Whoever asks for an opponent is answered: from a page that says that its user is being matched, and with which the user
    is in the hall, however the match threads go on until they come to rest, the page is told to go into a room, or its user
    is the only one in a queue. -/
theorem hall_answers (h : machine.Run start ts l) (hone : ∀ us x vs, ts = us ++ x :: vs → OnePage us x)
    (hfinds : ∀ x ∈ ts, x.event.Finds) (hpage : l.pages conn = some c) (huser : c.user = some uid) (hhere : l.Here conn uid)
    (hclaim : SaysMatching c) (hus : machine.Run l us l') (hturns : ∀ x ∈ us, x.event.OfMatcher)
    (hrest : l'.front.server.AtRest) :
    (∃ c', l'.pages conn = some c' ∧ (c'.page.catchUp c'.inbox).destination = some .room) ∨
      ∃ k, l'.front.server.queues k = [uid] := by
  obtain ⟨hhere', c', hpage', huser', hclaim' | hroom⟩ := run_asks hus hturns ⟨hhere, c, hpage, huser, Or.inl hclaim⟩
  · have hfinds' : ∀ x ∈ ts ++ us, x.event.Finds := fun x hx => by
      rcases List.mem_append.mp hx with hx | hx
      · exact hfinds x hx
      · obtain ⟨k, selectById, now, heq, hfound⟩ := LobbyEvent.ofMatcher_iff (hturns x hx)
        exact heq ▸ hfound
    have hone' : ∀ us₁ x vs, ts ++ us = us₁ ++ x :: vs → OnePage us₁ x := by
      refine Machine.Run.along_append hone fun us₁ x vs heq => ?_
      obtain ⟨k, selectById, now, hevent, -⟩ := LobbyEvent.ofMatcher_iff (hturns x (by simp [heq]))
      intro p hp
      rw [hevent] at hp
      cases hp
    obtain ⟨k, hwaits⟩ := hall_tells_truth (h.append hus) hone' hfinds' hpage' huser' hhere' hclaim'
    exact Or.inr ⟨k, hrest.alone (hwaits.imp_right And.left)⟩
  · exact Or.inl ⟨c', hpage', hroom⟩

/-- Users 1 and 2 come to the hall, press the button, and read the answer. -/
def both : List LobbyEvent :=
  [.front (.opened 1 .hall (some 1) newcomer), .front (.opened 2 .hall (some 2) newcomer), .press 1, .press 2,
    .serve 1 newcomer 0 0, .serve 2 newcomer 0 0, .read 1, .read 1]

def turns : List LobbyEvent :=
  .front (.turn .high newcomer 0) :: .front (.turn .super newcomer 0) :: List.replicate 9 (.front (.turn .normal newcomer 0))

theorem hall_answers_both : ∃ (ts us : List LobbyTrans) (l l' : Lobby), machine.Run start ts l ∧ machine.Run l us l' ∧
    us.length = 11 ∧ l'.front.server.AtRest ∧
      ((∃ c', l'.pages 1 = some c' ∧ (c'.page.catchUp c'.inbox).destination = some .room) ∨
        ∃ k, l'.front.server.queues k = [1]) := by
  obtain ⟨ts, l, h, hevents, hone, ⟨hentry, hopen⟩, hpage, hgoes⟩ := Machine.Run.exists_of_exec_events machine start both
    (fun (ts : List LobbyTrans) l => (∀ i, (hi : i < ts.length) → OnePage (ts.take i) (ts.get ⟨i, hi⟩)) ∧
      (l.front.server.om.gameHall 1 = some 1 ∧ l.front.server.isOpen 1 = true) ∧
      ((l.pages 1).any fun c => c.user = some 1 ∧ (c.page.destination.isNone ∧ c.page.matching ∧ c.inbox.length = 0)) = true ∧
      ((machine.exec l turns).any fun y =>
        decide (∀ k, y.2.front.server.pcs k = .wait ∧ (y.2.front.server.queues k).length < 2)) = true)
    (by decide +kernel)
  obtain ⟨us, l', hus, hturns, hrest⟩ := Machine.Run.exists_of_exec_events machine l turns
    (fun _ l' => ∀ k, l'.front.server.pcs k = .wait ∧ (l'.front.server.queues k).length < 2) hgoes
  obtain ⟨c, hpage, hc⟩ := (Option.any_eq_true _ _).mp hpage
  obtain ⟨huser, hstays, hmatching, hread⟩ := of_decide_eq_true hc
  have hclaim := saysMatching_of_read hread hstays hmatching
  have hmatchers : ∀ x ∈ us, x.event.OfMatcher := fun x hx => by
    have hmem : x.event ∈ turns := hturns ▸ List.mem_map_of_mem hx
    have hall : ∀ e ∈ turns, e.OfMatcher := by simp [turns, LobbyEvent.OfMatcher, newcomer]
    exact hall _ hmem
  refine ⟨ts, us, l, l', h, hus, ?_, hrest, hall_answers h (fun us x vs => Machine.Run.forall_split hone)
    (finds_of_events hevents (by simp [both, LobbyEvent.Finds, newcomer])) hpage huser ⟨hentry, hopen⟩ hclaim hus hmatchers hrest⟩
  rw [← List.length_map (f := Machine.Trans.event), hturns]
  rfl

end Lobby
end FiveStones
