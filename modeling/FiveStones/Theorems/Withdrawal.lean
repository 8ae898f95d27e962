import Mathlib.Data.List.DropRight
import FiveStones.Theorems.Load
import FiveStones.Theorems.Registration

/-! Whether a request for a match is still wanted when it is served: the user's latest hall event, against
the moment at which `create_room` starts. -/

namespace FiveStones

inductive HallAct
  | start
  | stop
  | close
  deriving DecidableEq

/-- The kind of request that the body of a hall message has. -/
def hallOptype (body : Option Json) : Option String :=
  body.bind fun req => req.members.toOption.bind fun m => (m.get "optype").asString.toOption

/-- The user whom the open callback of a hall connection found. -/
def hallUser (ts : List FrontTrans) (conn : ConnId) : Option Uid :=
  ts.findSome? fun x =>
    match x.event with
    | .opened conn' .hall user _ => if conn' = conn then user else none
    | _ => none

namespace FrontTrans

/-- The user of a hall message, and the kind of its request. -/
def asks (x : FrontTrans) : Option (Uid × String) :=
  match x.event with
  | .message conn (some uid) body _ _ _ =>
    if x.before.conns conn = some ⟨.hall, false⟩ then (hallOptype body).map (uid, ·) else none
  | _ => none

/-- A hall connection closes, of the user whom its close callback finds, and of the one whom its open callback has found. -/
def leavesHall (us : List FrontTrans) (x : FrontTrans) (uid : Uid) : Bool :=
  match x.event with
  | .closed conn user => x.before.conns conn = some ⟨.hall, false⟩ && (user = some uid || hallUser us conn = some uid)
  | _ => false

def hallAct (us : List FrontTrans) (x : FrontTrans) (uid : Uid) : Option HallAct :=
  if x.asks = some (uid, "match_start") then some .start
  else if x.asks = some (uid, "match_stop") then some .stop
  else if x.leavesHall us uid then some .close
  else none

/-- The match thread `k` takes the first step of `create_room`. -/
def begins (k : Pool) (x : FrontTrans) : Bool :=
  match x.event, x.before.server.pcs k with
  | .turn k' _ _, .hall1 _ _ => k' = k
  | _, _ => false

/-- The latest of the user's `match_start`, `match_stop` and hall closes, with the last step in front. -/
def latestOf (uid : Uid) : List FrontTrans → Option HallAct
  | [] => none
  | x :: us => (x.hallAct us.reverse uid).or (latestOf uid us)

/-- The latest of the user's `match_start`, `match_stop` and hall closes. -/
def latest (uid : Uid) (ts : List FrontTrans) : Option HallAct := latestOf uid ts.reverse

theorem latest_snoc (uid : Uid) (ts : List FrontTrans) (x : FrontTrans) :
    latest uid (ts ++ [x]) = (x.hallAct ts uid).or (latest uid ts) := by
  rw [latest, List.reverse_concat, latestOf, List.reverse_reverse, latest]

/-- The steps before the last start of a `create_room` by the match thread `k`. -/
def begun (k : Pool) (ts : List FrontTrans) : List FrontTrans := (ts.rdropWhile fun x => !x.begins k).dropLast

end FrontTrans

/-! ### The steps of `create_room` -/

namespace Server
variable {s s' : Server} {k : Pool} {uid1 uid2 : Uid} {out : List Obs} {now : Int} {selectById : Uid → Option Members}

theorem afterAdd_ne (rest : List Uid) : (∀ uid1 uid2, Pc.afterAdd rest ≠ .hall2 uid1 uid2) ∧
    ∀ uid1 uid2, Pc.afterAdd rest ≠ .create uid1 uid2 := by
  cases rest <;> exact ⟨nofun, nofun⟩

/-- `create_room` looks for its first user in the hall, then for the second, and then makes the room. -/
theorem turn_createRoom (h : s.turn k selectById now = some (s', out)) :
    (s'.pcs k = .hall2 uid1 uid2 → s.pcs k = .hall1 uid1 uid2 ∧ s.inGameHall uid1 = true) ∧
      (s'.pcs k = .create uid1 uid2 → s.pcs k = .hall2 uid1 uid2 ∧ s.inGameHall uid2 = true) := by
  cases hk : s.pcs k with
  | hall1 v1 v2 =>
    simp only [turn, hk] at h
    split at h <;> rename_i hhall <;> cases h <;> rw [goto_pcs_self]
    · refine ⟨fun hpc => ?_, nofun⟩
      cases hpc
      exact ⟨rfl, hhall⟩
    · exact ⟨nofun, nofun⟩
  | hall2 v1 v2 =>
    simp only [turn, hk] at h
    split at h <;> rename_i hhall <;> cases h <;> rw [goto_pcs_self]
    · refine ⟨nofun, fun hpc => ?_⟩
      cases hpc
      exact ⟨rfl, hhall⟩
    · exact ⟨nofun, nofun⟩
  | add v rest =>
    simp only [turn, hk] at h
    split at h
    · cases h
    · cases h
      rw [goto_pcs_self]
      exact ⟨fun hpc => absurd hpc ((afterAdd_ne rest).1 _ _), fun hpc => absurd hpc ((afterAdd_ne rest).2 _ _)⟩
    · cases h
      rw [goto_pcs_self]
      exact ⟨fun hpc => absurd hpc ((afterAdd_ne rest).1 _ _), fun hpc => absurd hpc ((afterAdd_ne rest).2 _ _)⟩
  | create v1 v2 =>
    simp only [turn, hk] at h
    cases h
    rw [goto_pcs_self]
    exact ⟨nofun, nofun⟩
  | size | wait | pop1 | pop2 | conn1 | conn2 =>
    simp only [turn, hk] at h
    split at h <;> cases h <;> rw [goto_pcs_self] <;> exact ⟨nofun, nofun⟩

/-- A hall message starts or stops a request for a match, or leaves the queues as they are. -/
theorem wsmsgGameHall_request {uid : Uid} {body : Option Json} {resp : Members}
    (h : s.wsmsgGameHall selectById uid body = .ok (s', out, resp)) :
    (hallOptype body = some "match_start" ∧ ServerStep s (.matchStart uid selectById) s' out) ∨
      (hallOptype body = some "match_stop" ∧ ServerStep s (.matchStop uid selectById) s' out) ∨
      (hallOptype body ≠ some "match_start" ∧ hallOptype body ≠ some "match_stop" ∧ s' = s ∧ out = []) := by
  unfold wsmsgGameHall at h
  split at h
  · cases h
    exact Or.inr (Or.inr ⟨nofun, nofun, rfl, rfl⟩)
  · rename_i req
    obtain ⟨m, hm, h⟩ := ok_of_bind h
    obtain ⟨optype, hop, h⟩ := ok_of_bind h
    have hkind : hallOptype (some req) = some optype := by
      simp [hallOptype, hm, hop, Except.toOption]
    rw [hkind]
    split at h
    · rename_i heq
      obtain ⟨⟨t, o⟩, ht, h⟩ := ok_of_bind h
      cases h
      exact Or.inl ⟨congrArg some heq, step_inv (by simp [machine, ht, Except.toOption])⟩
    split at h
    · rename_i heq
      obtain ⟨⟨t, o⟩, ht, h⟩ := ok_of_bind h
      cases h
      exact Or.inr (Or.inl ⟨congrArg some heq, step_inv (by simp [machine, ht, Except.toOption])⟩)
    · rename_i hstart hstop
      have hother : some optype ≠ some "match_start" ∧ some optype ≠ some "match_stop" :=
        ⟨fun heq => hstart (Option.some.inj heq), fun heq => hstop (Option.some.inj heq)⟩
      split at h <;> cases h <;> exact Or.inr (Or.inr ⟨hother.1, hother.2, rfl, rfl⟩)

end Server

/-- What a step does to the queues and to the match threads. -/
inductive MatchStep (f : Front) : FrontEvent → Front → List FrontObs → Prop
  | turn {k : Pool} {selectById : Uid → Option Members} {now : Int} {s : Server} {out : List Obs} :
      f.server.turn k selectById now = some (s, out) →
      MatchStep f (.turn k selectById now) { f with server := s } (out.map .server)
  | start {conn : ConnId} {uid : Uid} {body : Option Json} {selectById : Uid → Option Members} {now later : Int} {s : Server}
      {out : List Obs} {resp : Members} :
      f.conns conn = some ⟨.hall, false⟩ → hallOptype body = some "match_start" →
      Server.ServerStep f.server (.matchStart uid selectById) s out →
      MatchStep f (.message conn (some uid) body selectById now later) { f with server := s }
        (out.map .server ++ [.answer conn resp])
  | stop {conn : ConnId} {uid : Uid} {body : Option Json} {selectById : Uid → Option Members} {now later : Int} {s : Server}
      {out : List Obs} {resp : Members} :
      f.conns conn = some ⟨.hall, false⟩ → hallOptype body = some "match_stop" →
      Server.ServerStep f.server (.matchStop uid selectById) s out →
      MatchStep f (.message conn (some uid) body selectById now later) { f with server := s }
        (out.map .server ++ [.answer conn resp])
  | other {e : FrontEvent} {f' : Front} {out : List FrontObs} : (∀ k selectById now, e ≠ .turn k selectById now) →
      (∀ uid, FrontTrans.asks ⟨f, e, f', out⟩ ≠ some (uid, "match_start") ∧
        FrontTrans.asks ⟨f, e, f', out⟩ ≠ some (uid, "match_stop")) →
      f'.server.queues = f.server.queues → f'.server.pcs = f.server.pcs →
      (∀ o, .server o ∈ out → ∃ c, o = .call c) → MatchStep f e f' out

namespace Front
variable {f f' : Front} {e : FrontEvent} {out : List FrontObs}

theorem onMessage_match {conn : ConnId} {uri : WsUri} {uid : Uid} {body : Option Json} {selectById : Uid → Option Members}
    {now later : Int} {s : Server} (hconn : f.conns conn = some ⟨uri, false⟩)
    (h : onMessage f.server conn uri uid body selectById now later = .ok (s, out)) :
    MatchStep f (.message conn (some uid) body selectById now later) { f with server := s } out := by
  have silent (hne : uri ≠ .hall) (uid' : Uid) (kind : String) :
      FrontTrans.asks ⟨f, .message conn (some uid) body selectById now later, { f with server := s }, out⟩ ≠ some (uid', kind) := by
    simp [FrontTrans.asks, hconn, hne]
  cases uri with
  | hall =>
    obtain ⟨⟨s, obs, resp⟩, hmsg, h⟩ := ok_of_bind h
    obtain ⟨rfl, rfl⟩ := Prod.mk.inj (Except.ok.inj h)
    rcases Server.wsmsgGameHall_request hmsg with ⟨hkind, hs⟩ | ⟨hkind, hs⟩ | ⟨hstart, hstop, rfl, rfl⟩
    · exact .start hconn hkind hs
    · exact .stop hconn hkind hs
    · refine .other nofun (fun uid' => ⟨fun hasks => hstart ?_, fun hasks => hstop ?_⟩) rfl rfl (by simp)
      all_goals
        simp only [FrontTrans.asks, hconn, ↓reduceIte, Option.map_eq_some_iff, Prod.mk.injEq] at hasks
        obtain ⟨kind, hkind, -, rfl⟩ := hasks
        exact hkind
  | room =>
    obtain ⟨⟨rm, calls⟩, hmsg, h⟩ := ok_of_bind h
    obtain ⟨rfl, rfl⟩ := Prod.mk.inj (Except.ok.inj h)
    exact .other nofun (fun uid' => ⟨silent nofun uid' _, silent nofun uid' _⟩) rfl rfl (by simp)
  | spectate =>
    obtain ⟨⟨s, o⟩, hmsg, h⟩ := ok_of_bind h
    obtain ⟨rfl, rfl⟩ := Prod.mk.inj (Except.ok.inj h)
    rcases Server.wsmsgSpectate_inv hmsg with ⟨rfl, resp, rfl⟩ | ⟨rid, r, resp, hr, hrun, rfl, rfl⟩ <;>
      exact .other nofun (fun uid' => ⟨silent nofun uid' _, silent nofun uid' _⟩) rfl rfl (by simp)
  | other =>
    obtain ⟨rfl, rfl⟩ := Prod.mk.inj (Except.ok.inj h)
    exact .other nofun (fun uid' => ⟨silent nofun uid' _, silent nofun uid' _⟩) rfl rfl (by simp)

theorem step_match (h : machine.step f e = some (f', out)) : MatchStep f e f' out := by
  cases e with
  | turn k selectById now =>
    simp only [machine] at h
    split at h
    · cases h
    · rename_i hturn
      cases h
      exact .turn hturn
  | message conn user body selectById now later =>
    simp only [machine] at h
    split at h
    · cases h
      exact .other (by simp) (fun uid => by simp [FrontTrans.asks]) rfl rfl (by simp)
    · rename_i hconn
      split at h
      · cases h
      · rename_i hmsg
        cases h
        exact onMessage_match hconn hmsg
    · cases h
  | opened | closed | drop =>
    cases step_inv h with
    | _ => exact .other (by simp) (fun uid => by simp [FrontTrans.asks]) rfl rfl (by simp)

end Front

namespace MatchStep
variable {f f' : Front} {e : FrontEvent} {out : List FrontObs} {uid : Uid} {k : Pool}

/-- Only a `match_start` of the user makes it wait once more. -/
theorem load_le (hs : MatchStep f e f' out) (h : FrontTrans.asks ⟨f, e, f', out⟩ ≠ some (uid, "match_start")) :
    f'.server.load uid ≤ f.server.load uid := by
  cases hs with
  | turn hturn => exact (Server.turn_inv hturn).load_le uid
  | @start conn v body selectById now later s out resp hconn hkind hserver =>
    refine hserver.load_le fun selectById' heq => h ?_
    cases heq
    simp [FrontTrans.asks, hconn, hkind]
  | stop _ _ hserver => exact hserver.load_le nofun
  | other _ _ hqueues hpcs => exact (Server.load_congr hqueues (funext fun k => congrArg Pc.hands (congrFun hpcs k)) uid).le

/-- A match thread stands still while others take their steps. -/
theorem pcs_eq (hs : MatchStep f e f' out) (h : ∀ selectById now, e ≠ .turn k selectById now) :
    f'.server.pcs k = f.server.pcs k := by
  cases hs with
  | @turn k' selectById now s out hturn =>
    refine (Server.ServerStep.turn (Server.turn_inv hturn)).pcs_eq fun selectById' now' heq => h selectById' now' ?_
    cases heq
    rfl
  | start _ _ hserver | stop _ _ hserver => exact hserver.pcs_eq nofun
  | other _ _ _ hpcs => rw [hpcs]

/-- The room of a step is for the two users that the match thread was about to seat. -/
theorem created (hs : MatchStep f e f' out) {r : Room} (hr : .server (.created k r) ∈ out) :
    ∃ uid1 uid2 now, f.server.pcs k = .create uid1 uid2 ∧ r = Room.create f.server.rm.nextRid uid1 uid2 now := by
  cases hs with
  | turn hturn =>
    obtain ⟨o, ho, heq⟩ := List.mem_map.mp hr
    cases heq
    exact (Server.ServerStep.turn (Server.turn_inv hturn)).created ho
  | @start conn v body selectById now later s out resp _ _ hserver
  | @stop conn v body selectById now later s out resp _ _ hserver =>
    have ho : .created k r ∈ out := by simpa using hr
    exact hserver.created ho
  | other _ _ _ _ hcalls =>
    obtain ⟨c, heq⟩ := hcalls _ hr
    cases heq

/-- `del` has returned true, to a `match_stop`. -/
theorem removed (hs : MatchStep f e f' out) (hr : .server (.removed k uid) ∈ out) :
    ∃ conn body selectById now later s, e = .message conn (some uid) body selectById now later ∧
      FrontTrans.asks ⟨f, e, f', out⟩ = some (uid, "match_stop") ∧
      Server.ServerStep f.server (.matchStop uid selectById) s [.removed k uid] ∧ f' = { f with server := s } := by
  cases hs with
  | turn hturn =>
    obtain ⟨o, ho, heq⟩ := List.mem_map.mp hr
    cases heq
    cases Server.turn_inv hturn <;> simp at ho
  | @start conn v body selectById now later s out resp _ _ hserver =>
    have ho : .removed k uid ∈ out := by simpa using hr
    cases hserver with
    | start | startLost | network => simp at ho
  | @stop conn v body selectById now later s out resp hconn hkind hserver =>
    have ho : .removed k uid ∈ out := by simpa using hr
    cases hserver with
    | stop hpool =>
      obtain ⟨rfl, rfl⟩ : k = _ ∧ uid = _ := by simpa using ho
      exact ⟨_, _, _, _, _, _, rfl, by simp [FrontTrans.asks, hconn, hkind], .stop hpool, rfl⟩
    | stopLost | network => simp at ho
  | other _ _ _ _ hcalls =>
    obtain ⟨c, heq⟩ := hcalls _ hr
    cases heq

end MatchStep
/-! ### The hall -/

namespace Server
variable {s s' : Server} {uid : Uid}

theorem inGameHall_iff : s.inGameHall uid = true ↔ ∃ conn, s.om.gameHall uid = some conn ∧ s.isOpen conn = true := by
  unfold inGameHall OnlineManager.inGameHall
  cases hentry : s.om.gameHall uid <;> simp [OnlineManager.connIsOnline]

end Server

namespace Front
variable {f f' : Front} {e : FrontEvent} {out : List FrontObs} {us : List FrontTrans} {conn : ConnId} {user : Option Uid} {uid : Uid}

/-- Who is not in the hall comes in only by opening a connection there, from outside a room. -/
theorem Registered.enters (hi : Registered us f) (hc : f.server.rm.Consistent) (hs : FrontStep f e f' out)
    (hout : f.server.inGameHall uid = false) (hin : f'.server.inGameHall uid = true) :
    ∃ conn selectById, e = .opened conn .hall (some uid) selectById ∧ f.server.inGameRoom uid = false := by
  obtain ⟨conn, hentry, hopen⟩ := Server.inGameHall_iff.mp hin
  rcases hs.entry (t := .hall) hc hentry with hold | ⟨⟨resp, hadm⟩, hconn⟩
  · obtain ⟨-, closed, hknown⟩ := hi .hall uid conn hold
    rcases hs.doors.wasOpen hopen with hnew | hopen
    · cases hnew.symm.trans hknown
    · rw [Server.inGameHall_iff.mpr ⟨conn, hold, hopen⟩] at hout
      cases hout
  · obtain ⟨selectById, rfl⟩ := hs.admitted_hall hadm hconn
    refine ⟨conn, selectById, rfl, ?_⟩
    cases hs with
    | @hall _ _ _ _ hnew _ hroom =>
      rwa [Server.inGameRoom_connect fun hroomEntry => ?_] at hroom
      obtain ⟨-, closed, hknown⟩ := hi .room uid conn hroomEntry
      cases hnew.symm.trans hknown
    | entered _ hnone => rcases hnone with hnone | hnone | hnone <;> cases hnone
    | twice => cases List.mem_singleton.mp hadm

/-- A hall connection that closes is gone from the hall, and so is the user whom its close callback finds. -/
theorem closed_inGameHall (hs : FrontStep f (.closed conn user) f' out) (hhall : f.conns conn = some ⟨.hall, false⟩)
    (hleft : user = some uid ∨ f.server.om.gameHall uid = some conn ∨ f.server.inGameHall uid = false) :
    f'.server.inGameHall uid = false := by
  by_contra hin
  obtain ⟨other, hentry, hopen⟩ := Server.inGameHall_iff.mp (Bool.not_eq_false _ ▸ hin)
  have hkept : f.server.om.gameHall uid = some other ∧ user ≠ some uid := by
    cases hs with
    | left hconn hnone =>
      rw [hhall] at hconn
      cases hconn
      rcases hnone with rfl | hother
      · exact ⟨hentry, nofun⟩
      · cases hother
    | leftHall =>
      obtain ⟨hne, hold⟩ := Dict.erase_eq_some.mp hentry
      exact ⟨hold, fun heq => hne (Option.some.inj heq).symm⟩
    | leftRoom hconn | leftSpectate hconn => cases hhall.symm.trans hconn
  cases hs.doors with
  | closed _ _ hisOpen =>
    rw [hisOpen, Function.update_apply] at hopen
    split at hopen
    · cases hopen
    · rename_i hne
      rcases hleft with huser | hconn | hout
      · exact hkept.2 huser
      · exact hne (Option.some.inj (hkept.1.symm.trans hconn))
      · rw [Server.inGameHall_iff.mpr ⟨other, hkept.1, hopen⟩] at hout
        cases hout

end Front

namespace FrontTrans

/-- A `match_stop` comes when no match thread holds the user, and no queue but the one of the user's score at that
    moment. Who enters the hall is held by no match thread, and stands in a queue only if the latest event is still a
    `match_start`. And whose hall connection closes without being found is not left in the hall with another one while
    waiting for a match. -/
structure Orderly (us : List FrontTrans) (x : FrontTrans) : Prop where
  stop : ∀ conn uid body selectById now later, x.event = .message conn (some uid) body selectById now later →
    x.asks = some (uid, "match_stop") → (∀ k, uid ∉ x.before.server.hands k) ∧
      ∀ k, uid ∈ x.before.server.queues k → poolOfUser selectById uid = .ok (some k)
  enter : ∀ conn uid selectById, x.event = .opened conn .hall (some uid) selectById →
    x.before.server.inGameHall uid = false → x.before.server.inGameRoom uid = false →
    (∀ k, uid ∉ x.before.server.hands k) ∧ ∀ k, uid ∈ x.before.server.queues k → latest uid us = some .start
  lose : ∀ conn user uid, x.event = .closed conn user → hallUser us conn = some uid → user ≠ some uid →
    x.before.server.inGameHall uid = true → x.before.server.om.gameHall uid ≠ some conn →
    ∀ k, uid ∉ x.before.server.queues k ∧ uid ∉ x.before.server.hands k

end FrontTrans

namespace Front
open FrontTrans
variable {f f' : Front} {e : FrontEvent} {out : List FrontObs} {ts us : List FrontTrans} {x : FrontTrans} {conn : ConnId}
  {k : Pool} {uid uid1 uid2 : Uid}

/-- An orderly stop takes the user out of every place. -/
theorem load_stop {selectById : Uid → Option Members} {s : Server} {obs : List Obs}
    (hs : Server.ServerStep f.server (.matchStop uid selectById) s obs) (hhands : ∀ k, uid ∉ f.server.hands k)
    (hqueues : ∀ k, uid ∈ f.server.queues k → poolOfUser selectById uid = .ok (some k)) : s.load uid = 0 := by
  refine Nat.eq_zero_of_not_pos fun hpos => ?_
  obtain ⟨k, hmem⟩ := Server.load_pos.mp hpos
  cases hs with
  | @stop _ _ pool hpool =>
    rcases hmem with hmem | hmem
    · rw [Server.remove_queues] at hmem
      split at hmem
      · simpa using (List.mem_filter.mp hmem).2
      · rename_i hne
        cases hpool.symm.trans (hqueues k hmem)
        exact hne rfl
    · exact hhands k hmem
  | stopLost hpool =>
    rcases hmem with hmem | hmem
    · cases hpool.symm.trans (hqueues k hmem)
    · exact hhands k hmem
  | network hconn => exact hconn.elim

/-! ### Who is served has asked -/

/-- Who waits has asked last, or is not in the hall; and so it was for the two users of a `create_room` when it
    started, of which the one that is still to be looked at has not come back. -/
structure Timely (ts : List FrontTrans) (f : Front) : Prop where
  waits : ∀ uid, 0 < f.server.load uid → latest uid ts = some .start ∨ f.server.inGameHall uid = false
  hall2 : ∀ k uid1 uid2, f.server.pcs k = .hall2 uid1 uid2 → latest uid1 (begun k ts) = some .start ∧
    (latest uid2 (begun k ts) = some .start ∨ f.server.inGameHall uid2 = false)
  create : ∀ k uid1 uid2, f.server.pcs k = .create uid1 uid2 →
    latest uid1 (begun k ts) = some .start ∧ latest uid2 (begun k ts) = some .start

theorem timely_start : Timely [] start where
  waits _ h := absurd h (Nat.lt_irrefl 0)
  hall2 _ _ _ h := nomatch h
  create _ _ _ h := nomatch h

theorem begun_of_begins (h : x.begins k = true) : begun k (ts ++ [x]) = ts := by
  rw [begun, List.rdropWhile_concat_neg _ _ _ (by simp [h]), List.dropLast_concat]

theorem begun_of_not (h : x.begins k = false) : begun k (ts ++ [x]) = begun k ts := by
  rw [begun, List.rdropWhile_concat_pos _ _ _ (by simp [h]), begun]

theorem not_begins (h : ∀ selectById now, e ≠ .turn k selectById now) : begins k ⟨f, e, f', out⟩ = false := by
  cases e with
  | turn k' selectById now =>
    have hne : k' ≠ k := by
      rintro rfl
      exact h selectById now rfl
    cases hpc : f.server.pcs k <;> simp [begins, hpc, hne]
  | _ => rfl

section Step
variable (hi : Registered us f) (hc : f.server.rm.Consistent) (hs : machine.step f e = some (f', out))
  (hx : Orderly us ⟨f, e, f', out⟩)
include hi hc hs hx

theorem out_of_held (hmem : uid ∈ f.server.hands k) (hout : f.server.inGameHall uid = false) :
    f'.server.inGameHall uid = false := by
  by_contra hin
  obtain ⟨conn, selectById, rfl, hroom⟩ := Registered.enters hi hc (step_inv hs) hout (Bool.not_eq_false _ ▸ hin)
  exact (hx.enter conn uid selectById rfl hout hroom).1 k hmem

omit hi hc in
/-- Who still waits after a hall close of its own is not in the hall. -/
theorem out_of_leaves (hleaves : leavesHall us ⟨f, e, f', out⟩ uid = true) (hload : 0 < f.server.load uid) :
    f'.server.inGameHall uid = false := by
  cases e with
  | closed conn user =>
    simp only [leavesHall, Bool.and_eq_true, Bool.or_eq_true, decide_eq_true_eq] at hleaves
    obtain ⟨hhall, hwho⟩ := hleaves
    refine closed_inGameHall (step_inv hs) hhall ?_
    by_cases huser : user = some uid
    · exact Or.inl huser
    refine Or.inr ?_
    by_contra hno
    push Not at hno
    obtain ⟨k, hmem⟩ := Server.load_pos.mp hload
    obtain ⟨hqueue, hhand⟩ := hx.lose conn user uid rfl (hwho.resolve_left huser) huser (Bool.not_eq_false _ ▸ hno.2) hno.1 k
    exact hmem.elim hqueue hhand
  | turn | opened | message | drop => cases hleaves

theorem Timely.waits_step (h : Timely us f) (hload : 0 < f'.server.load uid) :
    latest uid (us ++ [⟨f, e, f', out⟩]) = some .start ∨ f'.server.inGameHall uid = false := by
  have hmatch := step_match hs
  rw [latest_snoc, hallAct]
  split
  · exact Or.inl rfl
  rename_i hstart
  have hwaits : 0 < f.server.load uid := Nat.lt_of_lt_of_le hload (hmatch.load_le hstart)
  split
  · rename_i hstop
    cases hmatch with
    | @stop conn v body selectById now later s obs resp hconn hkind hserver =>
      obtain rfl : v = uid := by simpa [asks, hconn, hkind] using hstop
      obtain ⟨hhands, hqueues⟩ := hx.stop conn v body selectById now later rfl hstop
      rw [load_stop hserver hhands hqueues] at hload
      exact absurd hload (Nat.lt_irrefl 0)
    | start hconn hkind => simp [asks, hconn, hkind] at hstop
    | turn => cases hstop
    | other _ hsilent => exact absurd hstop (hsilent uid).2
  split
  · rename_i hleaves
    exact Or.inr (out_of_leaves hs hx hleaves hwaits)
  rcases h.waits uid hwaits with hlatest | hout
  · exact Or.inl hlatest
  by_cases hin : f'.server.inGameHall uid = true
  · obtain ⟨conn, selectById, rfl, hroom⟩ := Registered.enters hi hc (step_inv hs) hout hin
    obtain ⟨hhands, hqueues⟩ := hx.enter conn uid selectById rfl hout hroom
    obtain ⟨k, hmem | hmem⟩ := Server.load_pos.mp hwaits
    · exact Or.inl (hqueues k hmem)
    · exact absurd hmem (hhands k)
  · exact Or.inr ((Bool.not_eq_true _).mp hin)

theorem Timely.hall2_step (h : Timely us f) (hpc : f'.server.pcs k = .hall2 uid1 uid2) :
    latest uid1 (begun k (us ++ [⟨f, e, f', out⟩])) = some .start ∧
      (latest uid2 (begun k (us ++ [⟨f, e, f', out⟩])) = some .start ∨ f'.server.inGameHall uid2 = false) := by
  by_cases hturn : ∃ selectById now, e = .turn k selectById now
  · obtain ⟨selectById, now, rfl⟩ := hturn
    cases step_match hs with
    | turn hserver =>
      obtain ⟨hbefore, hhall⟩ := (Server.turn_createRoom hserver).1 hpc
      have hheld : f.server.hands k = [uid1, uid2] := by rw [Server.hands, hbefore]; rfl
      have waits {uid : Uid} (hmem : uid ∈ f.server.hands k) := h.waits uid (Server.load_pos.mpr ⟨k, Or.inr hmem⟩)
      rw [begun_of_begins (by simp [begins, hbefore])]
      constructor
      · exact (waits (by simp [hheld])).resolve_right (by simp [hhall])
      · have hmem : uid2 ∈ f.server.hands k := by simp [hheld]
        exact (waits hmem).imp_right (out_of_held hi hc hs hx hmem)
    | other hno => exact absurd rfl (hno k selectById now)
  · have hno : ∀ selectById now, e ≠ .turn k selectById now := fun selectById now heq => hturn ⟨selectById, now, heq⟩
    rw [(step_match hs).pcs_eq hno] at hpc
    have hmem : uid2 ∈ f.server.hands k := by simp [Server.hands, hpc, Pc.hands]
    rw [begun_of_not (not_begins hno)]
    exact (h.hall2 k uid1 uid2 hpc).imp_right (Or.imp_right (out_of_held hi hc hs hx hmem))

omit hi hc hx in
theorem Timely.create_step (h : Timely us f) (hpc : f'.server.pcs k = .create uid1 uid2) :
    latest uid1 (begun k (us ++ [⟨f, e, f', out⟩])) = some .start ∧
      latest uid2 (begun k (us ++ [⟨f, e, f', out⟩])) = some .start := by
  by_cases hturn : ∃ selectById now, e = .turn k selectById now
  · obtain ⟨selectById, now, rfl⟩ := hturn
    cases step_match hs with
    | turn hserver =>
      obtain ⟨hbefore, hhall⟩ := (Server.turn_createRoom hserver).2 hpc
      rw [begun_of_not (by simp [begins, hbefore])]
      obtain ⟨hfirst, hsecond⟩ := h.hall2 k uid1 uid2 hbefore
      exact ⟨hfirst, hsecond.resolve_right (by simp [hhall])⟩
    | other hno => exact absurd rfl (hno k selectById now)
  · have hno : ∀ selectById now, e ≠ .turn k selectById now := fun selectById now heq => hturn ⟨selectById, now, heq⟩
    rw [(step_match hs).pcs_eq hno] at hpc
    rw [begun_of_not (not_begins hno)]
    exact h.create k uid1 uid2 hpc

theorem Timely.step (h : Timely us f) : Timely (us ++ [⟨f, e, f', out⟩]) f' where
  waits _ := h.waits_step hi hc hs hx
  hall2 _ _ _ := h.hall2_step hi hc hs hx
  create _ _ _ := h.create_step hs

end Step

theorem run_timely (h : machine.Run start ts f) (hx : ∀ us x vs, ts = us ++ x :: vs → x.Orderly us) : Timely ts f := by
  refine (h.invariant_along (I := fun ts f => (f.server.rm.Consistent ∧ Registered ts f) ∧ Timely ts f)
    ⟨run_registered .nil, timely_start⟩ hx ?_).2
  rintro us f e f' out ⟨⟨hc, hi⟩, htimely⟩ hs hx
  exact ⟨⟨(step_inv hs).consistent hc, Registered.step hi hc (step_inv hs)⟩, htimely.step hi hc hs hx⟩

/-- Who neither waits nor asks for a match is not in any queue, and gets no seat. -/
theorem run_idle (h : machine.Run f ts f') (hload : f.server.load uid = 0)
    (hno : ∀ x ∈ ts, x.asks ≠ some (uid, "match_start")) : f'.server.load uid = 0 :=
  h.invariant_of (I := fun f => f.server.load uid = 0) (C := fun x : FrontTrans => x.asks ≠ some (uid, "match_start")) hload hno
    fun hi hs hx => Nat.le_zero.mp (hi ▸ (step_match hs).load_le hx)

/-- A withdrawn request is honoured: a `create_room` that seats a user started when the latest of its hall events
    was a `match_start`, and who was taken out by `del` and has not asked again is in no queue and gets no seat. -/
structure Honoured (ts : List FrontTrans) (f : Front) : Prop where
  wanted : ∀ us x vs k r uid, ts = us ++ x :: vs → .server (.created k r) ∈ x.out → r.Seats uid →
    latest uid (begun k us) = some .start
  stopped : ∀ us x vs uid pool, ts = us ++ x :: vs → .server (.removed pool uid) ∈ x.out →
    (∀ y ∈ vs, y.asks ≠ some (uid, "match_start")) →
    (∀ k, uid ∉ f.server.queues k) ∧ ∀ y ∈ vs, ∀ k r, .server (.created k r) ∈ y.out → ¬r.Seats uid

/-- As long as stops, entries and lost closes are orderly, withdrawals are honoured. -/
theorem withdrawal_honoured (h : machine.Run start ts f) (hx : ∀ us x vs, ts = us ++ x :: vs → x.Orderly us) :
    Honoured ts f := by
  constructor
  · rintro us x vs k r uid rfl hcreated hseat
    obtain ⟨hus, hs, -⟩ := h.split
    have htimely := run_timely hus fun us' y vs' heq => hx us' y (vs' ++ x :: vs) (by simp [heq])
    obtain ⟨uid1, uid2, now, hpc, rfl⟩ := (step_match hs).created hcreated
    obtain ⟨hfirst, hsecond⟩ := htimely.create k uid1 uid2 hpc
    rcases Room.seats_create.mp hseat with rfl | rfl
    · exact hfirst
    · exact hsecond
  · rintro us ⟨f₁, e, f₂, out⟩ vs uid pool rfl hremoved hno
    have hs : machine.step f₁ e = some (f₂, out) := h.split.2.1
    have hvs : machine.Run f₂ vs f := h.split.2.2
    have hload : f₂.server.load uid = 0 := by
      obtain ⟨conn, body, selectById, now, later, s, rfl, hasks, hserver, rfl⟩ := (step_match hs).removed hremoved
      obtain ⟨hhands, hqueues⟩ := (hx us _ vs rfl).stop conn uid body selectById now later rfl hasks
      exact load_stop hserver hhands hqueues
    have idle {f : Front} (hzero : f.server.load uid = 0) : ∀ k, uid ∉ f.server.queues k ∧ uid ∉ f.server.hands k := fun k =>
      ⟨fun hmem => (Server.load_pos.mpr ⟨k, Or.inl hmem⟩).ne' hzero, fun hmem => (Server.load_pos.mpr ⟨k, Or.inr hmem⟩).ne' hzero⟩
    refine ⟨fun k => (idle (run_idle hvs hload hno) k).1, fun y hy k r hcreated hseat => ?_⟩
    obtain ⟨us', vs', rfl, hus', hy⟩ := hvs.split_mem hy
    obtain ⟨uid1, uid2, now, hpc, rfl⟩ := (step_match hy).created hcreated
    have hzero := run_idle hus' hload fun z hz => hno z (List.mem_append_left _ hz)
    refine (idle hzero k).2 ?_
    rw [Server.hands_create hpc]
    simpa using Room.seats_create.mp hseat

/-- A step that is orderly whatever the user's latest hall event was. -/
def calm (x : FrontTrans) : Bool :=
  match x.event with
  | .message _ (some uid) _ selectById _ _ => x.asks = some (uid, "match_stop") →
      (∀ k, uid ∉ x.before.server.hands k) ∧ ∀ k, uid ∈ x.before.server.queues k → poolOfUser selectById uid = .ok (some k)
  | .opened _ _ (some uid) _ => ∀ k, uid ∉ x.before.server.hands k ∧ uid ∉ x.before.server.queues k
  | .closed _ _ => ∀ k, x.before.server.queues k = [] ∧ x.before.server.hands k = []
  | _ => true

theorem orderly_of_calm (h : calm x = true) : x.Orderly us := by
  constructor
  · intro conn uid body selectById now later he hasks
    simp only [calm, he, decide_eq_true_eq] at h
    exact h hasks
  · intro conn uid selectById he _ _
    simp only [calm, he, decide_eq_true_eq] at h
    exact ⟨fun k => (h k).1, fun k hmem => absurd hmem (h k).2⟩
  · intro conn user uid he _ _ _ _ k
    simp only [calm, he, decide_eq_true_eq] at h
    rw [(h k).1, (h k).2]
    exact ⟨List.not_mem_nil, List.not_mem_nil⟩

/-- A message of the session user `uid` in the hall. -/
def hallMessage (conn : ConnId) (uid : Uid) (optype : String) : FrontEvent :=
  .message conn (some uid) (some (.obj [("optype", .str optype)])) newcomer 0 0

/-- The same for a user who stops in the queue, loses the connection without being found, comes back with a new one,
    asks again, and is seated. -/
theorem withdrawal_honoured_again : ∃ (ts : List FrontTrans) (f : Front), machine.Run start ts f ∧
    latest 1 (begun .normal ts) = some .start ∧ f.server.rm.nextRid = 2 ∧ Honoured ts f := by
  obtain ⟨ts, f, h, hcalm, hlatest, hnext⟩ := Machine.Run.exists_of_exec machine start
    ([.opened 1 .hall (some 1) newcomer, .opened 2 .hall (some 2) newcomer, hallMessage 1 1 "match_start",
      hallMessage 1 1 "match_stop", .closed 1 none, .opened 3 .hall (some 1) newcomer, hallMessage 3 1 "match_start",
      hallMessage 2 2 "match_start"] ++ List.replicate 8 (.turn .normal newcomer 0))
    (fun (ts : List FrontTrans) f => (∀ x ∈ ts, calm x = true) ∧ latest 1 (begun .normal ts) = some .start ∧
      f.server.rm.nextRid = 2) (by decide +kernel)
  exact ⟨ts, f, h, hlatest, hnext, withdrawal_honoured h fun us x vs heq => orderly_of_calm (hcalm x (by simp [heq]))⟩

/-- A user whose `match_stop` comes after the first pop is seated all the same. -/
theorem stopped_seated : ¬∀ (ts : List FrontTrans) f, machine.Run start ts f → Honoured ts f := by
  intro hall
  obtain ⟨ts, f, h, hlate⟩ := Machine.Run.exists_of_exec machine start
    ([.opened 1 .hall (some 1) newcomer, .opened 2 .hall (some 2) newcomer, hallMessage 1 1 "match_start",
      hallMessage 2 2 "match_start", .turn .normal newcomer 0, .turn .normal newcomer 0, hallMessage 1 1 "match_stop"]
      ++ List.replicate 6 (.turn .normal newcomer 0))
    (fun (ts : List FrontTrans) _ => (ts[12]?.any fun x => (x.out.any fun
      | .server (.created k r) => k = .normal ∧ r.whiteId = 1
      | _ => false) && decide (latest 1 (begun .normal (ts.take 12)) = some .stop)) = true) (by decide +kernel)
  obtain ⟨x, hx, hlate⟩ := (Option.any_eq_true _ _).mp hlate
  obtain ⟨hlt, rfl⟩ := List.getElem?_eq_some_iff.mp hx
  have hsplit : ts = ts.take 12 ++ ts[12] :: ts.drop 13 := by
    rw [← List.drop_eq_getElem_cons hlt, List.take_append_drop]
  rw [Bool.and_eq_true, decide_eq_true_eq] at hlate
  obtain ⟨obs, hobs, hseat⟩ := List.any_eq_true.mp hlate.1
  split at hseat
  · rename_i k r
    simp only [Bool.decide_and, Bool.and_eq_true, decide_eq_true_eq] at hseat
    obtain ⟨rfl, hwhite⟩ := hseat
    have hwanted := (hall ts f h).wanted _ _ _ _ r 1 hsplit hobs (Or.inl hwhite.symm)
    rw [hlate.2] at hwanted
    cases hwanted
  · cases hseat

end Front
end FiveStones
