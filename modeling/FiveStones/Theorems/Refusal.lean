import FiveStones.Theorems.Registration
import FiveStones.Theorems.Sender

/-! Connections that are refused when they open, and what their callbacks do to everybody else.

The handlers look at the states of the connections that stand in a table, and at no others: a step goes the same
way whatever becomes of a connection that never gets into one. -/

namespace FiveStones

/-! ### Where the handlers look -/

/-- The two environments differ at most in the states of connections that stand for nobody in a room. -/
structure Env.Alike (env env' : Env) : Prop where
  inGameRoom : ∀ uid, env'.inGameRoom uid = env.inGameRoom uid
  selectById : env'.selectById = env.selectById
  now : env'.now = env.now
  later : env'.later = env.later

namespace Room
variable {env env' : Env} (r : Room) (m : Members)

theorem handleChess_alike (h : env.Alike env') : r.handleChess env' m = r.handleChess env m := by
  simp only [handleChess, h.inGameRoom]

theorem passTurn_alike (h : env.Alike env') (uid : Uid) (ms : Nat) : r.passTurn env' uid ms = r.passTurn env uid ms := by
  simp only [passTurn, h.later]

theorem afterChess_alike (h : env.Alike env') (uid : Uid) (ms : Nat) (resp : Members) :
    r.afterChess env' uid ms resp = r.afterChess env uid ms resp := by
  simp only [afterChess, passTurn_alike r h]

theorem putChess_alike (h : env.Alike env') : r.putChess env' m = r.putChess env m := by
  have hms : r.thinkingMs env' = r.thinkingMs env := by rw [thinkingMs, thinkingMs, h.now]
  have hafter : ∀ (r : Room) uid ms resp, r.afterChess env' uid ms resp = r.afterChess env uid ms resp :=
    fun r => afterChess_alike r h
  simp only [putChess, hms, handleChess_alike r m h, hafter]

theorem timeout_alike (h : env.Alike env') : r.timeout env' m = r.timeout env m := by
  simp only [timeout, h.now]

theorem bothPlayersOnline_alike (h : env.Alike env') : r.bothPlayersOnline env' = r.bothPlayersOnline env := by
  simp only [bothPlayersOnline, h.inGameRoom]

theorem fillWhiteBlackUsernames_alike (h : env.Alike env') :
    r.fillWhiteBlackUsernames env' m = r.fillWhiteBlackUsernames env m := by
  simp only [fillWhiteBlackUsernames, usernameOf, h.selectById]

theorem startRematch_alike (h : env.Alike env') : r.startRematch env' = r.startRematch env := by
  simp only [startRematch, fillWhiteBlackUsernames, usernameOf, h.selectById, h.now]

theorem rematchInvite_alike (h : env.Alike env') : r.rematchInvite env' m = r.rematchInvite env m := by
  simp only [rematchInvite, bothPlayersOnline_alike r h, fillWhiteBlackUsernames_alike r _ h]

theorem rematchAccept_alike (h : env.Alike env') : r.rematchAccept env' m = r.rematchAccept env m := by
  simp only [rematchAccept, bothPlayersOnline_alike r h, startRematch_alike r h]

theorem handleRequest_alike (h : env.Alike env') (req : Json) : r.handleRequest env' req = r.handleRequest env req := by
  simp only [handleRequest, putChess_alike r _ h, timeout_alike r _ h, rematchInvite_alike r _ h, rematchAccept_alike r _ h]

end Room

theorem RoomManager.wsmsgGameRoom_alike {env env' : Env} (h : env.Alike env') (rm : RoomManager) (uid : Uid)
    (body : Option Json) : rm.wsmsgGameRoom env' uid body = rm.wsmsgGameRoom env uid body := by
  unfold wsmsgGameRoom
  split
  · rfl
  · rfl
  · rw [Room.handleRequest_alike _ h]

namespace Server
variable {s : Server} {i : ConnId → Bool} {uid : Uid} {conn : ConnId}

/-- The server with other states of the connections. -/
def withOpen (s : Server) (i : ConnId → Bool) : Server := { s with isOpen := i }

/-- The states agree on the connections that stand in the hall or in a room. -/
def AgreeOpen (s : Server) (i : ConnId → Bool) : Prop :=
  ∀ uid conn, s.om.gameHall uid = some conn ∨ s.om.gameRoom uid = some conn → i conn = s.isOpen conn

theorem AgreeOpen.inGameHall (h : s.AgreeOpen i) (uid : Uid) : (s.withOpen i).inGameHall uid = s.inGameHall uid := by
  simp only [Server.inGameHall, OnlineManager.inGameHall, withOpen]
  cases hentry : s.om.gameHall uid with
  | none => rfl
  | some conn => exact h uid conn (Or.inl hentry)

theorem AgreeOpen.inGameRoom (h : s.AgreeOpen i) (uid : Uid) : (s.withOpen i).inGameRoom uid = s.inGameRoom uid := by
  simp only [Server.inGameRoom, OnlineManager.inGameRoom, withOpen]
  cases hentry : s.om.gameRoom uid with
  | none => rfl
  | some conn => exact h uid conn (Or.inr hentry)

theorem AgreeOpen.env (h : s.AgreeOpen i) (selectById : Uid → Option Members) (now later : Int) :
    (s.env selectById now later).Alike ((s.withOpen i).env selectById now later) :=
  ⟨h.inGameRoom, rfl, rfl, rfl⟩

theorem AgreeOpen.update (h : s.AgreeOpen i) (conn : ConnId) (b : Bool) :
    ({ s with isOpen := Function.update s.isOpen conn b } : Server).AgreeOpen (Function.update i conn b) := by
  intro uid conn' hentry
  by_cases heq : conn' = conn
  · simp [heq]
  · simp only [Function.update_of_ne heq]
    exact h uid conn' hentry

theorem turn_withOpen (h : s.AgreeOpen i) (k : Pool) (selectById : Uid → Option Members) (now : Int) :
    (s.withOpen i).turn k selectById now = (s.turn k selectById now).map fun x => (x.1.withOpen i, x.2) := by
  have hpcs : (s.withOpen i).pcs = s.pcs := rfl
  have hqueues : (s.withOpen i).queues = s.queues := rfl
  unfold turn
  simp only [hpcs, hqueues, h.inGameHall]
  cases s.pcs k with
  | create uid1 uid2 => rfl
  | size | wait | pop1 | pop2 uid1 | conn1 uid1 uid2 | conn2 uid1 uid2 | hall1 uid1 uid2 | hall2 uid1 uid2 | add uid rest =>
    simp only
    split <;> rfl

theorem wsopenGameHall_withOpen (h : s.AgreeOpen i) : (s.withOpen i).wsopenGameHall uid conn =
    (s.wsopenGameHall uid conn).withOpen (Function.update i conn true) := by
  rw [wsopenGameHall_eq_ite, wsopenGameHall_eq_ite]
  have hagree := h.update conn true
  have hhall : ((s.withOpen i).connect conn).inGameHall uid = (s.connect conn).inGameHall uid := hagree.inGameHall uid
  have hroom : ((s.withOpen i).connect conn).inGameRoom uid = (s.connect conn).inGameRoom uid := hagree.inGameRoom uid
  rw [hhall, hroom]
  split <;> rfl

theorem wsopenGameRoom_withOpen (h : s.AgreeOpen i) : (s.withOpen i).wsopenGameRoom uid conn =
    (s.wsopenGameRoom uid conn).withOpen (Function.update i conn true) := by
  rw [wsopenGameRoom_eq_ite, wsopenGameRoom_eq_ite]
  have hagree := h.update conn true
  have hhall : ((s.withOpen i).connect conn).inGameHall uid = (s.connect conn).inGameHall uid := hagree.inGameHall uid
  have hroom : ((s.withOpen i).connect conn).inGameRoom uid = (s.connect conn).inGameRoom uid := hagree.inGameRoom uid
  have hrm : (s.withOpen i).rm = s.rm := rfl
  simp only [hhall, hroom, hrm]
  split
  · rfl
  · cases s.rm.getRoomByUid uid <;> rfl

theorem hallReady_withOpen (h : s.AgreeOpen i) : (s.withOpen i).hallReady uid conn = s.hallReady uid conn := by
  simp only [hallReady, h.inGameHall, h.inGameRoom]

theorem roomReady_withOpen (h : s.AgreeOpen i) (selectById : Uid → Option Members) :
    (s.withOpen i).roomReady uid conn selectById = s.roomReady uid conn selectById := by
  simp only [roomReady, h.inGameRoom, Room.fillWhiteBlackUsernames_alike _ _ (h.env selectById 0 0)]
  rfl

theorem matchStart_withOpen (selectById : Uid → Option Members) : (s.withOpen i).matchStart selectById uid =
    (s.matchStart selectById uid).map fun x => (x.1.withOpen i, x.2) := by
  unfold matchStart
  cases poolOfUser selectById uid with
  | error e => rfl
  | ok pool? => cases pool? <;> rfl

theorem matchStop_withOpen (selectById : Uid → Option Members) : (s.withOpen i).matchStop selectById uid =
    (s.matchStop selectById uid).map fun x => (x.1.withOpen i, x.2) := by
  unfold matchStop
  cases poolOfUser selectById uid with
  | error e => rfl
  | ok pool? => cases pool? <;> rfl

theorem wsmsgGameHall_withOpen (selectById : Uid → Option Members) (body : Option Json) :
    (s.withOpen i).wsmsgGameHall selectById uid body =
      (s.wsmsgGameHall selectById uid body).map fun x => (x.1.withOpen i, x.2) := by
  unfold wsmsgGameHall
  cases body with
  | none => rfl
  | some req =>
    simp only [matchStart_withOpen, matchStop_withOpen, bind, Except.bind]
    cases req.members with
    | error e => rfl
    | ok m =>
      simp only
      cases (m.get "optype").asString with
      | error e => rfl
      | ok optype =>
        simp only
        split
        · cases s.matchStart selectById uid <;> rfl
        split
        · cases s.matchStop selectById uid <;> rfl
        split <;> rfl

theorem wsmsgSpectate_withOpen (selectById : Uid → Option Members) (body : Option Json) :
    (s.withOpen i).wsmsgSpectate selectById uid conn body =
      (s.wsmsgSpectate selectById uid conn body).map fun x => (x.1.withOpen i, x.2) := by
  unfold wsmsgSpectate
  cases body with
  | none => rfl
  | some req =>
    simp only [bind, Except.bind]
    cases req.members with
    | error e => rfl
    | ok m =>
      simp only
      cases (m.get "optype").asString with
      | error e => rfl
      | ok optype =>
        simp only
        split
        · cases (m.get "room_id").asUInt64 with
          | error e => rfl
          | ok rid =>
            have hrm : (s.withOpen i).rm = s.rm := rfl
            simp only [hrm]
            split
            · rfl
            · split <;> rfl
        · rfl

end Server

/-! ### Without one of the connections -/

def FrontEvent.conn : FrontEvent → Option ConnId
  | .turn .. => none
  | .opened conn .. | .message conn .. | .closed conn .. | .drop conn => some conn

namespace Front
variable {f g f' : Front} {e : FrontEvent} {out : List FrontObs} {conn conn' : ConnId} {uri : WsUri} {uid : Uid}

/-- The two states differ at most in what they know of `conn` itself. -/
structure AlikeOff (conn : ConnId) (f g : Front) : Prop where
  server : ∃ i, g.server = f.server.withOpen i ∧ ∀ conn', conn' ≠ conn → i conn' = f.server.isOpen conn'
  conns : ∀ conn', conn' ≠ conn → g.conns conn' = f.conns conn'

theorem onOpen_withOpen {s : Server} {i : ConnId → Bool} (h : s.AgreeOpen i) (selectById : Uid → Option Members) :
    onOpen (s.withOpen i) conn uri uid selectById =
      ((onOpen s conn uri uid selectById).1.withOpen
        (match uri with
          | .hall | .room => Function.update i conn true
          | .spectate | .other => i),
        (onOpen s conn uri uid selectById).2) := by
  cases uri with
  | hall => simp only [onOpen, Server.wsopenGameHall_withOpen h, Server.hallReady_withOpen h]
  | room => simp only [onOpen, Server.wsopenGameRoom_withOpen h, Server.roomReady_withOpen h]
  | spectate | other => rfl

theorem onMessage_withOpen {s : Server} {i : ConnId → Bool} (h : s.AgreeOpen i) (selectById : Uid → Option Members)
    (body : Option Json) (now later : Int) : onMessage (s.withOpen i) conn uri uid body selectById now later =
      (onMessage s conn uri uid body selectById now later).map fun x => (x.1.withOpen i, x.2) := by
  cases uri with
  | hall =>
    simp only [onMessage, Server.wsmsgGameHall_withOpen]
    cases s.wsmsgGameHall selectById uid body <;> rfl
  | room =>
    have hrm : (s.withOpen i).rm = s.rm := rfl
    simp only [onMessage, hrm, RoomManager.wsmsgGameRoom_alike (h.env selectById now later)]
    cases s.rm.wsmsgGameRoom (s.env selectById now later) uid body <;> rfl
  | spectate =>
    simp only [onMessage, Server.wsmsgSpectate_withOpen]
    cases s.wsmsgSpectate selectById uid conn body <;> rfl
  | other => rfl

theorem onClose_withOpen {s : Server} {i : ConnId → Bool} :
    onClose (s.withOpen i) uri uid = ((onClose s uri uid).1.withOpen i, (onClose s uri uid).2) := by
  cases uri <;> rfl

theorem onOpen_isOpen (s : Server) (selectById : Uid → Option Members) : (onOpen s conn uri uid selectById).1.isOpen =
    match uri with
    | .hall | .room => Function.update s.isOpen conn true
    | .spectate | .other => s.isOpen := by
  cases uri with
  | hall =>
    simp only [onOpen, Server.wsopenGameHall_eq_ite]
    split <;> rfl
  | room =>
    simp only [onOpen, Server.wsopenGameRoom_eq_ite]
    split
    · rfl
    · cases s.rm.getRoomByUid uid <;> rfl
  | spectate | other => rfl

theorem onMessage_isOpen {s : Server} {selectById : Uid → Option Members} {body : Option Json} {now later : Int}
    (hconn : f.conns conn = some ⟨uri, false⟩)
    (h : onMessage f.server conn uri uid body selectById now later = .ok (s, out)) : s.isOpen = f.server.isOpen := by
  generalize hf' : ({ f with server := s } : Front) = f'
  have hs := hf' ▸ onMessage_inv hconn h
  have hsame : f'.server.isOpen = f.server.isOpen := by
    cases hs <;> rfl
  exact (hf' ▸ rfl : f'.server.isOpen = s.isOpen).symm.trans hsame

theorem update_off {i j : ConnId → Bool} (h : ∀ c, c ≠ conn → i c = j c) (d : ConnId) (b : Bool) :
    ∀ c, c ≠ conn → Function.update i d b c = Function.update j d b c := by
  intro c hc
  by_cases heq : c = d
  · simp [heq]
  · simp [heq, h c hc]

theorem assign_off {d d' : Dict ConnId Conn} (h : ∀ c, c ≠ conn → d' c = d c) (k : ConnId) (v : Conn) :
    ∀ c, c ≠ conn → d'.assign k v c = d.assign k v c := by
  intro c hc
  by_cases heq : c = k
  · simp [heq]
  · rw [Dict.assign_ne heq, Dict.assign_ne heq, h c hc]

/-- In the tables of a state without `conn`, the two find the same connections open. -/
theorem agreeOpen_of_absent {i : ConnId → Bool} (habsent : ∀ t uid, f.entry t uid ≠ some conn)
    (hopen : ∀ c, c ≠ conn → i c = f.server.isOpen c) : f.server.AgreeOpen i := by
  rintro uid conn' (hentry | hentry)
  · exact hopen conn' fun heq => habsent .hall uid (heq ▸ hentry)
  · exact hopen conn' fun heq => habsent .room uid (heq ▸ hentry)

namespace AlikeOff
variable {d : ConnId} {selectById : Uid → Option Members} {now later : Int} {user : Option Uid} {body : Option Json}

theorem connect (h : AlikeOff conn f g) (d : ConnId) (uri : WsUri) : AlikeOff conn (f.connect d uri) (g.connect d uri) := by
  obtain ⟨⟨i, hserver, hopen⟩, hconns⟩ := h
  refine ⟨⟨Function.update i d true, ?_, update_off hopen d true⟩, assign_off hconns d _⟩
  rw [Front.connect, hserver]
  rfl

theorem disconnect (h : AlikeOff conn f g) (d : ConnId) (uri : WsUri) :
    AlikeOff conn (f.disconnect d uri) (g.disconnect d uri) := by
  obtain ⟨⟨i, hserver, hopen⟩, hconns⟩ := h
  refine ⟨⟨Function.update i d false, ?_, update_off hopen d false⟩, assign_off hconns d _⟩
  rw [Front.disconnect, hserver]
  rfl

theorem turn (h : AlikeOff conn f g) (habsent : ∀ t uid, f.entry t uid ≠ some conn) {k : Pool} {s : Server} {obs : List Obs}
    (hs : f.server.turn k selectById now = some (s, obs)) :
    ∃ s', g.server.turn k selectById now = some (s', obs) ∧ AlikeOff conn { f with server := s } { g with server := s' } := by
  obtain ⟨⟨i, hserver, hopen⟩, hconns⟩ := h
  have hsame : s.isOpen = f.server.isOpen := by
    cases Server.turn_inv hs <;> rfl
  refine ⟨s.withOpen i, ?_, ⟨i, rfl, ?_⟩, hconns⟩
  · rw [hserver, Server.turn_withOpen (agreeOpen_of_absent habsent hopen), hs]
    rfl
  · rwa [hsame]

theorem onOpen (h : AlikeOff conn f g) (habsent : ∀ t uid, f.entry t uid ≠ some conn) (d : ConnId) (uri : WsUri) (uid : Uid)
    (selectById : Uid → Option Members) : ∃ s, Front.onOpen g.server d uri uid selectById =
      (s, (Front.onOpen f.server d uri uid selectById).2) ∧
      AlikeOff conn { f with server := (Front.onOpen f.server d uri uid selectById).1 } { g with server := s } := by
  obtain ⟨⟨i, hserver, hopen⟩, hconns⟩ := h
  rw [hserver, onOpen_withOpen (agreeOpen_of_absent habsent hopen)]
  refine ⟨_, rfl, ⟨_, rfl, ?_⟩, hconns⟩
  simp only [onOpen_isOpen]
  cases uri with
  | hall | room => exact update_off hopen d true
  | spectate | other => exact hopen

theorem onMessage (h : AlikeOff conn f g) (habsent : ∀ t uid, f.entry t uid ≠ some conn) {s : Server}
    (hconn : f.conns d = some ⟨uri, false⟩)
    (hs : Front.onMessage f.server d uri uid body selectById now later = .ok (s, out)) :
    ∃ s', Front.onMessage g.server d uri uid body selectById now later = .ok (s', out) ∧
      AlikeOff conn { f with server := s } { g with server := s' } := by
  obtain ⟨⟨i, hserver, hopen⟩, hconns⟩ := h
  refine ⟨s.withOpen i, ?_, ⟨i, rfl, ?_⟩, hconns⟩
  · rw [hserver, onMessage_withOpen (agreeOpen_of_absent habsent hopen), hs]
    rfl
  · rwa [onMessage_isOpen hconn hs]

theorem onClose (h : AlikeOff conn f g) (uri : WsUri) (uid : Uid) :
    ∃ s, Front.onClose g.server uri uid = (s, (Front.onClose f.server uri uid).2) ∧
      AlikeOff conn { f with server := (Front.onClose f.server uri uid).1 } { g with server := s } := by
  obtain ⟨⟨i, hserver, hopen⟩, hconns⟩ := h
  have hsame : (Front.onClose f.server uri uid).1.isOpen = f.server.isOpen := by
    cases uri <;> rfl
  rw [hserver, onClose_withOpen]
  refine ⟨_, rfl, ⟨i, rfl, ?_⟩, hconns⟩
  rwa [hsame]

/-- A step of another connection goes the same way in both states. -/
theorem step (h : AlikeOff conn f g) (habsent : ∀ t uid, f.entry t uid ≠ some conn)
    (he : e.conn ≠ some conn) (hs : machine.step f e = some (f', out)) :
    ∃ g', machine.step g e = some (g', out) ∧ AlikeOff conn f' g' := by
  have hconns : ∀ {d}, e.conn = some d → g.conns d = f.conns d := fun hd => h.conns _ fun heq => he (hd.trans (congrArg _ heq))
  cases e with
  | turn k selectById now =>
    simp only [machine] at hs
    split at hs
    · cases hs
    · rename_i hturn
      cases hs
      obtain ⟨s', hturn', halike⟩ := h.turn habsent hturn
      exact ⟨_, by simp only [machine, hturn'], halike⟩
  | opened d uri user selectById =>
    simp only [machine] at hs
    split at hs
    · cases hs
    · rename_i hnew
      cases user with
      | none =>
        cases hs
        exact ⟨_, by simp only [machine, hconns rfl, hnew], h.connect d uri⟩
      | some uid =>
        cases hs
        obtain ⟨s, hopen, halike⟩ := (h.connect d uri).onOpen habsent d uri uid selectById
        exact ⟨_, by simp only [machine, hconns rfl, hnew, hopen], halike⟩
  | message d user body selectById now later =>
    simp only [machine] at hs
    split at hs
    · rename_i hconn
      cases hs
      exact ⟨g, by simp only [machine, hconns rfl, hconn], h⟩
    · rename_i uri uid hconn
      split at hs
      · cases hs
      · rename_i hmsg
        cases hs
        obtain ⟨s', hmsg', halike⟩ := h.onMessage habsent hconn hmsg
        exact ⟨_, by simp only [machine, hconns rfl, hconn, hmsg'], halike⟩
    · cases hs
  | closed d user =>
    simp only [machine] at hs
    split at hs
    · rename_i uri hconn
      cases user with
      | none =>
        cases hs
        exact ⟨_, by simp only [machine, hconns rfl, hconn], h.disconnect d uri⟩
      | some uid =>
        cases hs
        obtain ⟨s, hclose, halike⟩ := (h.disconnect d uri).onClose uri uid
        exact ⟨_, by simp only [machine, hconns rfl, hconn, hclose], halike⟩
    · cases hs
  | drop d =>
    simp only [machine] at hs
    split at hs
    · cases hs
    · rename_i hconn
      cases hs
      obtain ⟨i, hserver, hopen⟩ := h.server
      refine ⟨{ g with server := g.server.disconnect d }, by simp only [machine, hconns rfl, hconn],
        ⟨Function.update i d false, ?_, update_off hopen d false⟩, h.conns⟩
      exact congrArg (Server.disconnect · d) hserver

end AlikeOff

end Front

/-! ### What changes something -/

/-- The user that a win or a loss is booked for. -/
def Call.pays : Call → Bool
  | .win _ | .lose _ => true
  | .broadcast _ | .reply _ => false

namespace Room
variable {env : Env} {r r' : Room} {m : Members} {out : List Call}

/-- The message changes the room, or ends its game. -/
inductive Moves (env : Env) (r : Room) (m : Members) : Prop
  | timeUp {ms : Nat} : r.statu = .gameStart → r.timingStarted = true → (m.get "uid").asUInt64 = .ok r.turnUid →
      ((Asks r m "put_chess" ∧ ms = elapsedMs env.now r.turnStartTp) ∨
        (Asks r m "timeout" ∧ ms = (elapsedMs env.now r.turnStartTp + timeoutToleranceMs) % 2 ^ 64)) →
      (stepExpired ms || r.totalExpired ms) = true → Moves env r m
  | walkover {uid winner : Uid} : Admits env r m uid → OnBoard m → Absent env r winner → Moves env r m
  | claimed {uid winner : Uid} : Admits env r m uid → Refuses env r m → (m.get "winner").asUInt64 = .ok winner →
      winner ≠ 0 → Moves env r m
  | placed {uid : Uid} {c : Cell} {color : Chess} : Places env r m uid c color → Moves env r m
  | invite {uid : Uid} : Asks r m "rematch_invite" → (m.get "uid").asUInt64 = .ok uid → r.statu = .gameOver → r.Seats uid →
      r.rematchInitiatorUid = 0 → r.bothPlayersOnline env = true → Moves env r m
  | accept {uid : Uid} : Asks r m "rematch_accept" → (m.get "uid").asUInt64 = .ok uid → r.statu = .gameOver → r.Seats uid →
      r.rematchInitiatorUid ≠ 0 → uid ≠ r.rematchInitiatorUid → r.bothPlayersOnline env = true → Moves env r m

theorem handleRequest_idle {req : Json} (h : r.handleRequest env req = .ok (r', out))
    (hidle : ∀ m, req.members = .ok m → ¬Moves env r m) : r' = r ∧ ∀ c ∈ out, c.pays = false := by
  obtain ⟨m, hm, hstep | ⟨⟨habsent, -⟩, uid, admits, honboard⟩⟩ := handleRequest_drifts h
  · cases hstep with
    | idle => exact ⟨rfl, fun c hc => by rw [List.mem_singleton.mp hc]; rfl⟩
    | timeUp hrun htiming hnames hasks hexp => exact absurd (.timeUp hrun htiming hnames hasks hexp) (hidle m hm)
    | walkover admits honboard habsent => exact absurd (.walkover admits honboard habsent) (hidle m hm)
    | claimed admits hrefuses hwinner hne => exact absurd (.claimed admits hrefuses hwinner hne) (hidle m hm)
    | placed places | won places => exact absurd (.placed places) (hidle m hm)
    | invite asks hnames hover hseat hinit honline =>
      exact absurd (.invite asks hnames hover hseat hinit honline) (hidle m hm)
    | accept asks hnames hover hseat hinit hne honline =>
      exact absurd (.accept asks hnames hover hseat hinit hne honline) (hidle m hm)
  · exact absurd (.walkover admits honboard habsent) (hidle m hm)

end Room

theorem RoomManager.wsmsgGameRoom_idle {env : Env} {rm rm' : RoomManager} {uid : Uid} {body : Option Json}
    {calls : List Call} (h : rm.wsmsgGameRoom env uid body = .ok (rm', calls))
    (hidle : ∀ rid r req m, rm.findRoom uid = some (rid, r) → body = some req → req.members = .ok m → ¬r.Moves env m) :
    rm' = rm ∧ ∀ c ∈ calls, c.pays = false := by
  have hreply : ∀ resp, ∀ c ∈ [Call.reply resp], c.pays = false := fun resp c hc => by
    rw [List.mem_singleton.mp hc]
    rfl
  rcases wsmsgGameRoom_cases h with ⟨rfl, resp, rfl⟩ | ⟨rid, r, req, r', hfind, rfl, hreq, rfl⟩
  · exact ⟨rfl, hreply resp⟩
  · obtain ⟨rfl, hout⟩ := Room.handleRequest_idle hreq fun m hm => hidle rid r req m hfind rfl hm
    refine ⟨?_, hout⟩
    rw [setRoom, Dict.assign_of_some (findRoom_eq_some.mp hfind).2]

namespace Server
variable {s s' : Server} {selectById : Uid → Option Members} {uid : Uid} {body : Option Json} {out : List Obs}

/-- The hall message changes a queue: the user is put into one, or out of one that it stands in. -/
inductive Requeues (s : Server) (selectById : Uid → Option Members) (uid : Uid) : Option Json → Prop
  | start {req : Json} {m : Members} {pool : Pool} : req.members = .ok m → (m.get "optype").asString = .ok "match_start" →
      poolOfUser selectById uid = .ok (some pool) → Requeues s selectById uid (some req)
  | stop {req : Json} {m : Members} {pool : Pool} : req.members = .ok m → (m.get "optype").asString = .ok "match_stop" →
      poolOfUser selectById uid = .ok (some pool) → uid ∈ s.queues pool → Requeues s selectById uid (some req)

theorem matchStart_idle (h : s.matchStart selectById uid = .ok (s', out))
    (hidle : ∀ pool, poolOfUser selectById uid ≠ .ok (some pool)) : s' = s ∧ out = [] := by
  obtain ⟨pool?, hpool, h⟩ := ok_of_bind h
  cases pool? with
  | none => exact (Prod.mk.inj (Except.ok.inj h)).imp Eq.symm Eq.symm
  | some pool => exact absurd hpool (hidle pool)

theorem matchStop_idle (h : s.matchStop selectById uid = .ok (s', out))
    (hidle : ∀ pool, poolOfUser selectById uid = .ok (some pool) → uid ∉ s.queues pool) :
    s' = s ∧ ∀ c, .call c ∉ out := by
  obtain ⟨pool?, hpool, h⟩ := ok_of_bind h
  cases pool? with
  | none =>
    obtain ⟨rfl, rfl⟩ := Prod.mk.inj (Except.ok.inj h)
    exact ⟨rfl, fun c => List.not_mem_nil⟩
  | some pool =>
    obtain ⟨rfl, rfl⟩ := Prod.mk.inj (Except.ok.inj h)
    refine ⟨?_, fun c hc => by cases List.mem_singleton.mp hc⟩
    have hsame : (s.queues pool).filter (· ≠ uid) = s.queues pool :=
      List.filter_eq_self.mpr fun v hv => by
        have hne : v ≠ uid := fun heq => hidle pool hpool (heq ▸ hv)
        simpa using hne
    rw [remove, hsame, setQueue, Function.update_eq_self]

theorem wsmsgGameHall_idle {resp : Members} (h : s.wsmsgGameHall selectById uid body = .ok (s', out, resp))
    (hidle : ¬s.Requeues selectById uid body) : s' = s ∧ ∀ c, .call c ∉ out := by
  unfold wsmsgGameHall at h
  split at h
  · cases h
    exact ⟨rfl, fun c => List.not_mem_nil⟩
  · rename_i req
    obtain ⟨m, hm, h⟩ := ok_of_bind h
    obtain ⟨optype, hop, h⟩ := ok_of_bind h
    split at h
    · rename_i heq
      obtain ⟨⟨t, o⟩, ht, h⟩ := ok_of_bind h
      cases h
      obtain ⟨rfl, rfl⟩ := matchStart_idle ht fun pool hpool => hidle (.start hm (heq ▸ hop) hpool)
      exact ⟨rfl, fun c => List.not_mem_nil⟩
    split at h
    · rename_i heq
      obtain ⟨⟨t, o⟩, ht, h⟩ := ok_of_bind h
      cases h
      exact matchStop_idle ht fun pool hpool hin => hidle (.stop hm (heq ▸ hop) hpool hin)
    split at h
    · cases h
      exact ⟨rfl, fun c => List.not_mem_nil⟩
    · cases h
      exact ⟨rfl, fun c => List.not_mem_nil⟩

end Server

/-- The win or the loss that a callback books. -/
def FrontObs.payment : FrontObs → Option Call
  | .server (.call c) => if c.pays then some c else none
  | _ => none

def payments (out : List FrontObs) : List Call := out.filterMap FrontObs.payment

namespace Front
variable {f g f' : Front} {e : FrontEvent} {out : List FrontObs} {conn : ConnId} {ts : List FrontTrans}

/-- What an event of `conn` changes besides `conn` itself: a room open takes its user out of the hall though it
    is refused; a message moves a queue or a room; a close that finds a user takes it out of the hall or of its room,
    and sets the lifetime of its session. -/
inductive Touches (f : Front) (conn : ConnId) : FrontEvent → Prop
  | hall {uid : Uid} {selectById : Uid → Option Members} : f.server.inGameHall uid = true →
      f.server.inGameRoom uid = false → Touches f conn (.opened conn .room (some uid) selectById)
  | queue {uid : Uid} {body : Option Json} {selectById : Uid → Option Members} {now later : Int} :
      f.conns conn = some ⟨.hall, false⟩ → f.server.Requeues selectById uid body →
      Touches f conn (.message conn (some uid) body selectById now later)
  | room {uid : Uid} {req : Json} {m : Members} {selectById : Uid → Option Members} {now later : Int} {rid : Rid}
      {r : Room} : f.conns conn = some ⟨.room, false⟩ → f.server.rm.findRoom uid = some (rid, r) →
      req.members = .ok m → r.Moves (f.server.env selectById now later) m →
      Touches f conn (.message conn (some uid) (some req) selectById now later)
  | closes {uid : Uid} : Touches f conn (.closed conn (some uid))

theorem payment_calls {calls : List Call} (h : ∀ c ∈ calls, c.pays = false) :
    payments (calls.map fun c => FrontObs.server (.call c)) = [] := by
  rw [payments, List.filterMap_map, List.filterMap_eq_nil_iff]
  intro c hc
  simp [FrontObs.payment, h c hc]

theorem AlikeOff.refl (conn : ConnId) (f : Front) : AlikeOff conn f f := ⟨⟨_, rfl, fun _ _ => rfl⟩, fun _ _ => rfl⟩

theorem alikeOff_connect (f : Front) (conn : ConnId) (uri : WsUri) : AlikeOff conn f (f.connect conn uri) :=
  ⟨⟨_, rfl, fun _ h => Function.update_of_ne h _ _⟩, fun _ h => Dict.assign_ne h⟩

theorem alikeOff_disconnect (f : Front) (conn : ConnId) (uri : WsUri) : AlikeOff conn f (f.disconnect conn uri) :=
  ⟨⟨_, rfl, fun _ h => Function.update_of_ne h _ _⟩, fun _ h => Dict.assign_ne h⟩

/-- Two states that differ from one off `conn` do not differ from each other off `conn`. -/
theorem AlikeOff.euclidean (h : AlikeOff conn f g) (h' : AlikeOff conn f f') : AlikeOff conn f' g := by
  obtain ⟨i, hg, hi⟩ := h.server
  obtain ⟨i', hf', hi'⟩ := h'.server
  refine ⟨⟨i, ?_, ?_⟩, fun c hc => (h.conns c hc).trans (h'.conns c hc).symm⟩
  · rw [hg, hf']
    rfl
  · intro c hc
    rw [hf']
    exact (hi c hc).trans (hi' c hc).symm

theorem onMessage_idle {s s' : Server} {uri : WsUri} {uid : Uid} {body : Option Json} {selectById : Uid → Option Members}
    {now later : Int} (h : onMessage s conn uri uid body selectById now later = .ok (s', out))
    (hhall : uri = .hall → ¬s.Requeues selectById uid body)
    (hroom : uri = .room → ∀ rid r req m, s.rm.findRoom uid = some (rid, r) → body = some req → req.members = .ok m →
      ¬r.Moves (s.env selectById now later) m) (hspectate : uri ≠ .spectate) :
    s' = s ∧ payments out = [] := by
  cases uri with
  | hall =>
    obtain ⟨⟨t, o, resp⟩, hmsg, h⟩ := ok_of_bind h
    obtain ⟨rfl, rfl⟩ := Prod.mk.inj (Except.ok.inj h)
    obtain ⟨rfl, hcalls⟩ := Server.wsmsgGameHall_idle hmsg (hhall rfl)
    refine ⟨rfl, List.filterMap_eq_nil_iff.mpr fun x hx => ?_⟩
    rcases List.mem_append.mp hx with hx | hx
    · obtain ⟨y, hy, rfl⟩ := List.mem_map.mp hx
      cases y with
      | call c => exact absurd hy (hcalls c)
      | round | popped | absent | created | pushed | removed => rfl
    · rw [List.mem_singleton.mp hx]
      rfl
  | room =>
    obtain ⟨⟨rm, calls⟩, hmsg, h⟩ := ok_of_bind h
    obtain ⟨rfl, rfl⟩ := Prod.mk.inj (Except.ok.inj h)
    obtain ⟨rfl, hcalls⟩ := RoomManager.wsmsgGameRoom_idle hmsg (hroom rfl)
    exact ⟨rfl, payment_calls hcalls⟩
  | spectate => exact absurd rfl hspectate
  | other =>
    obtain ⟨rfl, rfl⟩ := Prod.mk.inj (Except.ok.inj h)
    exact ⟨rfl, rfl⟩

/-- An event of a connection that stands in no table is felt nowhere else, unless it touches something. -/
theorem own_step (hs : machine.step f e = some (f', out)) (he : e.conn = some conn)
    (habsent : ∀ t uid, f.entry t uid ≠ some conn) (hrefused : ∀ uid resp, .admitted conn uid resp ∉ out)
    (huri : ∀ closed, f.conns conn ≠ some ⟨.spectate, closed⟩) (hfree : ¬f.Touches conn e) :
    AlikeOff conn f f' ∧ payments out = [] := by
  cases e with
  | turn => cases he
  | opened c uri user selectById =>
    obtain rfl := Option.some.inj he
    cases step_inv hs with
    | entered => exact ⟨alikeOff_connect f c uri, rfl⟩
    | twice => exact ⟨alikeOff_connect f c uri, rfl⟩
    | @roomless _ uid _ om _ hnew hroom hnone hom =>
      rw [Server.inGameRoom_connect (habsent .room uid)] at hroom
      rw [Server.inGameHall_connect (habsent .hall uid)] at hom
      have hhall : ¬f.server.inGameHall uid = true := fun h => hfree (.hall h hroom)
      rw [if_neg hhall] at hom
      subst hom
      exact ⟨alikeOff_connect f c .room, rfl⟩
    | hall | room => exact absurd (List.mem_singleton_self _) (hrefused _ _)
  | message c user body selectById now later =>
    obtain rfl := Option.some.inj he
    simp only [machine] at hs
    split at hs
    · obtain ⟨rfl, rfl⟩ := Prod.mk.inj (Option.some.inj hs)
      exact ⟨.refl c f, rfl⟩
    · rename_i uri uid hconn
      split at hs
      · cases hs
      rename_i hmsg
      obtain ⟨rfl, rfl⟩ := Prod.mk.inj (Option.some.inj hs)
      obtain ⟨rfl, hpay⟩ := onMessage_idle hmsg (fun h hmoves => hfree (.queue (h ▸ hconn) hmoves))
        (fun h rid r req m hfind hbody hm hmoves => hfree (by subst hbody; exact .room (h ▸ hconn) hfind hm hmoves))
        fun h => huri false (h ▸ hconn)
      exact ⟨.refl c f, hpay⟩
    · cases hs
  | closed c user =>
    obtain rfl := Option.some.inj he
    cases user with
    | none =>
      cases step_inv hs with
      | left => exact ⟨alikeOff_disconnect f c _, rfl⟩
    | some uid => exact absurd .closes hfree
  | drop c =>
    obtain rfl := Option.some.inj he
    cases step_inv hs with
    | drop => exact ⟨⟨⟨_, rfl, fun _ h => Function.update_of_ne h _ _⟩, fun _ _ => rfl⟩, rfl⟩

end Front

/-! ### Runs -/

/-- The connections that were refused when they opened. -/
def refusals (out : List FrontObs) : List ConnId :=
  out.filterMap fun
    | .refused conn _ _ => some conn
    | _ => none

theorem mem_refusals {out : List FrontObs} {conn : ConnId} :
    conn ∈ refusals out ↔ ∃ uid resp, FrontObs.refused conn uid resp ∈ out := by
  simp only [refusals, List.mem_filterMap]
  constructor
  · rintro ⟨o, ho, heq⟩
    split at heq
    · cases heq
      exact ⟨_, _, ho⟩
    · cases heq
  · rintro ⟨uid, resp, ho⟩
    exact ⟨_, ho, rfl⟩

namespace FrontStep
variable {f f' : Front} {e : FrontEvent} {out : List FrontObs} {conn : ConnId} {uid : Uid} {resp : Members}

theorem admitted_conns (hs : FrontStep f e f' out) (h : .admitted conn uid resp ∈ out) :
    f'.conns conn ≠ none ∧ (f.conns conn = none ∨ ∃ closed, f.conns conn = some ⟨.spectate, closed⟩) := by
  cases hs with
  | hall hnew | room hnew =>
    obtain ⟨rfl, -, -⟩ := FrontObs.admitted.inj (List.mem_singleton.mp h)
    exact ⟨fun hnone => (by cases Dict.assign_self.symm.trans hnone), Or.inl hnew⟩
  | joined hconn =>
    obtain ⟨rfl, -, -⟩ := FrontObs.admitted.inj (List.mem_singleton.mp h)
    exact ⟨fun hnone => (by cases hconn.symm.trans hnone), Or.inr ⟨false, hconn⟩⟩
  | spoken _ hout =>
    rcases hout _ h with ⟨x, hx⟩ | ⟨r, hx⟩ <;> cases hx
  | turn | entered | twice | roomless | roomMessage | left | leftHall | leftRoom | leftSpectate | drop => simp at h

/-- A connection is refused in the step that opens it. -/
theorem refused_conns (hs : FrontStep f e f' out) (h : .refused conn uid resp ∈ out) :
    f.conns conn = none ∧ (∃ uri closed, f'.conns conn = some ⟨uri, closed⟩ ∧ uri ≠ .spectate) ∧
      ∀ uid' resp', .admitted conn uid' resp' ∉ out := by
  cases hs with
  | @twice _ uri _ _ _ hnew hwhy =>
    obtain ⟨rfl, -, -⟩ := FrontObs.refused.inj (List.mem_singleton.mp h)
    refine ⟨hnew, ⟨uri, false, Dict.assign_self, ?_⟩, fun uid' resp' hadm => by cases List.mem_singleton.mp hadm⟩
    rintro rfl
    rcases hwhy with ⟨huri, -⟩ | ⟨huri | huri, -⟩ <;> cases huri
  | roomless hnew =>
    obtain ⟨rfl, -, -⟩ := FrontObs.refused.inj (List.mem_singleton.mp h)
    exact ⟨hnew, ⟨.room, false, Dict.assign_self, by decide⟩, fun uid' resp' hadm => by cases List.mem_singleton.mp hadm⟩
  | spoken _ hout =>
    rcases hout _ h with ⟨x, hx⟩ | ⟨r, hx⟩ <;> cases hx
  | turn | entered | hall | room | roomMessage | joined | left | leftHall | leftRoom | leftSpectate | drop => simp at h

end FrontStep

namespace Front
variable {f g f' : Front} {e : FrontEvent} {out : List FrontObs} {conn : ConnId} {ts us : List FrontTrans}

/-- The refused connections are open to the hall or to a room, and nobody was admitted with one. -/
structure Refusals (ts : List FrontTrans) (f : Front) : Prop where
  opened : ∀ conn uid, Admitted ts conn uid → f.conns conn ≠ none
  refused : ∀ conn ∈ refusals (Machine.log ts), (∃ uri closed, f.conns conn = some ⟨uri, closed⟩ ∧ uri ≠ .spectate) ∧
    ∀ uid, ¬Admitted ts conn uid

theorem Refusals.step (hi : Refusals ts f) (hs : FrontStep f e f' out) : Refusals (ts ++ [⟨f, e, f', out⟩]) f' := by
  have hadm : ∀ {conn uid}, Admitted (ts ++ [⟨f, e, f', out⟩]) conn uid →
      Admitted ts conn uid ∨ ∃ resp, .admitted conn uid resp ∈ out := by
    intro conn uid h
    obtain ⟨x, hx, resp, hout⟩ := admitted_iff.mp h
    rcases List.mem_append.mp hx with hx | hx
    · exact Or.inl (admitted_iff.mpr ⟨x, hx, resp, hout⟩)
    · rw [List.mem_singleton.mp hx] at hout
      exact Or.inr ⟨resp, hout⟩
  have hkeep : ∀ {conn}, f.conns conn ≠ none → f'.conns conn ≠ none := by
    intro conn h hnone
    cases hconn : f.conns conn with
    | none => exact h hconn
    | some c =>
      obtain ⟨closed, hconn'⟩ := hs.conns hconn
      cases hconn'.symm.trans hnone
  constructor
  · intro conn uid h
    rcases hadm h with h | ⟨resp, h⟩
    · exact hkeep (hi.opened conn uid h)
    · exact (hs.admitted_conns h).1
  · intro conn h
    obtain ⟨uid, resp, hout⟩ := mem_refusals.mp h
    rw [Machine.log_snoc] at hout
    rcases List.mem_append.mp hout with hout | hout
    · obtain ⟨⟨uri, closed, hconn, huri⟩, hnever⟩ := hi.refused conn (mem_refusals.mpr ⟨uid, resp, hout⟩)
      obtain ⟨closed', hconn'⟩ := hs.conns hconn
      refine ⟨⟨uri, closed', hconn', huri⟩, fun uid' h' => ?_⟩
      rcases hadm h' with h' | ⟨resp', h'⟩
      · exact hnever uid' h'
      · rcases (hs.admitted_conns h').2 with hnone | ⟨closed'', hspectate⟩
        · cases hconn.symm.trans hnone
        · obtain ⟨rfl, -⟩ := Conn.mk.inj (Option.some.inj (hconn.symm.trans hspectate))
          exact huri rfl
    · obtain ⟨hnew, hconn, hnot⟩ := hs.refused_conns hout
      refine ⟨hconn, fun uid' h' => ?_⟩
      rcases hadm h' with h' | ⟨resp', h'⟩
      · exact hi.opened conn uid' h' hnew
      · exact hnot uid' resp' h'

theorem run_refusals (h : machine.Run start ts f) : Refusals ts f := by
  refine h.invariant_along (C := fun _ _ => True) ?_ (fun _ _ _ _ => trivial) fun hi hs _ => hi.step (step_inv hs)
  exact ⟨fun _ _ hadm => absurd hadm List.not_mem_nil, fun _ href => absurd href List.not_mem_nil⟩

end Front
end FiveStones
