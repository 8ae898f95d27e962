import FiveStones.Duel
import FiveStones.Theorems.Sender
import FiveStones.Theorems.Rejection

/-! What the room tells its pages about a request that a page has sent. -/

namespace FiveStones

theorem Members.lookup_of_get {m : Members} {name : String} {v : Json} (h : m.get name = v) (hv : v ≠ .null) :
    m.lookup name = some v := by
  unfold get at h
  cases hm : m.lookup name with
  | none =>
    rw [hm] at h
    exact absurd h.symm hv
  | some w =>
    rw [hm] at h
    exact congrArg some h

namespace RoomInfo
variable {room : RoomInfo}

/-- A message that the page of this room can send. -/
inductive Sends (room : RoomInfo) : Members → Prop
  | chess (c : Cell) : Sends room (room.sendChess c.row c.col)
  | chat (text : String) : Sends room (room.sendChat text)
  | rematch {optype : String} : optype = "rematch_invite" ∨ optype = "rematch_accept" → Sends room (room.sendRematch optype)
  | timeout (which : String) : Sends room (room.sendTimeout which)

theorem Sends.get {msg : Members} (h : room.Sends msg) :
    msg.get "room_id" = room.roomId ∧ msg.get "uid" = room.uid ∧ msg.get "winner" = .null ∧
      ∃ optype, msg.get "optype" = .str optype := by
  cases h <;> exact ⟨rfl, rfl, rfl, _, rfl⟩

end RoomInfo

namespace Room
variable {env : Env} {r r' : Room} {m resp : Members} {uid winner : Uid} {c : Cell} {color : Chess} {calls : List Call}

/-- What a page reads of a move that is accepted: the move itself, the winner, and the clocks of the room after it. -/
structure Announced (m : Members) (r : Room) (winner : Uid) (resp : Members) : Prop where
  result : resp.get "result" = .bool true
  same : ∀ name ∉ chessFields, resp.get name = m.get name
  winner : resp.get "winner" = .uint winner
  timing : resp.get "timing_started" = .bool r.timingStarted
  white : resp.get "total_left_white_ms" = .int r.whiteTotalLeftMs
  black : resp.get "total_left_black_ms" = .int r.blackTotalLeftMs
  step : resp.get "step_init_ms" = .int stepInitMs

theorem announced_withClocks {r₁ : Room} (hchess : r.handleChess env m = .ok (r₁, resp))
    (hres : resp.get "result" = .bool true) (hwinner : resp.get "winner" = .uint winner) (r' : Room) :
    Announced m r' winner (r'.withClocks resp) where
  result := (withClocks_get (by decide)).trans hres
  same := (Echoes.of_chess hchess hres fun _ => withClocks_get).same
  winner := (withClocks_get (by decide)).trans hwinner
  timing := by simp [withClocks, Members.get_set_ne]
  white := by simp [withClocks, Members.get_set_ne]
  black := by simp [withClocks, Members.get_set_ne]
  step := by simp [withClocks]

/-- What a room with two seats broadcasts for a request without a `winner` of its own, and the room after it. -/
inductive Tells (env : Env) (r : Room) (m : Members) : Room → Members → Prop
  | refused {resp : Members} : resp.get "result" = .bool false → Tells env r m r resp
  | chatted {resp : Members} : resp.get "result" = .bool true → resp.get "optype" = .str "chat" → Tells env r m r resp
  | timedOut {resp : Members} :
      r.statu = .gameStart → r.timingStarted = true → (m.get "uid").asUInt64 = .ok r.turnUid →
      Asks r m "put_chess" ∨ Asks r m "timeout" →
      resp.get "result" = .bool true → resp.get "optype" = .str "timeout" →
      Tells env r m { r with statu := .gameOver } resp
  | moved {uid : Uid} {c : Cell} {color : Chess} {resp : Members} :
      Places env r m uid c color → (r.withStone c color).checkWin c.row c.col color = 0 →
      Announced m ((r.withStone c color).passTurn env uid (r.thinkingMs env)) 0 resp →
      Tells env r m ((r.withStone c color).passTurn env uid (r.thinkingMs env)) resp
  | walkover {uid winner : Uid} {resp : Members} :
      Admits env r m uid → Absent env r winner → winner ≠ 0 → Announced m r winner resp →
      Tells env r m { r with statu := .gameOver } resp
  | won {uid winner : Uid} {c : Cell} {color : Chess} {resp : Members} :
      Places env r m uid c color → (r.withStone c color).checkWin c.row c.col color = winner → winner ≠ 0 →
      Announced m { r.withStone c color with statu := .gameOver } winner resp →
      Tells env r m { r.withStone c color with statu := .gameOver } resp
  | invited {uid : Uid} {resp : Members} :
      Asks r m "rematch_invite" → (m.get "uid").asUInt64 = .ok uid → r.statu = .gameOver → r.bothPlayersOnline env = true →
      r.rematchInitiatorUid = 0 →
      resp.get "result" = .bool true → resp.get "optype" = .str "rematch_invite" →
      resp.get "white_id" = .uint r.whiteId → resp.get "black_id" = .uint r.blackId →
      Tells env r m { r with rematchInitiatorUid := uid } resp
  | accepted {uid : Uid} :
      Asks r m "rematch_accept" → (m.get "uid").asUInt64 = .ok uid → r.statu = .gameOver → r.bothPlayersOnline env = true →
      r.rematchInitiatorUid ≠ 0 → uid ≠ r.rematchInitiatorUid →
      Tells env r m (r.startRematch env).1 (r.startRematch env).2

theorem rematchInvite_tells (h : r.rematchInvite env m = .ok (r', calls)) (huid : (m.get "uid").asUInt64 = .ok uid)
    (hover : r.statu = .gameOver) (hseat : r.Seats uid) (hinit : r.rematchInitiatorUid = 0)
    (honline : r.bothPlayersOnline env = true) :
    ∃ resp, calls = [.broadcast resp] ∧ resp.get "result" = .bool true ∧ resp.get "optype" = .str "rematch_invite" ∧
      resp.get "white_id" = .uint r.whiteId ∧ resp.get "black_id" = .uint r.blackId := by
  have hno : ¬(uid ≠ r.whiteId ∧ uid ≠ r.blackId) := fun h => hseat.elim h.1 h.2
  simp only [rematchInvite, huid, hover, hinit, honline, hno, bind, Except.bind, pure, Except.pure, ↓reduceIte, ne_eq,
    not_true_eq_false, Bool.not_true, Bool.false_eq_true] at h
  obtain ⟨-, rfl⟩ := Prod.mk.inj (Except.ok.inj h)
  refine ⟨_, rfl, ?_, ?_, ?_, ?_⟩
  all_goals
    rw [fillWhiteBlackUsernames_get (by decide)]
    rfl

theorem afterChess_pass_eq (uid : Uid) (ms : Nat) (hres : resp.get "result" = .bool true)
    (hwinner : (resp.get "winner").asUInt64 = .ok 0) : r.afterChess env uid ms resp =
      .ok (r.passTurn env uid ms, [.broadcast ((r.passTurn env uid ms).withClocks resp)]) := by
  simp only [afterChess, hres, hwinner, Json.asBool, bind, Except.bind, pure, Except.pure, and_self, ↓reduceIte,
    ne_eq, not_true_eq_false]

theorem afterChess_winner_eq (uid : Uid) (ms : Nat) {accepted : Bool} (hres : resp.get "result" = .bool accepted)
    (hwinner : (resp.get "winner").asUInt64 = .ok winner) (hne : winner ≠ 0) : r.afterChess env uid ms resp =
      .ok ({ r with statu := .gameOver },
        [.win winner, .lose (r.opponentOf winner), .broadcast (r.withClocks resp)]) := by
  simp only [afterChess, hres, hwinner, Json.asBool, bind, Except.bind, pure, Except.pure, hne, and_false, ↓reduceIte,
    ne_eq, not_false_eq_true]

theorem Places.announced (places : Places env r m uid c color) (h : r.handleRequest env (.obj m) = .ok (r', calls)) :
    ∃ resp₀, Announced m r' ((r.withStone c color).checkWin c.row c.col color) (r'.withClocks resp₀) ∧
      broadcasts calls = [r'.withClocks resp₀] := by
  rw [places.handleRequest_eq rfl] at h
  obtain ⟨⟨r₁, resp⟩, hchess, h⟩ := ok_of_bind h
  obtain ⟨rfl, hres, hwinner⟩ := (handleChess_inv hchess).of_places places
  have hwin : (resp.get "winner").asUInt64 = .ok ((r.withStone c color).checkWin c.row c.col color) := by
    rw [hwinner, Json.asUInt64_uint]
  by_cases hzero : (r.withStone c color).checkWin c.row c.col color = 0
  · rw [afterChess_pass_eq _ _ hres (hzero ▸ hwin)] at h
    obtain ⟨rfl, rfl⟩ := Prod.mk.inj (Except.ok.inj h)
    exact ⟨resp, announced_withClocks hchess hres hwinner _, rfl⟩
  · rw [afterChess_winner_eq _ _ hres hwin hzero] at h
    obtain ⟨rfl, rfl⟩ := Prod.mk.inj (Except.ok.inj h)
    exact ⟨resp, announced_withClocks hchess hres hwinner _, rfl⟩

theorem Admits.announced_absent (admits : Admits env r m uid) (honboard : OnBoard m) (habsent : Absent env r winner)
    (hzero : winner ≠ 0) (h : r.handleRequest env (.obj m) = .ok (r', calls)) :
    ∃ resp, Announced m r winner resp ∧ broadcasts calls = [resp] := by
  obtain ⟨c, hrow, hcol⟩ := honboard
  rw [admits.handleRequest_eq rfl] at h
  obtain ⟨⟨r₁, resp⟩, hchess, h⟩ := ok_of_bind h
  have hstep := handleChess_inv hchess
  have hwinner := hstep.winner_of_absent hrow hcol habsent
  obtain ⟨rfl, hres⟩ := hstep.of_absent hrow hcol habsent
  rw [afterChess_winner_eq _ _ hres (by rw [hwinner, Json.asUInt64_uint]) hzero] at h
  obtain ⟨-, rfl⟩ := Prod.mk.inj (Except.ok.inj h)
  exact ⟨_, announced_withClocks hchess hres hwinner _, rfl⟩

/-- One broadcast answers each request. -/
theorem handleRequest_tells (hw : r.whiteId ≠ 0) (hb : r.blackId ≠ 0) (hown : m.get "winner" = .null)
    (hop : ∃ optype, m.get "optype" = .str optype) (h : r.handleRequest env (.obj m) = .ok (r', calls)) :
    ∃ resp, broadcasts calls = [resp] ∧ Tells env r m r' resp := by
  obtain ⟨m', hm, ha⟩ := handleRequest_answer h
  obtain rfl := Except.ok.inj hm
  cases ha with
  | refused hres => exact ⟨_, rfl, .refused hres⟩
  | @chatted resp asks hechoes =>
    obtain ⟨optype, hop⟩ := hop
    have hchat := asks.optype
    rw [hop] at hchat
    refine ⟨_, rfl, .chatted hechoes.result ?_⟩
    rw [hechoes.same "optype" (by decide), hop, Except.ok.inj hchat]
  | timeUp hrun hstarted hnames hasks =>
    exact ⟨_, rfl, .timedOut hrun hstarted hnames (hasks.imp And.left And.left) rfl rfl⟩
  | walkover admits honboard habsent hzero =>
    obtain ⟨resp, hannounced, hcalls⟩ := admits.announced_absent honboard habsent hzero h
    exact ⟨resp, hcalls, .walkover admits habsent hzero hannounced⟩
  | drifted _ _ habsent => exact absurd rfl (habsent.ne_zero hw hb)
  | claimed _ _ hwinner hzero =>
    rw [hown] at hwinner
    exact absurd (Except.ok.inj hwinner).symm hzero
  | placed places hwin =>
    obtain ⟨resp₀, hannounced, hcalls⟩ := places.announced h
    exact ⟨_, hcalls, .moved places hwin (hwin ▸ hannounced)⟩
  | won places hwin hzero =>
    obtain ⟨resp₀, hannounced, hcalls⟩ := places.announced h
    exact ⟨_, hcalls, .won places hwin hzero (hwin ▸ hannounced)⟩
  | invite asks huid hover hseat hinit honline =>
    rw [handleRequest_eq env asks] at h
    obtain ⟨resp, hcalls, hres, hop, hwhite, hblack⟩ := rematchInvite_tells h huid hover hseat hinit honline
    rw [hcalls]
    exact ⟨resp, rfl, .invited asks huid hover honline hinit hres hop hwhite hblack⟩
  | accept asks huid hover _ hinit hself honline => exact ⟨_, rfl, .accepted asks huid hover honline hinit hself⟩

end Room
end FiveStones
