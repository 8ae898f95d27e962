import FiveStones.Play

/-! What a request can do to a room, once for all branches of `handle_request`. The invariants of a room
are derived from this list and never look at the code again. -/

namespace FiveStones

namespace Room
variable {env : Env} {r r' : Room} {m resp : Members} {out : List Call}

/-! ### `handle_chess` -/

/-- The three ways of `handle_chess`: refused with the request's own `winner`, won because a player is
    not there, or a stone placed. -/
inductive ChessStep (env : Env) (r : Room) (m : Members) : Room → Members → Prop
  | refused {row col : Int} {resp : Members} :
      (m.get "row").asInt = .ok row → (m.get "col").asInt = .ok col →
      (Cell.of? row col = none ∨ ∃ c, Cell.of? row col = some c ∧ r.bothPlayersOnline env = true ∧ (r.board c).isSome) →
      resp.get "result" = .bool false → resp.get "winner" = m.get "winner" → ChessStep env r m r resp
  | walkover {row col : Int} {c : Cell} {winner : Uid} {resp : Members} :
      (m.get "row").asInt = .ok row → (m.get "col").asInt = .ok col → Cell.of? row col = some c →
      ((env.inGameRoom r.whiteId = false ∧ winner = r.blackId) ∨
        (env.inGameRoom r.whiteId = true ∧ env.inGameRoom r.blackId = false ∧ winner = r.whiteId)) →
      resp.get "result" = .bool true → resp.get "winner" = .uint winner → ChessStep env r m r resp
  | placed {uid : Uid} {c : Cell} {color : Chess} {resp : Members} :
      (m.get "row").asInt = .ok c.row → (m.get "col").asInt = .ok c.col → (m.get "uid").asUInt64 = .ok uid →
      r.bothPlayersOnline env = true → r.board c = none → color = (if uid = r.whiteId then .white else .black) →
      resp.get "result" = .bool true →
      resp.get "winner" = .uint ({ r with board := r.board.set c color }.checkWin c.row c.col color) →
      ChessStep env r m { r with board := r.board.set c color } resp

theorem handleChess_inv (h : r.handleChess env m = .ok (r', resp)) : ChessStep env r m r' resp := by
  obtain ⟨row, hrow, h⟩ := ok_of_bind h
  obtain ⟨col, hcol, h⟩ := ok_of_bind h
  obtain ⟨uid, huid, h⟩ := ok_of_bind h
  split at h
  · rename_i hc
    obtain ⟨rfl, rfl⟩ := Prod.mk.inj (Except.ok.inj h)
    exact .refused hrow hcol (Or.inl hc) (by simp [Members.get_set_ne]) (by simp [Members.get_set_ne])
  · rename_i c hc
    split at h
    · rename_i hw
      obtain ⟨rfl, rfl⟩ := Prod.mk.inj (Except.ok.inj h)
      exact .walkover hrow hcol hc (Or.inl ⟨by simpa using hw, rfl⟩) (by simp [Members.get_set_ne]) (by simp)
    rename_i hw
    split at h
    · rename_i hb
      obtain ⟨rfl, rfl⟩ := Prod.mk.inj (Except.ok.inj h)
      exact .walkover hrow hcol hc (Or.inr ⟨by simpa using hw, by simpa using hb, rfl⟩) (by simp [Members.get_set_ne])
        (by simp)
    rename_i hb
    have online : r.bothPlayersOnline env = true := by
      simp only [bothPlayersOnline, Bool.and_eq_true]
      exact ⟨by simpa using hw, by simpa using hb⟩
    split at h
    · rename_i hfull
      obtain ⟨rfl, rfl⟩ := Prod.mk.inj (Except.ok.inj h)
      exact .refused hrow hcol (Or.inr ⟨c, hc, online, hfull⟩) (by simp [Members.get_set_ne]) (by simp [Members.get_set_ne])
    · rename_i hfree
      obtain ⟨rfl, rfl⟩ := Prod.mk.inj (Except.ok.inj h)
      obtain ⟨rfl, rfl⟩ := Cell.of?_eq_some.mp hc
      exact .placed hrow hcol huid online (by simpa using hfree) rfl (by simp [Members.get_set_ne]) (by simp)

theorem get_ite_set {p : Prop} [Decidable p] {name name' : String} (v : Json) (h : name' ≠ name) :
    (if p then m.set name v else m).get name' = m.get name' := by
  split
  · exact Members.get_set_ne m v h
  · rfl

/-- `handle_chess` answers with a copy of the request, in which it writes three fields. -/
theorem handleChess_get {name : String} (hname : name ∉ ["result", "reason", "winner"])
    (h : r.handleChess env m = .ok (r', resp)) : resp.get name = m.get name := by
  simp only [List.mem_cons, List.not_mem_nil, or_false, not_or] at hname
  obtain ⟨hresult, hreason, hwinner⟩ := hname
  obtain ⟨row, -, h⟩ := ok_of_bind h
  obtain ⟨col, -, h⟩ := ok_of_bind h
  obtain ⟨uid, -, h⟩ := ok_of_bind h
  split at h
  · obtain ⟨-, rfl⟩ := Prod.mk.inj (Except.ok.inj h)
    simp only [Members.get_set_ne, hresult, hreason, ne_eq, not_false_eq_true]
  split at h
  · obtain ⟨-, rfl⟩ := Prod.mk.inj (Except.ok.inj h)
    simp only [Members.get_set_ne, hresult, hreason, hwinner, ne_eq, not_false_eq_true]
  split at h
  · obtain ⟨-, rfl⟩ := Prod.mk.inj (Except.ok.inj h)
    simp only [Members.get_set_ne, hresult, hreason, hwinner, ne_eq, not_false_eq_true]
  split at h
  · obtain ⟨-, rfl⟩ := Prod.mk.inj (Except.ok.inj h)
    simp only [Members.get_set_ne, hresult, hreason, ne_eq, not_false_eq_true]
  · obtain ⟨-, rfl⟩ := Prod.mk.inj (Except.ok.inj h)
    simp only [Members.get_set_ne, hresult, hwinner, ne_eq, not_false_eq_true]
    exact get_ite_set _ hreason

/-! ### `handle_request` -/

/-- A game that runs is not over. -/
theorem absurd_statu {p : Prop} (hrun : r.statu = .gameStart) (hover : r.statu = .gameOver) : p := by
  cases hrun.symm.trans hover

/-- The request is for this room, with this optype. -/
structure Asks (r : Room) (m : Members) (optype : String) : Prop where
  room : ∃ roomId, (m.get "room_id").asUInt64 = .ok roomId ∧ roomId.toNat = r.roomId
  optype : (m.get "optype").asString = .ok optype

theorem Asks.unique {optype optype' : String} (h : Asks r m optype) (h' : Asks r m optype') : optype = optype' :=
  Except.ok.inj (h.optype.symm.trans h'.optype)

/-- The request is a `put_chess` of `uid` that reaches `handle_chess`. -/
structure Admits (env : Env) (r : Room) (m : Members) (uid : Uid) : Prop where
  asks : Asks r m "put_chess"
  names : (m.get "uid").asUInt64 = .ok uid
  running : r.statu = .gameStart
  turn : r.timingStarted = true → uid = r.turnUid
  inTime : r.timingStarted = true → stepExpired (r.thinkingMs env) = false ∧ r.totalExpired (r.thinkingMs env) = false

/-- `handle_chess` refuses the move: its place is off the board, or taken while both players are there. -/
def Refuses (env : Env) (r : Room) (m : Members) : Prop :=
  ∃ row col, (m.get "row").asInt = .ok row ∧ (m.get "col").asInt = .ok col ∧
    (Cell.of? row col = none ∨ ∃ c, Cell.of? row col = some c ∧ r.bothPlayersOnline env = true ∧ (r.board c).isSome)

/-- A player is found absent by `handle_chess`, and `winner` is the other one. -/
def Absent (env : Env) (r : Room) (winner : Uid) : Prop :=
  (env.inGameRoom r.whiteId = false ∧ winner = r.blackId) ∨
    (env.inGameRoom r.whiteId = true ∧ env.inGameRoom r.blackId = false ∧ winner = r.whiteId)

theorem Absent.not_online {winner : Uid} (h : Absent env r winner) : r.bothPlayersOnline env = false := by
  rcases h with ⟨hw, -⟩ | ⟨-, hb, -⟩
  · rw [bothPlayersOnline, hw, Bool.false_and]
  · rw [bothPlayersOnline, hb, Bool.and_false]

/-- A place on the board is refused because it is taken. -/
theorem taken_of_refused {c : Cell} (h : Cell.of? c.row c.col = none ∨
    ∃ c', Cell.of? c.row c.col = some c' ∧ r.bothPlayersOnline env = true ∧ (r.board c').isSome) :
    r.bothPlayersOnline env = true ∧ (r.board c).isSome = true := by
  rw [Cell.of?_coe] at h
  rcases h with hnone | ⟨c', heq, honline, htaken⟩
  · cases hnone
  · obtain rfl := Option.some.inj heq
    exact ⟨honline, htaken⟩

/-- A move that is refused is refused with the request's own `winner`. -/
theorem ChessStep.of_refuses (h : ChessStep env r m r' resp) (hrefuses : Refuses env r m) :
    r' = r ∧ resp.get "result" = .bool false ∧ resp.get "winner" = m.get "winner" := by
  obtain ⟨row, col, hrow, hcol, hwhy⟩ := hrefuses
  cases h with
  | refused _ _ _ hres hwinner => exact ⟨rfl, hres, hwinner⟩
  | walkover hr hc hcell habsent =>
    exfalso
    obtain rfl := Except.ok.inj (hrow.symm.trans hr)
    obtain rfl := Except.ok.inj (hcol.symm.trans hc)
    rcases hwhy with hnone | ⟨c', -, honline, -⟩
    · cases hcell.symm.trans hnone
    · cases (Absent.not_online habsent).symm.trans honline
  | placed hr hc _ _ hfree =>
    exfalso
    obtain rfl := Except.ok.inj (hrow.symm.trans hr)
    obtain rfl := Except.ok.inj (hcol.symm.trans hc)
    have htaken := (taken_of_refused hwhy).2
    rw [hfree] at htaken
    cases htaken

/-- A move that reaches `handle_chess` is answered by it, and by what `put_chess` does with its answer. -/
theorem Admits.putChess_eq {uid : Uid} (admits : Admits env r m uid) :
    r.putChess env m = r.handleChess env m >>= fun x => x.1.afterChess env uid (r.thinkingMs env) x.2 := by
  obtain ⟨-, hnames, hrun, hturn, htime⟩ := admits
  have hwait : ¬(r.timingStarted = true ∧ uid ≠ r.turnUid) := fun h => h.2 (hturn h.1)
  have hlate : ¬(r.timingStarted = true ∧ (stepExpired (r.thinkingMs env) || r.totalExpired (r.thinkingMs env)) = true) := by
    rintro ⟨ht, hexp⟩
    simp [htime ht] at hexp
  simp only [putChess, hnames, hrun, hwait, hlate, bind, Except.bind, reduceCtorEq, ↓reduceIte]

theorem Admits.handleRequest_eq {uid : Uid} {req : Json} (admits : Admits env r m uid) (hm : req.members = .ok m) :
    r.handleRequest env req = r.handleChess env m >>= fun x => x.1.afterChess env uid (r.thinkingMs env) x.2 := by
  obtain ⟨⟨roomId, hroom, hid⟩, hop⟩ := admits.asks
  rw [← admits.putChess_eq]
  simp only [handleRequest, hm, hroom, hop, hid, bind, Except.bind, ne_eq, not_true_eq_false, ↓reduceIte]

/-- The request places a stone of `color` on `c` for `uid`. -/
structure Places (env : Env) (r : Room) (m : Members) (uid : Uid) (c : Cell) (color : Chess) : Prop
    extends Admits env r m uid where
  row : (m.get "row").asInt = .ok c.row
  col : (m.get "col").asInt = .ok c.col
  online : r.bothPlayersOnline env = true
  free : r.board c = none
  color_eq : color = if uid = r.whiteId then .white else .black

theorem Places.not_absent {uid winner : Uid} {c : Cell} {color : Chess} (places : Places env r m uid c color)
    (h : Absent env r winner) : False := by
  cases h.not_online.symm.trans places.online

/-- A move on a free place, with both players there, is a stone. -/
theorem ChessStep.of_places {uid : Uid} {c : Cell} {color : Chess} (h : ChessStep env r m r' resp)
    (places : Places env r m uid c color) :
    r' = { r with board := r.board.set c color } ∧ resp.get "result" = .bool true ∧
      resp.get "winner" = .uint ({ r with board := r.board.set c color }.checkWin c.row c.col color) := by
  cases h with
  | refused hr hc hwhy =>
    exfalso
    obtain rfl := Except.ok.inj (places.row.symm.trans hr)
    obtain rfl := Except.ok.inj (places.col.symm.trans hc)
    have htaken := (taken_of_refused hwhy).2
    rw [places.free] at htaken
    cases htaken
  | walkover _ _ _ habsent => exact (places.not_absent habsent).elim
  | @placed uid' c' color' _ hr hc hnames _ _ hcolor hres hwinner =>
    have hcell : Cell.of? c.row c.col = some c' :=
      Cell.of?_eq_some.mpr ⟨Except.ok.inj (places.row.symm.trans hr), Except.ok.inj (places.col.symm.trans hc)⟩
    obtain rfl : c = c' := Option.some.inj ((Cell.of?_coe c).symm.trans hcell)
    obtain rfl := Except.ok.inj (places.names.symm.trans hnames)
    obtain rfl := hcolor.trans places.color_eq.symm
    exact ⟨rfl, hres, hwinner⟩

/-- A move on the board that finds a player absent is accepted, and places nothing. -/
theorem ChessStep.of_absent {winner : Uid} {c : Cell} (h : ChessStep env r m r' resp) (hrow : (m.get "row").asInt = .ok c.row)
    (hcol : (m.get "col").asInt = .ok c.col) (habsent : Absent env r winner) : r' = r ∧ resp.get "result" = .bool true := by
  cases h with
  | refused hr hc hwhy =>
    obtain rfl := Except.ok.inj (hrow.symm.trans hr)
    obtain rfl := Except.ok.inj (hcol.symm.trans hc)
    cases habsent.not_online.symm.trans (taken_of_refused hwhy).1
  | walkover _ _ _ _ hres => exact ⟨rfl, hres⟩
  | placed _ _ _ honline => cases habsent.not_online.symm.trans honline

def OnBoard (m : Members) : Prop :=
  ∃ c : Cell, (m.get "row").asInt = .ok c.row ∧ (m.get "col").asInt = .ok c.col

abbrev withStone (r : Room) (c : Cell) (color : Chess) : Room := { r with board := r.board.set c color }

/-- What a request does to a room with two seats, by what it calls and what it leaves. -/
inductive RequestStep (env : Env) (r : Room) (m : Members) : Room → List Call → Prop
  | idle {resp : Members} : RequestStep env r m r [.broadcast resp]
  | timeUp {ms : Nat} :
      r.statu = .gameStart → r.timingStarted = true → (m.get "uid").asUInt64 = .ok r.turnUid →
      ((Asks r m "put_chess" ∧ ms = elapsedMs env.now r.turnStartTp) ∨
        (Asks r m "timeout" ∧ ms = (elapsedMs env.now r.turnStartTp + timeoutToleranceMs) % 2 ^ 64)) →
      (stepExpired ms || r.totalExpired ms) = true →
      RequestStep env r m (r.timedOut (stepExpired ms)).1 (r.timedOut (stepExpired ms)).2
  | walkover {uid winner : Uid} {resp : Members} :
      Admits env r m uid → OnBoard m → Absent env r winner →
      RequestStep env r m { r with statu := .gameOver } [.win winner, .lose (r.opponentOf winner), .broadcast resp]
  | claimed {uid winner : Uid} {resp : Members} :
      Admits env r m uid → Refuses env r m → (m.get "winner").asUInt64 = .ok winner → winner ≠ 0 →
      RequestStep env r m { r with statu := .gameOver } [.win winner, .lose (r.opponentOf winner), .broadcast resp]
  | placed {uid : Uid} {c : Cell} {color : Chess} {resp : Members} :
      Places env r m uid c color → (r.withStone c color).checkWin c.row c.col color = 0 →
      RequestStep env r m ((r.withStone c color).passTurn env uid (r.thinkingMs env)) [.broadcast resp]
  | won {uid winner : Uid} {c : Cell} {color : Chess} {resp : Members} :
      Places env r m uid c color → (r.withStone c color).checkWin c.row c.col color = winner → winner ≠ 0 →
      RequestStep env r m { r.withStone c color with statu := .gameOver }
        [.win winner, .lose (r.opponentOf winner), .broadcast resp]
  | invite {uid : Uid} {resp : Members} :
      Asks r m "rematch_invite" → (m.get "uid").asUInt64 = .ok uid →
      r.statu = .gameOver → (uid = r.whiteId ∨ uid = r.blackId) → r.rematchInitiatorUid = 0 →
      r.bothPlayersOnline env = true →
      RequestStep env r m { r with rematchInitiatorUid := uid } [.broadcast resp]
  | accept {uid : Uid} :
      Asks r m "rematch_accept" → (m.get "uid").asUInt64 = .ok uid →
      r.statu = .gameOver → (uid = r.whiteId ∨ uid = r.blackId) → r.rematchInitiatorUid ≠ 0 →
      uid ≠ r.rematchInitiatorUid → r.bothPlayersOnline env = true →
      RequestStep env r m (r.startRematch env).1 [.broadcast (r.startRematch env).2]

/-- The one request outside `RequestStep`, in a room where a seat is held by nobody (0): the other player
    is absent, the winner is nobody, and the turn passes without a stone. -/
def Drifts (env : Env) (r r' : Room) : Prop := Absent env r 0 ∧ ∃ uid ms, r' = r.passTurn env uid ms

theorem Absent.ne_zero {winner : Uid} (h : Absent env r winner) (hw : r.whiteId ≠ 0) (hb : r.blackId ≠ 0) :
    winner ≠ 0 := by
  rcases h with ⟨-, rfl⟩ | ⟨-, -, rfl⟩
  · exact hb
  · exact hw

theorem Drifts.absurd_of_seats (h : Drifts env r r') (hw : r.whiteId ≠ 0) (hb : r.blackId ≠ 0) : False :=
  h.1.ne_zero hw hb rfl

/-! ### What is answered -/

/-- The fields that `put_chess` writes into its copy of a move that it does not refuse. -/
def chessFields : List String :=
  ["result", "reason", "winner", "timing_started", "total_left_white_ms", "total_left_black_ms", "step_init_ms"]

/-- The answer accepts the move, and repeats it. -/
structure Echoes (m resp : Members) : Prop where
  result : resp.get "result" = .bool true
  same : ∀ name ∉ chessFields, resp.get name = m.get name

/-- What a request does to a room, as `RequestStep`, and with what it is answered. -/
inductive Answer (env : Env) (r : Room) (m : Members) : Room → List Call → Prop
  | refused {resp : Members} : resp.get "result" = .bool false → Answer env r m r [.broadcast resp]
  | chatted {resp : Members} : Asks r m "chat" → Echoes m resp → Answer env r m r [.broadcast resp]
  | timeUp {ms : Nat} :
      r.statu = .gameStart → r.timingStarted = true → (m.get "uid").asUInt64 = .ok r.turnUid →
      ((Asks r m "put_chess" ∧ ms = elapsedMs env.now r.turnStartTp) ∨
        (Asks r m "timeout" ∧ ms = (elapsedMs env.now r.turnStartTp + timeoutToleranceMs) % 2 ^ 64)) →
      (stepExpired ms || r.totalExpired ms) = true →
      Answer env r m (r.timedOut (stepExpired ms)).1 (r.timedOut (stepExpired ms)).2
  | walkover {uid winner : Uid} {resp : Members} :
      Admits env r m uid → OnBoard m → Absent env r winner → winner ≠ 0 → Echoes m resp →
      Answer env r m { r with statu := .gameOver } [.win winner, .lose (r.opponentOf winner), .broadcast resp]
  | drifted {uid : Uid} {resp : Members} :
      Admits env r m uid → OnBoard m → Absent env r 0 → Echoes m resp →
      Answer env r m (r.passTurn env uid (r.thinkingMs env)) [.broadcast resp]
  | claimed {uid winner : Uid} {resp : Members} :
      Admits env r m uid → Refuses env r m → (m.get "winner").asUInt64 = .ok winner → winner ≠ 0 →
      resp.get "result" = .bool false →
      Answer env r m { r with statu := .gameOver } [.win winner, .lose (r.opponentOf winner), .broadcast resp]
  | placed {uid : Uid} {c : Cell} {color : Chess} {resp : Members} :
      Places env r m uid c color → (r.withStone c color).checkWin c.row c.col color = 0 → Echoes m resp →
      Answer env r m ((r.withStone c color).passTurn env uid (r.thinkingMs env)) [.broadcast resp]
  | won {uid winner : Uid} {c : Cell} {color : Chess} {resp : Members} :
      Places env r m uid c color → (r.withStone c color).checkWin c.row c.col color = winner → winner ≠ 0 →
      Echoes m resp →
      Answer env r m { r.withStone c color with statu := .gameOver }
        [.win winner, .lose (r.opponentOf winner), .broadcast resp]
  | invite {uid : Uid} {resp : Members} :
      Asks r m "rematch_invite" → (m.get "uid").asUInt64 = .ok uid →
      r.statu = .gameOver → (uid = r.whiteId ∨ uid = r.blackId) → r.rematchInitiatorUid = 0 →
      r.bothPlayersOnline env = true →
      resp.get "optype" = .str "rematch_invite" → resp.get "result" = .bool true →
      Answer env r m { r with rematchInitiatorUid := uid } [.broadcast resp]
  | accept {uid : Uid} :
      Asks r m "rematch_accept" → (m.get "uid").asUInt64 = .ok uid →
      r.statu = .gameOver → (uid = r.whiteId ∨ uid = r.blackId) → r.rematchInitiatorUid ≠ 0 →
      uid ≠ r.rematchInitiatorUid → r.bothPlayersOnline env = true →
      Answer env r m (r.startRematch env).1 [.broadcast (r.startRematch env).2]

theorem refuse_result (optype reason : String) : (refuse optype reason).get "result" = .bool false := rfl

theorem Answer.refused_of_eq {optype reason : String}
    (h : (pure (r, [.broadcast (refuse optype reason)]) : Except JsonError (Room × List Call)) = .ok (r', out)) :
    Answer env r m r' out := by
  obtain ⟨rfl, rfl⟩ := Prod.mk.inj (Except.ok.inj h)
  exact .refused (refuse_result optype reason)

theorem fillWhiteBlackUsernames_get {name : String} (hname : name ∉ ["white_username", "black_username"]) :
    (r.fillWhiteBlackUsernames env resp).get name = resp.get name := by
  simp only [List.mem_cons, List.not_mem_nil, or_false, not_or] at hname
  simp only [fillWhiteBlackUsernames, Members.get_set_ne, hname, ne_eq, not_false_eq_true]

/-- What `put_chess` adds to the answer of `handle_chess` are the clocks. -/
theorem withClocks_get {name : String}
    (hname : name ∉ ["timing_started", "total_left_white_ms", "total_left_black_ms", "step_init_ms"]) :
    (r.withClocks resp).get name = resp.get name := by
  simp only [List.mem_cons, List.not_mem_nil, or_false, not_or] at hname
  obtain ⟨htiming, hwhite, hblack, hstep⟩ := hname
  simp only [withClocks, Members.get_set_ne, htiming, hwhite, hblack, hstep, ne_eq, not_false_eq_true]

/-- `put_chess` after `handle_chess`: the clocks, then the test for a winner. -/
theorem afterChess_inv {uid : Uid} {ms : Nat} (h : r.afterChess env uid ms resp = .ok (r', out)) :
    ∃ winner resp', (resp.get "winner").asUInt64 = .ok winner ∧
      (∀ name ∉ ["timing_started", "total_left_white_ms", "total_left_black_ms", "step_init_ms"],
        resp'.get name = resp.get name) ∧
      ((winner ≠ 0 ∧ r' = { r with statu := .gameOver } ∧
          out = [.win winner, .lose (r.opponentOf winner), .broadcast resp']) ∨
        (winner = 0 ∧ (resp.get "result").asBool = .ok true ∧ r' = r.passTurn env uid ms ∧ out = [.broadcast resp']) ∨
        (winner = 0 ∧ (resp.get "result").asBool = .ok false ∧ r' = r ∧ out = [.broadcast resp'])) := by
  obtain ⟨accepted, hacc, h⟩ := ok_of_bind h
  obtain ⟨winner, hwin, h⟩ := ok_of_bind h
  by_cases hw : winner = 0
  · cases accepted with
    | true =>
      simp only [hw, and_self, ↓reduceIte, ne_eq, not_true_eq_false] at h
      obtain ⟨rfl, rfl⟩ := Prod.mk.inj (Except.ok.inj h)
      exact ⟨winner, _, hwin, fun _ => withClocks_get, Or.inr (Or.inl ⟨hw, hacc, rfl, rfl⟩)⟩
    | false =>
      simp only [hw, Bool.false_eq_true, false_and, ↓reduceIte, ne_eq, not_true_eq_false] at h
      obtain ⟨rfl, rfl⟩ := Prod.mk.inj (Except.ok.inj h)
      exact ⟨winner, _, hwin, fun _ _ => rfl, Or.inr (Or.inr ⟨hw, hacc, rfl, rfl⟩)⟩
  · simp only [hw, and_false, ↓reduceIte, ne_eq, not_false_eq_true] at h
    obtain ⟨rfl, rfl⟩ := Prod.mk.inj (Except.ok.inj h)
    exact ⟨winner, _, hwin, fun _ => withClocks_get, Or.inl ⟨hw, rfl, rfl⟩⟩

/-- An answer of `handle_chess` that accepts is an echo of the request, with the clocks or without. -/
theorem Echoes.of_chess {resp' : Members} (hchess : r.handleChess env m = .ok (r', resp))
    (hres : resp.get "result" = .bool true)
    (hclocks : ∀ name ∉ ["timing_started", "total_left_white_ms", "total_left_black_ms", "step_init_ms"],
      resp'.get name = resp.get name) : Echoes m resp' where
  result := (hclocks "result" (by decide)).trans hres
  same name hname := by
    simp only [chessFields, List.mem_cons, List.not_mem_nil, or_false, not_or] at hname
    exact (hclocks name (by simp [hname])).trans (handleChess_get (by simp [hname]) hchess)

/-- A move that `handle_chess` accepts is echoed to the room. -/
theorem Admits.echoed {uid : Uid} {req : Json} (admits : Admits env r m uid) (hm : req.members = .ok m)
    (haccept : ∀ {r₁ resp}, r.handleChess env m = .ok (r₁, resp) → resp.get "result" = .bool true)
    (h : r.handleRequest env req = .ok (r', out)) : ∃ resp, Call.broadcast resp ∈ out ∧ Echoes m resp := by
  rw [admits.handleRequest_eq hm] at h
  obtain ⟨⟨r₁, resp⟩, hchess, h⟩ := ok_of_bind h
  obtain ⟨winner, resp', -, hclocks, hcase⟩ := afterChess_inv h
  refine ⟨resp', ?_, .of_chess hchess (haccept hchess) hclocks⟩
  rcases hcase with ⟨-, -, rfl⟩ | ⟨-, -, -, rfl⟩ | ⟨-, -, -, rfl⟩ <;> simp

theorem putChess_answer (asks : Asks r m "put_chess") (h : r.putChess env m = .ok (r', out)) :
    Answer env r m r' out := by
  obtain ⟨uid, huid, h⟩ := ok_of_bind h
  split at h
  · exact .refused_of_eq h
  rename_i hrun
  split at h
  · exact .refused_of_eq h
  rename_i hturn
  have running : r.statu = .gameStart := by
    cases hs : r.statu <;> simp_all
  have turn : r.timingStarted = true → uid = r.turnUid := fun ht => by
    by_contra hne
    exact hturn ⟨ht, hne⟩
  simp only at h
  split at h
  · rename_i hexp
    obtain ⟨rfl, rfl⟩ := Prod.mk.inj (Except.ok.inj h)
    have hms : r.thinkingMs env = elapsedMs env.now r.turnStartTp := by simp [thinkingMs, hexp.1]
    exact .timeUp running hexp.1 (by rw [huid, turn hexp.1]) (Or.inl ⟨asks, hms⟩) hexp.2
  rename_i hexp
  have admits : Admits env r m uid := ⟨asks, huid, running, turn, fun ht => by simpa [ht] using hexp⟩
  obtain ⟨⟨r₁, resp⟩, hchess, h⟩ := ok_of_bind h
  obtain ⟨winner, resp', hwin, hclocks, hcase⟩ := afterChess_inv h
  have hresult := hclocks "result" (by decide)
  have echoes : resp.get "result" = .bool true → Echoes m resp' := fun hres => .of_chess hchess hres hclocks
  cases handleChess_inv hchess with
  | refused hrow hcol hwhy hres hwin' =>
    rcases hcase with ⟨hne, rfl, rfl⟩ | ⟨-, hacc, -, -⟩ | ⟨-, -, rfl, rfl⟩
    · exact .claimed admits ⟨_, _, hrow, hcol, hwhy⟩ (hwin' ▸ hwin) hne (hresult.trans hres)
    · rw [hres] at hacc
      cases hacc
    · exact .refused (hresult.trans hres)
  | walkover hrow hcol hc habsent hres hwin' =>
    rw [hwin', Json.asUInt64_uint, Except.ok.injEq] at hwin
    subst hwin
    obtain ⟨rfl, rfl⟩ := Cell.of?_eq_some.mp hc
    rcases hcase with ⟨hne, rfl, rfl⟩ | ⟨rfl, -, rfl, rfl⟩ | ⟨-, hacc, -⟩
    · exact .walkover admits ⟨_, hrow, hcol⟩ habsent hne (echoes hres)
    · exact .drifted admits ⟨_, hrow, hcol⟩ habsent (echoes hres)
    · rw [hres] at hacc
      cases hacc
  | @placed uid' c color _ hrow hcol huid' honline hfree hcolor hres hwin' =>
    rw [huid, Except.ok.injEq] at huid'
    subst huid'
    have places : Places env r m uid c color := ⟨admits, hrow, hcol, honline, hfree, hcolor⟩
    rw [hwin', Json.asUInt64_uint, Except.ok.injEq] at hwin
    rcases hcase with ⟨hne, rfl, rfl⟩ | ⟨h0, -, rfl, rfl⟩ | ⟨-, hacc, -, -⟩
    · exact .won places hwin hne (echoes hres)
    · exact .placed places (hwin.trans h0) (echoes hres)
    · rw [hres] at hacc
      cases hacc

theorem timeout_answer (asks : Asks r m "timeout") (h : r.timeout env m = .ok (r', out)) : Answer env r m r' out := by
  obtain ⟨uid, huid, h⟩ := ok_of_bind h
  split at h
  · exact .refused_of_eq h
  rename_i hrun
  split at h
  · exact .refused_of_eq h
  rename_i htiming
  split at h
  · exact .refused_of_eq h
  rename_i hturn
  simp only at h
  split at h
  · exact .refused_of_eq h
  · rename_i hexp
    obtain ⟨rfl, rfl⟩ := Prod.mk.inj (Except.ok.inj h)
    refine .timeUp ?_ (by simpa using htiming) ?_ (Or.inr ⟨asks, rfl⟩) ?_
    · cases hs : r.statu <;> simp_all
    · rw [huid, not_not.mp hturn]
    · simpa [Bool.and_eq_true, or_iff_not_imp_left] using hexp

theorem rematchInvite_answer (asks : Asks r m "rematch_invite") (h : r.rematchInvite env m = .ok (r', out)) :
    Answer env r m r' out := by
  obtain ⟨uid, huid, h⟩ := ok_of_bind h
  split at h
  · exact .refused_of_eq h
  rename_i hover
  split at h
  · exact .refused_of_eq h
  rename_i hseat
  split at h
  · exact .refused_of_eq h
  rename_i hinit
  split at h
  · exact .refused_of_eq h
  · rename_i honline
    obtain ⟨rfl, rfl⟩ := Prod.mk.inj (Except.ok.inj h)
    refine .invite asks huid (not_not.mp hover) (by tauto) (not_not.mp hinit) (by simpa using honline) ?_ ?_
    · rw [fillWhiteBlackUsernames_get (by decide)]
      rfl
    · rw [fillWhiteBlackUsernames_get (by decide)]
      rfl

theorem rematchAccept_answer (asks : Asks r m "rematch_accept") (h : r.rematchAccept env m = .ok (r', out)) :
    Answer env r m r' out := by
  obtain ⟨uid, huid, h⟩ := ok_of_bind h
  split at h
  · exact .refused_of_eq h
  rename_i hover
  split at h
  · exact .refused_of_eq h
  rename_i hinit
  split at h
  · exact .refused_of_eq h
  rename_i hseat
  split at h
  · exact .refused_of_eq h
  rename_i hself
  split at h
  · exact .refused_of_eq h
  · rename_i honline
    obtain ⟨rfl, rfl⟩ := Prod.mk.inj (Except.ok.inj h)
    exact .accept asks huid (not_not.mp hover) (by tauto) hinit hself (by simpa using honline)

theorem handleChat_inv (h : handleChat m = .ok resp) : resp.get "result" = .bool false ∨ Echoes m resp := by
  obtain ⟨msg, -, h⟩ := ok_of_bind h
  split at h
  · refine Or.inl ?_
    rw [← Except.ok.inj h]
    simp [Members.get_set_ne]
  · refine Or.inr ?_
    rw [← Except.ok.inj h]
    refine ⟨Members.get_set_self _ _ _, fun name hname => Members.get_set_ne _ _ ?_⟩
    rintro rfl
    exact hname List.mem_cons_self

theorem handleRequest_answer {req : Json} (h : r.handleRequest env req = .ok (r', out)) :
    ∃ m, req.members = .ok m ∧ Answer env r m r' out := by
  obtain ⟨m, hm, h⟩ := ok_of_bind h
  refine ⟨m, hm, ?_⟩
  obtain ⟨roomId, hroom, h⟩ := ok_of_bind h
  obtain ⟨optype, hop, h⟩ := ok_of_bind h
  split at h
  · exact .refused_of_eq h
  rename_i hmatch
  have asks : Asks r m optype := ⟨⟨roomId, hroom, not_not.mp hmatch⟩, hop⟩
  split at h
  · rename_i heq
    exact putChess_answer (heq ▸ asks) h
  split at h
  · rename_i heq
    exact timeout_answer (heq ▸ asks) h
  split at h
  · rename_i heq
    exact rematchInvite_answer (heq ▸ asks) h
  split at h
  · rename_i heq
    exact rematchAccept_answer (heq ▸ asks) h
  split at h
  · rename_i heq
    obtain ⟨resp, hchat, h⟩ := ok_of_bind h
    obtain ⟨rfl, rfl⟩ := Prod.mk.inj (Except.ok.inj h)
    rcases handleChat_inv hchat with hres | hechoes
    · exact .refused hres
    · exact .chatted (heq ▸ asks) hechoes
  · exact .refused_of_eq h

theorem Answer.requestStep (h : Answer env r m r' out) :
    RequestStep env r m r' out ∨ (Drifts env r r' ∧ ∃ uid, Admits env r m uid ∧ OnBoard m) := by
  cases h with
  | refused | chatted => exact Or.inl .idle
  | timeUp hrun htiming huid hasks hexp => exact Or.inl (.timeUp hrun htiming huid hasks hexp)
  | walkover admits honboard habsent => exact Or.inl (.walkover admits honboard habsent)
  | drifted admits honboard habsent => exact Or.inr ⟨⟨habsent, _, _, rfl⟩, _, admits, honboard⟩
  | claimed admits hrefuses hwinner hzero => exact Or.inl (.claimed admits hrefuses hwinner hzero)
  | placed places hwin => exact Or.inl (.placed places hwin)
  | won places hwin hzero => exact Or.inl (.won places hwin hzero)
  | invite asks huid hover hseat hinit honline => exact Or.inl (.invite asks huid hover hseat hinit honline)
  | accept asks huid hover hseat hinit hself honline => exact Or.inl (.accept asks huid hover hseat hinit hself honline)

theorem handleRequest_drifts {req : Json} (h : r.handleRequest env req = .ok (r', out)) :
    ∃ m, req.members = .ok m ∧
      (RequestStep env r m r' out ∨ (Drifts env r r' ∧ ∃ uid, Admits env r m uid ∧ OnBoard m)) := by
  obtain ⟨m, hm, hanswer⟩ := handleRequest_answer h
  exact ⟨m, hm, hanswer.requestStep⟩

theorem handleRequest_cases {req : Json} (h : r.handleRequest env req = .ok (r', out)) :
    ∃ m, req.members = .ok m ∧ (RequestStep env r m r' out ∨ Drifts env r r') := by
  obtain ⟨m, hm, hstep | ⟨hdrifts, -⟩⟩ := handleRequest_drifts h
  · exact ⟨m, hm, Or.inl hstep⟩
  · exact ⟨m, hm, Or.inr hdrifts⟩

theorem handleRequest_inv {req : Json} (hw : r.whiteId ≠ 0) (hb : r.blackId ≠ 0)
    (h : r.handleRequest env req = .ok (r', out)) : ∃ m, req.members = .ok m ∧ RequestStep env r m r' out := by
  obtain ⟨m, hm, hstep | hdrifts⟩ := handleRequest_cases h
  · exact ⟨m, hm, hstep⟩
  · exact (hdrifts.absurd_of_seats hw hb).elim

end Room
end FiveStones
