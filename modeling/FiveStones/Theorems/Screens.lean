import FiveStones.Theorems.Telling

/-! Whether the pages show the game that the server has. -/

namespace FiveStones

/-- An id that a script holds exactly. -/
def Exact (uid : Uid) : Prop := uid.toNat < 2 ^ 53

instance : DecidablePred Exact := fun _ => inferInstanceAs (Decidable (_ < _))

namespace Json

theorem safeInteger?_uint {u : Uid} (hu : Exact u) : (uint u).safeInteger? = some (u.toNat : Int) := by
  unfold Exact at hu
  simp only [safeInteger?, uint, integer?, Option.filter_some, Int.natAbs_natCast, hu, decide_true, ↓reduceIte]

theorem sameId_uint {u v : Uid} (hu : Exact u) (hv : Exact v) : (uint u).sameId (uint v) = decide (u = v) := by
  simp only [sameId, safeInteger?_uint hu, safeInteger?_uint hv, Option.any_some, Option.some.injEq, Nat.cast_inj,
    UInt64.toNat_inj, eq_comm]

theorem truthy_uint {u : Uid} (hu : u ≠ 0) : (uint u).truthy = true := by
  have hne : u.toNat ≠ 0 := fun h => hu (UInt64.toNat_inj.mp h)
  simpa [truthy, uint] using hne

end Json

namespace Page
variable {p q s : Page} {info : Members} {infos : List Members} {a b now : Rat} {k : PageClocks} {room : RoomInfo} {c : Cell}
  {uid : Uid}

/-! ### What the clocks have no part in -/

/-- Two pages that differ in their clocks at most. -/
def Same (p q : Page) : Prop := q = { p with clocks := q.clocks }

namespace Same

theorem refl (p : Page) : Same p p := rfl

theorem of_clocks : Same p { p with clocks := k } := rfl

theorem takeWinner (h : Same p q) : Same (p.takeWinner info) (q.takeWinner info) := by
  rw [h]
  unfold Page.takeWinner
  split
  · rfl
  · simp only
    split <;> rfl

theorem takeClocks (h : Same p q) : Same (p.takeClocks info a) (q.takeClocks info b) := by
  rw [h]
  unfold Page.takeClocks
  split
  · rfl
  · simp only
    split <;> rfl
  · rfl

theorem handlePutChess (h : Same p q) : Same (p.handlePutChess info a) (q.handlePutChess info b) := by
  have hput : q.putStone info = (p.putStone info).map fun p => { p with clocks := q.clocks } := by
    rw [h]
    unfold putStone
    split
    · rfl
    · simp only
      split
      · split <;> rfl
      · rfl
  unfold Page.handlePutChess
  rw [hput]
  cases p.putStone info with
  | none => exact h
  | some p' => exact (of_clocks.takeClocks).takeWinner

theorem onMessage (h : Same p q) : Same (p.onMessage info a) (q.onMessage info b) := by
  unfold Page.onMessage
  split
  · exact h
  · split
    · exact h.handlePutChess
    · rw [h]
      simp only
      repeat (first | rfl | split)
  · exact h

end Same

theorem tickClock_same (now : Rat) : Same p (p.tickClock now).1 := by
  unfold tickClock reportTimeout
  simp only
  repeat (first | rfl | split)

/-- The page when it has read what there is. The clocks are not looked at here, and so it reads at any time. -/
def catchUp (p : Page) (infos : List Members) : Page := infos.foldl (fun p info => p.onMessage info 0) p

@[simp] theorem catchUp_nil : p.catchUp [] = p := rfl

theorem catchUp_append (infos' : List Members) : p.catchUp (infos ++ infos') = (p.catchUp infos).catchUp infos' :=
  List.foldl_append ..

theorem Same.catchUp (h : Same p q) : Same (p.catchUp infos) (q.catchUp infos) := by
  induction infos generalizing p q with
  | nil => exact h
  | cons info infos ih => exact ih h.onMessage

/-! ### One message -/

theorem onMessage_refused (h : info.get "result" = .bool false) : p.onMessage info now = p := by
  simp only [onMessage, h]

theorem onMessage_eq {optype : String} (hres : info.get "result" = .bool true) (hop : info.get "optype" = .str optype) :
    p.onMessage info now =
      if optype = "put_chess" then p.handlePutChess info now
      else if optype = "timeout" then p.finish
      else if optype = "peer_left_room" then p.finish
      else if optype = "rematch_start" then p.applyRematchStart info
      else if p.isSpectator then if optype = "spectate_ready" then p.spectateReady info else p
      else if optype = "room_ready" then p.roomReady info
      else if optype = "rematch_invite" then p.rematchInvite info
      else p := by
  simp only [onMessage, hres, hop]

/-- The player who thinks after a move of `uid`. -/
def nextUid (room : RoomInfo) (uid : Json) : Json := if uid.sameId room.whiteId then room.blackId else room.whiteId

theorem onBoard_cell (hrow : info.get "row" = .int c.row) (hcol : info.get "col" = .int c.col) : info.onBoard = true := by
  have hr := Members.lookup_of_get hrow (by simp)
  have hc := Members.lookup_of_get hcol (by simp)
  have hlt : (c.row.val : Rat) < 15 := by exact_mod_cast c.row.isLt
  have hlt' : (c.col.val : Rat) < 15 := by exact_mod_cast c.col.isLt
  simp [Members.onBoard, hr, hc, Json.toNumber?, hlt, hlt']

theorem cellOf_cell (hrow : info.get "row" = .int c.row) (hcol : info.get "col" = .int c.col) : cellOf info = some c := by
  simp only [cellOf, hrow, hcol, Json.integer?]
  exact Cell.of?_coe c

/-- A move on the board is drawn, and it is the turn of whoever did not make it. -/
theorem putStone_cell (hroom : p.roomInfo = some room) (hrow : info.get "row" = .int c.row)
    (hcol : info.get "col" = .int c.col) : p.putStone info = some { p with
      board := p.board.set c (room.colorOf (info.get "uid"))
      myTurn := if p.isSpectator then p.myTurn else !(info.get "uid").sameId room.uid } := by
  simp only [putStone, onBoard_cell hrow hcol, hroom, hrow, Json.integer?, cellOf_cell hrow hcol, Bool.not_true,
    Bool.false_eq_true, ↓reduceIte]
  cases p.isSpectator <;> rfl

theorem takeClocks_started (room : RoomInfo) (hroom : p.roomInfo = some room) (htiming : info.get "timing_started" = .bool true) :
    p.takeClocks info now = { p with
      timingStarted := true
      activeThinkingUid := nextUid room (info.get "uid")
      clocks := ((p.clocks.take info).renewStep (room.seatColor? (nextUid room (info.get "uid")))).start now } := by
  simp only [takeClocks, Members.lookup_of_get htiming (by simp), hroom, nextUid]

theorem takeWinner_none (h : info.get "winner" = .uint 0) : p.takeWinner info = p := by
  simp only [takeWinner, h]
  rfl

theorem takeWinner_some {winner : Uid} (hroom : p.roomInfo = some room) (h : info.get "winner" = .uint winner)
    (hwinner : winner ≠ 0) : p.takeWinner info = p.finish := by
  simp only [takeWinner, h, Json.truthy_uint hwinner, hroom, Bool.not_true, Bool.false_eq_true, ↓reduceIte]

theorem takeClocks_frame (p : Page) (info : Members) (now : Rat) : (p.takeClocks info now).roomInfo = p.roomInfo ∧
    (p.takeClocks info now).isSpectator = p.isSpectator := by
  unfold takeClocks
  split
  · exact ⟨rfl, rfl⟩
  · simp only
    split <;> exact ⟨rfl, rfl⟩
  · exact ⟨rfl, rfl⟩

/-- A move after which the game goes on. -/
theorem handlePutChess_moved (now : Rat) (hroom : p.roomInfo = some room) (hrow : info.get "row" = .int c.row)
    (hcol : info.get "col" = .int c.col) (htiming : info.get "timing_started" = .bool true)
    (hwinner : info.get "winner" = .uint 0) : p.handlePutChess info now = { p with
      board := p.board.set c (room.colorOf (info.get "uid"))
      myTurn := if p.isSpectator then p.myTurn else !(info.get "uid").sameId room.uid
      timingStarted := true
      activeThinkingUid := nextUid room (info.get "uid")
      clocks := ((p.clocks.take info).renewStep (room.seatColor? (nextUid room (info.get "uid")))).start now } := by
  rw [handlePutChess, putStone_cell hroom hrow hcol]
  simp only
  rw [takeWinner_none hwinner, takeClocks_started room ?_ htiming]
  exact hroom

end Page

/-! ### Pages that show a room -/

/-- What the page of `who` knows about the room. -/
structure RoomInfo.Names (room : RoomInfo) (who : Party) (r : Room) : Prop where
  roomId : room.roomId = .int r.roomId
  whiteId : room.whiteId = .uint r.whiteId
  blackId : room.blackId = .uint r.blackId
  uid : ∀ uid, who = .player uid → room.uid = .uint uid

/-- The page of `who` shows the game of the room: whether it is over, and while it runs the board. A player's page also shows
    whose turn it is and that the clocks run, which a spectator sees from the next move on. Where a page shows clocks, it is
    the one of the player to move that runs. -/
structure Page.Mirrors (p : Page) (who : Party) (r : Room) : Prop where
  side : p.isSpectator = true ↔ ∃ uid, who = .watcher uid
  info : ∃ room, p.roomInfo = some room ∧ room.Names who r
  isOver : p.isOver = true ↔ r.statu = .gameOver
  board : r.statu = .gameStart → p.board = r.board
  turn : ∀ uid, who = .player uid → r.statu = .gameStart → (p.myTurn = true ↔ r.turnUid = uid)
  timed : ∀ uid, who = .player uid → r.statu = .gameStart → r.timingStarted = true → p.timingStarted = true
  active : r.statu = .gameStart → p.timingStarted = true → r.timingStarted = true ∧ p.activeThinkingUid = .uint r.turnUid

/-- The room has the same number and the same seats. -/
structure Room.SameSeats (r r' : Room) : Prop where
  roomId : r'.roomId = r.roomId
  whiteId : r'.whiteId = r.whiteId
  blackId : r'.blackId = r.blackId

theorem RoomInfo.Names.of_sameSeats {room : RoomInfo} {who : Party} {r r' : Room} (h : room.Names who r)
    (hs : r.SameSeats r') : room.Names who r' where
  roomId := by rw [h.roomId, hs.roomId]
  whiteId := by rw [h.whiteId, hs.whiteId]
  blackId := by rw [h.blackId, hs.blackId]
  uid := h.uid

namespace Room
variable {r : Room} {env : Env}

theorem startRematch_get (r : Room) (env : Env) : (r.startRematch env).2.get "result" = .bool true ∧
    (r.startRematch env).2.get "optype" = .str "rematch_start" ∧ (r.startRematch env).2.get "room_id" = .int r.roomId ∧
    (r.startRematch env).2.get "white_id" = .uint r.blackId ∧ (r.startRematch env).2.get "black_id" = .uint r.whiteId := by
  refine ⟨?_, ?_, ?_, ?_, ?_⟩
  all_goals
    simp only [startRematch, Members.get_set_ne, ne_eq, String.reduceEq, not_false_eq_true]
    rw [fillWhiteBlackUsernames_get (by decide)]
    rfl

/-- A seat is the next one to move exactly when it is not the one that has moved. -/
theorem opponentOf_eq_iff {uid v : Uid} (hne : r.whiteId ≠ r.blackId) (hu : r.Seats uid) (hv : r.Seats v) :
    r.opponentOf uid = v ↔ uid ≠ v := by
  unfold opponentOf
  rcases hu with rfl | rfl <;> rcases hv with rfl | rfl
  · simp [hne.symm]
  · simp [hne]
  · simp [hne.symm]
  · simp [hne.symm, hne]

end Room

namespace Page.Mirrors
variable {p q : Page} {who : Party} {r r' : Room} {info m resp : Members} {now : Rat} {env : Env} {uid winner : Uid} {c : Cell}
  {color : Chess}

theorem of_same (h : p.Mirrors who r) (hs : p.Same q) : q.Mirrors who r := by
  rw [hs]
  exact ⟨h.side, h.info, h.isOver, h.board, h.turn, h.timed, h.active⟩

/-- All that a page shows of a game that is over is that it is. -/
theorem of_over (h : p.Mirrors who r) (hseats : r.SameSeats r') (hover : r'.statu = .gameOver)
    (hside : q.isSpectator = p.isSpectator) (hinfo : q.roomInfo = p.roomInfo) (hq : q.isOver = true) : q.Mirrors who r' := by
  obtain ⟨room, hroom, hnames⟩ := h.info
  exact
    { side := by rw [hside, h.side]
      info := ⟨room, hinfo.trans hroom, hnames.of_sameSeats hseats⟩
      isOver := ⟨fun _ => hover, fun _ => hq⟩
      board := fun hrun => Room.absurd_statu hrun hover
      turn := fun _ _ hrun => Room.absurd_statu hrun hover
      timed := fun _ _ hrun => Room.absurd_statu hrun hover
      active := fun hrun => Room.absurd_statu hrun hover }

theorem finish (h : p.Mirrors who r) (hseats : r.SameSeats r') (hover : r'.statu = .gameOver) : p.finish.Mirrors who r' :=
  h.of_over hseats hover rfl rfl rfl

/-- A move that ends the game. -/
theorem ended (h : p.Mirrors who r) (hseats : r.SameSeats r') (hover : r'.statu = .gameOver)
    (hput : ∃ p₁, p.putStone info = some p₁ ∧ p₁.roomInfo = p.roomInfo ∧ p₁.isSpectator = p.isSpectator)
    (hwinner : info.get "winner" = .uint winner) (hzero : winner ≠ 0) : (p.handlePutChess info now).Mirrors who r' := by
  obtain ⟨room, hroom, -⟩ := h.info
  obtain ⟨p₁, hp₁, hinfo, hside⟩ := hput
  have hframe := takeClocks_frame p₁ info now
  have heq : p.handlePutChess info now = (p₁.takeClocks info now).finish := by
    simp only [handlePutChess, hp₁]
    exact takeWinner_some (hframe.1.trans (hinfo.trans hroom)) hwinner hzero
  rw [heq]
  exact h.of_over hseats hover (hframe.2.trans hside) (hframe.1.trans hinfo) rfl

/-- A move after which the game goes on. -/
theorem moved (h : p.Mirrors who r) (hne : r.whiteId ≠ r.blackId) (hexact : ∀ u, r.Seats u → Exact u) (huid : r.Seats uid)
    (hwho : ∀ v, who = .player v → r.Seats v) (places : Room.Places env r m uid c color) {ms : Nat}
    (hrow : info.get "row" = .int c.row) (hcol : info.get "col" = .int c.col) (hname : info.get "uid" = .uint uid)
    (htiming : info.get "timing_started" = .bool true) (hwinner : info.get "winner" = .uint 0) :
    (p.handlePutChess info now).Mirrors who ((r.withStone c color).passTurn env uid ms) := by
  obtain ⟨room, hroom, hnames⟩ := h.info
  have hu := hexact uid huid
  have hwhite : (Json.uint uid).sameId room.whiteId = decide (uid = r.whiteId) := by
    rw [hnames.whiteId, Json.sameId_uint hu (hexact _ (Or.inl rfl))]
  have hcolor : room.colorOf (.uint uid) = color := by
    rw [RoomInfo.colorOf, hwhite, places.color_eq]
    simp
  have hnext : nextUid room (.uint uid) = .uint (r.opponentOf uid) := by
    rw [nextUid, hwhite, hnames.whiteId, hnames.blackId, Room.opponentOf]
    by_cases hseat : uid = r.whiteId <;> simp [hseat]
  rw [handlePutChess_moved now hroom hrow hcol htiming hwinner, hname, hcolor, hnext]
  have hseats : r.SameSeats ((r.withStone c color).passTurn env uid ms) := ⟨by rw [Room.passTurn_eq], by simp, by simp⟩
  refine
    { side := h.side
      info := ⟨room, hroom, hnames.of_sameSeats hseats⟩
      isOver := by simpa using h.isOver
      board := fun _ => by simp only [Room.passTurn_board, h.board places.running]
      turn := fun v hv _ => ?_
      timed := fun _ _ _ _ => rfl
      active := fun _ _ => ⟨by simp, by simp [Room.opponentOf]⟩ }
  subst hv
  have hspectator : p.isSpectator = false := by
    cases hs : p.isSpectator with
    | false => rfl
    | true =>
      obtain ⟨_, hw⟩ := h.side.mp hs
      cases hw
  have hv := hwho v rfl
  have hopp : r.opponentOf uid = v ↔ uid ≠ v := Room.opponentOf_eq_iff hne huid hv
  simp only [hspectator, Bool.false_eq_true, ↓reduceIte, hnames.uid v rfl, Json.sameId_uint hu (hexact v hv),
    Bool.not_eq_true', decide_eq_false_iff_not, Room.passTurn_turnUid]
  exact hopp.symm

/-- An invitation names the seats that the page knows. -/
theorem invited (h : p.Mirrors who r) (hover : r.statu = .gameOver) (hseats : r.SameSeats r') (hover' : r'.statu = .gameOver)
    (hwhite : info.get "white_id" = .uint r.whiteId) (hblack : info.get "black_id" = .uint r.blackId) :
    (p.rematchInvite info).Mirrors who r' := by
  obtain ⟨room, hroom, hnames⟩ := h.info
  have hsame : p.rematchInvite info = p := by
    have hw := Members.lookup_of_get hwhite (by simp [Json.uint])
    have hb := Members.lookup_of_get hblack (by simp [Json.uint])
    simp only [rematchInvite, hroom, hw, hb, Option.getD_some, ← hnames.whiteId, ← hnames.blackId]
    cases p
    simp_all
  rw [hsame]
  exact h.of_over hseats hover' rfl rfl (h.isOver.mpr hover)

/-- A new game, with the seats swapped. -/
theorem restarted (h : p.Mirrors who r) (hne : r.whiteId ≠ r.blackId) (hw : r.whiteId ≠ 0) (hb : r.blackId ≠ 0)
    (hexact : ∀ u, r.Seats u → Exact u) (hwho : ∀ v, who = .player v → r.Seats v) :
    (p.applyRematchStart (r.startRematch env).2).Mirrors who (r.startRematch env).1 := by
  obtain ⟨room, hroom, hnames⟩ := h.info
  obtain ⟨-, -, hid, hwhite, hblack⟩ := Room.startRematch_get r env
  have hroomId : ((Json.int r.roomId).orElse room.roomId) = .int r.roomId := by
    rw [Json.orElse, hnames.roomId, ite_self]
  have hwhiteId : (Json.uint r.blackId).orElse room.whiteId = .uint r.blackId := if_pos (Json.truthy_uint hb)
  have hblackId : (Json.uint r.whiteId).orElse room.blackId = .uint r.whiteId := if_pos (Json.truthy_uint hw)
  have heq : p.applyRematchStart (r.startRematch env).2 = { p with
      roomInfo := some ⟨.int r.roomId, room.uid, .uint r.blackId, .uint r.whiteId⟩
      board := Board.empty
      myTurn := if p.isSpectator then p.myTurn else !room.uid.sameId (.uint r.blackId)
      isOver := false
      timingStarted := false
      activeThinkingUid := .int 0
      clocks := p.clocks.reset (r.startRematch env).2 } := by
    simp only [applyRematchStart, hroom, Option.getD_some, hid, hwhite, hblack, hroomId, hwhiteId, hblackId]
  rw [heq]
  refine
    { side := h.side
      info := ⟨_, rfl, rfl, rfl, rfl, hnames.uid⟩
      isOver := by simp [Room.startRematch]
      board := fun _ => rfl
      turn := fun v hv _ => ?_
      timed := fun _ _ _ ht => by cases ht
      active := fun _ ht => by cases ht }
  subst hv
  have hspectator : p.isSpectator = false := by
    cases hs : p.isSpectator with
    | false => rfl
    | true =>
      obtain ⟨_, hw⟩ := h.side.mp hs
      cases hw
  have hv := hwho v rfl
  have hturn : (r.startRematch env).1.turnUid = r.whiteId := rfl
  simp only [hspectator, Bool.false_eq_true, ↓reduceIte, hnames.uid v rfl,
    Json.sameId_uint (hexact v hv) (hexact _ (Or.inr rfl)), Bool.not_eq_true', decide_eq_false_iff_not, hturn]
  rcases hv with rfl | rfl
  · simp [hne]
  · simp [hne]

end Page.Mirrors
end FiveStones
