import FiveStones.Theorems.Sender
import FiveStones.Theorems.Opening

/-! Whether the player to move can move, and a game in which nobody can any more. -/

namespace FiveStones
namespace Room
variable {env : Env} {r r' : Room} {m : Members} {req : Json} {uid : Uid} {c : Cell} {color : Chess} {out : List Call}

/-- The move of the player to move on `c` is accepted, and puts a stone there. -/
def Playable (env : Env) (r : Room) (c : Cell) : Prop :=
  ∃ r' out resp color, r.handleRequest env (.obj (putChessMsg r.roomId r.turnUid c.row c.col)) = .ok (r', out) ∧
    Call.broadcast resp ∈ out ∧ resp.get "result" = .bool true ∧ r'.board ≠ r.board ∧ r'.board = r.board.set c color

theorem putChessMsg_row {roomId : Nat} {col : Int} :
    ((putChessMsg roomId uid c.row col).get "row").asInt = .ok c.row := by
  have hlt : (c.row : Int) < 15 := by exact_mod_cast c.row.isLt
  exact if_pos ⟨by omega, by omega⟩

theorem putChessMsg_col {roomId : Nat} {row : Int} :
    ((putChessMsg roomId uid row c.col).get "col").asInt = .ok c.col := by
  have hlt : (c.col : Int) < 15 := by exact_mod_cast c.col.isLt
  exact if_pos ⟨by omega, by omega⟩

/-- The move on a free place meets every test. -/
theorem places_putChessMsg (hid : r.roomId < 2 ^ 64) (hrun : r.statu = .gameStart) (htime : r.InTime env)
    (honline : r.bothPlayersOnline env = true) (hfree : r.board c = none) :
    Places env r (putChessMsg r.roomId r.turnUid c.row c.col) r.turnUid c (if r.turnUid = r.whiteId then .white else .black) where
  asks := putChessMsg_asks hid
  names := putChessMsg_names
  running := hrun
  turn _ := rfl
  inTime := htime
  row := putChessMsg_row
  col := putChessMsg_col
  online := honline
  free := hfree
  color_eq := rfl

/-- A stone is answered with success, and the turn passes unless it wins. -/
theorem Places.answered (places : Places env r m uid c color) (hm : req.members = .ok m) :
    ∃ r' out resp, r.handleRequest env req = .ok (r', out) ∧ Call.broadcast resp ∈ out ∧
      resp.get "result" = .bool true ∧ r'.board = r.board.set c color ∧
      ((r.withStone c color).checkWin c.row c.col color = 0 →
        r' = (r.withStone c color).passTurn env uid (r.thinkingMs env)) := by
  obtain ⟨r₁, resp, hchess⟩ := handleChess_ok env r places.row places.col places.names
  obtain ⟨rfl, hres, hwinner⟩ := (handleChess_inv hchess).of_places places
  have heq := places.handleRequest_eq hm
  rw [hchess] at heq
  have hwin : (resp.get "winner").asUInt64 = .ok _ := hwinner ▸ Json.asUInt64_uint _
  have hanswer : ∃ r' out, r.handleRequest env req = .ok (r', out) ∧ r'.board = r.board.set c color ∧
      ((r.withStone c color).checkWin c.row c.col color = 0 →
        r' = (r.withStone c color).passTurn env uid (r.thinkingMs env)) := by
    by_cases hzero : (r.withStone c color).checkWin c.row c.col color = 0
    · obtain ⟨calls, hafter⟩ := afterChess_pass env uid (r.thinkingMs env) hres (hwin.trans (congrArg _ hzero))
      exact ⟨_, calls, heq.trans hafter, passTurn_board _, fun _ => rfl⟩
    · obtain ⟨calls, hafter⟩ := afterChess_winner env uid (r.thinkingMs env) hres hwin hzero
      exact ⟨_, calls, heq.trans hafter, rfl, fun h => absurd h hzero⟩
  obtain ⟨r', out, hreq, hboard, hpass⟩ := hanswer
  obtain ⟨resp', hresp, hechoes⟩ := places.echoed hm (fun hchess => ((handleChess_inv hchess).of_places places).2.1) hreq
  exact ⟨r', out, resp', hreq, hresp, hechoes.result, hboard, hpass⟩

/-- In a running game, with both players there and time left, the player to move can put a stone somewhere
    exactly when the board has a free place. -/
theorem playable_iff_free (hid : r.roomId < 2 ^ 64) (hrun : r.statu = .gameStart)
    (honline : r.bothPlayersOnline env = true) (htime : r.InTime env) :
    (∃ c, Playable env r c) ↔ ∃ c, r.board c = none := by
  constructor
  · rintro ⟨c, r', out, resp, color, hreq, -, -, hmoves, -⟩
    obtain ⟨m, hm, ha⟩ := handleRequest_answer hreq
    obtain rfl := Except.ok.inj hm
    cases ha with
    | refused | chatted | timeUp | walkover | claimed | invite => exact absurd rfl hmoves
    | drifted => exact absurd (passTurn_board _) hmoves
    | placed places | won places => exact ⟨_, places.free⟩
    | accept asks => exact absurd ((putChessMsg_asks hid).unique asks) (by decide)
  · rintro ⟨c, hfree⟩
    have places := places_putChessMsg hid hrun htime honline hfree
    obtain ⟨r', out, resp, hreq, hresp, hres, hboard, -⟩ := places.answered (show Json.members (.obj _) = .ok _ from rfl)
    exact ⟨c, r', out, resp, _, hreq, hresp, hres, hboard ▸ Board.set_ne_self hfree, hboard⟩

theorem playable_iff_free_empty : (∃ c, Playable (.allPresent 0) (create 1 10 20 0) c) ↔ ∃ c, (create 1 10 20 0).board c = none :=
  playable_iff_free (by decide) rfl rfl fun htiming => by cases htiming

end Room

/-! ### A full board without five in a row

The stones go column by column. In a column the rows come in the order 0, 2, 1, 3, 4, 6, 5, 7 and so on, so
that the colours, which alternate in time, change every two rows, and are swapped from one column to the next. -/

/-- Swaps the second and the third row of every four. -/
def shuffle (row : Nat) : Nat := row / 4 * 4 + row % 2 * 2 + row % 4 / 2

theorem shuffle_lt : ∀ row < 15, shuffle row < 15 := by decide

theorem shuffle_shuffle : ∀ row < 15, shuffle (shuffle row) = row := by decide

/-- How many stones are placed before the one on `c`. -/
def Cell.index (c : Cell) : Nat := 15 * c.col + shuffle c.row

/-- The place of the stone that comes after `n` others. -/
def Cell.nth (n : Nat) (h : n < 225) : Cell where
  row := ⟨shuffle (n % 15), shuffle_lt _ (Nat.mod_lt n (by decide))⟩
  col := ⟨n / 15, by simp only [boardCol]; omega⟩

def Cell.paint (c : Cell) : Chess := if (c.row + 2 * c.col : Nat) % 4 < 2 then .black else .white

theorem Cell.index_lt (c : Cell) : c.index < 225 := by
  have hrow := shuffle_lt c.row c.row.isLt
  have hcol : (c.col : Nat) < 15 := c.col.isLt
  unfold index
  omega

theorem Cell.index_eq_iff {c : Cell} {n : Nat} (h : n < 225) : c.index = n ↔ c = nth n h := by
  constructor
  · rintro rfl
    have hrow := shuffle_lt c.row c.row.isLt
    have hmod : c.index % 15 = shuffle c.row := by unfold index; omega
    have hdiv : c.index / 15 = c.col := by unfold index; omega
    obtain ⟨row, col⟩ := c
    simp only [nth, hmod, hdiv, shuffle_shuffle row row.isLt]
  · rintro rfl
    simp only [index, nth, shuffle_shuffle _ (Nat.mod_lt n (show 0 < 15 by decide))]
    omega

theorem Cell.paint_nth {n : Nat} (h : n < 225) : (nth n h).paint = if n % 2 = 0 then .black else .white := by
  have hiff : (shuffle (n % 15) + 2 * (n / 15)) % 4 < 2 ↔ n % 2 = 0 := by
    have hrow : n % 15 % 4 = 0 ∨ n % 15 % 4 = 1 ∨ n % 15 % 4 = 2 ∨ n % 15 % 4 = 3 := by omega
    unfold shuffle
    rcases hrow with h | h | h | h <;> rw [h] <;> omega
  simp only [paint, nth, hiff]

theorem Cell.paint_eq_iff {c c' : Cell} :
    c.paint = c'.paint ↔ ((c.row + 2 * c.col : Nat) % 4 < 2 ↔ (c'.row + 2 * c'.col : Nat) % 4 < 2) := by
  unfold paint
  split <;> split <;> simp [*]

namespace Board

/-- The board with the first `n` stones. -/
def filled (n : Nat) : Board := fun c => if c.index < n then some c.paint else none

theorem filled_succ {n : Nat} (h : n < 225) : filled (n + 1) = (filled n).set (Cell.nth n h) (Cell.nth n h).paint := by
  funext c
  by_cases hc : c = Cell.nth n h
  · have hindex := (Cell.index_eq_iff h).mpr hc
    rw [hc, set_self, filled, ← hc, if_pos (by omega)]
  · have hindex : c.index ≠ n := fun heq => hc ((Cell.index_eq_iff h).mp heq)
    have hlt : c.index < n + 1 ↔ c.index < n := by omega
    rw [set_ne hc]
    simp only [filled, hlt]

/-- Along each line the colour changes within three places. -/
theorem filled_not_five (n : Nat) (color : Chess) : ¬(filled n).FiveInRow color := by
  rintro ⟨row, col, d, hd, hall⟩
  have hpaint : ∀ i : Nat, i < 5 → ∃ c : Cell, row + i * d.1 = c.row ∧ col + i * d.2 = c.col ∧ c.paint = color := by
    intro i hi
    obtain ⟨c, hr, hc, hstone⟩ := at?_eq_some.mp (hall i hi)
    simp only [filled] at hstone
    split at hstone
    · exact ⟨c, hr, hc, Option.some.inj hstone⟩
    · cases hstone
  obtain ⟨c₀, hr₀, hk₀, h₀⟩ := hpaint 0 (by decide)
  obtain ⟨c₁, hr₁, hk₁, h₁⟩ := hpaint 1 (by decide)
  obtain ⟨c₂, hr₂, hk₂, h₂⟩ := hpaint 2 (by decide)
  have h01 := Cell.paint_eq_iff.mp (h₀.trans h₁.symm)
  have h02 := Cell.paint_eq_iff.mp (h₀.trans h₂.symm)
  simp only [directions, List.mem_cons, List.not_mem_nil, or_false] at hd
  rcases hd with rfl | rfl | rfl | rfl <;> simp only at hr₀ hk₀ hr₁ hk₁ hr₂ hk₂ <;> omega

end Board

namespace Room
variable {r : Room} {n : Nat}

/-- The room after the first `n` moves, which took no time. -/
structure Laid (n : Nat) (r : Room) : Prop where
  roomId : r.roomId = 1
  white : r.whiteId = 10
  black : r.blackId = 20
  running : r.statu = .gameStart
  board : r.board = Board.filled n
  turn : r.turnUid = if n % 2 = 0 then 20 else 10
  clocks : r.timingStarted = true →
    r.turnStartTp = 0 ∧ r.whiteTotalLeftMs = totalInitMs ∧ r.blackTotalLeftMs = totalInitMs

theorem laid_create : Laid 0 (create 1 10 20 0) where
  roomId := rfl
  white := rfl
  black := rfl
  running := rfl
  board := by
    funext c
    simp [Board.filled, create, addBlackUser, addWhiteUser, new, Board.empty]
  turn := rfl
  clocks h := by cases h

namespace Laid

theorem thinkingMs (h : Laid n r) : r.thinkingMs (.allPresent 0) = 0 := by
  unfold Room.thinkingMs
  split
  · rename_i htiming
    rw [(h.clocks htiming).1]
    rfl
  · rfl

theorem inTime (h : Laid n r) : r.InTime (.allPresent 0) := by
  intro htiming
  obtain ⟨-, hwhite, hblack⟩ := h.clocks htiming
  rw [h.thinkingMs]
  refine ⟨by decide, ?_⟩
  simp only [totalExpired, curTotalLeftMs, hwhite, hblack, ite_self]
  decide

/-- The turn passes, and nobody has lost time. -/
theorem passTurn (h : Laid n r) (hn : n < 225) :
    Laid (n + 1) ((r.withStone (.nth n hn) (Cell.nth n hn).paint).passTurn (.allPresent 0) r.turnUid 0) where
  roomId := by rw [passTurn_eq]; exact h.roomId
  white := by rw [passTurn_whiteId]; exact h.white
  black := by rw [passTurn_blackId]; exact h.black
  running := by rw [passTurn_statu]; exact h.running
  board := by rw [passTurn_board, Board.filled_succ hn, ← h.board]
  turn := by
    rw [passTurn_turnUid, opponentOf, h.turn]
    simp only [h.white, h.black]
    by_cases heven : n % 2 = 0
    · have hodd : ¬(n + 1) % 2 = 0 := by omega
      rw [if_pos heven, if_neg (by decide), if_neg hodd]
    · have heven' : (n + 1) % 2 = 0 := by omega
      rw [if_neg heven, if_pos rfl, if_pos heven']
  clocks _ := by
    cases htiming : r.timingStarted with
    | false => simp [Room.passTurn, htiming, Env.allPresent]
    | true =>
      obtain ⟨-, hwhite, hblack⟩ := h.clocks htiming
      by_cases hturn : r.turnUid = r.whiteId <;>
        simp [Room.passTurn, htiming, hturn, hwhite, hblack, curTotalLeftMs, totalInitMs, Env.allPresent]

theorem next (h : Laid n r) (hn : n < 225) : ∃ e r' out, machine.step r e = some (r', out) ∧ Laid (n + 1) r' := by
  have hpaint : (if r.turnUid = r.whiteId then Chess.white else .black) = (Cell.nth n hn).paint := by
    rw [Cell.paint_nth, h.turn, h.white]
    by_cases heven : n % 2 = 0
    · rw [if_pos heven, if_pos heven, if_neg (by decide)]
    · rw [if_neg heven, if_neg heven, if_pos rfl]
  have hfree : r.board (Cell.nth n hn) = none := by
    rw [h.board, Board.filled, if_neg]
    rw [(Cell.index_eq_iff hn).mpr rfl]
    exact Nat.lt_irrefl n
  have places := places_putChessMsg (by rw [h.roomId]; decide) h.running h.inTime rfl hfree
  obtain ⟨r', out, resp, hreq, -, -, -, hpass⟩ := places.answered (show Json.members (.obj _) = .ok _ from rfl)
  rw [hpaint, h.thinkingMs] at hpass
  have hwin : (r.withStone (.nth n hn) (Cell.nth n hn).paint).checkWin (Cell.nth n hn).row (Cell.nth n hn).col
      (Cell.nth n hn).paint = 0 := by
    by_contra hne
    have hfive := fiveInRow_of_checkWin hne
    rw [h.board, ← Board.filled_succ hn] at hfive
    exact Board.filled_not_five _ _ hfive
  refine ⟨_, r', out, step_of_ok hreq, ?_⟩
  rw [hpass hwin]
  exact h.passTurn hn

end Laid

theorem exists_run_laid (n : Nat) (hn : n ≤ 225) :
    ∃ (ts : List RoomTrans) (r : Room), machine.Run (create 1 10 20 0) ts r ∧ Laid n r := by
  induction n with
  | zero => exact ⟨[], _, .nil, laid_create⟩
  | succ n ih =>
    obtain ⟨ts, r, h, hlaid⟩ := ih (by omega)
    obtain ⟨e, r', out, hs, hlaid'⟩ := hlaid.next (by omega)
    exact ⟨_, r', h.snoc hs, hlaid'⟩

/-- A game can fill the board without five in a row. It goes on, both players are there, and the one to move has
    all the time left, but no place to move to. -/
theorem full_board_runs_on : ¬∀ roomId w b now (ts : List RoomTrans) r env, w ≠ 0 → b ≠ 0 → w ≠ b →
    machine.Run (create roomId w b now) ts r → r.statu = .gameStart → r.bothPlayersOnline env = true → r.InTime env →
    ∃ c, Playable env r c := by
  intro hall
  obtain ⟨ts, r, h, hlaid⟩ := exists_run_laid 225 (Nat.le_refl _)
  obtain ⟨c, r', out, resp, color, hreq, -, -, hmoves, -⟩ := hall 1 10 20 0 ts r (.allPresent 0) (by decide) (by decide)
    (by decide) h hlaid.running rfl hlaid.inTime
  obtain ⟨m, hm, ha⟩ := handleRequest_answer hreq
  have hfull : ∀ c', r.board c' ≠ none := fun c' => by
    rw [hlaid.board, Board.filled, if_pos c'.index_lt]
    exact fun h => by cases h
  cases ha with
  | refused | chatted | timeUp | walkover | claimed | invite => exact hmoves rfl
  | drifted => exact hmoves (passTurn_board _)
  | placed places | won places => exact hfull _ places.free
  | accept _ _ hover => exact absurd_statu hlaid.running hover

end Room
end FiveStones
