import FiveStones.Grid
import FiveStones.Theorems.Line

/-! `check_win` on the numbers: no read leaves the board, and what it finds are the runs of five through a stone. -/

namespace FiveStones
namespace Grid
variable {g : Grid} {c : Cell} {color : Chess} {rowOff colOff row col count : Int} {fuel : Nat}

/-! ### The loops -/

theorem exists_read (h : row ≥ 0 ∧ row < boardRow ∧ col ≥ 0 ∧ col < boardCol) : ∃ v, g.read row col = some v := by
  simp only [read, Cell.of?]
  rw [dif_pos h]
  exact ⟨_, rfl⟩

theorem range_of_at? (h : g.board.at? row col = some color) : row ≥ 0 ∧ row < boardRow ∧ col ≥ 0 ∧ col < boardCol := by
  obtain ⟨c, rfl, rfl, -⟩ := Board.at?_eq_some.mp h
  have hrow := c.row.isLt
  have hcol := c.col.isLt
  omega

/-- A loop that ends within its fuel reads no cell off the board, and counts what `scan` counts. -/
theorem search_eq (h : g.board.scan rowOff colOff color fuel row col < fuel) :
    g.search rowOff colOff color.num fuel row col count =
      some (count + g.board.scan rowOff colOff color fuel row col) := by
  induction fuel generalizing row col count with
  | zero => omega
  | succ fuel ih =>
    simp only [search, Board.scan] at h ⊢
    by_cases hat : g.board.at? row col = some color
    · rw [if_pos hat] at h ⊢
      rw [if_pos (range_of_at? hat), read_eq_num.mpr hat]
      simp only [bind, Option.bind, ↓reduceIte, ih (Nat.lt_of_succ_lt_succ h)]
      rw [Option.some.injEq]
      omega
    · rw [if_neg hat]
      split
      · rename_i hrange
        obtain ⟨v, hv⟩ := exists_read hrange
        have hne : v ≠ color.num := by
          rintro rfl
          exact hat (read_eq_num.mp hv)
        simp [hv, hne]
      · simp

end Grid

/-- A step along a line, to a neighbour. -/
def Offset (rowOff colOff : Int) : Prop :=
  (rowOff = -1 ∨ rowOff = 0 ∨ rowOff = 1) ∧ (colOff = -1 ∨ colOff = 0 ∨ colOff = 1) ∧ (rowOff ≠ 0 ∨ colOff ≠ 0)

theorem Offset.neg {rowOff colOff : Int} (h : Offset rowOff colOff) : Offset (-rowOff) (-colOff) := by
  obtain ⟨hrow, hcol, hne⟩ := h
  refine ⟨?_, ?_, ?_⟩ <;> omega

theorem offset_of_mem {d : Int × Int} (hd : d ∈ Grid.offsets) : Offset d.1 d.2 := by
  simp only [Grid.offsets, List.mem_cons, List.not_mem_nil, or_false] at hd
  rcases hd with rfl | rfl | rfl | rfl <;> simp [Offset]

namespace Board
variable {b : Board} {c : Cell} {color : Chess} {rowOff colOff : Int}

theorem forward_lt (b : Board) (c : Cell) (color : Chess) (hoff : Offset rowOff colOff) (fuel : Nat) :
    streak (fun i => b.line c rowOff colOff color (i + 1)) fuel < boardRow := by
  rw [← scan_forward]
  exact scan_lt b c color fuel hoff.1 hoff.2.1 hoff.2.2

theorem backward_lt (b : Board) (c : Cell) (color : Chess) (hoff : Offset rowOff colOff) (fuel : Nat) :
    streak (fun i => b.line c rowOff colOff color (-(i + 1))) fuel < boardRow := by
  have hlt := scan_lt b c color fuel hoff.neg.1 hoff.neg.2.1 hoff.neg.2.2
  rwa [← sub_eq_add_neg, ← sub_eq_add_neg, scan_backward] at hlt

/-- `five` compares the length of the maximal run through the stone. -/
theorem exists_run (hc : b c = some color) (hoff : Offset rowOff colOff) : ∃ x y,
    MaximalRun (b.line c rowOff colOff color) x y ∧ b.five c.row c.col rowOff colOff color = decide (5 ≤ y - x + 1) := by
  have hfwd := forward_lt b c color hoff boardRow
  have hback := backward_lt b c color hoff boardRow
  refine ⟨_, _, maximalRun_of_streaks (line_zero hc) hfwd hback, ?_⟩
  simp only [five, scan_forward, scan_backward, decide_eq_decide]
  omega

end Board

namespace Grid
variable {g : Grid} {c : Cell} {color : Chess} {rowOff colOff : Int} {fuel : Nat} {whiteId blackId : Uid}

/-! ### The four calls -/

/-- The loops have an end, and `boardRow` tests are enough for each. -/
theorem five_eq (g : Grid) (c : Cell) (color : Chess) (hoff : Offset rowOff colOff) (hfuel : boardRow ≤ fuel) :
    g.five fuel c.row c.col rowOff colOff color.num = some (g.board.five c.row c.col rowOff colOff color) := by
  have hfwd := Board.forward_lt g.board c color hoff
  have hback := Board.backward_lt g.board c color hoff
  have hforward : ∀ count, g.search rowOff colOff color.num fuel (c.row + rowOff) (c.col + colOff) count =
      some (count + streak (fun i => g.board.line c rowOff colOff color (i + 1)) fuel) := by
    intro count
    rw [← Board.scan_forward]
    exact search_eq (Board.scan_forward g.board c rowOff colOff color fuel ▸ (hfwd fuel).trans_le hfuel)
  have hbackward : ∀ count, g.search (-rowOff) (-colOff) color.num fuel (c.row - rowOff) (c.col - colOff) count =
      some (count + streak (fun i => g.board.line c rowOff colOff color (-(i + 1))) fuel) := by
    intro count
    rw [← Board.scan_backward]
    exact search_eq (Board.scan_backward g.board c rowOff colOff color fuel ▸ (hback fuel).trans_le hfuel)
  simp only [five, hforward, hbackward, streak_fuel (hfwd boardRow) hfuel, streak_fuel (hback boardRow) hfuel, Board.five,
    Board.scan_forward, Board.scan_backward, bind, Option.bind, pure, Option.some.injEq, decide_eq_decide]
  omega

theorem anyM_eq {α : Type} {f : α → Option Bool} {p : α → Bool} {l : List α} (h : ∀ x ∈ l, f x = some (p x)) :
    l.anyM f = some (l.any p) := by
  induction l with
  | nil => rfl
  | cons x l ih =>
    have ih := ih fun y hy => h y (List.mem_cons_of_mem _ hy)
    rw [List.anyM, h x (List.mem_cons_self ..), List.any_cons, ih]
    cases p x <;> rfl

theorem checkWin_eq (g : Grid) (c : Cell) (color : Chess) (hfuel : boardRow ≤ fuel) :
    g.checkWin whiteId blackId fuel c.row c.col color.num =
      some (if ∃ d ∈ Board.directions, g.board.five c.row c.col d.1 d.2 color = true then
        if color = .white then whiteId else blackId else 0) := by
  have hany : offsets.anyM (fun d => g.five fuel c.row c.col d.1 d.2 color.num) =
      some (offsets.any fun d => g.board.five c.row c.col d.1 d.2 color) :=
    anyM_eq fun d hd => five_eq g c color (offset_of_mem hd) hfuel
  have hfour : (offsets.any fun d => g.board.five c.row c.col d.1 d.2 color) = true ↔
      ∃ d ∈ Board.directions, g.board.five c.row c.col d.1 d.2 color = true := by
    rw [← Board.four_fives_iff]
    simp [offsets, Bool.or_assoc]
  simp only [checkWin, hany, bind, Option.bind, hfour, Chess.num_eq_white]
  split
  · rfl
  · rfl

end Grid

/-- The room's `check_win` is the one on the numbers of its board. -/
theorem Room.checkWin_grid {fuel : Nat} (r : Room) (c : Cell) (color : Chess) (hfuel : boardRow ≤ fuel) :
    r.board.grid.checkWin r.whiteId r.blackId fuel c.row c.col color.num = some (r.checkWin c.row c.col color) := by
  rw [Grid.checkWin_eq _ c color hfuel, Grid.board_grid]
  simp only [Room.checkWin, Board.four_fives_iff]

namespace Grid
variable {g : Grid} {row col color : Int} {fuel : Nat} {whiteId blackId : Uid}

/-! ### The whole of it -/

/-- Whether a stone of `color` lies `j` steps along a line from (`row`, `col`). -/
def line (g : Grid) (row col rowOff colOff color : Int) (j : Int) : Bool :=
  g.read (row + j * rowOff) (col + j * colOff) = some color

/-- Five cells in a row hold `color`, with (`row`, `col`) among them. -/
def FiveThrough (g : Grid) (row col color : Int) : Prop :=
  ∃ d ∈ Board.directions, ∃ r k : Int, (∀ i : Nat, i < 5 → g.read (r + i * d.1) (k + i * d.2) = some color) ∧
    ∃ i : Nat, i < 5 ∧ row = r + i * d.1 ∧ col = k + i * d.2

theorem fiveThrough_iff {c : Cell} {color : Chess} (hc : g c = color.num) : g.FiveThrough c.row c.col color.num ↔
    ∃ d ∈ Board.directions, g.board.five c.row c.col d.1 d.2 color = true := by
  simp only [FiveThrough, Board.five_iff (board_eq_some.mpr hc), read_eq_num]
  constructor
  · rintro ⟨d, hd, r, k, hall, i, hi, hrow, hcol⟩
    refine ⟨d, hd, -i, by omega, by omega, fun j hj => ?_⟩
    rw [hrow, hcol, show r + i * d.1 + (-(i : Int) + j) * d.1 = r + j * d.1 by ring,
      show k + i * d.2 + (-(i : Int) + j) * d.2 = k + j * d.2 by ring]
    exact hall j hj
  · rintro ⟨d, hd, a, ha, hpos, hall⟩
    obtain ⟨i, rfl⟩ := Int.exists_eq_neg_ofNat ha
    refine ⟨d, hd, c.row + -i * d.1, c.col + -i * d.2, fun j hj => ?_, i, by omega, by ring, by ring⟩
    rw [add_assoc, ← add_mul, add_assoc, ← add_mul]
    exact hall j hj

/-- A colour that a cell holds is a colour of the model, and the cell is one of the board. -/
theorem exists_cell (hcolor : color = Chess.white.num ∨ color = Chess.black.num) (hread : g.read row col = some color) :
    ∃ (c : Cell) (chess : Chess), row = c.row ∧ col = c.col ∧ color = chess.num ∧ g c = chess.num := by
  obtain ⟨c, rfl, rfl, rfl⟩ := read_eq_some.mp hread
  rcases hcolor with hwhite | hblack
  · exact ⟨c, .white, rfl, rfl, hwhite, hwhite⟩
  · exact ⟨c, .black, rfl, rfl, hblack, hblack⟩

/-- `check_win` ends with every read on the board, and names the player of the stone if there are five in a row
    through it, and nobody if not. Each call of `five` says whether the maximal run through the stone has five. -/
theorem checkWin_spec (hcolor : color = Chess.white.num ∨ color = Chess.black.num) (hread : g.read row col = some color)
    (hwhite : whiteId ≠ 0) (hblack : blackId ≠ 0) (hfuel : boardRow ≤ fuel) :
    (∃ winner, g.checkWin whiteId blackId fuel row col color = some winner ∧ (winner ≠ 0 ↔ g.FiveThrough row col color) ∧
      (winner ≠ 0 → winner = if color = Chess.white.num then whiteId else blackId)) ∧
    ∀ d ∈ offsets, ∃ a b, MaximalRun (g.line row col d.1 d.2 color) a b ∧
      (∀ a' b', MaximalRun (g.line row col d.1 d.2 color) a' b' → a' = a ∧ b' = b) ∧
      g.five fuel row col d.1 d.2 color = some (decide (5 ≤ b - a + 1)) := by
  obtain ⟨c, chess, rfl, rfl, rfl, hc⟩ := exists_cell hcolor hread
  constructor
  · have hseat : (if chess = .white then whiteId else blackId) ≠ 0 := by
      split
      · exact hwhite
      · exact hblack
    refine ⟨_, checkWin_eq g c chess hfuel, ?_, ?_⟩
    · rw [fiveThrough_iff hc]
      split
      · rename_i hfive
        exact iff_of_true hseat hfive
      · rename_i hnone
        exact iff_of_false (not_not.mpr rfl) hnone
    · intro hne
      split at hne
      · rename_i hfive
        simp only [if_pos hfive, Chess.num_eq_white]
      · exact absurd rfl hne
  · intro d hd
    have hoff := offset_of_mem hd
    have hline : g.line c.row c.col d.1 d.2 chess.num = g.board.line c d.1 d.2 chess := by
      funext j
      simp only [line, Board.line, read_eq_num]
    obtain ⟨a, b, hrun, hfive⟩ := Board.exists_run (board_eq_some.mpr hc) hoff
    rw [hline]
    exact ⟨a, b, hrun, fun a' b' h => h.unique hrun, (five_eq g c chess hoff hfuel).trans (congrArg some hfive)⟩

/-- White stones on the middle row, from column 3 to column 7. -/
def middleRow : Grid := fun c => if c.row.val = 7 ∧ 3 ≤ c.col.val ∧ c.col.val ≤ 7 then 1 else 0

theorem checkWin_spec_middleRow : middleRow.checkWin 10 20 15 7 4 1 = some 10 ∧ middleRow.FiveThrough 7 4 1 := by
  have hspec := @checkWin_spec middleRow 7 4 1 15 10 20 (Or.inl rfl) (by decide) (by decide) (by decide) (by decide)
  have hwins : middleRow.checkWin 10 20 15 7 4 1 = some 10 := by decide
  obtain ⟨⟨winner, hwinner, hiff, -⟩, -⟩ := hspec
  obtain rfl : 10 = winner := Option.some.inj (hwins.symm.trans hwinner)
  exact ⟨hwins, hiff.mp (by decide)⟩

end Grid
end FiveStones
