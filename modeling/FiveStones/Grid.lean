import FiveStones.Room

/-! `five` and `check_win` on the numbers of `_board`, with each of their reads. -/

namespace FiveStones

/-- The number of a colour on the board. -/
def Chess.num : Chess → Int
  | white => 1
  | black => 2

theorem Chess.num_eq_white {color : Chess} : color.num = white.num ↔ color = .white := by
  cases color with
  | white => simp
  | black => simp [num]

/-- `_board`. -/
abbrev Grid := Cell → Int

namespace Grid

/-- `_board[row][col]`, which is nothing off the board. -/
def read (g : Grid) (row col : Int) : Option Int := (Cell.of? row col).map g

/-- One of the two loops of `five`, which counts on from `count`. There is no result if it reads off the board, or
    needs more than `fuel` tests of its condition. -/
def search (g : Grid) (rowOff colOff color : Int) : Nat → Int → Int → Int → Option Int
  | 0, _, _, _ => none
  | fuel + 1, searchRow, searchCol, count =>
    if searchRow ≥ 0 ∧ searchRow < boardRow ∧ searchCol ≥ 0 ∧ searchCol < boardCol then do
      let stone ← g.read searchRow searchCol
      if stone = color then g.search rowOff colOff color fuel (searchRow + rowOff) (searchCol + colOff) (count + 1)
      else some count
    else some count

def five (g : Grid) (fuel : Nat) (row col rowOff colOff color : Int) : Option Bool := do
  let count ← g.search rowOff colOff color fuel (row + rowOff) (col + colOff) 1
  let count ← g.search (-rowOff) (-colOff) color fuel (row - rowOff) (col - colOff) count
  return 5 ≤ count

/-- The offsets that `check_win` calls `five` with. -/
def offsets : List (Int × Int) := [(0, 1), (1, 0), (-1, 1), (-1, -1)]

/-- `check_win`, which calls `five` until one call finds five. -/
def checkWin (g : Grid) (whiteId blackId : Uid) (fuel : Nat) (row col color : Int) : Option Uid := do
  if ← offsets.anyM fun d => g.five fuel row col d.1 d.2 color then
    return if color = Chess.white.num then whiteId else blackId
  else return 0

/-! ### The board of the model -/

/-- What lies where, by the numbers. -/
def board (g : Grid) : Board := fun c =>
  if g c = Chess.white.num then some .white
  else if g c = Chess.black.num then some .black
  else none

end Grid

/-- The numbers of a board. -/
def Board.grid (b : Board) : Grid := fun c => ((b c).map Chess.num).getD 0

namespace Grid

@[simp] theorem board_grid (b : Board) : b.grid.board = b := by
  funext c
  cases h : b c with
  | none => simp [board, Board.grid, h, Chess.num]
  | some color => cases color <;> simp [board, Board.grid, h, Chess.num]

theorem board_eq_some {g : Grid} {c : Cell} {color : Chess} : g.board c = some color ↔ g c = color.num := by
  unfold board
  split
  · rename_i hwhite
    cases color <;> simp [hwhite, Chess.num]
  split
  · rename_i hblack
    cases color <;> simp [hblack, Chess.num]
  · rename_i hwhite hblack
    cases color <;> simp [hwhite, hblack]

theorem read_eq_some {g : Grid} {row col v : Int} :
    g.read row col = some v ↔ ∃ c : Cell, row = c.row ∧ col = c.col ∧ g c = v := by
  simp only [read, Option.map_eq_some_iff, Cell.of?_eq_some, and_assoc]

theorem read_eq_num {g : Grid} {row col : Int} {color : Chess} :
    g.read row col = some color.num ↔ g.board.at? row col = some color := by
  simp only [read_eq_some, Board.at?_eq_some, board_eq_some]

end Grid
end FiveStones
