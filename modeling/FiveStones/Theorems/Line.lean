import Mathlib.Tactic.Ring
import FiveStones.Lib.Streak
import FiveStones.Board

/-! What `five` and the test of four lines find, against the whole board. -/

namespace FiveStones
namespace Board
variable {b : Board} {c : Cell} {color : Chess} {rowOff colOff : Int}

/-! ### The two loops -/

theorem scan_eq_streak (rowOff colOff : Int) (fuel : Nat) (row col : Int) :
    b.scan rowOff colOff color fuel row col =
      streak (fun i => b.at? (row + i * rowOff) (col + i * colOff) = some color) fuel := by
  induction fuel generalizing row col with
  | zero => rfl
  | succ fuel ih =>
    have hshift : (fun i : Nat => decide (b.at? (row + rowOff + i * rowOff) (col + colOff + i * colOff) = some color))
        = fun i : Nat => decide (b.at? (row + (i + 1 : Nat) * rowOff) (col + (i + 1 : Nat) * colOff) = some color) := by
      funext i
      rw [show row + rowOff + (i : Int) * rowOff = row + ((i + 1 : Nat) : Int) * rowOff by push_cast; ring,
        show col + colOff + (i : Int) * colOff = col + ((i + 1 : Nat) : Int) * colOff by push_cast; ring]
    simp only [scan, streak, ih, hshift]
    simp

/-- A loop of `five` ends by its test, before it has taken `boardRow` steps: the line leaves the board. -/
theorem scan_lt (b : Board) (c : Cell) (color : Chess) (fuel : Nat) (hrow : rowOff = -1 ∨ rowOff = 0 ∨ rowOff = 1)
    (hcol : colOff = -1 ∨ colOff = 0 ∨ colOff = 1) (hne : rowOff ≠ 0 ∨ colOff ≠ 0) :
    b.scan rowOff colOff color fuel (c.row + rowOff) (c.col + colOff) < boardRow := by
  rw [scan_eq_streak]
  by_contra hge
  have hlast := of_lt_streak (i := 14) (show 14 < streak (fun i => decide
    (b.at? (c.row + rowOff + i * rowOff) (c.col + colOff + i * colOff) = some color)) fuel by
      simp only [boardRow] at *; omega)
  obtain ⟨c', hr, hk, -⟩ := at?_eq_some.mp (of_decide_eq_true hlast)
  have h1 := c.row.isLt
  have h2 := c.col.isLt
  have h3 := c'.row.isLt
  have h4 := c'.col.isLt
  simp only [boardRow, boardCol] at h1 h2 h3 h4
  rcases hrow with rfl | rfl | rfl <;> rcases hcol with rfl | rfl | rfl <;> omega

/-! ### One line -/

theorem five_neg (b : Board) (c : Cell) (rowOff colOff : Int) (color : Chess) :
    b.five c.row c.col (-rowOff) (-colOff) color = b.five c.row c.col rowOff colOff color := by
  simp only [five, neg_neg, sub_neg_eq_add, ← sub_eq_add_neg, Nat.add_right_comm]

/-- Whether a stone of `color` lies `j` steps from `c`. -/
def line (b : Board) (c : Cell) (rowOff colOff : Int) (color : Chess) (j : Int) : Bool :=
  b.at? (c.row + j * rowOff) (c.col + j * colOff) = some color

theorem line_zero (hc : b c = some color) : b.line c rowOff colOff color 0 = true := by simpa [line] using hc

theorem scan_forward (b : Board) (c : Cell) (rowOff colOff : Int) (color : Chess) (fuel : Nat) :
    b.scan rowOff colOff color fuel (c.row + rowOff) (c.col + colOff) =
      streak (fun i => b.line c rowOff colOff color (i + 1)) fuel := by
  rw [scan_eq_streak]
  congr 1
  funext i
  rw [line, show (c.row : Int) + rowOff + (i : Int) * rowOff = c.row + ((i : Int) + 1) * rowOff by ring,
    show (c.col : Int) + colOff + (i : Int) * colOff = c.col + ((i : Int) + 1) * colOff by ring]

theorem scan_backward (b : Board) (c : Cell) (rowOff colOff : Int) (color : Chess) (fuel : Nat) :
    b.scan (-rowOff) (-colOff) color fuel (c.row - rowOff) (c.col - colOff) =
      streak (fun i => b.line c rowOff colOff color (-(i + 1))) fuel := by
  rw [scan_eq_streak]
  congr 1
  funext i
  rw [line, show (c.row : Int) - rowOff + (i : Int) * -rowOff = c.row + -((i : Int) + 1) * rowOff by ring,
    show (c.col : Int) - colOff + (i : Int) * -colOff = c.col + -((i : Int) + 1) * colOff by ring]

theorem five_iff (hc : b c = some color) :
    b.five c.row c.col rowOff colOff color = true ↔
      ∃ a : Int, a ≤ 0 ∧ 0 < a + 5 ∧
        ∀ i : Nat, i < 5 → b.at? (c.row + (a + i) * rowOff) (c.col + (a + i) * colOff) = some color := by
  have h := le_streaks_iff (line_zero hc) (show 0 < 5 by decide) (show 5 ≤ boardRow + 1 by decide)
    (q := b.line c rowOff colOff color)
  simp only [five, scan_forward, scan_backward, decide_eq_true_eq]
  rw [h]
  simp only [line, decide_eq_true_eq]
  rfl

/-- The four tests of `check_win` look along the four directions. -/
theorem four_fives_iff : (b.five c.row c.col 0 1 color || b.five c.row c.col 1 0 color || b.five c.row c.col (-1) 1 color
      || b.five c.row c.col (-1) (-1) color) = true ↔
    ∃ d ∈ directions, b.five c.row c.col d.1 d.2 color = true := by
  have h1 := five_neg b c 1 (-1) color
  have h2 := five_neg b c 1 1 color
  rw [neg_neg] at h1
  simp only [h1, h2, directions, List.mem_cons, List.not_mem_nil, or_false, Bool.or_eq_true, exists_eq_or_imp,
    exists_eq_left, or_assoc]
  rw [or_comm (a := b.five c.row c.col 1 (-1) color = true)]

/-! ### The whole board -/

theorem fiveInRow_of_five (hc : b c = some color) {d : Int × Int} (hd : d ∈ directions)
    (h : b.five c.row c.col d.1 d.2 color = true) : b.FiveInRow color := by
  obtain ⟨a, -, -, hall⟩ := (five_iff hc).mp h
  refine ⟨c.row + a * d.1, c.col + a * d.2, d, hd, fun i hi => ?_⟩
  have := hall i hi
  rwa [add_mul, add_mul, ← add_assoc, ← add_assoc] at this

theorem at?_set_of_ne {color' : Chess} {row col : Int} (hne : color' ≠ color)
    (h : (b.set c color).at? row col = some color') : b.at? row col = some color' := by
  obtain ⟨c', rfl, rfl, hc'⟩ := at?_eq_some.mp h
  have : c' ≠ c := by
    rintro rfl
    rw [set_self] at hc'
    exact hne (Option.some.inj hc').symm
  rw [set_ne this] at hc'
  simpa using hc'

theorem fiveInRow_of_set_ne {color' : Chess} (hne : color' ≠ color) (h : (b.set c color).FiveInRow color') :
    b.FiveInRow color' := by
  obtain ⟨row, col, d, hd, hall⟩ := h
  exact ⟨row, col, d, hd, fun i hi => at?_set_of_ne hne (hall i hi)⟩

/-- A five that a new stone makes goes through it, so the test of four lines finds it. -/
theorem five_of_set (hno : ¬b.FiveInRow color) (h : (b.set c color).FiveInRow color) :
    ∃ d ∈ directions, (b.set c color).five c.row c.col d.1 d.2 color = true := by
  obtain ⟨row, col, d, hd, hall⟩ := h
  by_cases hthrough : ∃ i : Nat, i < 5 ∧ row + i * d.1 = c.row ∧ col + i * d.2 = c.col
  · obtain ⟨i, hi, hr, hk⟩ := hthrough
    refine ⟨d, hd, (five_iff set_self).mpr ⟨-i, by omega, by omega, fun j hj => ?_⟩⟩
    rw [← hr, ← hk, show row + i * d.1 + (-(i : Int) + j) * d.1 = row + j * d.1 by ring,
      show col + i * d.2 + (-(i : Int) + j) * d.2 = col + j * d.2 by ring]
    exact hall j hj
  · -- The five does not touch the new stone: it was there before.
    refine absurd ⟨row, col, d, hd, fun i hi => ?_⟩ hno
    obtain ⟨c', hr, hk, hc'⟩ := at?_eq_some.mp (hall i hi)
    have hne : c' ≠ c := by
      rintro rfl
      exact hthrough ⟨i, hi, hr, hk⟩
    rw [set_ne hne] at hc'
    exact at?_eq_some.mpr ⟨c', hr, hk, hc'⟩

end Board
end FiveStones
