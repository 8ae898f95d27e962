import Mathlib.Logic.Function.Basic
import Mathlib.Data.Int.Order.Basic

/-! The board of a room, and the search for five in a row through one stone. -/

namespace FiveStones

/-- `CHESS_WHITE` and `CHESS_BLACK`. -/
inductive Chess
  | white
  | black
  deriving DecidableEq, Repr

abbrev boardRow : Nat := 15
abbrev boardCol : Nat := 15

structure Cell where
  row : Fin boardRow
  col : Fin boardCol
  deriving DecidableEq, Repr

def Cell.of? (row col : Int) : Option Cell :=
  if h : 0 ≤ row ∧ row < boardRow ∧ 0 ≤ col ∧ col < boardCol then
    some ⟨⟨row.toNat, by omega⟩, ⟨col.toNat, by omega⟩⟩
  else none

theorem Cell.of?_eq_some {row col : Int} {c : Cell} : Cell.of? row col = some c ↔ row = c.row ∧ col = c.col := by
  obtain ⟨⟨r, hr⟩, ⟨k, hk⟩⟩ := c
  unfold Cell.of?
  split
  · simp only [Option.some.injEq, Cell.mk.injEq, Fin.mk.injEq]
    omega
  · rename_i h
    simp only [reduceCtorEq, false_iff]
    rintro ⟨rfl, rfl⟩
    exact h ⟨by omega, by exact_mod_cast hr, by omega, by exact_mod_cast hk⟩

@[simp] theorem Cell.of?_coe (c : Cell) : Cell.of? c.row c.col = some c := Cell.of?_eq_some.mpr ⟨rfl, rfl⟩

/-- What lies where: nothing (0 in the code), or a stone of a colour. -/
abbrev Board := Cell → Option Chess

namespace Board

def empty : Board := fun _ => none

/-- `_board[row][col] = color`. -/
def set (b : Board) (c : Cell) (color : Chess) : Board := Function.update b c (some color)

/-- The stone at these coordinates. Off the board there is none, and the code does not look there: each
    of its tests for a stone first tests the range. -/
def at? (b : Board) (row col : Int) : Option Chess :=
  match Cell.of? row col with
  | none => none
  | some c => b c

/-- One of the two loops of `five`: from (`row`, `col`) on, how many stones of `color` lie in a row. -/
def scan (b : Board) (rowOff colOff : Int) (color : Chess) : Nat → Int → Int → Nat
  | 0, _, _ => 0
  | fuel + 1, row, col =>
    if b.at? row col = some color then b.scan rowOff colOff color fuel (row + rowOff) (col + colOff) + 1 else 0

/-- Whether at least five stones of `color` lie in a row through (`row`, `col`), which holds one. No loop
    takes `boardRow` steps (`scan_lt`). -/
def five (b : Board) (row col rowOff colOff : Int) (color : Chess) : Bool :=
  5 ≤ 1 + b.scan rowOff colOff color boardRow (row + rowOff) (col + colOff)
    + b.scan (-rowOff) (-colOff) color boardRow (row - rowOff) (col - colOff)

/-! ### Five in a row -/

def directions : List (Int × Int) := [(0, 1), (1, 0), (1, 1), (1, -1)]

/-- Somewhere on the board five stones of `color` lie in a row, a column or a diagonal. -/
def FiveInRow (b : Board) (color : Chess) : Prop :=
  ∃ row col : Int, ∃ d ∈ directions, ∀ i : Nat, i < 5 → b.at? (row + i * d.1) (col + i * d.2) = some color

variable {b : Board} {c : Cell} {color : Chess}

@[simp] theorem set_self : b.set c color c = some color := by simp [set]

theorem set_ne {c' : Cell} (h : c' ≠ c) : b.set c color c' = b c' := by simp [set, h]

@[simp] theorem at?_coe (b : Board) (c : Cell) : b.at? c.row c.col = b c := by simp [at?]

theorem at?_eq_some {row col : Int} :
    b.at? row col = some color ↔ ∃ c : Cell, row = c.row ∧ col = c.col ∧ b c = some color := by
  unfold at?
  cases h : Cell.of? row col with
  | none =>
    simp only [reduceCtorEq, false_iff]
    rintro ⟨c, rfl, rfl, -⟩
    simp at h
  | some c =>
    obtain ⟨rfl, rfl⟩ := Cell.of?_eq_some.mp h
    constructor
    · exact fun hb => ⟨c, rfl, rfl, hb⟩
    · rintro ⟨c', hr, hc, hb⟩
      have : Cell.of? c.row c.col = some c' := Cell.of?_eq_some.mpr ⟨hr, hc⟩
      rw [Cell.of?_coe, Option.some.injEq] at this
      rwa [this]

end Board
end FiveStones
