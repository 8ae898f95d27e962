import Mathlib.Data.List.Nodup
import Mathlib.Data.List.Induction
import Mathlib.Logic.Function.Basic

/-! Games in which two sides take turns, and a turn takes a point that is free. -/

namespace Turns
variable {α S : Type}

/-- The two sides of a game, with the one that opens first. -/
structure Sides (S : Type) where
  first : S
  second : S
  ne : first ≠ second

namespace Sides

/-- The side that takes the point with number `n`, counted from 0. -/
def side (s : Sides S) (n : Nat) : S := if n % 2 = 0 then s.first else s.second

variable {s : Sides S} {n : Nat}

@[simp] theorem side_zero : s.side 0 = s.first := rfl

theorem side_cases (s : Sides S) (n : Nat) :
    (s.side n = s.first ∧ s.side (n + 1) = s.second) ∨ (s.side n = s.second ∧ s.side (n + 1) = s.first) := by
  unfold Sides.side
  rcases Nat.mod_two_eq_zero_or_one n with h | h
  · exact Or.inl ⟨if_pos h, if_neg (by omega)⟩
  · exact Or.inr ⟨if_neg (by omega), if_pos (by omega)⟩

end Sides

/-- The points that are taken, oldest first. No point is taken twice. -/
structure Position (α : Type) where
  points : List α
  nodup : points.Nodup

namespace Position
variable {p : Position α} {a b : α} {s : Sides S}

def empty : Position α := ⟨[], .nil⟩

def play (p : Position α) (a : α) (h : a ∉ p.points) : Position α :=
  ⟨p.points ++ [a], p.nodup.append (List.nodup_singleton a) (List.disjoint_singleton.mpr h)⟩

/-- The side whose turn it is. -/
def toMove (p : Position α) (s : Sides S) : S := s.side p.points.length

/-- Every position is reached by taking points one by one. -/
theorem induction {motive : Position α → Prop} (empty : motive empty)
    (play : ∀ (p : Position α) (a : α) (h : a ∉ p.points), motive p → motive (p.play a h)) (p : Position α) : motive p := by
  obtain ⟨points, hnodup⟩ := p
  induction points using List.reverseRecOn with
  | nil => exact empty
  | append_singleton points a ih =>
    have hsplit := List.nodup_append'.mp hnodup
    exact play ⟨points, hsplit.1⟩ a (List.disjoint_singleton.mp hsplit.2.2) (ih hsplit.1)

theorem toMove_play (h : a ∉ p.points) : (p.play a h).toMove s = s.side (p.points.length + 1) := by
  simp [toMove, play]

/-- The turn passes. -/
theorem toMove_play_cases (p : Position α) (s : Sides S) (h : a ∉ p.points) :
    (p.toMove s = s.first ∧ (p.play a h).toMove s = s.second) ∨ (p.toMove s = s.second ∧ (p.play a h).toMove s = s.first) := by
  rw [toMove_play]
  exact s.side_cases _

variable [DecidableEq α]

/-- The side that has taken the point. -/
def owner (p : Position α) (s : Sides S) (a : α) : Option S := if a ∈ p.points then some (s.side (p.points.idxOf a)) else none

@[simp] theorem owner_empty : (empty : Position α).owner s = fun _ => none := rfl

theorem owner_eq_none : p.owner s a = none ↔ a ∉ p.points := by simp [owner]

/-- A point belongs to the side that takes it, and every other one to whom it did before. -/
theorem owner_play (h : a ∉ p.points) : (p.play a h).owner s = Function.update (p.owner s) a (some (p.toMove s)) := by
  funext b
  by_cases hb : b = a
  · subst hb
    rw [Function.update_self, owner, if_pos (by simp [play])]
    simp [play, toMove, List.idxOf_append_of_notMem h]
  · rw [Function.update_of_ne hb]
    by_cases hmem : b ∈ p.points
    · simp [owner, play, hmem, List.idxOf_append_of_mem hmem]
    · simp [owner, play, hmem, hb]

end Position
end Turns
