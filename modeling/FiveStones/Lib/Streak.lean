import Mathlib.Data.Int.Order.Basic

/-! Streaks on a line: how far a property holds without a gap, seen from one place.

`streak` counts forward from a place, `fuel` places at most. `le_streaks_iff` says what the two counts
from one place, one in each direction, tell about the windows of `n` places that contain it. -/

/-- How many of `p 0, p 1, …` hold before the first that does not, of the first `fuel`. -/
def streak (p : Nat → Bool) : Nat → Nat
  | 0 => 0
  | fuel + 1 => if p 0 then streak (fun i => p (i + 1)) fuel + 1 else 0

theorem of_lt_streak {p : Nat → Bool} {fuel i : Nat} (h : i < streak p fuel) : p i = true := by
  induction fuel generalizing p i with
  | zero => simp [streak] at h
  | succ fuel ih =>
    simp only [streak] at h
    split at h
    · rename_i h0
      cases i with
      | zero => exact h0
      | succ i => exact ih (p := fun i => p (i + 1)) (by omega)
    · omega

/-- A streak reaches as far as the property holds, within its fuel. -/
theorem le_streak {p : Nat → Bool} {fuel n : Nat} (hn : n ≤ fuel) (h : ∀ i < n, p i = true) : n ≤ streak p fuel := by
  induction fuel generalizing p n with
  | zero => omega
  | succ fuel ih =>
    cases n with
    | zero => omega
    | succ n =>
      have hrest := ih (p := fun i => p (i + 1)) (n := n) (by omega) fun i hi => h (i + 1) (by omega)
      simp only [streak, h 0 (by omega), ↓reduceIte]
      omega

/-- A streak ends where the property first fails. -/
theorem streak_eq {p : Nat → Bool} {fuel n : Nat} (hn : n < fuel) (hall : ∀ i < n, p i = true) (hstop : p n = false) :
    streak p fuel = n := by
  refine Nat.le_antisymm ?_ (le_streak (Nat.le_of_lt hn) hall)
  by_contra hlonger
  rw [of_lt_streak (Nat.not_le.mp hlonger)] at hstop
  cases hstop

theorem stop_of_streak_lt {p : Nat → Bool} {fuel : Nat} (h : streak p fuel < fuel) : p (streak p fuel) = false := by
  by_contra hstop
  have hall : ∀ i < streak p fuel + 1, p i = true := by
    intro i hi
    rcases Nat.lt_succ_iff_lt_or_eq.mp hi with hlt | rfl
    · exact of_lt_streak hlt
    · exact (Bool.not_eq_false _).mp hstop
  have hlonger := le_streak h hall
  omega

/-- More fuel than a streak needs makes it no longer. -/
theorem streak_fuel {p : Nat → Bool} {fuel n : Nat} (h : streak p n < n) (hn : n ≤ fuel) : streak p fuel = streak p n :=
  streak_eq (Nat.lt_of_lt_of_le h hn) (fun _ hi => of_lt_streak hi) (stop_of_streak_lt h)

/-- Seen from a place where `q` holds, the two streaks and the place itself make up `n` or more exactly
    when some `n` places in a row that contain it have `q` throughout. -/
theorem le_streaks_iff {q : Int → Bool} {fuel n : Nat} (h0 : q 0 = true) (hn : 0 < n) (hfuel : n ≤ fuel + 1) :
    n ≤ 1 + streak (fun i => q (i + 1)) fuel + streak (fun i => q (-(i + 1))) fuel ↔
      ∃ a : Int, a ≤ 0 ∧ 0 < a + n ∧ ∀ i : Nat, i < n → q (a + i) = true := by
  constructor
  · intro h
    -- The window starts as far back as the backward streak allows, `n - 1` places at most.
    obtain ⟨k, hk, hkn, hwin⟩ : ∃ k, k ≤ streak (fun i => q (-(i + 1))) fuel ∧ k < n ∧
        n - 1 - k ≤ streak (fun i => q (i + 1)) fuel :=
      ⟨min (streak (fun i => q (-(i + 1))) fuel) (n - 1), by omega, by omega, by omega⟩
    refine ⟨-k, by omega, by omega, fun i hi => ?_⟩
    rcases Nat.lt_trichotomy i k with hlt | heq | hgt
    · have hlt' : k - i - 1 < streak (fun i => q (-(i + 1))) fuel := by omega
      have hq : q (-((k - i - 1 : Nat) + 1)) = true := of_lt_streak hlt'
      rwa [show -((k - i - 1 : Nat) + 1 : Int) = -k + i by omega] at hq
    · rwa [show -(k : Int) + i = 0 by omega]
    · have hgt' : i - k - 1 < streak (fun i => q (i + 1)) fuel := by omega
      have hq : q ((i - k - 1 : Nat) + 1) = true := of_lt_streak hgt'
      rwa [show ((i - k - 1 : Nat) + 1 : Int) = -k + i by omega] at hq
  · rintro ⟨a, ha, han, hall⟩
    obtain ⟨k, rfl⟩ := Int.exists_eq_neg_ofNat ha
    have hfwd : n - 1 - k ≤ streak (fun i => q (i + 1)) fuel := by
      refine le_streak (by omega) fun i hi => ?_
      have := hall (k + 1 + i) (by omega)
      rwa [show -(k : Int) + ((k + 1 + i : Nat) : Int) = i + 1 by omega] at this
    have hback : k ≤ streak (fun i => q (-(i + 1))) fuel := by
      refine le_streak (by omega) fun i hi => ?_
      have := hall (k - 1 - i) (by omega)
      rwa [show -(k : Int) + ((k - 1 - i : Nat) : Int) = -(i + 1) by omega] at this
    omega

/-- The property holds from place `a` to place `b`, with 0 among them, and not at the two places next to them. -/
structure MaximalRun (q : Int → Bool) (a b : Int) : Prop where
  left : a ≤ 0
  right : 0 ≤ b
  all : ∀ i, a ≤ i → i ≤ b → q i = true
  stopLeft : q (a - 1) = false
  stopRight : q (b + 1) = false

section
variable {q : Int → Bool} {fuel : Nat} {a b : Int}

/-- The streaks from 0 in the two directions reach to the ends of the maximal run. -/
theorem maximalRun_of_streaks (h0 : q 0 = true) (hfwd : streak (fun i => q (i + 1)) fuel < fuel)
    (hback : streak (fun i => q (-(i + 1))) fuel < fuel) :
    MaximalRun q (-streak (fun i => q (-(i + 1))) fuel) (streak (fun i => q (i + 1)) fuel) where
  left := by omega
  right := by omega
  all i hleft hright := by
    rcases lt_trichotomy i 0 with hneg | rfl | hpos
    · have hlt : (-i - 1).toNat < streak (fun i => q (-(i + 1))) fuel := by omega
      have hq : q (-((-i - 1).toNat + 1)) = true := of_lt_streak hlt
      rwa [show -((-i - 1).toNat + 1 : Int) = i by omega] at hq
    · exact h0
    · have hlt : (i - 1).toNat < streak (fun i => q (i + 1)) fuel := by omega
      have hq : q ((i - 1).toNat + 1) = true := of_lt_streak hlt
      rwa [show ((i - 1).toNat + 1 : Int) = i by omega] at hq
  stopLeft := by
    have hstop := stop_of_streak_lt hback
    rwa [Int.neg_add] at hstop
  stopRight := stop_of_streak_lt hfwd

theorem MaximalRun.ends_le {a' b' : Int} (h : MaximalRun q a b) (h' : MaximalRun q a' b') : a' ≤ a ∧ b ≤ b' := by
  constructor
  · by_contra hlt
    have hq := h.all (a' - 1) (by omega) (by have := h'.left; have := h.right; omega)
    rw [h'.stopLeft] at hq
    cases hq
  · by_contra hlt
    have hq := h.all (b' + 1) (by have := h'.right; have := h.left; omega) (by omega)
    rw [h'.stopRight] at hq
    cases hq

theorem MaximalRun.unique {a' b' : Int} (h : MaximalRun q a b) (h' : MaximalRun q a' b') : a = a' ∧ b = b' :=
  ⟨Int.le_antisymm (h'.ends_le h).1 (h.ends_le h').1, Int.le_antisymm (h.ends_le h').2 (h'.ends_le h).2⟩

end
