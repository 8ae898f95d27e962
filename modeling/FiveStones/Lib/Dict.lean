import Mathlib.Logic.Function.Basic

/-! Maps given by their lookup, with the two ways of storing an entry that hash maps have: one that
keeps an entry that is there, and one that writes over it. -/

abbrev Dict (κ υ : Type) := κ → Option υ

namespace Dict
variable {κ υ : Type} [DecidableEq κ] {d : Dict κ υ} {k k' : κ} {v : υ}

def empty : Dict κ υ := fun _ => none

/-- Stores `v` under `k`, unless `k` has an entry: then nothing changes. -/
def insert (d : Dict κ υ) (k : κ) (v : υ) : Dict κ υ := if (d k).isSome then d else Function.update d k (some v)

/-- Stores `v` under `k`, in place of any entry there. -/
def assign (d : Dict κ υ) (k : κ) (v : υ) : Dict κ υ := Function.update d k (some v)

def erase (d : Dict κ υ) (k : κ) : Dict κ υ := Function.update d k none

@[simp] theorem assign_self : d.assign k v k = some v := by simp [assign]

theorem assign_ne (h : k' ≠ k) : d.assign k v k' = d k' := by simp [assign, h]

@[simp] theorem erase_self : d.erase k k = none := by simp [erase]

theorem erase_ne (h : k' ≠ k) : d.erase k k' = d k' := by simp [erase, h]

theorem assign_of_some (h : d k = some v) : d.assign k v = d := by
  simp [assign, ← h]

theorem assign_eq_some {v' : υ} : d.assign k v k' = some v' ↔ (k' = k ∧ v' = v) ∨ (k' ≠ k ∧ d k' = some v') := by
  by_cases h : k' = k
  · subst h
    simp [eq_comm]
  · simp [assign_ne h, h]

theorem erase_eq_some : d.erase k k' = some v ↔ k' ≠ k ∧ d k' = some v := by
  by_cases h : k' = k
  · simp [h]
  · simp [erase_ne h, h]

theorem insert_of_none (h : d k = none) : d.insert k v = d.assign k v := by simp [insert, assign, h]

theorem insert_of_some {v' : υ} (h : d k = some v') : d.insert k v = d := by simp [insert, h]

theorem insert_ne (h : k' ≠ k) : d.insert k v k' = d k' := by
  unfold insert
  split
  · rfl
  · simp [h]

/-- An entry after `insert` is the new one under `k`, or was there before. -/
theorem insert_eq_some {v' : υ} (h : d.insert k v k' = some v') :
    (k' = k ∧ v' = v ∧ d k = none) ∨ d k' = some v' := by
  by_cases hk : k' = k
  · subst hk
    cases hd : d k' with
    | none =>
      rw [insert_of_none hd, assign_self] at h
      exact Or.inl ⟨rfl, (Option.some.inj h).symm, rfl⟩
    | some w =>
      rw [insert_of_some hd, hd] at h
      exact Or.inr h
  · rw [insert_ne hk] at h
    exact Or.inr h

end Dict
