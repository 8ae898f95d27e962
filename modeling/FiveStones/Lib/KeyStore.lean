import FiveStones.Lib.Dict

/-! Stores of keys that may be given an expiry: a key with one can lapse at any time, and a key that is
written anew has none. -/

structure KeyEntry (υ : Type) where
  value : υ
  expires : Bool

abbrev KeyStore (κ υ : Type) := Dict κ (KeyEntry υ)

namespace KeyStore
variable {κ υ : Type} [DecidableEq κ] {d : KeyStore κ υ} {k k' : κ} {v v' : υ}

def get (d : KeyStore κ υ) (k : κ) : Option υ := (d k).map KeyEntry.value

def set (d : KeyStore κ υ) (k : κ) (v : υ) : KeyStore κ υ := d.assign k ⟨v, false⟩

/-- Gives a key an expiry, if it is there. -/
def expire (d : KeyStore κ υ) (k : κ) : KeyStore κ υ :=
  match d k with
  | none => d
  | some e => d.assign k { e with expires := true }

def del (d : KeyStore κ υ) (k : κ) : KeyStore κ υ := d.erase k

/-- A key with an expiry is gone. -/
def lapse (d : KeyStore κ υ) (k : κ) : Option (KeyStore κ υ) :=
  match d k with
  | some ⟨_, true⟩ => some (d.erase k)
  | _ => none

@[simp] theorem get_set_self : (set d k v).get k = some v := by simp [get, set]

theorem get_set_ne (h : k' ≠ k) : (set d k v).get k' = get d k' := by simp [get, set, Dict.assign_ne h]

@[simp] theorem get_del_self : (del d k).get k = none := by simp [get, del]

theorem get_del_ne (h : k' ≠ k) : (del d k).get k' = get d k' := by simp [get, del, Dict.erase_ne h]

@[simp] theorem get_expire : (expire d k).get k' = get d k' := by
  unfold expire
  split
  · rfl
  · rename_i e he
    by_cases h : k' = k
    · subst h
      simp [get, he]
    · simp [get, Dict.assign_ne h]

theorem get_of_set (h : (set d k v).get k' = some v') : (k' = k ∧ v' = v) ∨ get d k' = some v' := by
  by_cases hk : k' = k
  · subst hk
    rw [get_set_self] at h
    exact Or.inl ⟨rfl, (Option.some.inj h).symm⟩
  · rw [get_set_ne hk] at h
    exact Or.inr h

/-- Whatever a key holds after some keys were deleted, it held before. -/
theorem get_of_del (h : (del d k).get k' = some v) : get d k' = some v := by
  by_cases hk : k' = k
  · subst hk
    simp at h
  · rwa [get_del_ne hk] at h

theorem get_of_lapse {d' : KeyStore κ υ} (hd : d.lapse k = some d') (h : d'.get k' = some v) : get d k' = some v := by
  unfold lapse at hd
  split at hd
  · cases hd
    exact get_of_del h
  · cases hd

/-! ### Other values under the same keys -/

/-- Every value as `f` has it. -/
def map {υ' : Type} (f : υ → υ') (d : KeyStore κ υ) : KeyStore κ υ' := fun k => (d k).map fun e => ⟨f e.value, e.expires⟩

section
variable {υ' : Type} (f : υ → υ')

omit [DecidableEq κ] in
theorem get_map : (d.map f).get k = (d.get k).map f := by
  simp only [get, map, Option.map_map]
  rfl

theorem map_set : (d.set k v).map f = (d.map f).set k (f v) := by
  funext k'
  by_cases h : k' = k
  · subst h
    simp [map, set]
  · simp [map, set, Dict.assign_ne h]

theorem map_expire : (d.expire k).map f = (d.map f).expire k := by
  funext k'
  unfold expire
  cases hd : d k with
  | none => simp [map, hd]
  | some e =>
    by_cases h : k' = k
    · subst h
      simp [map, hd]
    · simp [map, hd, Dict.assign_ne h]

theorem map_del : (d.del k).map f = (d.map f).del k := by
  funext k'
  by_cases h : k' = k
  · subst h
    simp [map, del]
  · simp [map, del, Dict.erase_ne h]

end

/-! ### Keys that stay -/

/-- The key is there, and has no expiry. -/
def Forever (d : KeyStore κ υ) (k : κ) : Prop := ∃ e, d k = some e ∧ e.expires = false

/-- Every key that is there has an expiry. -/
def Expiring (d : KeyStore κ υ) : Prop := ∀ k e, d k = some e → e.expires = true

omit [DecidableEq κ] in
theorem expiring_iff : Expiring d ↔ ∀ k, ¬Forever d k := by
  constructor
  · rintro h k ⟨e, he, hexpires⟩
    rw [h k e he] at hexpires
    cases hexpires
  · intro h k e he
    by_contra hexpires
    exact h k ⟨e, he, (Bool.not_eq_true _).mp hexpires⟩

omit [DecidableEq κ] in
theorem expiring_empty : Expiring (Dict.empty : KeyStore κ υ) := by
  intro k e he
  cases he

@[simp] theorem forever_set : Forever (set d k v) k' ↔ k' = k ∨ Forever d k' := by
  by_cases h : k' = k
  · subst h
    simp [Forever, set]
  · simp [Forever, set, Dict.assign_ne h, h]

@[simp] theorem forever_expire : Forever (expire d k) k' ↔ k' ≠ k ∧ Forever d k' := by
  unfold expire
  by_cases h : k' = k
  · subst h
    cases hd : d k' with
    | none => simp [Forever, hd]
    | some e => simp [Forever]
  · cases hd : d k with
    | none => simp [h]
    | some e => simp [Forever, Dict.assign_ne h, h]

@[simp] theorem forever_del : Forever (del d k) k' ↔ k' ≠ k ∧ Forever d k' := by
  by_cases h : k' = k
  · subst h
    simp [Forever, del]
  · simp [Forever, del, Dict.erase_ne h, h]

/-- Only a key with an expiry lapses. -/
theorem forever_lapse {d' : KeyStore κ υ} (h : d.lapse k = some d') : Forever d' k' ↔ Forever d k' := by
  unfold lapse at h
  split at h
  · rename_i v hk
    cases h
    have hdel : Forever (del d k) k' ↔ k' ≠ k ∧ Forever d k' := forever_del
    refine hdel.trans (and_iff_right_of_imp ?_)
    rintro ⟨e, he, hexpires⟩ rfl
    cases hk.symm.trans he
    cases hexpires
  · cases h

theorem Expiring.expire (h : Expiring d) (k : κ) : Expiring (d.expire k) :=
  expiring_iff.mpr fun k' hk => expiring_iff.mp h k' (forever_expire.mp hk).2

theorem Expiring.del (h : Expiring d) (k : κ) : Expiring (d.del k) :=
  expiring_iff.mpr fun k' hk => expiring_iff.mp h k' (forever_del.mp hk).2

theorem Expiring.lapse {d' : KeyStore κ υ} (h : Expiring d) (hd : d.lapse k = some d') : Expiring d' :=
  expiring_iff.mpr fun k' hk => expiring_iff.mp h k' ((forever_lapse hd).mp hk)

/-- A key that is written has to be given its expiry. -/
theorem expiring_set_expire (h : Expiring d) : Expiring ((d.set k v).expire k) := by
  refine expiring_iff.mpr fun k' hk => ?_
  obtain ⟨hne, hset⟩ := forever_expire.mp hk
  rcases forever_set.mp hset with heq | hold
  · exact hne heq
  · exact expiring_iff.mp h k' hold

theorem not_expiring_set : ¬Expiring (d.set k v) := fun h => expiring_iff.mp h k (forever_set.mpr (Or.inl rfl))

end KeyStore
