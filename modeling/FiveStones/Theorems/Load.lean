import FiveStones.Theorems.ServerStep

/-! How often a user waits: in the queues, and in the hands of the match threads. -/

namespace FiveStones

def Pool.total (f : Pool → Nat) : Nat := f .normal + f .high + f .super

theorem Pool.total_change {f g : Pool → Nat} {k : Pool} (h : ∀ k', k' ≠ k → f k' = g k') :
    total f + g k = total g + f k := by
  have h1 := h .normal
  have h2 := h .high
  have h3 := h .super
  cases k <;> simp only [total, ne_eq, reduceCtorEq, not_false_eq_true, forall_const] at * <;> omega

theorem Pool.le_total (f : Pool → Nat) (k : Pool) : f k ≤ total f := by
  cases k <;> simp only [total] <;> omega

namespace Server
variable {s s' : Server} {k pool : Pool} {pc : Pc} {uid v : Uid} {q : List Uid} {out : List Obs} {now : Int}
  {selectById : Uid → Option Members} {e : ServerEvent}

/-- How often a user stands in a queue, or is held by a match thread. -/
def load (s : Server) (uid : Uid) : Nat := Pool.total fun k => (s.queues k).count uid + (s.hands k).count uid

theorem load_congr (hqueues : s'.queues = s.queues) (hhands : s'.hands = s.hands) (uid : Uid) :
    s'.load uid = s.load uid := by
  rw [load, load, hqueues, hhands]

/-- A change at one queue and its thread changes the load by what it changes there. -/
theorem load_change (s s' : Server) (k : Pool) (uid : Uid)
    (h : ∀ k', k' ≠ k → s'.queues k' = s.queues k' ∧ s'.hands k' = s.hands k') :
    s'.load uid + ((s.queues k).count uid + (s.hands k).count uid) =
      s.load uid + ((s'.queues k).count uid + (s'.hands k).count uid) :=
  Pool.total_change (f := fun k => (s'.queues k).count uid + (s'.hands k).count uid)
    (g := fun k => (s.queues k).count uid + (s.hands k).count uid) fun k' hne => by
      simp only [(h k' hne).1, (h k' hne).2]

theorem load_goto (s : Server) (k : Pool) (pc : Pc) (uid : Uid) :
    (s.goto k pc).load uid + (s.hands k).count uid = s.load uid + pc.hands.count uid := by
  have h := load_change s (s.goto k pc) k uid fun k' hne => ⟨rfl, goto_hands_ne hne⟩
  simp only [goto_queues, goto_hands_self] at h
  omega

theorem load_push (s : Server) (pool : Pool) (v uid : Uid) : (s.push pool v).load uid = s.load uid + [v].count uid := by
  have h := load_change s (s.push pool v) pool uid fun k' hne => ⟨by rw [push_queues, if_neg hne], rfl⟩
  simp only [push_queues, ↓reduceIte, push_hands, List.count_append] at h
  omega

theorem load_remove_le (s : Server) (pool : Pool) (v uid : Uid) : (s.remove pool v).load uid ≤ s.load uid := by
  have h := load_change s (s.remove pool v) pool uid fun k' hne => ⟨by rw [remove_queues, if_neg hne], rfl⟩
  have hle := (List.filter_sublist (p := (· ≠ v)) (l := s.queues pool)).count_le uid
  simp only [remove_queues, ↓reduceIte, remove_hands] at h
  omega

theorem load_pop (hq : s.queues k = v :: q) (hpc : pc.hands = s.hands k ++ [v]) (uid : Uid) :
    ((s.setQueue k q).goto k pc).load uid = s.load uid := by
  have h := load_change s ((s.setQueue k q).goto k pc) k uid fun k' hne => ⟨setQueue_queues_ne hne, goto_hands_ne hne⟩
  simp only [goto_queues, setQueue_queues_self, goto_hands_self, hpc, hq, List.count_append, List.count_cons,
    List.count_nil] at h
  omega

theorem load_seat {uid1 uid2 : Uid} (hheld : s.hands k = [uid1, uid2]) (rm : RoomManager) (uid : Uid) :
    ({ s with rm }.goto k .size).load uid + [uid1, uid2].count uid = s.load uid := by
  have h := load_goto s k .size uid
  rw [hheld] at h
  exact h

theorem hands_count_le (s : Server) (k : Pool) (uid : Uid) : (s.hands k).count uid ≤ s.load uid :=
  Nat.le_trans (Nat.le_add_left _ _) (Pool.le_total (fun k => (s.queues k).count uid + (s.hands k).count uid) k)

/-- No step of a match thread makes a user wait twice. -/
theorem TurnStep.load_le (hs : TurnStep s k selectById now s' out) (uid : Uid) : s'.load uid ≤ s.load uid := by
  cases hs with
  | round hnone =>
    have h := load_goto s k .pop1 uid
    simp only [hnone, Pc.hands] at h
    omega
  | @walk pc hpc =>
    have h := load_goto s k pc uid
    rw [hpc] at h
    omega
  | pop hq hpc => exact Nat.le_of_eq (load_pop hq hpc uid)
  | @absent _ pc _ hsub =>
    have h := load_goto s k pc uid
    have hle := hsub.count_le uid
    omega
  | @seat uid1 uid2 hpc => exact Nat.le.intro (load_seat (hands_create hpc) (s.rm.addRoom uid1 uid2 now) uid)
  | @back v rest pool pc hheld hpc =>
    have h := load_goto (s.push pool v) k pc uid
    rw [push_hands, hheld, hpc, load_push, List.count_cons] at h
    simp only [List.count_singleton] at h
    omega
  | @lost v rest pc hheld hpc =>
    have h := load_goto s k pc uid
    rw [show s.hands k = v :: rest by rw [hands, hheld]; rfl, hpc, List.count_cons] at h
    omega

/-- Only a `match_start` of the user makes it wait once more. -/
theorem ServerStep.load_le (hs : ServerStep s e s' out) (h : ∀ selectById, e ≠ .matchStart uid selectById) :
    s'.load uid ≤ s.load uid := by
  cases hs with
  | turn hturn => exact hturn.load_le uid
  | @start v selectById pool =>
    have hne : v ≠ uid := by
      rintro rfl
      exact h selectById rfl
    simp [load_push, hne]
  | startLost | stopLost => exact Nat.le_refl _
  | stop => exact load_remove_le s _ _ uid
  | network => exact Nat.le_of_eq (load_congr rfl rfl uid)

/-- Who waits stands in a queue, or is held by a match thread. -/
theorem load_pos : 0 < s.load uid ↔ ∃ k, uid ∈ s.queues k ∨ uid ∈ s.hands k := by
  constructor
  · intro h
    by_contra hno
    push Not at hno
    have hzero : ∀ k, (s.queues k).count uid + (s.hands k).count uid = 0 := fun k => by
      rw [List.count_eq_zero.mpr (hno k).1, List.count_eq_zero.mpr (hno k).2]
    simp [load, Pool.total, hzero] at h
  · rintro ⟨k, hmem⟩
    have hle := Pool.le_total (fun k => (s.queues k).count uid + (s.hands k).count uid) k
    refine Nat.lt_of_lt_of_le ?_ hle
    rcases hmem with hmem | hmem
    · exact Nat.add_pos_left (List.count_pos_iff.mpr hmem) _
    · exact Nat.add_pos_right _ (List.count_pos_iff.mpr hmem)

end Server
end FiveStones
