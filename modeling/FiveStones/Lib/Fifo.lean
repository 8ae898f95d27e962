import Mathlib.Data.List.Induction
import Mathlib.Data.List.Enum
import Mathlib.Data.List.Perm.Basic

/-! Queues that lose entries in the middle, against the log of what was done to them.

`Tracks` is what a log does to a queue. `replay` does the same with entries that carry the number of their
push, and keeps what was taken out: so every push is accounted for, and the order is that of the pushes. -/

namespace Fifo
variable {α : Type} [DecidableEq α]

inductive Op (α : Type)
  | push (a : α)
  | pop (a : α)
  | remove (a : α)

/-- The operations, oldest first, make the queue `q` of the empty one: a push goes to the end, a pop names what
    it takes from the front, and a remove takes all that is equal. -/
inductive Tracks : List (Op α) → List α → Prop
  | nil : Tracks [] []
  | push {ops : List (Op α)} {q : List α} (a : α) : Tracks ops q → Tracks (ops ++ [.push a]) (q ++ [a])
  | pop {ops : List (Op α)} {q : List α} {a : α} : Tracks ops (a :: q) → Tracks (ops ++ [.pop a]) q
  | remove {ops : List (Op α)} {q : List α} (a : α) : Tracks ops q → Tracks (ops ++ [.remove a]) (q.filter (· ≠ a))

def pushes (ops : List (Op α)) : List α :=
  ops.filterMap fun
    | .push a => some a
    | _ => none

def pops (ops : List (Op α)) : List α :=
  ops.filterMap fun
    | .pop a => some a
    | _ => none

/-- The entries with the numbers of their pushes: those still queued, and those that were taken out. -/
structure Tickets (α : Type) where
  next : Nat
  queued : List (α × Nat)
  popped : List (α × Nat)
  removed : List (α × Nat)

def Tickets.empty : Tickets α := ⟨0, [], [], []⟩

def Tickets.after (t : Tickets α) : Op α → Tickets α
  | .push a => { t with next := t.next + 1, queued := t.queued ++ [(a, t.next)] }
  | .pop _ => { t with queued := t.queued.tail, popped := t.popped ++ t.queued.take 1 }
  | .remove a =>
    { t with
      queued := t.queued.filter (·.1 ≠ a)
      removed := t.removed ++ t.queued.filter (·.1 = a) }

def replay (ops : List (Op α)) : Tickets α := ops.foldl Tickets.after Tickets.empty

/-- Every push of the log is still queued, popped or removed, and what is queued makes up `q` in the order of the
    pushes. -/
structure Kept (ops : List (Op α)) (q : List α) : Prop where
  queued : (replay ops).queued.map Prod.fst = q
  popped : (replay ops).popped.map Prod.fst = pops ops
  removed : ∀ x ∈ (replay ops).removed, .remove x.1 ∈ ops
  all : ((replay ops).queued ++ (replay ops).popped ++ (replay ops).removed).Perm (pushes ops).zipIdx
  order : (replay ops).queued.Pairwise fun x y => x.2 < y.2

variable {ops : List (Op α)} {q : List α}

@[simp] theorem replay_snoc (ops : List (Op α)) (op : Op α) : replay (ops ++ [op]) = (replay ops).after op := by
  simp [replay]

omit [DecidableEq α] in
theorem pushes_snoc (ops : List (Op α)) (op : Op α) : pushes (ops ++ [op]) = pushes ops ++ pushes [op] :=
  List.filterMap_append

omit [DecidableEq α] in
theorem pops_snoc (ops : List (Op α)) (op : Op α) : pops (ops ++ [op]) = pops ops ++ pops [op] :=
  List.filterMap_append

theorem Tracks.queued (h : Tracks ops q) : (replay ops).queued.map Prod.fst = q := by
  induction h with
  | nil => rfl
  | push a _ ih => simp [Tickets.after, ih]
  | pop _ ih => simp [Tickets.after, ih]
  | remove a _ ih => simp [Tickets.after, ← ih, List.filter_map, Function.comp_def]

theorem replay_next (ops : List (Op α)) : (replay ops).next = (pushes ops).length := by
  induction ops using List.reverseRecOn with
  | nil => rfl
  | append_singleton ops op ih =>
    rw [replay_snoc, pushes_snoc, List.length_append, ← ih]
    cases op <;> rfl

theorem queued_lt (ops : List (Op α)) : ∀ x ∈ (replay ops).queued, x.2 < (replay ops).next := by
  induction ops using List.reverseRecOn with
  | nil => intro x hx; cases hx
  | append_singleton ops op ih =>
    rw [replay_snoc]
    cases op with
    | push a =>
      intro x hx
      rcases List.mem_append.mp hx with hx | hx
      · exact Nat.lt_succ_of_lt (ih x hx)
      · obtain rfl := List.mem_singleton.mp hx
        exact Nat.lt_succ_self _
    | pop a => exact fun x hx => ih x (List.mem_of_mem_tail hx)
    | remove a => exact fun x hx => ih x (List.mem_of_mem_filter hx)

theorem queued_sorted (ops : List (Op α)) : (replay ops).queued.Pairwise fun x y => x.2 < y.2 := by
  induction ops using List.reverseRecOn with
  | nil => exact .nil
  | append_singleton ops op ih =>
    rw [replay_snoc]
    cases op with
    | push a =>
      refine List.pairwise_append.mpr ⟨ih, List.pairwise_singleton _ _, fun x hx y hy => ?_⟩
      obtain rfl := List.mem_singleton.mp hy
      exact queued_lt ops x hx
    | pop a => exact ih.sublist (List.tail_sublist _)
    | remove a => exact ih.sublist List.filter_sublist

/-- Every push is queued, popped or removed, and only one of these. -/
theorem accounted (ops : List (Op α)) :
    ((replay ops).queued ++ (replay ops).popped ++ (replay ops).removed).Perm (pushes ops).zipIdx := by
  induction ops using List.reverseRecOn with
  | nil => exact .refl _
  | append_singleton ops op ih =>
    rw [replay_snoc, pushes_snoc, List.zipIdx_append]
    rw [List.perm_iff_count] at ih ⊢
    intro x
    have hcount := ih x
    simp only [List.count_append] at hcount ⊢
    cases op with
    | push a =>
      simp only [Tickets.after, replay_next, pushes, List.filterMap_cons, List.filterMap_nil, List.zipIdx_singleton,
        Nat.zero_add, List.count_append] at hcount ⊢
      omega
    | pop a =>
      simp only [Tickets.after, pushes, List.filterMap_cons, List.filterMap_nil, List.zipIdx_nil, List.count_nil,
        List.count_append, Nat.add_zero] at hcount ⊢
      cases hq : (replay ops).queued with
      | nil => simpa [hq] using hcount
      | cons y q =>
        rw [hq, List.count_cons] at hcount
        simp only [List.tail_cons, List.take_succ_cons, List.take_zero, List.count_cons, List.count_nil]
        omega
    | remove a =>
      simp only [Tickets.after, pushes, List.filterMap_cons, List.filterMap_nil, List.zipIdx_nil, List.count_nil,
        List.count_append, Nat.add_zero, ne_eq] at hcount ⊢
      have hsplit := (List.filter_append_perm (fun y : α × Nat => decide (y.1 = a)) (replay ops).queued).count_eq x
      simp only [List.count_append, ← decide_not] at hsplit
      omega

theorem Tracks.popped (h : Tracks ops q) : (replay ops).popped.map Prod.fst = pops ops := by
  induction h with
  | nil => rfl
  | push a _ ih | remove a _ ih =>
    rw [replay_snoc, pops_snoc, ← ih]
    exact (List.append_nil _).symm
  | @pop ops q a h ih =>
    obtain ⟨x, rest, hqueued, rfl, -⟩ := List.map_eq_cons_iff.mp h.queued
    simp [Tickets.after, hqueued, ih, pops]

theorem removed_named (ops : List (Op α)) : ∀ x ∈ (replay ops).removed, .remove x.1 ∈ ops := by
  induction ops using List.reverseRecOn with
  | nil => intro x hx; cases hx
  | append_singleton ops op ih =>
    intro x hx
    rw [replay_snoc] at hx
    cases op with
    | push a | pop a => exact List.mem_append_left _ (ih x hx)
    | remove a =>
      rcases List.mem_append.mp hx with hx | hx
      · exact List.mem_append_left _ (ih x hx)
      · have ha : x.1 = a := by simpa using (List.mem_filter.mp hx).2
        rw [ha]
        exact List.mem_append_right _ (List.mem_singleton_self _)

/-- Where nothing is removed, what was pushed comes out in that order. -/
theorem Tracks.pushes_eq (h : Tracks ops q) (hno : ∀ a, .remove a ∉ ops) : pushes ops = pops ops ++ q := by
  induction h with
  | nil => rfl
  | @push ops q a _ ih =>
    rw [pushes_snoc, pops_snoc, ih fun b hb => hno b (List.mem_append_left _ hb)]
    simp [pushes, pops]
  | @pop ops q a _ ih =>
    rw [pushes_snoc, pops_snoc, ih fun b hb => hno b (List.mem_append_left _ hb)]
    simp [pushes, pops]
  | remove a => exact absurd (List.mem_append_right _ (List.mem_singleton_self _)) (hno a)

theorem Tracks.kept (h : Tracks ops q) : Kept ops q :=
  ⟨h.queued, h.popped, removed_named ops, accounted ops, queued_sorted ops⟩

end Fifo
