import FiveStones.Matcher
import FiveStones.Theorems.RoomMap

/-! What a step of the server can do to the queues, to the hands of the match threads and to the rooms. The
results on matching are derived from this list and never look at the code again. -/

namespace FiveStones

@[simp] theorem Pc.afterAdd_hands (rest : List Uid) : (Pc.afterAdd rest).hands = rest := by
  cases rest <;> rfl

/-- An event of a connection, which leaves the queues alone. -/
def ServerEvent.OfConnection : ServerEvent → Prop
  | turn .. | matchStart .. | matchStop .. => False
  | hallOpen .. | hallClose .. | roomOpen .. | roomClose .. | roomMessage .. | drop .. => True

namespace Server
variable {s s' : Server} {k k' pool : Pool} {pc : Pc} {uid uid1 uid2 : Uid} {q : List Uid} {out : List Obs} {now : Int}
  {selectById : Uid → Option Members} {e : ServerEvent}

/-! ### The updates -/

def hands (s : Server) (k : Pool) : List Uid := (s.pcs k).hands

@[simp] theorem goto_hands_self : (s.goto k pc).hands k = pc.hands := by simp [hands, goto]

theorem hands_create (h : s.pcs k = .create uid1 uid2) : s.hands k = [uid1, uid2] := by
  rw [hands, h]
  rfl

theorem goto_hands_ne (h : k' ≠ k) : (s.goto k pc).hands k' = s.hands k' := by simp [hands, goto, h]

@[simp] theorem goto_pcs_self : (s.goto k pc).pcs k = pc := by simp [goto]

theorem goto_pcs_ne (h : k' ≠ k) : (s.goto k pc).pcs k' = s.pcs k' := by simp [goto, h]

@[simp] theorem goto_queues : (s.goto k pc).queues = s.queues := rfl

@[simp] theorem setQueue_queues_self : (s.setQueue k q).queues k = q := by simp [setQueue]

theorem setQueue_queues_ne (h : k' ≠ k) : (s.setQueue k q).queues k' = s.queues k' := by simp [setQueue, h]

@[simp] theorem setQueue_hands : (s.setQueue k q).hands = s.hands := rfl

theorem push_queues : (s.push k uid).queues k' = if k' = k then s.queues k' ++ [uid] else s.queues k' := by
  by_cases h : k' = k
  · subst h
    simp [push]
  · simp [push, setQueue_queues_ne h, h]

theorem remove_queues :
    (s.remove k uid).queues k' = if k' = k then (s.queues k').filter (· ≠ uid) else s.queues k' := by
  by_cases h : k' = k
  · subst h
    simp [remove]
  · simp [remove, setQueue_queues_ne h, h]

@[simp] theorem push_hands : (s.push k uid).hands = s.hands := rfl

@[simp] theorem remove_hands : (s.remove k uid).hands = s.hands := rfl

/-! ### A match thread -/

/-- One step of the match thread `k`, by what becomes of the users that it holds. -/
inductive TurnStep (s : Server) (k : Pool) (selectById : Uid → Option Members) (now : Int) : Server → List Obs → Prop
  | round : s.hands k = [] → TurnStep s k selectById now (s.goto k .pop1) [.round k]
  | walk {pc : Pc} : pc.hands = s.hands k → TurnStep s k selectById now (s.goto k pc) []
  | pop {uid : Uid} {q : List Uid} {pc : Pc} : s.queues k = uid :: q → pc.hands = s.hands k ++ [uid] →
      TurnStep s k selectById now ((s.setQueue k q).goto k pc) [.popped k uid]
  | absent {uid : Uid} {pc : Pc} : s.inGameHall uid = false → pc.hands.Sublist (s.hands k) →
      (∀ v ∈ s.hands k, v = uid ∨ v ∈ pc.hands) → TurnStep s k selectById now (s.goto k pc) [.absent k uid]
  | seat {uid1 uid2 : Uid} : s.pcs k = .create uid1 uid2 →
      TurnStep s k selectById now ({ s with rm := s.rm.addRoom uid1 uid2 now }.goto k .size)
        [.created k (Room.create s.rm.nextRid uid1 uid2 now)]
  | back {uid : Uid} {rest : List Uid} {pool : Pool} {pc : Pc} : s.hands k = uid :: rest → pc.hands = rest →
      TurnStep s k selectById now ((s.push pool uid).goto k pc) [.pushed (some k) pool uid]
  | lost {uid : Uid} {rest : List Uid} {pc : Pc} : s.pcs k = .add uid rest → pc.hands = rest → selectById uid = none →
      TurnStep s k selectById now (s.goto k pc) []

theorem poolOfUser_none (h : poolOfUser selectById uid = .ok none) : selectById uid = none := by
  unfold poolOfUser at h
  split at h
  · assumption
  · obtain ⟨score, -, h⟩ := ok_of_bind h
    cases h

theorem poolOfUser_some (h : poolOfUser selectById uid = .ok (some pool)) : selectById uid ≠ none := by
  intro hnone
  simp [poolOfUser, hnone] at h

theorem turn_inv (h : s.turn k selectById now = some (s', out)) : TurnStep s k selectById now s' out := by
  unfold turn at h
  split at h
  · rename_i hpc
    have hnone : s.hands k = [] := by rw [hands, hpc]; rfl
    split at h
    · cases h
      exact .walk hnone.symm
    · cases h
      exact .round hnone
  · rename_i hpc
    split at h
    · cases h
    · cases h
      exact .walk (by rw [hands, hpc]; rfl)
  · rename_i hpc
    split at h
    · cases h
      exact .walk (by rw [hands, hpc]; rfl)
    · rename_i uid1 q hq
      cases h
      exact .pop hq (by rw [hands, hpc]; rfl)
  · rename_i uid1 hpc
    split at h
    · cases h
      exact .walk (by rw [hands, hpc]; rfl)
    · rename_i uid2 q hq
      cases h
      exact .pop hq (by rw [hands, hpc]; rfl)
  · rename_i uid1 uid2 hpc
    have hheld : s.hands k = [uid1, uid2] := by rw [hands, hpc]; rfl
    split at h
    · cases h
      exact .walk hheld.symm
    · rename_i hgone
      cases h
      refine .absent (by simpa using hgone) ?_ ?_ <;> rw [hheld]
      · exact List.sublist_cons_self _ _
      · simp [Pc.hands]
  · rename_i uid1 uid2 hpc
    have hheld : s.hands k = [uid1, uid2] := by rw [hands, hpc]; rfl
    split at h
    · cases h
      exact .walk hheld.symm
    · rename_i hgone
      cases h
      refine .absent (by simpa using hgone) ?_ ?_ <;> rw [hheld]
      · exact List.sublist_append_left [uid1] [uid2]
      · simp [Pc.hands, or_comm]
  · rename_i uid1 uid2 hpc
    have hheld : s.hands k = [uid1, uid2] := by rw [hands, hpc]; rfl
    split at h
    · cases h
      exact .walk hheld.symm
    · rename_i hgone
      cases h
      refine .absent (by simpa using hgone) ?_ ?_ <;> rw [hheld]
      · exact .refl _
      · exact fun v hv => Or.inr hv
  · rename_i uid1 uid2 hpc
    have hheld : s.hands k = [uid1, uid2] := by rw [hands, hpc]; rfl
    split at h
    · cases h
      exact .walk hheld.symm
    · rename_i hgone
      cases h
      refine .absent (by simpa using hgone) ?_ ?_ <;> rw [hheld]
      · exact .refl _
      · exact fun v hv => Or.inr hv
  · rename_i uid1 uid2 hpc
    cases h
    exact .seat hpc
  · rename_i uid rest hpc
    split at h
    · cases h
    · rename_i hsel
      cases h
      exact .lost hpc (Pc.afterAdd_hands rest) (poolOfUser_none hsel)
    · rename_i pool hsel
      cases h
      exact .back (by rw [hands, hpc]; rfl) (Pc.afterAdd_hands rest)

/-! ### Any step -/

inductive ServerStep (s : Server) : ServerEvent → Server → List Obs → Prop
  | turn {k : Pool} {selectById : Uid → Option Members} {now : Int} {s' : Server} {out : List Obs} :
      TurnStep s k selectById now s' out → ServerStep s (.turn k selectById now) s' out
  | start {uid : Uid} {selectById : Uid → Option Members} {pool : Pool} : poolOfUser selectById uid = .ok (some pool) →
      ServerStep s (.matchStart uid selectById) (s.push pool uid) [.pushed none pool uid]
  | startLost {uid : Uid} {selectById : Uid → Option Members} : ServerStep s (.matchStart uid selectById) s []
  | stop {uid : Uid} {selectById : Uid → Option Members} {pool : Pool} : poolOfUser selectById uid = .ok (some pool) →
      ServerStep s (.matchStop uid selectById) (s.remove pool uid) [.removed pool uid]
  | stopLost {uid : Uid} {selectById : Uid → Option Members} : poolOfUser selectById uid = .ok none →
      ServerStep s (.matchStop uid selectById) s []
  | network {e : ServerEvent} {om : OnlineManager} {isOpen : ConnId → Bool} {rm : RoomManager} {calls : List Call} :
      e.OfConnection → RoomManager.MapStep s.rm rm → ServerStep s e { s with om, isOpen, rm } (calls.map .call)

theorem ServerStep.presence {om : OnlineManager} {isOpen : ConnId → Bool} (h : e.OfConnection) :
    ServerStep s e { s with om, isOpen } [] :=
  @ServerStep.network s e om isOpen s.rm [] h .idle

theorem wsopenGameHall_eq (s : Server) (uid : Uid) (conn : ConnId) :
    ∃ om isOpen, s.wsopenGameHall uid conn = { s with om, isOpen } := by
  unfold wsopenGameHall
  simp only
  split
  · exact ⟨_, _, rfl⟩
  · exact ⟨_, _, rfl⟩

theorem wsopenGameRoom_eq (s : Server) (uid : Uid) (conn : ConnId) :
    ∃ om isOpen, s.wsopenGameRoom uid conn = { s with om, isOpen } := by
  unfold wsopenGameRoom
  simp only
  split
  · exact ⟨_, _, rfl⟩
  split
  · split
    · exact ⟨_, _, rfl⟩
    · exact ⟨_, _, rfl⟩
  · split
    · exact ⟨_, _, rfl⟩
    · exact ⟨_, _, rfl⟩

theorem step_inv (h : machine.step s e = some (s', out)) : ServerStep s e s' out := by
  cases e with
  | turn k selectById now => exact .turn (turn_inv h)
  | matchStart uid selectById =>
    obtain ⟨pool?, hsel, h⟩ := ok_of_bind (ok_of_toOption h)
    cases pool? with
    | none =>
      obtain ⟨rfl, rfl⟩ := Prod.mk.inj (Except.ok.inj h)
      exact .startLost
    | some pool =>
      obtain ⟨rfl, rfl⟩ := Prod.mk.inj (Except.ok.inj h)
      exact .start hsel
  | matchStop uid selectById =>
    obtain ⟨pool?, hsel, h⟩ := ok_of_bind (ok_of_toOption h)
    cases pool? with
    | none =>
      obtain ⟨rfl, rfl⟩ := Prod.mk.inj (Except.ok.inj h)
      exact .stopLost hsel
    | some pool =>
      obtain ⟨rfl, rfl⟩ := Prod.mk.inj (Except.ok.inj h)
      exact .stop hsel
  | hallOpen uid conn =>
    obtain ⟨om, isOpen, heq⟩ := wsopenGameHall_eq s uid conn
    simp only [machine, heq, Option.some.injEq, Prod.mk.injEq] at h
    obtain ⟨rfl, rfl⟩ := h
    exact .presence trivial
  | roomOpen uid conn =>
    obtain ⟨om, isOpen, heq⟩ := wsopenGameRoom_eq s uid conn
    simp only [machine, heq, Option.some.injEq, Prod.mk.injEq] at h
    obtain ⟨rfl, rfl⟩ := h
    exact .presence trivial
  | hallClose uid =>
    cases h
    exact .presence trivial
  | drop conn =>
    cases h
    exact .presence trivial
  | roomClose uid =>
    cases h
    exact .network trivial (RoomManager.removeRoomUser_mapStep s.rm uid)
  | roomMessage uid body selectById now later =>
    simp only [machine] at h
    split at h
    · cases h
    · rename_i rm calls hmsg
      cases h
      exact .network trivial (RoomManager.wsmsgGameRoom_mapStep hmsg)

/-- The room of a step is for the two users that the match thread was about to seat. -/
theorem ServerStep.created {r : Room} (hs : ServerStep s e s' out) (hr : .created k r ∈ out) :
    ∃ uid1 uid2 now, s.pcs k = .create uid1 uid2 ∧ r = Room.create s.rm.nextRid uid1 uid2 now := by
  cases hs with
  | turn hturn =>
    cases hturn with
    | seat hpc =>
      simp only [List.mem_singleton, Obs.created.injEq] at hr
      obtain ⟨rfl, rfl⟩ := hr
      exact ⟨_, _, _, hpc, rfl⟩
    | round | walk | pop | absent | back | lost => simp at hr
  | start | startLost | stop | stopLost | network => simp at hr

/-- A match thread stands still while others take their steps. -/
theorem ServerStep.pcs_eq (hs : ServerStep s e s' out) (h : ∀ selectById now, e ≠ .turn k selectById now) :
    s'.pcs k = s.pcs k := by
  cases hs with
  | @turn k' selectById now _ _ hturn =>
    have hne : k ≠ k' := by
      rintro rfl
      exact h selectById now rfl
    cases hturn with
    | round | walk | absent | lost => exact goto_pcs_ne hne
    | pop => exact goto_pcs_ne (s := s.setQueue _ _) hne
    | seat => exact goto_pcs_ne hne
    | back => exact goto_pcs_ne (s := s.push _ _) hne
  | start | startLost | stop | stopLost | network => rfl

theorem ServerStep.consistent (hs : ServerStep s e s' out) (h : s.rm.Consistent) : s'.rm.Consistent := by
  cases hs with
  | turn hturn =>
    cases hturn with
    | seat => exact h.addRoom
    | round | walk | pop | absent | back | lost => exact h
  | start | startLost | stop | stopLost => exact h
  | network _ hmap => exact h.mapStep hmap

theorem run_consistent {ts : List ServerTrans} (h : machine.Run start ts s) : s.rm.Consistent :=
  h.invariant (I := fun s => s.rm.Consistent) RoomManager.consistent_empty fun hi hs => (step_inv hs).consistent hi

end Server
end FiveStones
