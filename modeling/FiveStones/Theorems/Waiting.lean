import Mathlib.Data.List.DropRight
import FiveStones.Theorems.ServerStep

/-! What becomes of the users that a match thread takes out of its queue in one round of its loop, and of those
that it leaves there. -/

namespace FiveStones

namespace Obs

def thread : Obs → Option Pool
  | .round k | .popped k _ | .absent k _ | .created k _ => some k
  | .pushed thread _ _ => thread
  | .removed _ _ | .call _ => none

def isRound (k : Pool) : Obs → Bool
  | .round k' => k' = k
  | _ => false

def pops (k : Pool) (uid : Uid) : Obs → Bool
  | .popped k' v => k' = k ∧ v = uid
  | _ => false

/-- The match thread `k` puts the user back into a queue. -/
def putsBack (k : Pool) (uid : Uid) : Obs → Bool
  | .pushed thread _ v => thread = some k ∧ v = uid
  | _ => false

def queueOp (k : Pool) : Obs → Option (Fifo.Op Uid)
  | .pushed _ k' uid => if k' = k then some (.push uid) else none
  | .popped k' uid => if k' = k then some (.pop uid) else none
  | .removed k' uid => if k' = k then some (.remove uid) else none
  | .round _ | .absent _ _ | .created _ _ | .call _ => none

variable {k : Pool} {uid : Uid} {o : Obs}

theorem isRound_of_thread (h : o.thread ≠ some k) : o.isRound k = false := by
  cases o <;> simp_all [thread, isRound]

theorem putsBack_of_thread (h : o.thread ≠ some k) : o.putsBack k uid = false := by
  cases o <;> simp_all [thread, putsBack]

end Obs

/-- What was observed since the match thread `k` last began a round. -/
def since (k : Pool) (log : List Obs) : List Obs := log.rtakeWhile fun o => !o.isRound k

theorem since_round (k : Pool) (log : List Obs) : since k (log ++ [.round k]) = [] := by
  rw [since, List.rtakeWhile_concat_neg _ _ _ (by simp [Obs.isRound])]

theorem since_append {k : Pool} {out : List Obs} (log : List Obs) (h : ∀ o ∈ out, o.isRound k = false) :
    since k (log ++ out) = since k log ++ out := by
  induction out using List.reverseRecOn with
  | nil => simp
  | append_singleton out o ih =>
    have ho := h o (List.mem_append_right _ (List.mem_singleton_self _))
    rw [← List.append_assoc, since, List.rtakeWhile_concat_pos _ _ _ (by simp [ho]), ← since,
      ih fun o' ho' => h o' (List.mem_append_left _ ho'), List.append_assoc]

namespace Server
variable {s s' : Server} {k k' pool : Pool} {pc : Pc} {uid v : Uid} {out : List Obs} {now : Int}
  {selectById : Uid → Option Members} {e : ServerEvent} {ts : List ServerTrans} {ops : List (Fifo.Op Uid)}

/-! ### The queues -/

theorem tracks_pushed {thread : Option Pool} (h : Fifo.Tracks ops (s.queues k)) :
    Fifo.Tracks (ops ++ [Obs.pushed thread pool uid].filterMap (Obs.queueOp k)) ((s.push pool uid).queues k) := by
  rw [push_queues]
  by_cases hk : k = pool
  · subst hk
    simpa [Obs.queueOp] using h.push uid
  · simpa [Obs.queueOp, hk, Ne.symm hk] using h

theorem tracks_removed (h : Fifo.Tracks ops (s.queues k)) :
    Fifo.Tracks (ops ++ [Obs.removed pool uid].filterMap (Obs.queueOp k)) ((s.remove pool uid).queues k) := by
  rw [remove_queues]
  by_cases hk : k = pool
  · subst hk
    simpa [Obs.queueOp] using h.remove uid
  · simpa [Obs.queueOp, hk, Ne.symm hk] using h

theorem TurnStep.tracks (hs : TurnStep s k' selectById now s' out) (h : Fifo.Tracks ops (s.queues k)) :
    Fifo.Tracks (ops ++ out.filterMap (Obs.queueOp k)) (s'.queues k) := by
  cases hs with
  | round | walk | absent | seat | lost =>
    change Fifo.Tracks (ops ++ []) _
    rwa [List.append_nil]
  | back => exact tracks_pushed h
  | @pop uid q pc hq =>
    rw [goto_queues]
    by_cases hk : k = k'
    · subst hk
      rw [hq] at h
      simpa [Obs.queueOp] using h.pop
    · simpa [Obs.queueOp, Ne.symm hk, setQueue_queues_ne hk] using h

/-- The log of the steps is the log of each queue. -/
theorem ServerStep.tracks (hs : ServerStep s e s' out) (h : Fifo.Tracks ops (s.queues k)) :
    Fifo.Tracks (ops ++ out.filterMap (Obs.queueOp k)) (s'.queues k) := by
  cases hs with
  | turn hturn => exact hturn.tracks h
  | start => exact tracks_pushed h
  | stop => exact tracks_removed h
  | startLost | stopLost => simpa using h
  | network => simpa [List.filterMap_map, Function.comp_def, Obs.queueOp] using h

theorem run_tracks (h : machine.Run start ts s) (k : Pool) :
    Fifo.Tracks ((Machine.log ts).filterMap (Obs.queueOp k)) (s.queues k) := by
  induction h with
  | nil => exact .nil
  | snoc _ hs ih =>
    rw [Machine.log_snoc, List.filterMap_append]
    exact (step_inv hs).tracks ih

/-! ### The users of a round -/

/-- The user has a seat in a room of the match thread `k`, or was put back by it, or was not in the hall. -/
def DealtWith (k : Pool) (obs : List Obs) (uid : Uid) : Prop :=
  (∃ r, .created k r ∈ obs ∧ r.Seats uid) ∨ (∃ pool, .pushed (some k) pool uid ∈ obs) ∨ .absent k uid ∈ obs

/-- What the match thread `k` has done so far with the users that it took out in this round. -/
structure Handled (k : Pool) (s : Server) (obs : List Obs) : Prop where
  popped : ∀ uid, .popped k uid ∈ obs → uid ∈ s.hands k ∨ DealtWith k obs uid
  once : ∀ uid, obs.countP (Obs.putsBack k uid) + (s.hands k).count uid ≤ obs.countP (Obs.pops k uid)

variable {obs : List Obs}

theorem DealtWith.mono {obs' : List Obs} (hsub : obs ⊆ obs') : DealtWith k obs uid → DealtWith k obs' uid
  | .inl ⟨r, hr, hseat⟩ => .inl ⟨r, hsub hr, hseat⟩
  | .inr (.inl ⟨pool, hback⟩) => .inr (.inl ⟨pool, hsub hback⟩)
  | .inr (.inr habsent) => .inr (.inr (hsub habsent))

theorem handled_nil (h : s.hands k = []) : Handled k s [] := ⟨fun _ hmem => (nomatch hmem), fun _ => by simp [h]⟩

/-- A step deals with the users that it lets go, and puts back no more than it lets go. -/
theorem Handled.append (h : Handled k s obs) (hleft : ∀ uid ∈ s.hands k, uid ∈ s'.hands k ∨ DealtWith k out uid)
    (hpopped : ∀ uid, .popped k uid ∈ out → uid ∈ s'.hands k)
    (hcount : ∀ uid, out.countP (Obs.putsBack k uid) + (s'.hands k).count uid ≤
      (s.hands k).count uid + out.countP (Obs.pops k uid)) : Handled k s' (obs ++ out) := by
  constructor
  · intro uid hmem
    rcases List.mem_append.mp hmem with hmem | hmem
    · rcases h.popped uid hmem with hheld | hdealt
      · exact (hleft uid hheld).imp_right (.mono (List.subset_append_right _ _))
      · exact Or.inr (hdealt.mono (List.subset_append_left _ _))
    · exact Or.inl (hpopped uid hmem)
  · intro uid
    have hbefore := h.once uid
    have hstep := hcount uid
    rw [List.countP_append, List.countP_append]
    omega

/-- What others do changes nothing for the users that the thread holds. -/
theorem Handled.others (h : Handled k s obs) (hheld : s'.hands k = s.hands k) (hout : ∀ o ∈ out, o.thread ≠ some k) :
    Handled k s' (obs ++ out) := by
  refine h.append (fun uid hmem => Or.inl (hheld ▸ hmem)) (fun uid hmem => absurd rfl (hout _ hmem)) fun uid => ?_
  have hback : out.countP (Obs.putsBack k uid) = 0 :=
    List.countP_eq_zero.mpr fun o ho => by simp [Obs.putsBack_of_thread (hout o ho)]
  rw [hback, hheld, Nat.zero_add]
  exact Nat.le_add_right _ _

theorem Handled.turn (h : Handled k s obs) (hs : TurnStep s k selectById now s' out)
    (hround : ∀ o ∈ out, o.isRound k = false) (hfinds : ∀ uid rest, s.pcs k = .add uid rest → selectById uid ≠ none) :
    Handled k s' (obs ++ out) := by
  cases hs with
  | round => simp [Obs.isRound] at hround
  | walk hpc => exact h.others (goto_hands_self.trans hpc) nofun
  | @pop uid q pc hq hpc =>
    refine h.append (fun v hmem => Or.inl ?_) (fun v hmem => ?_) fun v => ?_
    · rw [goto_hands_self, hpc]
      exact List.mem_append_left _ hmem
    · rw [goto_hands_self, hpc]
      exact List.mem_append_right _ (by simpa using hmem)
    · rw [goto_hands_self, hpc]
      simp [Obs.putsBack, Obs.pops, List.countP_cons, List.count_singleton]
  | @absent uid pc _ hsub hrest =>
    refine h.append (fun v hmem => ?_) (fun v hmem => by simp at hmem) fun v => ?_
    · rw [goto_hands_self]
      rcases hrest v hmem with rfl | hmem'
      · exact Or.inr (Or.inr (Or.inr (List.mem_singleton_self _)))
      · exact Or.inl hmem'
    · have hle := hsub.count_le v
      simpa [Obs.putsBack, Obs.pops] using hle
  | @seat uid1 uid2 hpc =>
    refine h.append (fun v hmem => Or.inr (Or.inl ⟨_, List.mem_singleton_self _, ?_⟩)) (fun v hmem => by simp at hmem)
      fun v => ?_
    · rw [hands_create hpc] at hmem
      simpa using Room.seats_create.mpr (by simpa using hmem)
    · simp [Obs.putsBack, Obs.pops, Pc.hands]
  | @back uid rest pool pc hheld hpc =>
    refine h.append (fun v hmem => ?_) (fun v hmem => by simp at hmem) fun v => ?_
    · rw [hheld] at hmem
      rcases List.mem_cons.mp hmem with rfl | hmem
      · exact Or.inr (Or.inr (Or.inl ⟨pool, List.mem_singleton_self _⟩))
      · rw [goto_hands_self, hpc]
        exact Or.inl hmem
    · rw [goto_hands_self, hpc, hheld]
      simp [Obs.putsBack, Obs.pops, List.countP_cons, List.count_cons, Nat.add_comm]
  | lost hpc _ hnone => exact absurd hnone (hfinds _ _ hpc)

theorem TurnStep.thread_eq (hs : TurnStep s k selectById now s' out) : ∀ o ∈ out, o.thread = some k := by
  cases hs <;> simp [Obs.thread]

theorem ServerStep.thread_ne (hs : ServerStep s e s' out) (h : ∀ selectById now, e ≠ .turn k selectById now) :
    ∀ o ∈ out, o.thread ≠ some k := by
  cases hs with
  | @turn k' selectById now _ _ hturn =>
    intro o ho
    rw [hturn.thread_eq o ho]
    rintro heq
    cases heq
    exact h selectById now rfl
  | start | startLost | stop | stopLost | network => simp [Obs.thread]

end Server

/-- `select_by_id` finds the users that the match thread `k` puts back. -/
def ServerTrans.Finds (k : Pool) (x : ServerTrans) : Prop :=
  ∀ selectById now uid rest, x.event = .turn k selectById now → x.before.pcs k = .add uid rest → selectById uid ≠ none

namespace Server
variable {s s' : Server} {k : Pool} {uid : Uid} {out : List Obs} {e : ServerEvent} {ts : List ServerTrans} {log : List Obs}

theorem Handled.step (h : Handled k s (since k log)) (hs : ServerStep s e s' out)
    (hfinds : ServerTrans.Finds k ⟨s, e, s', out⟩) : Handled k s' (since k (log ++ out)) := by
  by_cases hturn : ∃ selectById now, e = .turn k selectById now
  · obtain ⟨selectById, now, rfl⟩ := hturn
    cases hs with
    | turn hturn =>
      have hstep := hturn
      cases hturn with
      | round =>
        rw [since_round]
        exact handled_nil goto_hands_self
      | walk | pop | absent | seat | back | lost =>
        rw [since_append log (by simp [Obs.isRound])]
        exact h.turn hstep (by simp [Obs.isRound]) fun uid rest hpc => hfinds selectById now uid rest rfl hpc
    | network hconn => exact hconn.elim
  · have hno : ∀ selectById now, e ≠ .turn k selectById now := fun selectById now heq => hturn ⟨selectById, now, heq⟩
    have hout := hs.thread_ne hno
    rw [since_append log fun o ho => Obs.isRound_of_thread (hout o ho)]
    exact h.others (by rw [hands, hs.pcs_eq hno, hands]) hout

theorem run_handled (h : machine.Run start ts s) (hfinds : ∀ x ∈ ts, x.Finds k) :
    Handled k s (since k (Machine.log ts)) := by
  refine h.invariant_along (I := fun ts s => Handled k s (since k (Machine.log ts)))
    (C := fun _ (x : ServerTrans) => x.Finds k) (handled_nil rfl)
    (fun us x vs heq => hfinds x (by simp [heq])) fun hi hs hx => ?_
  rw [Machine.log_snoc]
  exact hi.step (step_inv hs) hx

/-- No user gets lost: at the end of a round everyone whom the match thread `k` took out in it is dealt with, nobody
    was put back more often than taken out, and each queue holds, in their order, the users that were pushed to it
    and neither popped nor removed. -/
structure NobodyLost (k : Pool) (ts : List ServerTrans) (s : Server) : Prop where
  ended : s.pcs k = .size → ∀ uid, .popped k uid ∈ since k (Machine.log ts) → DealtWith k (since k (Machine.log ts)) uid
  once : ∀ uid, (since k (Machine.log ts)).countP (Obs.putsBack k uid) ≤ (since k (Machine.log ts)).countP (Obs.pops k uid)
  queued : ∀ k', Fifo.Kept ((Machine.log ts).filterMap (Obs.queueOp k')) (s.queues k')

/-- As long as `select_by_id` finds who is put back, the match thread loses nobody. -/
theorem nobody_lost (h : machine.Run start ts s) (hfinds : ∀ x ∈ ts, x.Finds k) : NobodyLost k ts s where
  ended hsize uid hmem := by
    have hnone : s.hands k = [] := by rw [hands, hsize]; rfl
    rcases (run_handled h hfinds).popped uid hmem with hheld | hdealt
    · simp [hnone] at hheld
    · exact hdealt
  once uid := (Nat.le_add_right _ _).trans ((run_handled h hfinds).once uid)
  queued k' := (run_tracks h k').kept

/-- A user whose opponent stops between the two pops is put back. -/
theorem nobody_lost_alone : ∃ (ts : List ServerTrans) (s : Server), machine.Run start ts s ∧ s.pcs .normal = .size ∧
    s.queues .normal = [1] ∧ (since .normal (Machine.log ts)).countP (Obs.pops .normal 1) = 1 ∧ NobodyLost .normal ts s := by
  obtain ⟨ts, s, h, hfinds, hsize, hqueue, hpops⟩ := Machine.Run.exists_of_exec machine start
    [.hallOpen 1 1, .hallOpen 2 2, .matchStart 1 newcomer, .matchStart 2 newcomer, .turn .normal newcomer 0,
      .turn .normal newcomer 0, .matchStop 2 newcomer, .turn .normal newcomer 0, .turn .normal newcomer 0]
    (fun (ts : List ServerTrans) s => (∀ x ∈ ts, (match x.event, x.before.pcs .normal with
      | .turn _ selectById _, .add uid _ => (selectById uid).isSome
      | _, _ => true) = true) ∧ s.pcs .normal = .size ∧ s.queues .normal = [1] ∧
        (since .normal (Machine.log ts)).countP (Obs.pops .normal 1) = 1) (by decide +kernel)
  refine ⟨ts, s, h, hsize, hqueue, hpops, nobody_lost h fun x hx selectById now uid rest he hpc => ?_⟩
  have hx := hfinds x hx
  simp only [he, hpc] at hx
  exact Option.isSome_iff_ne_none.mp hx

end Server
end FiveStones
