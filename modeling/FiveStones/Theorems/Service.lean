import FiveStones.Theorems.Load
import FiveStones.Theorems.Waiting

/-! How the match threads serve the users who wait: in the order in which they came, and until nobody is left to be
seated. -/

namespace FiveStones

namespace Server
variable {s s' : Server} {k k' pool : Pool} {pc : Pc} {uid uid1 uid2 : Uid} {q rest : List Uid} {out : List Obs} {now : Int}
  {selectById : Uid → Option Members} {e : ServerEvent} {ts : List ServerTrans}

/-! ### The steps, one by one -/

/-- One step of the match thread `k`, by where it stands. -/
inductive ThreadStep (s : Server) (k : Pool) (selectById : Uid → Option Members) (now : Int) : Server → List Obs → Prop
  | few : s.pcs k = .size → (s.queues k).length < 2 → ThreadStep s k selectById now (s.goto k .wait) []
  | round : s.pcs k = .size → 2 ≤ (s.queues k).length → ThreadStep s k selectById now (s.goto k .pop1) [.round k]
  | wake : s.pcs k = .wait → 2 ≤ (s.queues k).length → ThreadStep s k selectById now (s.goto k .size) []
  | nobody : s.pcs k = .pop1 → s.queues k = [] → ThreadStep s k selectById now (s.goto k .size) []
  | pop1 {uid1 : Uid} {q : List Uid} : s.pcs k = .pop1 → s.queues k = uid1 :: q →
      ThreadStep s k selectById now ((s.setQueue k q).goto k (.pop2 uid1)) [.popped k uid1]
  | alone {uid1 : Uid} : s.pcs k = .pop2 uid1 → s.queues k = [] →
      ThreadStep s k selectById now (s.goto k (.add uid1 [])) []
  | pop2 {uid1 uid2 : Uid} {q : List Uid} : s.pcs k = .pop2 uid1 → s.queues k = uid2 :: q →
      ThreadStep s k selectById now ((s.setQueue k q).goto k (.conn1 uid1 uid2)) [.popped k uid2]
  | conn1 {uid1 uid2 : Uid} : s.pcs k = .conn1 uid1 uid2 → s.inGameHall uid1 = true →
      ThreadStep s k selectById now (s.goto k (.conn2 uid1 uid2)) []
  | gone1 {uid1 uid2 : Uid} : s.pcs k = .conn1 uid1 uid2 → s.inGameHall uid1 = false →
      ThreadStep s k selectById now (s.goto k (.add uid2 [])) [.absent k uid1]
  | conn2 {uid1 uid2 : Uid} : s.pcs k = .conn2 uid1 uid2 → s.inGameHall uid2 = true →
      ThreadStep s k selectById now (s.goto k (.hall1 uid1 uid2)) []
  | gone2 {uid1 uid2 : Uid} : s.pcs k = .conn2 uid1 uid2 → s.inGameHall uid2 = false →
      ThreadStep s k selectById now (s.goto k (.add uid1 [])) [.absent k uid2]
  | hall1 {uid1 uid2 : Uid} : s.pcs k = .hall1 uid1 uid2 → s.inGameHall uid1 = true →
      ThreadStep s k selectById now (s.goto k (.hall2 uid1 uid2)) []
  | left1 {uid1 uid2 : Uid} : s.pcs k = .hall1 uid1 uid2 → s.inGameHall uid1 = false →
      ThreadStep s k selectById now (s.goto k (.add uid1 [uid2])) [.absent k uid1]
  | hall2 {uid1 uid2 : Uid} : s.pcs k = .hall2 uid1 uid2 → s.inGameHall uid2 = true →
      ThreadStep s k selectById now (s.goto k (.create uid1 uid2)) []
  | left2 {uid1 uid2 : Uid} : s.pcs k = .hall2 uid1 uid2 → s.inGameHall uid2 = false →
      ThreadStep s k selectById now (s.goto k (.add uid1 [uid2])) [.absent k uid2]
  | create {uid1 uid2 : Uid} : s.pcs k = .create uid1 uid2 →
      ThreadStep s k selectById now ({ s with rm := s.rm.addRoom uid1 uid2 now }.goto k .size)
        [.created k (Room.create s.rm.nextRid uid1 uid2 now)]
  | lost {uid : Uid} {rest : List Uid} : s.pcs k = .add uid rest → poolOfUser selectById uid = .ok none →
      ThreadStep s k selectById now (s.goto k (.afterAdd rest)) []
  | back {uid : Uid} {rest : List Uid} {pool : Pool} : s.pcs k = .add uid rest →
      poolOfUser selectById uid = .ok (some pool) →
      ThreadStep s k selectById now ((s.push pool uid).goto k (.afterAdd rest)) [.pushed (some k) pool uid]

theorem threadStep (h : s.turn k selectById now = some (s', out)) : ThreadStep s k selectById now s' out := by
  unfold turn at h
  cases hpc : s.pcs k with
  | size =>
    simp only [hpc] at h
    split at h <;> cases h
    · exact .few hpc ‹_›
    · exact .round hpc (Nat.le_of_not_lt ‹_›)
  | wait =>
    simp only [hpc] at h
    split at h <;> cases h
    exact .wake hpc (Nat.le_of_not_lt ‹_›)
  | pop1 =>
    simp only [hpc] at h
    split at h <;> cases h
    · exact .nobody hpc ‹_›
    · exact .pop1 hpc ‹_›
  | pop2 uid1 =>
    simp only [hpc] at h
    split at h <;> cases h
    · exact .alone hpc ‹_›
    · exact .pop2 hpc ‹_›
  | conn1 uid1 uid2 =>
    simp only [hpc] at h
    split at h <;> cases h
    · exact .conn1 hpc ‹_›
    · exact .gone1 hpc (Bool.eq_false_iff.mpr ‹_›)
  | conn2 uid1 uid2 =>
    simp only [hpc] at h
    split at h <;> cases h
    · exact .conn2 hpc ‹_›
    · exact .gone2 hpc (Bool.eq_false_iff.mpr ‹_›)
  | hall1 uid1 uid2 =>
    simp only [hpc] at h
    split at h <;> cases h
    · exact .hall1 hpc ‹_›
    · exact .left1 hpc (Bool.eq_false_iff.mpr ‹_›)
  | hall2 uid1 uid2 =>
    simp only [hpc] at h
    split at h <;> cases h
    · exact .hall2 hpc ‹_›
    · exact .left2 hpc (Bool.eq_false_iff.mpr ‹_›)
  | create uid1 uid2 =>
    simp only [hpc] at h
    cases h
    exact .create hpc
  | add uid rest =>
    simp only [hpc] at h
    split at h <;> cases h
    · exact .lost hpc ‹_›
    · exact .back hpc ‹_›

end Server

/-! ### The match threads alone -/

/-- How much a match thread has before it, apart from the `n` users in its queue. It seats two users whom it has found
    in the hall. What it holds otherwise comes back to a queue at most once. -/
def Pc.work (inGameHall : Uid → Bool) (n : Nat) : Pc → Nat
  | wait => if n < 2 then 0 else 3
  | size => if n < 2 then 1 else 2
  | pop1 => if n < 2 then 8 else 1
  | pop2 _ => if n = 0 then 16 else 9
  | conn1 _ _ => 17
  | conn2 uid1 _ => if inGameHall uid1 then 16 else 31
  | hall1 uid1 uid2 => if inGameHall uid1 ∧ inGameHall uid2 then 5 else 30
  | hall2 _ uid2 => if inGameHall uid2 then 4 else 29
  | create _ _ => 3
  | add _ rest => 15 + 13 * rest.length

namespace Server
variable {s s' : Server} {k k' pool : Pool} {pc : Pc} {uid uid1 uid2 : Uid} {q rest : List Uid} {out : List Obs} {now : Int}
  {selectById : Uid → Option Members} {e : ServerEvent} {ts : List ServerTrans}

def workAt (s : Server) (k : Pool) : Nat := 9 * (s.queues k).length + (s.pcs k).work s.inGameHall (s.queues k).length

/-- A bound on the steps that the match threads can take before something else happens. -/
def work (s : Server) : Nat := Pool.total s.workAt

theorem goto_workAt_ne (pc : Pc) (h : k' ≠ k) : (s.goto k pc).workAt k' = s.workAt k' := by
  rw [workAt, goto_pcs_ne h]
  rfl

theorem goto_work (s : Server) (k : Pool) (pc : Pc) : (s.goto k pc).work + (s.pcs k).work s.inGameHall (s.queues k).length =
    s.work + pc.work s.inGameHall (s.queues k).length := by
  have hchange := Pool.total_change (f := (s.goto k pc).workAt) (g := s.workAt) fun k' hne => goto_workAt_ne pc hne
  have hgoto : (s.goto k pc).workAt k = 9 * (s.queues k).length + pc.work s.inGameHall (s.queues k).length := by
    rw [workAt, goto_pcs_self]
    rfl
  have hbefore : s.workAt k = 9 * (s.queues k).length + (s.pcs k).work s.inGameHall (s.queues k).length := rfl
  simp only [work]
  omega

theorem goto_work_lt (h : pc.work s.inGameHall (s.queues k).length < (s.pcs k).work s.inGameHall (s.queues k).length) :
    (s.goto k pc).work < s.work := by
  have hgoto := goto_work s k pc
  omega

theorem pop_work_lt (hq : s.queues k = uid :: q)
    (h : pc.work s.inGameHall q.length < (s.pcs k).work s.inGameHall (q.length + 1) + 9) :
    ((s.setQueue k q).goto k pc).work < s.work := by
  have hchange := Pool.total_change (f := ((s.setQueue k q).goto k pc).workAt) (g := s.workAt) (k := k) fun k' hne => by
    rw [goto_workAt_ne pc hne, workAt, setQueue_queues_ne hne]
    rfl
  have hpop : ((s.setQueue k q).goto k pc).workAt k = 9 * q.length + pc.work s.inGameHall q.length := by
    rw [workAt, goto_pcs_self, goto_queues, setQueue_queues_self]
    rfl
  have hbefore : s.workAt k = 9 * (q.length + 1) + (s.pcs k).work s.inGameHall (q.length + 1) := by rw [workAt, hq]; rfl
  simp only [work]
  omega

/-- A push may wake the thread of the queue. -/
theorem Pc.work_push (inGameHall : Uid → Bool) (n : Nat) (pc : Pc) :
    pc.work inGameHall (n + 1) ≤ pc.work inGameHall n + 3 := by
  cases pc with
  | wait | size | pop1 | pop2 =>
    simp only [Pc.work]
    split <;> split <;> omega
  | conn1 | conn2 | hall1 | hall2 | create | add => exact Nat.le_add_right _ _

theorem Pc.afterAdd_work (inGameHall : Uid → Bool) (n : Nat) (rest : List Uid) :
    (Pc.afterAdd rest).work inGameHall n ≤ 2 + 13 * rest.length := by
  cases rest with
  | nil =>
    simp only [Pc.afterAdd, Pc.work, List.length_nil]
    split <;> omega
  | cons uid rest =>
    simp only [Pc.afterAdd, Pc.work, List.length_cons]
    omega

theorem push_work_le (s : Server) (pool : Pool) (uid : Uid) : (s.push pool uid).work ≤ s.work + 12 := by
  have hchange := Pool.total_change (f := (s.push pool uid).workAt) (g := s.workAt) (k := pool) fun k' hne => by
    rw [workAt, push_queues, if_neg hne]
    rfl
  have hpush := Pc.work_push s.inGameHall (s.queues pool).length (s.pcs pool)
  have hpool : (s.push pool uid).workAt pool =
      9 * ((s.queues pool).length + 1) + (s.pcs pool).work s.inGameHall ((s.queues pool).length + 1) := by
    rw [workAt, push_queues, if_pos rfl, List.length_append, List.length_singleton]
    rfl
  simp only [work, workAt] at *
  omega

/-- Every step of a match thread leaves less to be done. -/
theorem ThreadStep.work_lt (hs : ThreadStep s k selectById now s' out) : s'.work < s.work := by
  cases hs with
  | few hpc hfew => exact goto_work_lt (by simp [hpc, Pc.work, hfew])
  | round hpc hmany => exact goto_work_lt (by simp [hpc, Pc.work, Nat.not_lt.mpr hmany])
  | wake hpc hmany => exact goto_work_lt (by simp [hpc, Pc.work, Nat.not_lt.mpr hmany])
  | nobody hpc hq => exact goto_work_lt (by simp [hpc, hq, Pc.work])
  | @pop1 uid1 q hpc hq =>
    refine pop_work_lt hq ?_
    rw [hpc]
    simp only [Pc.work]
    split <;> split <;> omega
  | alone hpc hq => exact goto_work_lt (by simp [hpc, hq, Pc.work])
  | pop2 hpc hq => exact pop_work_lt hq (by simp [hpc, Pc.work])
  | conn1 hpc hin => exact goto_work_lt (by simp [hpc, hin, Pc.work])
  | gone1 hpc hout => exact goto_work_lt (by simp [hpc, Pc.work])
  | @conn2 uid1 uid2 hpc hin =>
    refine goto_work_lt ?_
    rw [hpc]
    cases hfirst : s.inGameHall uid1 <;> simp [Pc.work, hin, hfirst]
  | @gone2 uid1 uid2 hpc hout =>
    refine goto_work_lt ?_
    rw [hpc]
    cases hfirst : s.inGameHall uid1 <;> simp [Pc.work, hfirst]
  | @hall1 uid1 uid2 hpc hin =>
    refine goto_work_lt ?_
    rw [hpc]
    cases hsecond : s.inGameHall uid2 <;> simp [Pc.work, hin, hsecond]
  | left1 hpc hout => exact goto_work_lt (by simp [hpc, hout, Pc.work])
  | hall2 hpc hin => exact goto_work_lt (by simp [hpc, hin, Pc.work])
  | left2 hpc hout => exact goto_work_lt (by simp [hpc, hout, Pc.work])
  | create hpc =>
    refine goto_work_lt (s := { s with rm := _ }) ?_
    change _ < (s.pcs k).work _ _
    rw [hpc]
    simp only [Pc.work]
    split <;> omega
  | @lost uid rest hpc hnone =>
    refine goto_work_lt ?_
    have hafter := Pc.afterAdd_work s.inGameHall (s.queues k).length rest
    rw [hpc, Pc.work]
    omega
  | @back uid rest pool hpc hpool =>
    have hpush := push_work_le s pool uid
    have hgoto := goto_work (s.push pool uid) k (.afterAdd rest)
    have hafter := Pc.afterAdd_work (s.push pool uid).inGameHall ((s.push pool uid).queues k).length rest
    have hadd : ((s.push pool uid).pcs k).work (s.push pool uid).inGameHall ((s.push pool uid).queues k).length =
        15 + 13 * rest.length := by
      change (s.pcs k).work _ _ = _
      rw [hpc, Pc.work]
    omega

end Server

/-- A step of a match thread, with everyone's score on record. -/
def ServerEvent.OfMatcher : ServerEvent → Prop
  | turn _ selectById _ => ∀ uid, ∃ pool, poolOfUser selectById uid = .ok (some pool)
  | matchStart .. | matchStop .. | hallOpen .. | hallClose .. | roomOpen .. | roomClose .. | roomMessage .. | drop .. => False

namespace Server
variable {s s' : Server} {k : Pool} {pc : Pc} {uid : Uid} {out : List Obs} {now : Int} {selectById : Uid → Option Members}
  {e : ServerEvent} {ts : List ServerTrans}

/-- Every match thread is in `mq.wait()`, and has nobody to match. -/
def AtRest (s : Server) : Prop := ∀ k, s.pcs k = .wait ∧ (s.queues k).length < 2

/-- Whoever waits then is the only one in a queue. -/
theorem AtRest.alone (hrest : s.AtRest) (hwaits : uid ∈ s.queues k ∨ uid ∈ s.hands k) : s.queues k = [uid] := by
  obtain ⟨hpc, hfew⟩ := hrest k
  have hnone : s.hands k = [] := by rw [hands, hpc]; rfl
  have hmem : uid ∈ s.queues k := hwaits.resolve_right (by simp [hnone])
  obtain ⟨v, hq⟩ := List.length_eq_one_iff.mp (le_antisymm (Nat.le_of_lt_succ hfew) (List.length_pos_of_mem hmem))
  rw [hq] at hmem ⊢
  rw [List.mem_singleton.mp hmem]

/-- A match thread that is not waiting for a second user has a step. -/
theorem atRest_or_step (s : Server) :
    s.AtRest ∨ ∃ e s' out, e.OfMatcher ∧ machine.step s e = some (s', out) := by
  by_cases hrest : s.AtRest
  · exact Or.inl hrest
  obtain ⟨k, hk⟩ := not_forall.mp hrest
  have hnewcomer : (ServerEvent.turn k newcomer 0).OfMatcher := fun _ => ⟨.normal, rfl⟩
  suffices hsome : ∃ x, s.turn k newcomer 0 = some x by
    obtain ⟨⟨s', out⟩, hs⟩ := hsome
    exact Or.inr ⟨_, s', out, hnewcomer, hs⟩
  unfold turn
  cases hpc : s.pcs k with
  | wait =>
    have hmany : ¬(s.queues k).length < 2 := fun hfew => hk ⟨hpc, hfew⟩
    exact ⟨_, if_neg hmany⟩
  | size | conn1 | conn2 | hall1 | hall2 =>
    simp only
    split <;> exact ⟨_, rfl⟩
  | pop1 | pop2 => cases hq : s.queues k <;> exact ⟨_, rfl⟩
  | create | add => exact ⟨_, rfl⟩

theorem load_goto_pos (hwaits : 0 < s.load uid) (hheld : uid ∈ s.hands k → uid ∈ pc.hands) :
    0 < (s.goto k pc).load uid := by
  have hgoto := load_goto s k pc uid
  by_cases hmem : uid ∈ s.hands k
  · have hle := hands_count_le s k uid
    have hpos := List.count_pos_iff.mpr (hheld hmem)
    omega
  · have hzero := List.count_eq_zero.mpr hmem
    omega

/-- The users who are in the hall wait on, if they do not get a room. -/
theorem TurnStep.waits (hs : TurnStep s k selectById now s' out) (hfinds : ∀ uid, selectById uid ≠ none)
    (hin : s.inGameHall uid = true) (hwaits : 0 < s.load uid) :
    0 < s'.load uid ∨ ∃ r, .created k r ∈ out ∧ r.Seats uid := by
  cases hs with
  | round hnone => exact Or.inl (load_goto_pos hwaits fun hmem => by simp [hnone] at hmem)
  | walk hpc => exact Or.inl (load_goto_pos hwaits fun hmem => hpc ▸ hmem)
  | pop hq hpc => exact Or.inl ((load_pop hq hpc uid).symm ▸ hwaits)
  | absent hout _ hrest =>
    refine Or.inl (load_goto_pos hwaits fun hmem => (hrest uid hmem).resolve_left ?_)
    rintro rfl
    cases hin.symm.trans hout
  | @seat uid1 uid2 hpc =>
    by_cases hseat : uid ∈ [uid1, uid2]
    · exact Or.inr ⟨_, List.mem_singleton_self _, Room.seats_create.mpr (by simpa using hseat)⟩
    · have hload := load_seat (hands_create hpc) (s.rm.addRoom uid1 uid2 now) uid
      rw [List.count_eq_zero.mpr hseat, Nat.add_zero] at hload
      exact Or.inl (hload.symm ▸ hwaits)
  | @back v rest pool pc hheld hpc =>
    have hgoto := load_goto (s.push pool v) k pc uid
    rw [push_hands, hheld, hpc, load_push, List.count_cons] at hgoto
    simp only [List.count_singleton] at hgoto
    exact Or.inl (by omega)
  | lost _ _ hnone => exact absurd hnone (hfinds _)

theorem TurnStep.inGameHall_eq (hs : TurnStep s k selectById now s' out) : s'.inGameHall = s.inGameHall := by
  cases hs <;> rfl

/-- In a run of the match threads alone, everyone who waited and is in the hall waits on, or has got a room. -/
theorem run_waits (h : machine.Run s ts s') (hturns : ∀ x ∈ ts, x.event.OfMatcher) (hin : s.inGameHall uid = true)
    (hwaits : 0 < s.load uid) : 0 < s'.load uid ∨ ∃ k r, .created k r ∈ Machine.log ts ∧ r.Seats uid := by
  refine (h.invariant_along (I := fun ts s' => s'.inGameHall uid = true ∧
    (0 < s'.load uid ∨ ∃ k r, .created k r ∈ Machine.log ts ∧ r.Seats uid)) (C := fun _ (x : ServerTrans) => x.event.OfMatcher)
    ⟨hin, Or.inl hwaits⟩ (fun us x vs heq => hturns x (by simp [heq])) ?_).2
  rintro us s e s' out ⟨hin, hi⟩ hs hturn
  cases e with
  | turn k selectById now =>
    have hstep := turn_inv hs
    refine ⟨hstep.inGameHall_eq ▸ hin, ?_⟩
    simp only [Machine.log_snoc, List.mem_append]
    rcases hi with hwaits | ⟨k', r, hr, hseat⟩
    · refine (hstep.waits (fun uid hnone => ?_) hin hwaits).imp_right fun ⟨r, hr, hseat⟩ => ⟨k, r, Or.inr hr, hseat⟩
      obtain ⟨pool, hpool⟩ := hturn uid
      exact poolOfUser_some hpool hnone
    · exact Or.inr ⟨k', r, Or.inl hr, hseat⟩
  | matchStart | matchStop | hallOpen | hallClose | roomOpen | roomClose | roomMessage | drop => exact hturn.elim

/-- As long as every score is on record, the match threads stop by themselves if nothing else happens, in whatever order
    they take their steps, and not before each of them waits for a second user. Then everyone who waited, and is in the
    hall, has got a room in the meantime or is the one user in a queue. -/
theorem matcher_settles (h : machine.Run s ts s') (hturns : ∀ x ∈ ts, x.event.OfMatcher) :
    ts.length ≤ s.work ∧ (s'.AtRest ∨ ∃ e s'' out, e.OfMatcher ∧ machine.step s' e = some (s'', out)) ∧
      (s'.AtRest → ∀ uid, s.inGameHall uid = true → 0 < s.load uid →
        (∃ k, s'.queues k = [uid]) ∨ ∃ k r, .created k r ∈ Machine.log ts ∧ r.Seats uid) := by
  refine ⟨?_, atRest_or_step s', fun hrest uid hin hwaits => (run_waits h hturns hin hwaits).imp_left fun hwaits' => ?_⟩
  · have hle := h.length_le (f := work) (C := ServerEvent.OfMatcher) hturns fun {s e s' out} he hs => by
      cases e with
      | turn k selectById now => exact (threadStep hs).work_lt
      | matchStart | matchStop | hallOpen | hallClose | roomOpen | roomClose | roomMessage | drop => exact he.elim
    omega
  · obtain ⟨k, hmem⟩ := load_pos.mp hwaits'
    exact ⟨k, hrest.alone hmem⟩

/-- Two users in the hall get a room. -/
theorem matcher_settles_pair : ∃ (s s' : Server) (ts : List ServerTrans), machine.Run s ts s' ∧
    s.queues .normal = [1, 2] ∧ s'.AtRest ∧ ts.length ≤ s.work ∧
      ((∃ k, s'.queues k = [2]) ∨ ∃ k r, .created k r ∈ Machine.log ts ∧ r.Seats 2) := by
  obtain ⟨ts, s', h, hevents, hrest⟩ := Machine.Run.exists_of_exec_events machine
    { start with
      queues := Function.update start.queues .normal [1, 2]
      om := (OnlineManager.empty.enterGameHall 1 1).enterGameHall 2 2
      isOpen := fun _ => true }
    ([.high, .super, .normal, .normal, .normal, .normal, .normal, .normal, .normal, .normal, .normal].map
      fun k => .turn k newcomer 0)
    (fun _ s' => ∀ k, s'.pcs k = .wait ∧ (s'.queues k).length < 2) (by decide +kernel)
  have hturns : ∀ x ∈ ts, x.event.OfMatcher := fun x hx => by
    obtain ⟨k, -, heq⟩ := List.mem_map.mp (hevents ▸ List.mem_map_of_mem hx : x.event ∈ _)
    exact heq ▸ fun _ => ⟨.normal, rfl⟩
  obtain ⟨hle, -, hserved⟩ := matcher_settles h hturns
  exact ⟨_, s', ts, h, rfl, hrest, hle, hserved hrest 2 (by decide) (by decide)⟩

end Server

/-! ### In the order of arrival -/

namespace Obs

/-- The users that the match thread `k` seats. -/
def seated (k : Pool) : Obs → List Uid
  | .created k' r => if k' = k then [r.whiteId, r.blackId] else []
  | .round _ | .popped _ _ | .absent _ _ | .pushed _ _ _ | .removed _ _ | .call _ => []

/-- A user withdraws from the queue `k`, or its match thread finds somebody gone. -/
def leaves (k : Pool) : Obs → Bool
  | .removed k' _ | .absent k' _ => k' = k
  | .round _ | .popped _ _ | .created _ _ | .pushed _ _ _ | .call _ => false

theorem seated_of_thread {k : Pool} {o : Obs} (h : o.thread ≠ some k) : o.seated k = [] := by
  cases o <;> simp_all [thread, seated]

end Obs

/-- The queue holds whom the thread is going to take out, and it puts nobody back. -/
def Pc.Supplied (n : Nat) : Pc → Prop
  | pop1 => 2 ≤ n
  | pop2 _ => 1 ≤ n
  | add _ _ => False
  | size | wait | conn1 _ _ | conn2 _ _ | hall1 _ _ | hall2 _ _ | create _ _ => True

theorem Pc.Supplied.mono {pc : Pc} {n n' : Nat} (h : pc.Supplied n) (hle : n ≤ n') : pc.Supplied n' := by
  cases pc with
  | pop1 | pop2 => exact Nat.le_trans h hle
  | add => exact h
  | size | wait | conn1 | conn2 | hall1 | hall2 | create => trivial

namespace Server
variable {s s' : Server} {k k' : Pool} {uid : Uid} {out log : List Obs} {now : Int} {selectById : Uid → Option Members}
  {e : ServerEvent} {ts : List ServerTrans}

/-- The match thread `k` has seated those whom it took out and does not hold, in that order. -/
structure InOrder (k : Pool) (s : Server) (log : List Obs) : Prop where
  popped : Fifo.pops (log.filterMap (Obs.queueOp k)) = log.flatMap (Obs.seated k) ++ s.hands k
  supplied : (s.pcs k).Supplied (s.queues k).length

theorem InOrder.append (h : InOrder k s log)
    (hout : s.hands k ++ Fifo.pops (out.filterMap (Obs.queueOp k)) = out.flatMap (Obs.seated k) ++ s'.hands k)
    (hsupplied : (s'.pcs k).Supplied (s'.queues k).length) : InOrder k s' (log ++ out) where
  popped := by
    have hpops : Fifo.pops ((log ++ out).filterMap (Obs.queueOp k)) =
        Fifo.pops (log.filterMap (Obs.queueOp k)) ++ Fifo.pops (out.filterMap (Obs.queueOp k)) := by
      rw [List.filterMap_append]
      exact List.filterMap_append
    rw [hpops, h.popped, List.flatMap_append, List.append_assoc, List.append_assoc, hout]
  supplied := hsupplied

theorem InOrder.goto (h : InOrder k s log) {pc : Pc} (hpc : pc.hands = (s.pcs k).hands)
    (hsupplied : pc.Supplied (s.queues k).length) (hout : ∀ o ∈ out, o.queueOp k = none ∧ o.seated k = []) :
    InOrder k (s.goto k pc) (log ++ out) := by
  refine h.append ?_ (by rw [goto_pcs_self]; exact hsupplied)
  rw [List.filterMap_eq_nil_iff.mpr fun o ho => (hout o ho).1, List.flatMap_eq_nil_iff.mpr fun o ho => (hout o ho).2,
    goto_hands_self, hpc]
  exact List.append_nil _

theorem InOrder.turn (h : InOrder k s log) (hs : ThreadStep s k selectById now s' out)
    (hstay : ∀ o ∈ out, o.leaves k = false) : InOrder k s' (log ++ out) := by
  have hsupplied := h.supplied
  cases hs with
  | few hpc | wake hpc => exact h.goto (by rw [hpc]; rfl) trivial nofun
  | round hpc hmany => exact h.goto (by rw [hpc]; rfl) hmany (by simp [Obs.queueOp, Obs.seated])
  | conn1 hpc | conn2 hpc | hall1 hpc | hall2 hpc => exact h.goto (by rw [hpc]; rfl) trivial nofun
  | nobody hpc hq | alone hpc hq => simp [hpc, hq, Pc.Supplied] at hsupplied
  | lost hpc | back hpc => simp [hpc, Pc.Supplied] at hsupplied
  | gone1 | gone2 | left1 | left2 => simp [Obs.leaves] at hstay
  | @pop1 uid1 q hpc hq =>
    refine h.append ?_ ?_
    · simp [hands, hpc, Pc.hands, Obs.queueOp, Obs.seated, Fifo.pops]
    · simpa [hpc, hq, Pc.Supplied] using hsupplied
  | pop2 hpc hq =>
    refine h.append ?_ ?_
    · simp [hands, hpc, Pc.hands, Obs.queueOp, Obs.seated, Fifo.pops]
    · simp [Pc.Supplied]
  | @create uid1 uid2 hpc =>
    refine h.append ?_ ?_
    · rw [hands_create hpc, goto_hands_self]
      simp only [List.filterMap_cons, Obs.queueOp, List.filterMap_nil, Fifo.pops, List.append_nil, List.flatMap_singleton,
        Obs.seated, ↓reduceIte, Pc.hands]
      rfl
    · rw [goto_pcs_self]
      trivial

/-- What others do leaves the thread alone, and takes nobody out of its queue. -/
theorem InOrder.others (h : InOrder k s log) (hpc : s'.pcs k = s.pcs k) (hle : (s.queues k).length ≤ (s'.queues k).length)
    (hout : ∀ o ∈ out, o.thread ≠ some k) : InOrder k s' (log ++ out) := by
  refine h.append ?_ ?_
  · have hpops : Fifo.pops (out.filterMap (Obs.queueOp k)) = [] := List.filterMap_eq_nil_iff.mpr fun op hop => by
      obtain ⟨o, ho, hop⟩ := List.mem_filterMap.mp hop
      have hthread := hout o ho
      cases o <;> simp_all [Obs.queueOp, Obs.thread] <;> simp [← hop]
    rw [hpops, List.flatMap_eq_nil_iff.mpr fun o ho => Obs.seated_of_thread (hout o ho), hands, hands, hpc]
    exact List.append_nil _
  · rw [hpc]
    exact h.supplied.mono hle

theorem ServerStep.queue_le (hs : ServerStep s e s' out) (hturn : ∀ selectById now, e ≠ .turn k selectById now)
    (hstay : ∀ o ∈ out, o.leaves k = false) : (s.queues k).length ≤ (s'.queues k).length := by
  have hpush : ∀ pool uid, (s.queues k).length ≤ ((s.push pool uid).queues k).length := fun pool uid => by
    rw [push_queues]
    split <;> simp
  cases hs with
  | @turn k' selectById now _ _ hs =>
    have hne : k ≠ k' := by
      rintro rfl
      exact hturn selectById now rfl
    cases hs with
    | pop => rw [goto_queues, setQueue_queues_ne hne]
    | back => exact hpush _ _
    | round | walk | absent | seat | lost => exact le_rfl
  | start => exact hpush _ _
  | @stop uid _ pool =>
    have hne : k ≠ pool := fun heq => by simp [Obs.leaves, heq] at hstay
    rw [remove_queues, if_neg hne]
  | startLost | stopLost | network => exact le_rfl

theorem run_inOrder (h : machine.Run start ts s) (hstay : ∀ o ∈ Machine.log ts, o.leaves k = false) :
    InOrder k s (Machine.log ts) := by
  refine h.invariant_along (I := fun ts s => InOrder k s (Machine.log ts))
    (C := fun _ (x : ServerTrans) => ∀ o ∈ x.out, o.leaves k = false) ⟨rfl, trivial⟩
    (fun us x vs heq o ho => hstay o (by simp [heq, Machine.log, ho])) fun {us s e s' out} hi hs hout => ?_
  rw [Machine.log_snoc]
  by_cases hturn : ∃ selectById now, e = .turn k selectById now
  · obtain ⟨selectById, now, rfl⟩ := hturn
    exact hi.turn (threadStep hs) hout
  · have hno : ∀ selectById now, e ≠ .turn k selectById now := fun selectById now heq => hturn ⟨selectById, now, heq⟩
    have hstep := step_inv hs
    exact hi.others (hstep.pcs_eq hno) (hstep.queue_le hno hout) (hstep.thread_ne hno)

/-- First come, first served: as long as nobody withdraws from a queue or leaves the hall on the way to a room, the users
    who were put into it, in that order, are those who have got rooms, two by two, those whom its match thread holds, and
    those who still wait. -/
theorem first_come_first_served (h : machine.Run start ts s) (hstay : ∀ o ∈ Machine.log ts, o.leaves k = false) :
    Fifo.pushes ((Machine.log ts).filterMap (Obs.queueOp k)) =
      (Machine.log ts).flatMap (Obs.seated k) ++ s.hands k ++ s.queues k := by
  have hno : ∀ uid, .remove uid ∉ (Machine.log ts).filterMap (Obs.queueOp k) := fun uid hmem => by
    obtain ⟨o, ho, hop⟩ := List.mem_filterMap.mp hmem
    have hleaves := hstay o ho
    cases o <;> simp_all [Obs.queueOp, Obs.leaves]
  rw [(run_tracks h k).pushes_eq hno, (run_inOrder h hstay).popped]

/-- Of three users who come one after the other the third waits. -/
theorem first_come_first_served_three : ∃ (ts : List ServerTrans) (s : Server), machine.Run start ts s ∧
    Fifo.pushes ((Machine.log ts).filterMap (Obs.queueOp .normal)) = [1, 2, 3] ∧ s.queues .normal = [3] ∧
      [1, 2, 3] = (Machine.log ts).flatMap (Obs.seated .normal) ++ s.hands .normal ++ s.queues .normal := by
  obtain ⟨ts, s, h, hstay, hpushes, hqueue⟩ := Machine.Run.exists_of_exec machine start
    ([.hallOpen 1 1, .hallOpen 2 2, .hallOpen 3 3, .matchStart 1 newcomer, .matchStart 2 newcomer, .matchStart 3 newcomer] ++
      List.replicate 8 (.turn .normal newcomer 0))
    (fun (ts : List ServerTrans) s => (∀ o ∈ Machine.log ts, o.leaves .normal = false) ∧
      Fifo.pushes ((Machine.log ts).filterMap (Obs.queueOp .normal)) = [1, 2, 3] ∧ s.queues .normal = [3]) (by decide +kernel)
  exact ⟨ts, s, h, hpushes, hqueue, hpushes ▸ first_come_first_served h hstay⟩

end Server
end FiveStones
