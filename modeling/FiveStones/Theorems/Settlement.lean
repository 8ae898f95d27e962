import FiveStones.Theorems.RoomInv

/-! How games end: who is paid for it, how often, and why. -/

namespace FiveStones

namespace RoomTrans

def Settles (x : RoomTrans) : Prop :=
  ∃ winner loser, winner ≠ loser ∧ wins x.out = [winner] ∧ loses x.out = [loser]

def PaysNothing (x : RoomTrans) : Prop := wins x.out = [] ∧ loses x.out = []

def SeatedExit (x : RoomTrans) : Prop :=
  ∀ uid, x.event = .exit uid → uid = x.before.whiteId ∨ uid = x.before.blackId

def Gone (x : RoomTrans) (loser : Uid) : Prop :=
  x.event = .exit loser ∨ ∃ env req, x.event = .request env req ∧ env.inGameRoom loser = false

/-- The clocks run, it is the turn of `loser`, and `put_chess` or `timeout` finds the time used up. -/
def LostOnTime (x : RoomTrans) (loser : Uid) : Prop :=
  x.before.timingStarted = true ∧ x.before.turnUid = loser ∧
    ∃ env req m ms, x.event = .request env req ∧ req.members = .ok m ∧
      ((x.before.Asks m "put_chess" ∧ ms = elapsedMs env.now x.before.turnStartTp) ∨
        (x.before.Asks m "timeout" ∧ ms = (elapsedMs env.now x.before.turnStartTp + timeoutToleranceMs) % 2 ^ 64)) ∧
      (stepInitMs ≤ ms ∨ x.before.curTotalLeftMs ≤ ms)

/-- The game ends with one seat paid for a win and the other for a loss, for one of the three reasons. -/
structure Earned (x : RoomTrans) (winner loser : Uid) : Prop where
  wins : wins x.out = [winner]
  loses : loses x.out = [loser]
  seats : (winner = x.before.whiteId ∧ loser = x.before.blackId) ∨ (winner = x.before.blackId ∧ loser = x.before.whiteId)
  reason : (∃ color, x.before.seatOf color = winner ∧ x.after.board.FiveInRow color) ∨ x.Gone loser ∨ x.LostOnTime loser

/-- The request is a move that `handle_chess` refuses, with a `winner` of its own. -/
def Forged (x : RoomTrans) : Prop :=
  ∃ env req m uid winner, x.event = .request env req ∧ req.members = .ok m ∧ x.before.Admits env m uid ∧
    x.before.Refuses env m ∧ (m.get "winner").asUInt64 = .ok winner ∧ winner ≠ 0

end RoomTrans

namespace Room
variable {env : Env} {r r' : Room} {m : Members} {uid w b : Uid} {out : List Call} {e : RoomEvent}

theorem opponentOf_white : r.opponentOf r.whiteId = r.blackId := by simp [opponentOf]

theorem opponentOf_black (hne : r.whiteId ≠ r.blackId) : r.opponentOf r.blackId = r.whiteId := by
  simp [opponentOf, hne.symm]

theorem opponentOf_ne (hne : r.whiteId ≠ r.blackId) (uid : Uid) : r.opponentOf uid ≠ uid := by
  unfold opponentOf
  split
  · rename_i h
    exact h ▸ hne.symm
  · exact fun h => by simp_all

theorem opponent_seats (hne : r.whiteId ≠ r.blackId) (hseat : uid = r.whiteId ∨ uid = r.blackId) :
    (r.opponentOf uid = r.whiteId ∧ uid = r.blackId) ∨ (r.opponentOf uid = r.blackId ∧ uid = r.whiteId) := by
  rcases hseat with rfl | rfl
  · exact Or.inr ⟨opponentOf_white, rfl⟩
  · exact Or.inl ⟨opponentOf_black hne, rfl⟩

/-! ### Exactly once -/

/-- A request that ends the game settles it, and any other pays nothing. -/
theorem RequestStep.settles (hne : r.whiteId ≠ r.blackId) (hs : RequestStep env r m r' out) (e : RoomEvent) :
    let x : RoomTrans := ⟨r, e, r', out⟩
    (x.Ends ∧ x.Settles) ∨ (¬x.Ends ∧ x.PaysNothing) := by
  cases hs with
  | idle => exact Or.inr ⟨fun h => absurd_statu h.1 h.2, rfl, rfl⟩
  | timeUp hrun => exact Or.inl ⟨⟨hrun, rfl⟩, _, _, opponentOf_ne hne _, rfl, rfl⟩
  | walkover admits | claimed admits =>
    exact Or.inl ⟨⟨admits.running, rfl⟩, _, _, (opponentOf_ne hne _).symm, rfl, rfl⟩
  | won places => exact Or.inl ⟨⟨places.running, rfl⟩, _, _, (opponentOf_ne hne _).symm, rfl, rfl⟩
  | placed places =>
    refine Or.inr ⟨fun h => ?_, rfl, rfl⟩
    have hover := h.2
    simp only [passTurn_statu, places.running, reduceCtorEq] at hover
  | invite _ _ hover | accept _ _ hover => exact Or.inr ⟨fun h => by simpa [hover] using h.1, rfl, rfl⟩

theorem exit_settles (hne : r.whiteId ≠ r.blackId) (uid : Uid) :
    let x : RoomTrans := ⟨r, .exit uid, (r.handleExit uid).1, (r.handleExit uid).2⟩
    (x.Ends ∧ x.Settles) ∨ (¬x.Ends ∧ x.PaysNothing) := by
  have hover : (r.handleExit uid).1.statu = .gameOver := by rw [handleExit_fst]
  cases hs : r.statu with
  | gameStart =>
    refine Or.inl ⟨⟨hs, hover⟩, r.opponentOf uid, if uid = r.whiteId then r.whiteId else r.blackId, ?_, ?_, ?_⟩
    · unfold opponentOf
      split
      · exact hne.symm
      · exact hne
    · simp [handleExit, hs, wins]
    · simp [handleExit, hs, loses]
  | gameOver =>
    refine Or.inr ⟨fun h => by simpa [hs] using h.1, ?_, ?_⟩
    · simp [handleExit, hs, wins]
    · simp [handleExit, hs, loses]

theorem step_settles (hne : r.whiteId ≠ r.blackId) (hw : r.whiteId ≠ 0) (hb : r.blackId ≠ 0)
    (hs : machine.step r e = some (r', out)) :
    let x : RoomTrans := ⟨r, e, r', out⟩
    (x.Ends ∧ x.Settles) ∨ (¬x.Ends ∧ x.PaysNothing) := by
  rcases step_cases hw hb hs with ⟨env, req, m, rfl, -, hreq⟩ | ⟨uid, rfl, rfl, rfl⟩
  · exact hreq.settles hne _
  · exact exit_settles hne uid

theorem wins_append (l l' : List Call) : wins (l ++ l') = wins l ++ wins l' := List.filterMap_append

theorem loses_append (l l' : List Call) : loses (l ++ l') = loses l ++ loses l' := List.filterMap_append

/-- When every step that ends a game settles it, and no other pays, the payments count the games. -/
theorem paid_eq_ends {ts : List RoomTrans} (h : ∀ x ∈ ts, (x.Ends ∧ x.Settles) ∨ (¬x.Ends ∧ x.PaysNothing)) :
    (wins (Machine.log ts)).length = ts.countP (fun x => x.Ends) ∧
      (loses (Machine.log ts)).length = ts.countP (fun x => x.Ends) := by
  induction ts with
  | nil => exact ⟨rfl, rfl⟩
  | cons x ts ih =>
    obtain ⟨ihw, ihl⟩ := ih fun y hy => h y (List.mem_cons_of_mem _ hy)
    rw [Machine.log, List.flatMap_cons, wins_append, loses_append, List.length_append, List.length_append]
    rw [Machine.log] at ihw ihl
    rcases h x List.mem_cons_self with ⟨hends, winner, loser, -, hwin, hlose⟩ | ⟨hends, hwin, hlose⟩
    · rw [List.countP_cons_of_pos (by simpa using hends), hwin, hlose, ihw, ihl]
      simp only [List.length_singleton, Nat.add_comm, and_self]
    · rw [List.countP_cons_of_neg (by simpa using hends), hwin, hlose, ihw, ihl]
      simp only [List.length_nil, Nat.zero_add, and_self]

section Runs
variable {roomId : Nat} {now : Int} {ts : List RoomTrans}

/-- Games and rematches alternate: every game but the running one has ended. -/
theorem ends_eq_restarts (h : machine.Run (create roomId w b now) ts r) :
    ts.countP (fun x => x.Ends) = ts.countP (fun x => x.Restarts) + (if r.statu = .gameOver then 1 else 0) := by
  induction h with
  | nil => rfl
  | @snoc ts t u e out _ _ ih =>
    rw [List.countP_append, List.countP_append, ih]
    cases ht : t.statu <;> cases hu : u.statu <;>
      simp [RoomTrans.Ends, RoomTrans.Restarts, ht, hu]

theorem run_before (h : machine.Run (create roomId w b now) ts r) (hw : w ≠ 0) (hb : b ≠ 0) {x : RoomTrans}
    (hx : x ∈ ts) : Seated w b x.before ∧ machine.step x.before x.event = some (x.after, x.out) :=
  h.before (seated_create roomId now) (fun hi hs => hi.step hw hb hs) hx

/-- Every game is settled exactly once: the step that ends it pays one win and one loss, to two users, and
    no other step pays at all. -/
theorem settled_once (h : machine.Run (create roomId w b now) ts r) (hw : w ≠ 0) (hb : b ≠ 0) (hne : w ≠ b) :
    (∀ x ∈ ts, (x.Ends → x.Settles) ∧ (¬x.Ends → x.PaysNothing)) ∧
      (wins (Machine.log ts)).length = ts.countP (fun x => x.Ends) ∧
      (loses (Machine.log ts)).length = ts.countP (fun x => x.Ends) ∧
      ts.countP (fun x => x.Ends) = ts.countP (fun x => x.Restarts) + (if r.statu = .gameOver then 1 else 0) := by
  have hall : ∀ x ∈ ts, (x.Ends ∧ x.Settles) ∨ (¬x.Ends ∧ x.PaysNothing) := fun x hx => by
    obtain ⟨hseated, hs⟩ := run_before h hw hb hx
    exact step_settles (hseated.seats_ne hne) (hseated.white_ne_zero hw hb) (hseated.black_ne_zero hw hb) hs
  refine ⟨fun x hx => ?_, (paid_eq_ends hall).1, (paid_eq_ends hall).2, ends_eq_restarts h⟩
  rcases hall x hx with ⟨hends, hsettles⟩ | ⟨hends, hnothing⟩
  · exact ⟨fun _ => hsettles, fun h => absurd hends h⟩
  · exact ⟨fun h => absurd h hends, fun _ => hnothing⟩

/-- The same for a game that white leaves after a stone, and both leave once more. -/
theorem settled_once_exits : ∃ (ts : List RoomTrans) (r : Room), machine.Run (create 1 10 20 0) ts r ∧
    (wins (Machine.log ts)).length = 1 ∧
    (∀ x ∈ ts, (x.Ends → x.Settles) ∧ (¬x.Ends → x.PaysNothing)) := by
  obtain ⟨ts, r, h, hcount⟩ := Machine.Run.exists_of_exec machine (create 1 10 20 0)
    [move 0 20 7 7, .exit 10, .exit 20, .exit 10]
    (fun (ts : List RoomTrans) _ => ts.countP (fun x => x.Ends) = 1) (by decide +kernel)
  obtain ⟨hall, hwins, -, -⟩ := settled_once h (by decide) (by decide) (by decide)
  exact ⟨ts, r, h, hwins.trans hcount, hall⟩

end Runs

/-! ### For a reason -/

/-- A request that ends the game, and is not forged, ends it for a reason. -/
theorem RequestStep.earned {req : Json} (hne : r.whiteId ≠ r.blackId) (hturn : r.turnUid = r.whiteId ∨ r.turnUid = r.blackId)
    (hm : req.members = .ok m) (hs : RequestStep env r m r' out)
    (hforged : ¬RoomTrans.Forged ⟨r, .request env req, r', out⟩) (hends : RoomTrans.Ends ⟨r, .request env req, r', out⟩) :
    ∃ winner loser, RoomTrans.Earned ⟨r, .request env req, r', out⟩ winner loser := by
  cases hs with
  | idle => exact absurd_statu hends.1 hends.2
  | @timeUp ms _ htiming _ hasks hexp =>
    refine ⟨_, _, rfl, rfl, opponent_seats hne hturn, Or.inr (Or.inr ⟨htiming, rfl, env, req, m, ms, rfl, hm, hasks, ?_⟩)⟩
    simpa [stepExpired, totalExpired] using hexp
  | walkover _ _ habsent =>
    rcases habsent with ⟨hgone, rfl⟩ | ⟨-, hgone, rfl⟩
    · refine ⟨_, _, rfl, rfl, Or.inr ⟨rfl, opponentOf_black hne⟩, Or.inr (Or.inl (Or.inr ⟨env, req, rfl, ?_⟩))⟩
      rwa [opponentOf_black hne]
    · refine ⟨_, _, rfl, rfl, Or.inl ⟨rfl, opponentOf_white⟩, Or.inr (Or.inl (Or.inr ⟨env, req, rfl, ?_⟩))⟩
      rwa [opponentOf_white]
  | claimed admits hrefuses hwinner hzero =>
    exact absurd ⟨env, req, m, _, _, rfl, hm, admits, hrefuses, hwinner, hzero⟩ hforged
  | @won uid winner c color resp _ hwin hzero =>
    have hseat : winner = r.seatOf color := by
      rw [← hwin] at hzero ⊢
      exact checkWin_eq_seatOf hzero
    have hfive : (r.board.set c color).FiveInRow color := by
      rw [← hwin] at hzero
      exact fiveInRow_of_checkWin hzero
    refine ⟨winner, r.opponentOf winner, rfl, rfl, ?_, Or.inl ⟨color, hseat.symm, hfive⟩⟩
    rw [hseat]
    cases color with
    | white => exact Or.inl ⟨rfl, opponentOf_white⟩
    | black => exact Or.inr ⟨rfl, opponentOf_black hne⟩
  | placed places =>
    have hover := hends.2
    simp only [passTurn_statu, places.running, reduceCtorEq] at hover
  | invite _ _ hover | accept _ _ hover => exact absurd_statu hends.1 hover

theorem exit_earned (hne : r.whiteId ≠ r.blackId) (hseat : uid = r.whiteId ∨ uid = r.blackId) (hrun : r.statu = .gameStart) :
    RoomTrans.Earned ⟨r, .exit uid, (r.handleExit uid).1, (r.handleExit uid).2⟩ (r.opponentOf uid) uid where
  wins := by simp [handleExit, hrun, wins]
  loses := by
    have hloser : (if uid = r.whiteId then r.whiteId else r.blackId) = uid := by
      split
      · rename_i h
        exact h.symm
      · rename_i h
        exact (hseat.resolve_left h).symm
    simp [handleExit, hrun, loses, hloser]
  seats := opponent_seats hne hseat
  reason := Or.inr (Or.inl (Or.inl rfl))

section Runs
variable {roomId : Nat} {now : Int} {ts : List RoomTrans}

/-- In a run without forged moves no game ends unearned. -/
theorem ends_earned (h : machine.Run (create roomId w b now) ts r) (hw : w ≠ 0) (hb : b ≠ 0) (hne : w ≠ b)
    (hexit : ∀ x ∈ ts, x.SeatedExit) (hforged : ∀ x ∈ ts, ¬x.Forged) :
    ∀ x ∈ ts, x.Ends → ∃ winner loser, x.Earned winner loser := by
  intro x hx hends
  obtain ⟨hseated, hs⟩ := run_before h hw hb hx
  have hseats := hseated.seats_ne hne
  have hex := hexit x hx
  have hfor := hforged x hx
  obtain ⟨r₀, e, r₁, out⟩ := x
  simp only at hseated hseats hs
  rcases step_cases (hseated.white_ne_zero hw hb) (hseated.black_ne_zero hw hb) hs with
    ⟨env, req, m, rfl, hm, hreq⟩ | ⟨uid, rfl, rfl, rfl⟩
  · exact hreq.earned hseats hseated.turn hm hfor hends
  · exact ⟨_, _, exit_earned hseats (hex uid rfl) hends.1⟩

theorem ends_earned_exit : ∃ (ts : List RoomTrans) (r : Room), machine.Run (create 1 10 20 0) ts r ∧ (∃ x ∈ ts, x.Ends) ∧
    ∀ x ∈ ts, x.Ends → ∃ winner loser, x.Earned winner loser := by
  have h : machine.Run (create 1 10 20 0) [⟨_, .exit 20, _, _⟩] _ := Machine.Run.nil.snoc rfl
  refine ⟨_, _, h, ⟨_, List.mem_singleton_self _, rfl, rfl⟩, ends_earned h (by decide) (by decide) (by decide) ?_ ?_⟩
  · intro x hx uid huid
    obtain rfl := List.mem_singleton.mp hx
    obtain rfl := RoomEvent.exit.inj huid
    exact Or.inr rfl
  · rintro x hx ⟨env, req, m, uid, winner, hreq, -⟩
    obtain rfl := List.mem_singleton.mp hx
    cases hreq

/-- Black's first move, off the board and with black as the winner. -/
def forgedMove : RoomEvent := .request (.allPresent 0) (.obj ((putChessMsg 1 20 (-1) 0).set "winner" (.uint 20)))

/-- A forged move ends a game that nobody has won. -/
theorem forged_move_unearned : ¬∀ roomId w b now (ts : List RoomTrans) r, w ≠ 0 → b ≠ 0 → w ≠ b →
    machine.Run (create roomId w b now) ts r → (∀ x ∈ ts, x.SeatedExit) →
    ∀ x ∈ ts, x.Ends → ∃ winner loser, x.Earned winner loser := by
  intro hall
  have h : machine.Run (create 1 10 20 0) [⟨_, forgedMove, _, _⟩] _ := Machine.Run.nil.snoc rfl
  obtain ⟨winner, loser, earned⟩ := hall 1 10 20 0 _ _ (by decide) (by decide) (by decide) h
    (by rintro x hx uid huid; obtain rfl := List.mem_singleton.mp hx; cases huid) _ (List.mem_singleton_self _) ⟨rfl, rfl⟩
  rcases earned.reason with ⟨color, -, hfive⟩ | hgone | ⟨htiming, -⟩
  · exact not_fiveInRow_empty color hfive
  · rcases hgone with hexit | ⟨env, req, hreq, hgone⟩
    · cases hexit
    · obtain ⟨rfl, -⟩ := RoomEvent.request.inj hreq
      cases hgone
  · cases htiming

end Runs
end Room
end FiveStones
