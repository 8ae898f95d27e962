import FiveStones.Theorems.Sender
import FiveStones.Theorems.Opening

/-! The clocks of a game: what a player has left, against the time that each stone of the player took. -/

namespace FiveStones

/-- What a request reads from the clock. -/
def RoomEvent.readings : RoomEvent → List Int
  | .request env _ => [env.now, env.later]
  | .exit _ => []

/-- The stone that a step places: in whose name, and the milliseconds since the turn began. -/
def RoomTrans.stone? (x : RoomTrans) : Option (Uid × Nat) :=
  match x.event with
  | .exit _ => none
  | .request env req =>
    if x.after.board = x.before.board then none
    else (req.members >>= fun m => (m.get "uid").asUInt64).toOption.map fun uid => (uid, elapsedMs env.now x.before.turnStartTp)

/-- The step neither ends the game nor changes the board. -/
def RoomTrans.Waits (x : RoomTrans) : Prop := ¬x.Ends ∧ x.after.board = x.before.board

/-- The stones since the room was created, or last reset by a rematch, oldest first. -/
def thought (ts : List RoomTrans) : List (Uid × Nat) :=
  ts.foldl (fun stones x => if x.Restarts then [] else stones ++ x.stone?.toList) []

/-- The time that the stones of `uid` took, without the first stone of the game. -/
def spent (stones : List (Uid × Nat)) (uid : Uid) : Nat := (((stones.drop 1).filter (·.1 = uid)).map Prod.snd).sum

/-- The readings since the creation of the room at `now`, in the order in which they were taken. -/
def readings (now : Int) (ts : List RoomTrans) : List Int := now :: ts.flatMap fun x => x.event.readings

/-- What the clock can read: a number of nanoseconds in 64 bits with a sign. -/
def Reading (t : Int) : Prop := -9223372036854775808 ≤ t ∧ t ≤ 9223372036854775807

instance : DecidablePred Reading := fun _ => inferInstanceAs (Decidable (_ ∧ _))

theorem thought_snoc (ts : List RoomTrans) (x : RoomTrans) :
    thought (ts ++ [x]) = if x.Restarts then [] else thought ts ++ x.stone?.toList := by
  simp [thought]

theorem thought_same {ts : List RoomTrans} {x : RoomTrans} (hre : ¬x.Restarts) (hboard : x.after.board = x.before.board) :
    thought (ts ++ [x]) = thought ts := by
  have hnone : x.stone? = none := by
    unfold RoomTrans.stone?
    split
    · rfl
    · rw [if_pos hboard]
  rw [thought_snoc, if_neg hre, hnone]
  exact List.append_nil _

theorem spent_of_one (stone : Uid × Nat) (uid : Uid) : spent [stone] uid = 0 := rfl

theorem spent_snoc {stones : List (Uid × Nat)} (h : stones ≠ []) (uid uid' : Uid) (ms : Nat) :
    spent (stones ++ [(uid, ms)]) uid' = spent stones uid' + if uid = uid' then ms else 0 := by
  cases stones with
  | nil => exact absurd rfl h
  | cons stone stones =>
    by_cases heq : uid = uid' <;> simp [spent, heq]

theorem readings_snoc (now : Int) (ts : List RoomTrans) (x : RoomTrans) :
    readings now (ts ++ [x]) = readings now ts ++ x.event.readings := by
  simp [readings]

/-! ### Elapsed time -/

/-- Of two readings after the start of the turn, the later one gives at least as many milliseconds, and there is
    room for the tolerance. -/
theorem elapsedMs_mono {start t t' : Int} (hstart : start ≤ t) (ht : t ≤ t') (hlow : Reading start)
    (hhigh : Reading t') :
    elapsedMs t start ≤ elapsedMs t' start ∧ (elapsedMs t' start + timeoutToleranceMs) % 2 ^ 64 =
      elapsedMs t' start + timeoutToleranceMs := by
  obtain ⟨hlow, -⟩ := hlow
  obtain ⟨-, hhigh⟩ := hhigh
  have h : ∀ u : Int, start ≤ u → u ≤ 9223372036854775807 → elapsedMs u start = ((u - start) / 1000000).toNat := by
    intro u hu hmax
    rw [elapsedMs, Int.tdiv_eq_ediv_of_nonneg (by omega), Int.emod_eq_of_lt (by omega) (by omega)]
  rw [h t hstart (by omega), h t' (by omega) hhigh]
  simp only [timeoutToleranceMs]
  omega

namespace Room
variable {env : Env} {r r' : Room} {m : Members} {req : Json} {uid w b : Uid} {out : List Call} {e : RoomEvent}
  {ts : List RoomTrans} {stones : List (Uid × Nat)} {ms : Nat}

/-! ### What the clocks hold -/

/-- What is left of the total of each player, after the stones of a game. -/
structure Counted (stones : List (Uid × Nat)) (r : Room) : Prop where
  begun : stones ≠ []
  white : r.whiteTotalLeftMs + spent stones r.whiteId = totalInitMs
  black : r.blackTotalLeftMs + spent stones r.blackId = totalInitMs
  whiteLeft : 0 < r.whiteTotalLeftMs
  blackLeft : 0 < r.blackTotalLeftMs

/-- While a game runs, its clocks have not started, or they are counted. -/
def Accounted (stones : List (Uid × Nat)) (r : Room) : Prop :=
  r.statu = .gameStart → (r.timingStarted = false → stones = []) ∧ (r.timingStarted = true → Counted stones r)

theorem Accounted.of_over (hover : r.statu = .gameOver) : Accounted stones r := fun hrun => by
  rw [hover] at hrun
  cases hrun

theorem curTotalLeftMs_white (hturn : r.turnUid = r.whiteId) : r.curTotalLeftMs = r.whiteTotalLeftMs := if_pos hturn

theorem curTotalLeftMs_black (hne : r.whiteId ≠ r.blackId) (hturn : r.turnUid = r.blackId) :
    r.curTotalLeftMs = r.blackTotalLeftMs := if_neg fun h => hne (h.symm.trans hturn)

/-- The first stone starts the clocks with the whole total for both. -/
theorem Counted.first (ht : r.timingStarted = false) (stone : Uid × Nat) : Counted [stone] (r.passTurn env uid ms) := by
  have hwhite : (r.passTurn env uid ms).whiteTotalLeftMs = totalInitMs := by simp [passTurn, ht]
  have hblack : (r.passTurn env uid ms).blackTotalLeftMs = totalInitMs := by simp [passTurn, ht]
  refine ⟨List.cons_ne_nil _ _, ?_, ?_, ?_, ?_⟩
  · rw [hwhite, spent_of_one, Nat.add_zero]
  · rw [hblack, spent_of_one, Nat.add_zero]
  · rw [hwhite]; decide
  · rw [hblack]; decide

/-- Any later stone takes its time from the total of the player to move, who had more than that. -/
theorem Counted.next (h : Counted stones r) (ht : r.timingStarted = true) (hne : r.whiteId ≠ r.blackId)
    (hturn : r.turnUid = r.whiteId ∨ r.turnUid = r.blackId) (hms : ms < r.curTotalLeftMs) :
    Counted (stones ++ [(r.turnUid, ms)]) (r.passTurn env uid ms) := by
  have hwhite := h.white
  have hblack := h.black
  have hwhiteLeft := h.whiteLeft
  have hblackLeft := h.blackLeft
  rcases hturn with hturn | hturn
  · rw [curTotalLeftMs_white hturn] at hms
    have heq : r.passTurn env uid ms = { r with
        whiteTotalLeftMs := r.whiteTotalLeftMs - ms, turnUid := r.opponentOf uid, turnStartTp := env.later } := by
      simp only [passTurn, ht, hturn, ↓reduceIte, curTotalLeftMs_white hturn, if_pos hms, gt_iff_lt]
    rw [heq]
    refine ⟨by simp, ?_, ?_, by simpa using hms, hblackLeft⟩
    · rw [spent_snoc h.begun, if_pos hturn]
      simp only
      omega
    · rw [spent_snoc h.begun, if_neg fun h => hne (hturn.symm.trans h)]
      exact hblack
  · rw [curTotalLeftMs_black hne hturn] at hms
    have hother : ¬r.turnUid = r.whiteId := fun h => hne (h.symm.trans hturn)
    have heq : r.passTurn env uid ms = { r with
        blackTotalLeftMs := r.blackTotalLeftMs - ms, turnUid := r.opponentOf uid, turnStartTp := env.later } := by
      simp only [passTurn, ht, hother, ↓reduceIte, curTotalLeftMs_black hne hturn, if_pos hms, gt_iff_lt]
    rw [heq]
    refine ⟨by simp, ?_, ?_, hwhiteLeft, by simpa using hms⟩
    · rw [spent_snoc h.begun, if_neg hother]
      exact hwhite
    · rw [spent_snoc h.begun, if_pos hturn]
      simp only
      omega

/-- In time means less than the limit for a step, and less than what is left. -/
theorem Admits.in_time (admits : Admits env r m uid) (ht : r.timingStarted = true) :
    elapsedMs env.now r.turnStartTp < stepInitMs ∧ elapsedMs env.now r.turnStartTp < r.curTotalLeftMs := by
  have htime := admits.inTime ht
  simpa [thinkingMs, ht, stepExpired, totalExpired] using htime

theorem stone?_of_places {c : Cell} {color : Chess} (places : Places env r m uid c color) (hm : req.members = .ok m)
    (hboard : r'.board = r.board.set c color) :
    RoomTrans.stone? ⟨r, .request env req, r', out⟩ = some (uid, elapsedMs env.now r.turnStartTp) := by
  have hmoves : ¬r'.board = r.board := hboard ▸ Board.set_ne_self places.free
  simp only [RoomTrans.stone?, hmoves, ↓reduceIte, hm, bind, Except.bind, places.names, Except.toOption, Option.map_some]

theorem Accounted.placed {c : Cell} {color : Chess} (h : Accounted stones r) (hseated : Seated w b r) (hne : w ≠ b)
    (places : Places env r m uid c color) :
    Accounted (stones ++ [(uid, elapsedMs env.now r.turnStartTp)])
      ((r.withStone c color).passTurn env uid (r.thinkingMs env)) := by
  intro _
  rw [passTurn_timingStarted]
  refine ⟨fun hno => absurd hno (by decide), fun _ => ?_⟩
  obtain ⟨hfresh, hcounted⟩ := h places.running
  cases ht : r.timingStarted with
  | false =>
    rw [hfresh ht]
    exact Counted.first (r := r.withStone c color) ht _
  | true =>
    have hcount : Counted stones (r.withStone c color) := { hcounted ht with }
    have hms : r.thinkingMs env = elapsedMs env.now r.turnStartTp := if_pos ht
    rw [hms, places.turn ht]
    exact hcount.next ht (hseated.seats_ne hne) hseated.turn (places.toAdmits.in_time ht).2

theorem Accounted.step (h : Accounted (thought ts) r) (hseated : Seated w b r) (hw : w ≠ 0) (hb : b ≠ 0) (hne : w ≠ b)
    (hs : machine.step r e = some (r', out)) : Accounted (thought (ts ++ [⟨r, e, r', out⟩])) r' := by
  rcases step_cases (hseated.white_ne_zero hw hb) (hseated.black_ne_zero hw hb) hs with
    ⟨env, req, m, rfl, hm, hreq⟩ | ⟨uid, -, rfl, -⟩
  · cases hreq with
    | idle => rwa [thought_same (fun hre => absurd_statu hre.2 hre.1) rfl]
    | timeUp | walkover | claimed | won => exact .of_over rfl
    | invite _ _ hover => exact .of_over hover
    | placed places =>
      rw [thought_snoc, if_neg fun hre => absurd_statu places.running hre.1,
        stone?_of_places places hm (passTurn_board _)]
      exact h.placed hseated hne places
    | accept _ _ hover =>
      rw [thought_snoc, if_pos ⟨hover, rfl⟩]
      exact fun _ => ⟨fun _ => rfl, fun ht => by cases ht⟩
  · exact .of_over (by rw [handleExit_fst])

/-! ### What leaves the clocks alone, and what ends the game -/

/-- The totals and the start of the turn are as they were. -/
structure SameClocks (r r' : Room) : Prop where
  white : r'.whiteTotalLeftMs = r.whiteTotalLeftMs
  black : r'.blackTotalLeftMs = r.blackTotalLeftMs
  turnStartTp : r'.turnStartTp = r.turnStartTp

/-- At the reading `t` the time of the player to move is used up, as `put_chess` sees it. -/
def ExpiredAt (r : Room) (t : Int) : Prop :=
  stepExpired (elapsedMs t r.turnStartTp) = true ∨ r.totalExpired (elapsedMs t r.turnStartTp) = true

/-- While the clocks run, only a stone of the player to move changes them, and one that is in time. -/
theorem Answer.clocks (h : Answer env r m r' out) (hw : r.whiteId ≠ 0) (hb : r.blackId ≠ 0) (hrun : r.statu = .gameStart) :
    SameClocks r r' ∨ ∃ uid c color, Places env r m uid c color ∧
      r' = (r.withStone c color).passTurn env uid (r.thinkingMs env) ∧ ∃ resp, out = [.broadcast resp] ∧ Echoes m resp := by
  cases h with
  | refused | chatted | timeUp | walkover | claimed | won => exact Or.inl ⟨rfl, rfl, rfl⟩
  | drifted _ _ habsent => exact absurd rfl (habsent.ne_zero hw hb)
  | placed places _ hechoes => exact Or.inr ⟨_, _, _, places, rfl, _, rfl, hechoes⟩
  | invite _ _ hover | accept _ _ hover => exact absurd_statu hrun hover

/-- A stone placed by `put_chess` or `won` with it was in time. -/
theorem Answer.stone_in_time (h : Answer env r m r' out) (hrun : r.statu = .gameStart) (ht : r.timingStarted = true)
    (hmoves : r'.board ≠ r.board) :
    elapsedMs env.now r.turnStartTp < stepInitMs ∧ elapsedMs env.now r.turnStartTp < r.curTotalLeftMs := by
  cases h with
  | refused | chatted | timeUp | walkover | claimed | invite => exact absurd rfl hmoves
  | drifted => exact absurd (passTurn_board _) hmoves
  | placed places | won places => exact places.toAdmits.in_time ht
  | accept _ _ hover => exact absurd_statu hrun hover

/-- Chat, refusals and requests in the name of anyone but the player to move. -/
def Aside (r : Room) (m : Members) (out : List Call) : Prop :=
  Asks r m "chat" ∨ (∃ resp, Call.broadcast resp ∈ out ∧ resp.get "result" = .bool false) ∨
    ∃ uid, (m.get "uid").asUInt64 = .ok uid ∧ uid ≠ r.turnUid

theorem Answer.aside (h : Answer env r m r' out) (hw : r.whiteId ≠ 0) (hb : r.blackId ≠ 0) (hrun : r.statu = .gameStart)
    (ht : r.timingStarted = true) (haside : Aside r m out) : SameClocks r r' := by
  rcases h.clocks hw hb hrun with hsame | ⟨uid, c, color, places, -, resp, rfl, hechoes⟩
  · exact hsame
  · exfalso
    rcases haside with asks | ⟨resp', hresp, hres⟩ | ⟨uid', hnames, hne⟩
    · exact absurd (asks.unique places.asks) (by decide)
    · obtain rfl : resp' = resp := by simpa using hresp
      rw [hechoes.result] at hres
      cases hres
    · obtain rfl := Except.ok.inj (hnames.symm.trans places.names)
      exact hne (places.turn ht)

/-- It is still the same turn of the same game. -/
structure SameTurn (r r' : Room) : Prop extends SameClocks r r' where
  running : r'.statu = .gameStart
  timing : r'.timingStarted = r.timingStarted
  whiteId : r'.whiteId = r.whiteId
  blackId : r'.blackId = r.blackId
  turnUid : r'.turnUid = r.turnUid

theorem SameTurn.refl (hrun : r.statu = .gameStart) : SameTurn r r :=
  ⟨⟨rfl, rfl, rfl⟩, hrun, rfl, rfl, rfl, rfl⟩

theorem SameTurn.trans {r'' : Room} (h : SameTurn r r') (h' : SameTurn r' r'') : SameTurn r r'' where
  white := h'.white.trans h.white
  black := h'.black.trans h.black
  turnStartTp := h'.turnStartTp.trans h.turnStartTp
  running := h'.running
  timing := h'.timing.trans h.timing
  whiteId := h'.whiteId.trans h.whiteId
  blackId := h'.blackId.trans h.blackId
  turnUid := h'.turnUid.trans h.turnUid

theorem SameTurn.opponentOf_eq (h : SameTurn r r') (uid : Uid) : r'.opponentOf uid = r.opponentOf uid := by
  simp only [opponentOf, h.whiteId, h.blackId]

theorem SameTurn.expiredAt (h : SameTurn r r') {t : Int} (hexp : ExpiredAt r t) : ExpiredAt r' t := by
  have hleft : r'.curTotalLeftMs = r.curTotalLeftMs := by
    simp only [curTotalLeftMs, h.turnUid, h.whiteId, h.white, h.black]
  simpa only [ExpiredAt, totalExpired, hleft, h.turnStartTp] using hexp

theorem SameTurn.step (hseated : Seated w b r) (hw : w ≠ 0) (hb : b ≠ 0) (hrun : r.statu = .gameStart)
    (hs : machine.step r e = some (r', out)) (hwaits : RoomTrans.Waits ⟨r, e, r', out⟩) : SameTurn r r' := by
  have goes : r'.statu ≠ .gameOver := fun hover => hwaits.1 ⟨hrun, hover⟩
  rcases step_cases (hseated.white_ne_zero hw hb) (hseated.black_ne_zero hw hb) hs with
    ⟨env, req, m, rfl, hm, hreq⟩ | ⟨uid, -, rfl, -⟩
  · cases hreq with
    | idle => exact .refl hrun
    | timeUp | walkover | claimed | won => exact absurd rfl goes
    | placed places =>
      have hboard := hwaits.2
      simp only [passTurn_board] at hboard
      exact absurd hboard (Board.set_ne_self places.free)
    | invite _ _ hover | accept _ _ hover => exact absurd_statu hrun hover
  · exact absurd (by rw [handleExit_fst]) goes

theorem handleRequest_members (hm : req.members = .ok m) : r.handleRequest env req = r.handleRequest env (.obj m) := by
  have hobj : (Json.obj m).members = .ok m := rfl
  simp only [handleRequest, hm, hobj]

/-- Once the time is used up at `t`, any later `put_chess` or `timeout` of the player to move loses the game. -/
theorem ends_once_expired {t : Int} (hrun : r.statu = .gameStart) (ht : r.timingStarted = true) (hexp : ExpiredAt r t)
    (hstart : r.turnStartTp ≤ t) (hlow : Reading r.turnStartTp) (hle : t ≤ env.now) (hhigh : Reading env.now)
    (hm : req.members = .ok m) (asks : Asks r m "put_chess" ∨ Asks r m "timeout")
    (hnames : (m.get "uid").asUInt64 = .ok r.turnUid) :
    ∃ late, r.handleRequest env req = .ok (r.timedOut late) := by
  obtain ⟨hmono, hroom⟩ := elapsedMs_mono hstart hle hlow hhigh
  rw [handleRequest_members hm]
  rcases asks with asks | asks
  · refine ⟨_, (handleRequest_eq env asks).trans ((if_pos rfl).trans (putChess_late hrun (fun htime => ?_) hnames))⟩
    have hms := htime ht
    simp only [thinkingMs, ht, ↓reduceIte, stepExpired, totalExpired, decide_eq_false_iff_not, not_le] at hms
    simp only [ExpiredAt, stepExpired, totalExpired, decide_eq_true_eq] at hexp
    omega
  · refine ⟨_, (handleRequest_eq env asks).trans ((if_neg (by decide)).trans ((if_pos rfl).trans
      (timeout_late hrun ht rfl ?_ hnames)))⟩
    rw [hroom]
    simp only [ExpiredAt, stepExpired, totalExpired, decide_eq_true_eq, Bool.or_eq_true] at hexp ⊢
    omega

/-! ### Runs -/

section Runs
variable {roomId : Nat} {now : Int}

theorem run_accounted (h : machine.Run (create roomId w b now) ts r) (hw : w ≠ 0) (hb : b ≠ 0) (hne : w ≠ b) :
    Seated w b r ∧ Accounted (thought ts) r :=
  h.invariant_along (I := fun ts r => Seated w b r ∧ Accounted (thought ts) r) (C := fun _ _ => True)
    ⟨seated_create roomId now, fun _ => ⟨fun _ => rfl, fun ht => by cases ht⟩⟩ (fun _ _ _ _ => trivial)
    fun hi hs _ => ⟨hi.1.step hw hb hs, hi.2.step hi.1 hw hb hne hs⟩

/-- The turn began at a reading of the clock. -/
theorem run_turnStartTp (h : machine.Run (create roomId w b now) ts r) : r.turnStartTp ∈ readings now ts := by
  induction h with
  | nil => exact List.mem_cons_self
  | @snoc ts r r' e out _ hs ih =>
    rw [readings_snoc]
    have kept : r'.turnStartTp = r.turnStartTp → r'.turnStartTp ∈ readings now ts ++ e.readings := fun heq =>
      List.mem_append_left _ (heq ▸ ih)
    rcases step_answer hs with ⟨env, req, m, rfl, -, ha⟩ | ⟨uid, -, rfl, -⟩
    · cases ha with
      | refused | chatted | timeUp | walkover | claimed | won | invite => exact kept rfl
      | drifted | placed => exact List.mem_append_right _ (by rw [passTurn_eq]; exact List.mem_cons_of_mem _ List.mem_cons_self)
      | accept => exact List.mem_append_right _ List.mem_cons_self
    · exact kept (by rw [handleExit_fst])

theorem run_sameTurn {us : List RoomTrans} {r' : Room} (h : machine.Run r us r') (hseated : Seated w b r) (hw : w ≠ 0)
    (hb : b ≠ 0) (hrun : r.statu = .gameStart) (hwaits : ∀ y ∈ us, RoomTrans.Waits y) : SameTurn r r' :=
  (h.invariant_of (I := fun u => Seated w b u ∧ SameTurn r u) (C := fun y => RoomTrans.Waits y)
    ⟨hseated, .refl hrun⟩ hwaits
    fun hi hs hy => ⟨hi.1.step hw hb hs, hi.2.trans (.step hi.1 hw hb hi.2.running hs hy)⟩).2

/-- While the clocks of a game run, each player has what the stones of that player have left of the total, which
    is never all; a stone is only placed in time; chat, refusals and requests in another name do not touch the
    clocks; and once the player to move has run out of time, every later `put_chess` or `timeout` in the name of
    that player, as long as the turn lasts, loses the game for the player. -/
theorem clock_accounting (h : machine.Run (create roomId w b now) ts r) (hw : w ≠ 0) (hb : b ≠ 0) (hne : w ≠ b)
    (hclock : ∀ t ∈ readings now ts, Reading t) (hrun : r.statu = .gameStart) (ht : r.timingStarted = true) :
    (r.whiteTotalLeftMs + spent (thought ts) r.whiteId = totalInitMs ∧ 0 < r.whiteTotalLeftMs ∧
        r.whiteTotalLeftMs ≤ totalInitMs ∧
        r.blackTotalLeftMs + spent (thought ts) r.blackId = totalInitMs ∧ 0 < r.blackTotalLeftMs ∧
        r.blackTotalLeftMs ≤ totalInitMs) ∧
      (∀ env req r' out, r.handleRequest env req = .ok (r', out) → r'.board ≠ r.board →
        elapsedMs env.now r.turnStartTp < stepInitMs ∧ elapsedMs env.now r.turnStartTp < r.curTotalLeftMs) ∧
      (∀ env req m r' out, req.members = .ok m → r.handleRequest env req = .ok (r', out) → Aside r m out →
        SameClocks r r') ∧
      (∀ t, (∀ t' ∈ readings now ts, t' ≤ t) → ExpiredAt r t →
        ∀ us r', machine.Run r us r' → (∀ y ∈ us, RoomTrans.Waits y) →
        ∀ env req m, t ≤ env.now → Reading env.now → req.members = .ok m →
          Asks r' m "put_chess" ∨ Asks r' m "timeout" → (m.get "uid").asUInt64 = .ok r.turnUid →
          ∃ r'' out, r'.handleRequest env req = .ok (r'', out) ∧ r''.statu = .gameOver ∧
            wins out = [r.opponentOf r.turnUid] ∧ loses out = [r.turnUid]) := by
  obtain ⟨hseated, haccounted⟩ := run_accounted h hw hb hne
  have hcounted := (haccounted hrun).2 ht
  have hwhite := hseated.white_ne_zero hw hb
  have hblack := hseated.black_ne_zero hw hb
  refine ⟨⟨hcounted.white, hcounted.whiteLeft, hcounted.white ▸ Nat.le_add_right _ _, hcounted.black,
    hcounted.blackLeft, hcounted.black ▸ Nat.le_add_right _ _⟩, ?_, ?_, ?_⟩
  · intro env req r' out hreq hmoves
    obtain ⟨m, -, ha⟩ := handleRequest_answer hreq
    exact ha.stone_in_time hrun ht hmoves
  · intro env req m r' out hm hreq haside
    obtain ⟨m', hm', ha⟩ := handleRequest_answer hreq
    obtain rfl := Except.ok.inj (hm.symm.trans hm')
    exact ha.aside hwhite hblack hrun ht haside
  · intro t hlater hexp us r' hus hwaits env req m hle hhigh hm asks hnames
    have hstart := run_turnStartTp h
    have hsame := run_sameTurn hus hseated hw hb hrun hwaits
    obtain ⟨late, hreq⟩ := ends_once_expired hsame.running (hsame.timing.trans ht) (hsame.expiredAt hexp)
      (hsame.turnStartTp ▸ hlater _ hstart) (hsame.turnStartTp ▸ hclock _ hstart) hle hhigh hm asks
      (hsame.turnUid ▸ hnames)
    refine ⟨_, _, hreq, rfl, ?_, ?_⟩
    · rw [← hsame.turnUid, ← hsame.opponentOf_eq]
      rfl
    · rw [← hsame.turnUid]
      rfl

/-- White takes a second for the second stone. -/
theorem clock_accounting_two : ∃ (ts : List RoomTrans) (r : Room), machine.Run (create 1 10 20 0) ts r ∧
    r.whiteTotalLeftMs = 599000 ∧ r.whiteTotalLeftMs + spent (thought ts) r.whiteId = totalInitMs := by
  obtain ⟨ts, r, h, hclock, hrun, ht, hleft⟩ := Machine.Run.exists_of_exec machine (create 1 10 20 0)
    [move 0 20 7 7, move 1000000000 10 7 8]
    (fun ts r => (∀ t ∈ readings 0 ts, Reading t) ∧ r.statu = .gameStart ∧ r.timingStarted = true ∧
      r.whiteTotalLeftMs = 599000) (by decide +kernel)
  exact ⟨ts, r, h, hleft, (clock_accounting h (by decide) (by decide) (by decide) hclock hrun ht).1.1⟩

end Runs
end Room
end FiveStones
