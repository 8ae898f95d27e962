import FiveStones.Theorems.RoomStep
import FiveStones.Theorems.Line

/-! Invariants of a room with two seats: who holds the seats, whose turn it is, and that a running game
    has no five in a row. -/

namespace FiveStones
namespace Room
variable {env : Env} {r r' : Room} {m : Members} {uid : Uid} {out : List Call} {e : RoomEvent} {w b : Uid}

/-! ### What the updates leave as it is -/

/-- Passing the turn writes the clocks and the turn, and nothing else. -/
theorem passTurn_eq (ms : Nat) : r.passTurn env uid ms =
    { r with
      timingStarted := true
      turnUid := r.opponentOf uid
      turnStartTp := env.later
      whiteTotalLeftMs := (r.passTurn env uid ms).whiteTotalLeftMs
      blackTotalLeftMs := (r.passTurn env uid ms).blackTotalLeftMs } := by
  cases ht : r.timingStarted
  · simp [passTurn, ht]
  · by_cases hturn : r.turnUid = r.whiteId <;> simp [passTurn, ht, hturn]

@[simp] theorem passTurn_whiteId (ms : Nat) : (r.passTurn env uid ms).whiteId = r.whiteId := by rw [passTurn_eq]

@[simp] theorem passTurn_blackId (ms : Nat) : (r.passTurn env uid ms).blackId = r.blackId := by rw [passTurn_eq]

@[simp] theorem passTurn_board (ms : Nat) : (r.passTurn env uid ms).board = r.board := by rw [passTurn_eq]

@[simp] theorem passTurn_statu (ms : Nat) : (r.passTurn env uid ms).statu = r.statu := by rw [passTurn_eq]

@[simp] theorem passTurn_turnUid (ms : Nat) : (r.passTurn env uid ms).turnUid = r.opponentOf uid := by rw [passTurn_eq]

@[simp] theorem passTurn_timingStarted (ms : Nat) : (r.passTurn env uid ms).timingStarted = true := by rw [passTurn_eq]

/-- An exit ends a running game, and otherwise only counts the player out. -/
theorem handleExit_fst (r : Room) (uid : Uid) : (r.handleExit uid).1 =
    { r with statu := .gameOver, playerCount := if r.playerCount > 0 then r.playerCount - 1 else r.playerCount } := by
  cases hs : r.statu <;> simp only [handleExit, hs]

theorem opponentOf_eq (uid : Uid) : r.opponentOf uid = r.whiteId ∨ r.opponentOf uid = r.blackId := by
  unfold opponentOf
  split
  · exact Or.inr rfl
  · exact Or.inl rfl

theorem step_of_ok {req : Json} (h : r.handleRequest env req = .ok (r', out)) :
    machine.step r (.request env req) = some (r', out) := by
  simp only [machine, h, Except.toOption]

theorem step_answer (h : machine.step r e = some (r', out)) :
    (∃ env req m, e = .request env req ∧ req.members = .ok m ∧ Answer env r m r' out) ∨
      ∃ uid, e = .exit uid ∧ r' = (r.handleExit uid).1 ∧ out = (r.handleExit uid).2 := by
  cases e with
  | request env req =>
    obtain ⟨m, hm, hanswer⟩ := handleRequest_answer (ok_of_toOption h)
    exact Or.inl ⟨env, req, m, rfl, hm, hanswer⟩
  | exit uid =>
    have hexit := Option.some.inj h
    exact Or.inr ⟨uid, rfl, by rw [hexit], by rw [hexit]⟩

theorem step_cases (hw : r.whiteId ≠ 0) (hb : r.blackId ≠ 0) (h : machine.step r e = some (r', out)) :
    (∃ env req m, e = .request env req ∧ req.members = .ok m ∧ RequestStep env r m r' out) ∨
      ∃ uid, e = .exit uid ∧ r' = (r.handleExit uid).1 ∧ out = (r.handleExit uid).2 := by
  rcases step_answer h with ⟨env, req, m, he, hm, hanswer⟩ | hexit
  · rcases hanswer.requestStep with hstep | ⟨hdrifts, -⟩
    · exact Or.inl ⟨env, req, m, he, hm, hstep⟩
    · exact (hdrifts.absurd_of_seats hw hb).elim
  · exact Or.inr hexit

/-! ### Seats and turn -/

/-- The seats are held by `w` and `b`, and it is the turn of one of them. -/
structure Seated (w b : Uid) (r : Room) : Prop where
  seats : (r.whiteId = w ∧ r.blackId = b) ∨ (r.whiteId = b ∧ r.blackId = w)
  turn : r.turnUid = r.whiteId ∨ r.turnUid = r.blackId

theorem seated_create (roomId : Nat) (now : Int) : Seated w b (create roomId w b now) :=
  ⟨Or.inl ⟨rfl, rfl⟩, Or.inr rfl⟩

namespace Seated

theorem white_ne_zero (h : Seated w b r) (hw : w ≠ 0) (hb : b ≠ 0) : r.whiteId ≠ 0 := by
  rcases h.seats with ⟨h1, -⟩ | ⟨h1, -⟩ <;> rw [h1] <;> assumption

theorem black_ne_zero (h : Seated w b r) (hw : w ≠ 0) (hb : b ≠ 0) : r.blackId ≠ 0 := by
  rcases h.seats with ⟨-, h1⟩ | ⟨-, h1⟩ <;> rw [h1] <;> assumption

theorem seats_ne (h : Seated w b r) (hne : w ≠ b) : r.whiteId ≠ r.blackId := by
  rcases h.seats with ⟨h1, h2⟩ | ⟨h1, h2⟩ <;> rw [h1, h2]
  · exact hne
  · exact hne.symm

theorem of_eq (h : Seated w b r) (hwhite : r'.whiteId = r.whiteId) (hblack : r'.blackId = r.blackId)
    (hturn : r'.turnUid = r.turnUid) : Seated w b r' := by
  refine ⟨?_, ?_⟩
  · rw [hwhite, hblack]
    exact h.seats
  · rw [hturn, hwhite, hblack]
    exact h.turn

theorem requestStep (h : Seated w b r) (hs : RequestStep env r m r' out) : Seated w b r' := by
  cases hs with
  | idle => exact h
  | timeUp | walkover | claimed | won | invite => exact h.of_eq rfl rfl rfl
  | placed =>
    refine ⟨by simpa using h.seats, ?_⟩
    simp only [passTurn_turnUid, passTurn_whiteId, passTurn_blackId]
    exact opponentOf_eq _
  | accept =>
    -- The seats are swapped, and the new black moves first.
    exact ⟨h.seats.symm.imp And.symm And.symm, Or.inr rfl⟩

theorem step (h : Seated w b r) (hw : w ≠ 0) (hb : b ≠ 0) (hs : machine.step r e = some (r', out)) :
    Seated w b r' := by
  rcases step_cases (h.white_ne_zero hw hb) (h.black_ne_zero hw hb) hs with ⟨env, req, m, -, -, hreq⟩ | ⟨uid, -, rfl, -⟩
  · exact h.requestStep hreq
  · rw [handleExit_fst]
    exact h.of_eq rfl rfl rfl

end Seated

/-! ### No five in a row while the game runs -/

def seatOf (r : Room) : Chess → Uid
  | .white => r.whiteId
  | .black => r.blackId

theorem seatOf_ne_zero (hw : r.whiteId ≠ 0) (hb : r.blackId ≠ 0) (color : Chess) : r.seatOf color ≠ 0 := by
  cases color <;> assumption

theorem checkWin_eq (c : Cell) (color : Chess) : r.checkWin c.row c.col color =
    if ∃ d ∈ Board.directions, r.board.five c.row c.col d.1 d.2 color = true then r.seatOf color else 0 := by
  simp only [checkWin, Board.four_fives_iff]
  cases color <;> rfl

theorem checkWin_eq_seatOf {c : Cell} {color : Chess} (h : r.checkWin c.row c.col color ≠ 0) :
    r.checkWin c.row c.col color = r.seatOf color := by
  rw [checkWin_eq] at h ⊢
  split at h
  · rename_i hfive
    rw [if_pos hfive]
  · exact absurd rfl h

theorem fiveInRow_of_checkWin {c : Cell} {color : Chess} (h : (r.withStone c color).checkWin c.row c.col color ≠ 0) :
    (r.board.set c color).FiveInRow color := by
  rw [checkWin_eq] at h
  split at h
  · rename_i hfive
    obtain ⟨d, hd, hfive⟩ := hfive
    exact Board.fiveInRow_of_five Board.set_self hd hfive
  · exact absurd rfl h

/-- On a board without a five of a colour, the four lines through a new stone of it tell whether the whole
    board has one. -/
theorem checkWin_withStone {c : Cell} {color : Chess} (hw : r.whiteId ≠ 0) (hb : r.blackId ≠ 0)
    (hno : ¬r.board.FiveInRow color) :
    (r.withStone c color).checkWin c.row c.col color ≠ 0 ↔ (r.board.set c color).FiveInRow color := by
  refine ⟨fiveInRow_of_checkWin, fun h => ?_⟩
  rw [checkWin_eq, if_pos (Board.five_of_set hno h)]
  exact seatOf_ne_zero hw hb color

def NoFive (r : Room) : Prop := r.statu = .gameStart → ∀ color, ¬r.board.FiveInRow color

theorem not_fiveInRow_empty (color : Chess) : ¬Board.empty.FiveInRow color := by
  rintro ⟨row, col, d, -, hall⟩
  obtain ⟨c, -, -, hc⟩ := Board.at?_eq_some.mp (hall 0 (by decide))
  cases hc

theorem NoFive.requestStep (h : NoFive r) (hw : r.whiteId ≠ 0) (hb : r.blackId ≠ 0)
    (hs : RequestStep env r m r' out) : NoFive r' := by
  cases hs with
  | idle => exact h
  | timeUp | walkover | claimed | won => intro hrun; cases hrun
  | invite _ _ hover => exact fun hrun => h hrun
  | @placed uid c color _ places hwin =>
    intro _ color'
    simp only [passTurn_board]
    by_cases hcolor : color' = color
    · subst hcolor
      exact fun hfive => (checkWin_withStone hw hb (h places.running color')).mpr hfive hwin
    · exact fun hfive => h places.running color' (Board.fiveInRow_of_set_ne hcolor hfive)
  | accept => exact fun _ => not_fiveInRow_empty

theorem NoFive.step (h : NoFive r) (hw : r.whiteId ≠ 0) (hb : r.blackId ≠ 0)
    (hs : machine.step r e = some (r', out)) : NoFive r' := by
  rcases step_cases hw hb hs with ⟨env, req, m, -, -, hreq⟩ | ⟨uid, -, rfl, -⟩
  · exact h.requestStep hw hb hreq
  · rw [handleExit_fst]
    intro hrun
    cases hrun

/-! ### Runs -/

section Runs
variable {roomId : Nat} {now : Int} {ts : List RoomTrans}

theorem run_seated (h : machine.Run (create roomId w b now) ts r) (hw : w ≠ 0) (hb : b ≠ 0) : Seated w b r :=
  h.invariant (seated_create roomId now) fun hi hs => hi.step hw hb hs

theorem run_noFive (h : machine.Run (create roomId w b now) ts r) (hw : w ≠ 0) (hb : b ≠ 0) : NoFive r := by
  refine (h.invariant (I := fun r => Seated w b r ∧ NoFive r) ⟨seated_create roomId now, fun _ => not_fiveInRow_empty⟩
    fun hi hs => ?_).2
  exact ⟨hi.1.step hw hb hs, hi.2.step (hi.1.white_ne_zero hw hb) (hi.1.black_ne_zero hw hb) hs⟩

/-- While a game runs nobody has five in a row, anywhere on the board, and looking along the four lines
    through the next stone is as good as looking at the whole board. -/
theorem no_five_while_running (h : machine.Run (create roomId w b now) ts r) (hw : w ≠ 0) (hb : b ≠ 0)
    (hrun : r.statu = .gameStart) :
    (∀ color, ¬r.board.FiveInRow color) ∧
      ∀ c color, (r.withStone c color).checkWin c.row c.col color ≠ 0 ↔
        ∃ color', (r.withStone c color).board.FiveInRow color' := by
  have hno := run_noFive h hw hb hrun
  have hseated := run_seated h hw hb
  refine ⟨hno, fun c color => ?_⟩
  rw [checkWin_withStone (hseated.white_ne_zero hw hb) (hseated.black_ne_zero hw hb) (hno color)]
  constructor
  · exact fun hfive => ⟨color, hfive⟩
  · rintro ⟨color', hfive⟩
    by_cases hcolor : color' = color
    · exact hcolor ▸ hfive
    · exact absurd (Board.fiveInRow_of_set_ne hcolor hfive) (hno color')

theorem no_five_after_two : ∃ ts r, machine.Run (create 1 10 20 0) ts r ∧ r.board ⟨7, 8⟩ = some .white ∧
    (∀ color, ¬r.board.FiveInRow color) ∧
      ∀ c color, (r.withStone c color).checkWin c.row c.col color ≠ 0 ↔
        ∃ color', (r.withStone c color).board.FiveInRow color' := by
  obtain ⟨ts, r, h, hrun, hstone⟩ := Machine.Run.exists_of_exec machine (create 1 10 20 0)
    [move 0 20 7 7, move 0 10 7 8] (fun _ r => r.statu = .gameStart ∧ r.board ⟨7, 8⟩ = some .white) (by decide +kernel)
  exact ⟨ts, r, h, hstone, no_five_while_running h (by decide) (by decide) hrun⟩

end Runs
end Room
end FiveStones
