import Mathlib.Data.List.Chain
import FiveStones.Theorems.RoomInv

/-! The stones of a game in the order in which they were placed, against the board, the clocks and the
turn. -/

namespace FiveStones

def Chess.other : Chess → Chess
  | .white => .black
  | .black => .white

structure Stone where
  cell : Cell
  color : Chess
  deriving DecidableEq

/-- `History ts ms`: the steps `ts` placed the stones `ms`, oldest first, since the last rematch. A step
    that does not begin another game leaves the board as it is, or puts one stone on an empty place. -/
inductive History : List RoomTrans → List Stone → Prop
  | start : History [] []
  | rematch {ts : List RoomTrans} {ms : List Stone} {x : RoomTrans} :
      History ts ms → x.Restarts → History (ts ++ [x]) []
  | rest {ts : List RoomTrans} {ms : List Stone} {x : RoomTrans} :
      History ts ms → ¬x.Restarts → x.after.board = x.before.board → History (ts ++ [x]) ms
  | stone {ts : List RoomTrans} {ms : List Stone} {x : RoomTrans} (st : Stone) :
      History ts ms → ¬x.Restarts → x.before.board st.cell = none →
      x.after.board = x.before.board.set st.cell st.color → History (ts ++ [x]) (ms ++ [st])

namespace Board
variable {b : Board} {c c' : Cell} {color color' : Chess}

theorem set_ne_self (h : b c = none) : b.set c color ≠ b := by
  intro heq
  have := congrFun heq c
  simp [h] at this

theorem set_inj (h : b c = none) (h' : b c' = none) (heq : b.set c color = b.set c' color') :
    c = c' ∧ color = color' := by
  have hc := congrFun heq c
  by_cases hcc : c = c'
  · subst hcc
    simpa using hc
  · rw [set_self, set_ne hcc, h] at hc
    cases hc

end Board

theorem History.unique {ts : List RoomTrans} {ms ms' : List Stone} (h : History ts ms) (h' : History ts ms') :
    ms = ms' := by
  induction h generalizing ms' with
  | start =>
    generalize hts : [] = ts at h'
    cases h' with
    | start => rfl
    | rematch | rest | stone => simp at hts
  | @rematch ts ms x _ hre ih =>
    generalize hts : ts ++ [x] = ts' at h'
    cases h' with
    | start => simp at hts
    | rematch => rfl
    | rest _ hno | stone _ _ hno =>
      obtain ⟨-, rfl⟩ := List.append_singleton_inj.mp hts
      exact absurd hre hno
  | @rest ts ms x _ hno hboard ih =>
    generalize hts : ts ++ [x] = ts' at h'
    cases h' with
    | start => simp at hts
    | rematch _ hre =>
      obtain ⟨-, rfl⟩ := List.append_singleton_inj.mp hts
      exact absurd hre hno
    | rest h' =>
      obtain ⟨rfl, rfl⟩ := List.append_singleton_inj.mp hts
      exact ih h'
    | stone _ _ _ hfree hset =>
      obtain ⟨rfl, rfl⟩ := List.append_singleton_inj.mp hts
      exact absurd (hset.symm.trans hboard) (Board.set_ne_self hfree)
  | @stone ts ms x st _ hno hfree hset ih =>
    generalize hts : ts ++ [x] = ts' at h'
    cases h' with
    | start => simp at hts
    | rematch _ hre =>
      obtain ⟨-, rfl⟩ := List.append_singleton_inj.mp hts
      exact absurd hre hno
    | rest _ _ hboard =>
      obtain ⟨-, rfl⟩ := List.append_singleton_inj.mp hts
      exact absurd (hset.symm.trans hboard) (Board.set_ne_self hfree)
    | stone st' h' _ hfree' hset' =>
      obtain ⟨rfl, rfl⟩ := List.append_singleton_inj.mp hts
      obtain ⟨hcell, hcolor⟩ := Board.set_inj hfree hfree' (hset.symm.trans hset')
      rw [ih h', show st = st' by cases st; cases st'; simp_all]

/-! ### The joint invariant -/

/-- What the stones of a game say about the room. -/
structure Agrees (r : Room) (ms : List Stone) : Prop where
  board : ∀ c color, r.board c = some color ↔ ⟨c, color⟩ ∈ ms
  places : (ms.map Stone.cell).Nodup
  alternate : ms.IsChain fun st st' => st'.color = st.color.other
  timing : r.timingStarted = true ↔ ms ≠ []
  seat : r.turnUid = r.whiteId ∨ r.turnUid = r.blackId
  turn : r.statu = .gameStart → ∀ st ∈ ms.getLast?, r.turnUid = r.seatOf st.color.other

namespace Agrees
variable {env : Env} {r r' : Room} {m : Members} {ms : List Stone} {uid : Uid} {c : Cell} {color : Chess}

theorem of_eq (h : Agrees r ms) (hboard : r'.board = r.board) (htiming : r'.timingStarted = r.timingStarted)
    (hwhite : r'.whiteId = r.whiteId) (hblack : r'.blackId = r.blackId) (hturn : r'.turnUid = r.turnUid)
    (hrun : r'.statu = .gameStart → r.statu = .gameStart) : Agrees r' ms where
  board := hboard ▸ h.board
  places := h.places
  alternate := h.alternate
  timing := htiming ▸ h.timing
  seat := by
    rw [hturn, hwhite, hblack]
    exact h.seat
  turn hs st hst := by
    have := h.turn (hrun hs) st hst
    rw [hturn, this]
    cases st.color <;> simp only [Chess.other, Room.seatOf, hwhite, hblack]

theorem cell_fresh (h : Agrees r ms) (hfree : r.board c = none) : c ∉ ms.map Stone.cell := by
  intro hmem
  obtain ⟨st, hst, rfl⟩ := List.mem_map.mp hmem
  have := (h.board st.cell st.color).mpr hst
  rw [hfree] at this
  cases this

theorem snoc_board (h : Agrees r ms) (hfree : r.board c = none) (c' : Cell) (color' : Chess) :
    (r.board.set c color) c' = some color' ↔ (⟨c', color'⟩ : Stone) ∈ ms ++ [⟨c, color⟩] := by
  by_cases hc : c' = c
  · subst hc
    have hfresh : (⟨c', color'⟩ : Stone) ∉ ms := fun hmem => h.cell_fresh hfree (List.mem_map_of_mem hmem)
    simp [hfresh, eq_comm]
  · simp [Board.set_ne hc, h.board, hc]

theorem snoc_places (h : Agrees r ms) (hfree : r.board c = none) :
    ((ms ++ [Stone.mk c color]).map Stone.cell).Nodup := by
  rw [List.map_append, List.nodup_append]
  refine ⟨h.places, by simp, ?_⟩
  intro c₁ h₁ c₂ h₂
  obtain rfl : c₂ = c := by simpa using h₂
  exact fun heq => h.cell_fresh hfree (heq ▸ h₁)

/-- Once the clocks run, the player to move has the colour that the last stone has not. -/
theorem snoc_alternate (h : Agrees r ms) (hne : r.whiteId ≠ r.blackId) (places : r.Places env m uid c color) :
    (ms ++ [Stone.mk c color]).IsChain fun st st' => st'.color = st.color.other := by
  refine List.isChain_append.mpr ⟨h.alternate, List.isChain_singleton _, fun st hst st' hst' => ?_⟩
  obtain rfl : (⟨c, color⟩ : Stone) = st' := by simpa using hst'
  have htiming := h.timing.mpr (List.ne_nil_of_mem (List.mem_of_getLast? hst))
  have huid : uid = r.seatOf st.color.other := (places.turn htiming).trans (h.turn places.running st hst)
  simp only [places.color_eq, huid]
  cases st.color with
  | white => simp [Chess.other, Room.seatOf, hne.symm]
  | black => simp [Chess.other, Room.seatOf]

/-- With an empty board no stone wins: the clocks have started when a stone ends the game. -/
theorem ne_nil_of_five (h : Agrees r ms) (hfive : (r.board.set c color).FiveInRow color) : ms ≠ [] := by
  rintro rfl
  have hempty : ∀ c', r.board c' = none := fun c' => by
    cases hc : r.board c' with
    | none => rfl
    | some color' => exact absurd ((h.board c' color').mp hc) (List.not_mem_nil)
  obtain ⟨row, col, d, hd, hall⟩ := hfive
  have hat : ∀ i : Nat, i < 5 → row + i * d.1 = c.row ∧ col + i * d.2 = c.col := fun i hi => by
    obtain ⟨c', hrow, hcol, hc'⟩ := Board.at?_eq_some.mp (hall i hi)
    by_cases hcc : c' = c
    · exact hcc ▸ ⟨hrow, hcol⟩
    · rw [Board.set_ne hcc, hempty] at hc'
      cases hc'
  have h0 := hat 0 (by decide)
  have h1 := hat 1 (by decide)
  simp only [Board.directions, List.mem_cons, List.not_mem_nil, or_false] at hd
  rcases hd with rfl | rfl | rfl | rfl <;> simp at h0 h1 <;> omega

theorem opponentOf_color (places : r.Places env m uid c color) :
    r.opponentOf uid = r.seatOf color.other := by
  rw [places.color_eq]
  unfold Room.opponentOf
  split <;> rfl

theorem create (w b : Uid) (roomId : Nat) (now : Int) : Agrees (Room.create roomId w b now) [] where
  board c color := by simp [Room.create, Room.addBlackUser, Room.addWhiteUser, Room.new, Board.empty]
  places := List.nodup_nil
  alternate := List.isChain_nil
  timing := by simp [Room.create, Room.addBlackUser, Room.addWhiteUser, Room.new]
  seat := Or.inr rfl
  turn _ st hst := by cases hst

end Agrees

namespace Room
variable {env : Env} {r r' : Room} {m : Members} {ms : List Stone} {w b : Uid} {out : List Call} {e : RoomEvent}
  {ts : List RoomTrans}

/-- A request adds its stone to the history, if it places one, and begins a new one with a rematch. -/
theorem RequestStep.history (hs : RequestStep env r m r' out) (e : RoomEvent) (hne : r.whiteId ≠ r.blackId)
    (hist : History ts ms) (h : Agrees r ms) :
    ∃ ms', History (ts ++ [⟨r, e, r', out⟩]) ms' ∧ Agrees r' ms' := by
  cases hs with
  | idle => exact ⟨ms, hist.rest (fun hre => absurd_statu hre.2 hre.1) rfl, h⟩
  | timeUp | walkover | claimed =>
    exact ⟨ms, hist.rest (fun hre => by cases hre.2) rfl, h.of_eq rfl rfl rfl rfl rfl (fun hrun => by cases hrun)⟩
  | invite _ _ hover =>
    exact ⟨ms, hist.rest (fun hre => absurd_statu hre.2 hover) rfl,
      h.of_eq rfl rfl rfl rfl rfl id⟩
  | accept _ _ hover =>
    exact ⟨[], hist.rematch ⟨hover, rfl⟩, {
      board := fun c color => by simp [startRematch, Board.empty]
      places := List.nodup_nil
      alternate := List.isChain_nil
      timing := by simp [startRematch]
      seat := Or.inr rfl
      turn := fun _ st hst => by cases hst }⟩
  | @placed uid c color _ places =>
    refine ⟨ms ++ [⟨c, color⟩], hist.stone ⟨c, color⟩ ?_ places.free (passTurn_board _), ?_⟩
    · exact fun hre => absurd_statu places.running hre.1
    · exact {
        board := fun c' color' => by
          rw [passTurn_board]
          exact h.snoc_board places.free c' color'
        places := h.snoc_places places.free
        alternate := h.snoc_alternate hne places
        timing := by simp
        seat := by
          simp only [passTurn_turnUid, passTurn_whiteId, passTurn_blackId]
          exact opponentOf_eq _
        turn := fun _ st hst => by
          obtain rfl : (⟨c, color⟩ : Stone) = st := by simpa using hst
          rw [passTurn_turnUid]
          have hturn := Agrees.opponentOf_color places
          cases color <;> simpa [Chess.other, seatOf, opponentOf] using hturn }
  | @won uid winner c color _ places hwin hzero =>
    have hfive : (r.board.set c color).FiveInRow color := by
      rw [← hwin] at hzero
      exact fiveInRow_of_checkWin hzero
    refine ⟨ms ++ [⟨c, color⟩], hist.stone ⟨c, color⟩ (fun hre => by cases hre.2) places.free rfl, ?_⟩
    exact {
      board := h.snoc_board places.free
      places := h.snoc_places places.free
      alternate := h.snoc_alternate hne places
      timing := by simpa [h.timing] using h.ne_nil_of_five hfive
      seat := h.seat
      turn := fun hrun => by cases hrun }

theorem step_history (hseated : Seated w b r) (hw : w ≠ 0) (hb : b ≠ 0) (hne : w ≠ b) (hist : History ts ms)
    (h : Agrees r ms) (hs : machine.step r e = some (r', out)) :
    ∃ ms', History (ts ++ [⟨r, e, r', out⟩]) ms' ∧ Agrees r' ms' := by
  rcases step_cases (hseated.white_ne_zero hw hb) (hseated.black_ne_zero hw hb) hs with
    ⟨env, req, m, rfl, -, hreq⟩ | ⟨uid, rfl, rfl, rfl⟩
  · exact hreq.history _ (hseated.seats_ne hne) hist h
  · refine ⟨ms, hist.rest (fun hre => ?_) (by rw [handleExit_fst]), ?_⟩
    · have hrun := hre.2
      rw [handleExit_fst] at hrun
      cases hrun
    · rw [handleExit_fst]
      exact h.of_eq rfl rfl rfl rfl rfl fun hrun => by cases hrun

section Runs
variable {roomId : Nat} {now : Int}

theorem run_history (h : machine.Run (create roomId w b now) ts r) (hw : w ≠ 0) (hb : b ≠ 0) (hne : w ≠ b) :
    ∃ ms, History ts ms ∧ Agrees r ms := by
  induction h with
  | nil => exact ⟨[], .start, .create w b roomId now⟩
  | snoc h hs ih =>
    obtain ⟨ms, hist, hagrees⟩ := ih
    exact step_history (run_seated h hw hb) hw hb hne hist hagrees hs

/-- The stones placed since the room was created, or last reset by a rematch, are the board, each on a place
    of its own, in alternating colours; the clocks run from the first one on; and a player of the room is to
    move, in a running game the one whose colour the last stone has not. -/
theorem board_history (h : machine.Run (create roomId w b now) ts r) (hw : w ≠ 0) (hb : b ≠ 0) (hne : w ≠ b) :
    ∃ ms, (∀ ms', History ts ms' ↔ ms' = ms) ∧
      (∀ c color, r.board c = some color ↔ ⟨c, color⟩ ∈ ms) ∧
      (ms.map Stone.cell).Nodup ∧
      (ms.IsChain fun st st' => st'.color = st.color.other) ∧
      (r.timingStarted = true ↔ ms ≠ []) ∧
      (r.turnUid = r.whiteId ∨ r.turnUid = r.blackId) ∧
      (r.statu = .gameStart → ∀ st ∈ ms.getLast?, r.turnUid = r.seatOf st.color.other) := by
  obtain ⟨ms, hist, hagrees⟩ := run_history h hw hb hne
  exact ⟨ms, fun ms' => ⟨fun hist' => hist'.unique hist, fun heq => heq ▸ hist⟩, hagrees.board, hagrees.places,
    hagrees.alternate, hagrees.timing, hagrees.seat, hagrees.turn⟩

theorem board_history_two : ∃ (ts : List RoomTrans) (r : Room), machine.Run (create 1 10 20 0) ts r ∧
    r.statu = .gameStart ∧ r.board ⟨7, 8⟩ = some .white ∧ ∃ ms, (∀ ms', History ts ms' ↔ ms' = ms) ∧
      (∀ c color, r.board c = some color ↔ ⟨c, color⟩ ∈ ms) ∧ (r.timingStarted = true ↔ ms ≠ []) := by
  obtain ⟨ts, r, h, hrun, hstone⟩ := Machine.Run.exists_of_exec machine (create 1 10 20 0)
    [move 0 20 7 7, move 0 10 7 8] (fun _ r => r.statu = .gameStart ∧ r.board ⟨7, 8⟩ = some .white) (by decide +kernel)
  obtain ⟨ms, hist, hboard, -, -, htiming, -⟩ := board_history h (by decide) (by decide) (by decide)
  exact ⟨ts, r, h, hrun, hstone, ms, hist, hboard, htiming⟩

end Runs
end Room
end FiveStones
