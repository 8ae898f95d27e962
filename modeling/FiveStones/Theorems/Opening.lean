import Mathlib.Data.Fintype.Prod
import FiveStones.RoomManager
import FiveStones.Theorems.Settlement
import FiveStones.Theorems.History

/-! Who puts the stones on the board, the first one of a game included. -/

namespace FiveStones

instance : Fintype Cell :=
  Fintype.ofEquiv (Fin boardRow × Fin boardCol) ⟨fun p => ⟨p.1, p.2⟩, fun c => (c.row, c.col), fun _ => rfl, fun _ => rfl⟩

namespace Board
variable {b : Board} {c : Cell} {color color' : Chess}

/-- The places with a stone of `color`. -/
def stones (b : Board) (color : Chess) : Finset Cell := Finset.univ.filter fun c => b c = some color

theorem mem_stones : c ∈ b.stones color ↔ b c = some color := by simp [stones]

theorem stones_set_self : (b.set c color).stones color = insert c (b.stones color) := by
  ext c'
  by_cases hc : c' = c
  · simp [mem_stones, hc]
  · simp [mem_stones, hc, set_ne hc]

theorem stones_set_ne (hfree : b c = none) (hne : color' ≠ color) : (b.set c color).stones color' = b.stones color' := by
  ext c'
  by_cases hc : c' = c
  · simp [mem_stones, hc, hfree, hne.symm]
  · simp [mem_stones, set_ne hc]

theorem card_stones_set (hfree : b c = none) : ((b.set c color).stones color).card = (b.stones color).card + 1 := by
  rw [stones_set_self, Finset.card_insert_of_notMem]
  rw [mem_stones, hfree]
  exact fun h => by cases h

@[simp] theorem stones_empty (color : Chess) : empty.stones color = ∅ := by
  simp [stones, empty]

end Board

namespace RoomTrans

/-- A `put_chess` of `uid` that puts a stone on a free place. -/
def PutsStone (x : RoomTrans) (uid : Uid) (c : Cell) (color : Chess) : Prop :=
  ∃ env req m, x.event = .request env req ∧ req.members = .ok m ∧ x.before.Asks m "put_chess" ∧
    (m.get "uid").asUInt64 = .ok uid ∧ x.before.board c = none ∧ x.after.board = x.before.board.set c color

/-- A stone is about to be placed before the clocks run, and not by the player to move. -/
def OpensOutOfTurn (x : RoomTrans) : Prop :=
  ∃ env req m uid c color, x.event = .request env req ∧ req.members = .ok m ∧ x.before.Places env m uid c color ∧
    x.before.timingStarted = false ∧ uid ≠ x.before.turnUid

end RoomTrans

namespace Room
variable {env : Env} {r r' : Room} {m : Members} {req : Json} {uid w b : Uid} {c : Cell} {color : Chess} {out : List Call}
  {e : RoomEvent}

/-! ### The message of a move -/

theorem putChessMsg_names {roomId : Nat} {row col : Int} :
    ((putChessMsg roomId uid row col).get "uid").asUInt64 = .ok uid := Json.asUInt64_uint uid

theorem putChessMsg_asks {row col : Int} (hid : r.roomId < 2 ^ 64) :
    Asks r (putChessMsg r.roomId uid row col) "put_chess" where
  room := by
    have hint : (r.roomId : Int) < 2 ^ 64 := by exact_mod_cast hid
    refine ⟨.ofNat r.roomId, ?_, UInt64.toNat_ofNat_of_lt' hid⟩
    change (Json.int r.roomId).asUInt64 = _
    simp only [Json.asUInt64, Int.natCast_nonneg, hint, and_self, ↓reduceIte, Int.toNat_natCast]
  optype := rfl

/-! ### Stones -/

/-- What puts a stone has met the tests of `put_chess` and of `handle_chess`. -/
theorem places_of_putsStone (hs : machine.step r e = some (r', out))
    (h : RoomTrans.PutsStone ⟨r, e, r', out⟩ uid c color) :
    ∃ env req m, e = .request env req ∧ req.members = .ok m ∧ r.Places env m uid c color := by
  obtain ⟨env, req, m, he, hm, asks, hnames, hfree, hset⟩ := h
  simp only at he asks hfree hset
  subst he
  refine ⟨env, req, m, rfl, hm, ?_⟩
  rcases step_answer hs with ⟨env', req', m', he', hm', ha⟩ | ⟨uid', he', -, -⟩
  · obtain ⟨rfl, rfl⟩ := RoomEvent.request.inj he'
    obtain rfl := Except.ok.inj (hm.symm.trans hm')
    have moves : r'.board ≠ r.board := hset ▸ Board.set_ne_self hfree
    have same : ∀ {uid' c' color'}, r.Places env m uid' c' color' → r'.board = r.board.set c' color' →
        r.Places env m uid c color := fun places hboard => by
      obtain ⟨rfl, rfl⟩ := Board.set_inj hfree places.free (hset.symm.trans hboard)
      obtain rfl := Except.ok.inj (hnames.symm.trans places.names)
      exact places
    cases ha with
    | refused | chatted | timeUp | walkover | claimed | invite => exact absurd rfl moves
    | drifted => exact absurd (passTurn_board _) moves
    | placed places => exact same places (passTurn_board _)
    | won places => exact same places rfl
    | accept asks' => exact absurd (asks.unique asks') (by decide)
  · cases he'

/-! ### The balance of the colours -/

/-- While a game runs, black has as many stones as white when it is black's turn, and one more when it is
    white's. -/
def Balanced (r : Room) : Prop := r.statu = .gameStart →
  (r.turnUid = r.blackId ∧ (r.board.stones .black).card = (r.board.stones .white).card) ∨
    (r.turnUid = r.whiteId ∧ (r.board.stones .black).card = (r.board.stones .white).card + 1)

theorem Balanced.of_over (hover : r.statu = .gameOver) : Balanced r := fun hrun => by
  rw [hover] at hrun
  cases hrun

theorem balanced_create (roomId : Nat) (now : Int) : Balanced (create roomId w b now) := fun _ =>
  Or.inl ⟨rfl, by simp [create, addBlackUser, addWhiteUser, new]⟩

/-- Without a stone on the board it is black's turn. -/
theorem Balanced.black_first (h : Balanced r) (hrun : r.statu = .gameStart) (hempty : r.board = Board.empty) :
    r.turnUid = r.blackId := by
  rcases h hrun with ⟨hturn, -⟩ | ⟨-, hcount⟩
  · exact hturn
  · simp [hempty] at hcount

/-- A stone of the player to move keeps the balance. -/
theorem Balanced.placed (h : Balanced r) (hne : r.whiteId ≠ r.blackId) (places : r.Places env m uid c color)
    (hturn : uid = r.turnUid) : Balanced ((r.withStone c color).passTurn env uid (r.thinkingMs env)) := by
  intro _
  have hfree := places.free
  simp only [passTurn_turnUid, passTurn_whiteId, passTurn_blackId, passTurn_board]
  rcases h places.running with ⟨hblack, hcount⟩ | ⟨hwhite, hcount⟩
  · have huid : uid = r.blackId := hturn.trans hblack
    obtain rfl : color = .black := by rw [places.color_eq, huid, if_neg hne.symm]
    refine Or.inr ⟨huid ▸ opponentOf_black hne, ?_⟩
    rw [Board.card_stones_set hfree, Board.stones_set_ne hfree (by decide), hcount]
  · have huid : uid = r.whiteId := hturn.trans hwhite
    obtain rfl : color = .white := by rw [places.color_eq, if_pos huid]
    refine Or.inl ⟨huid ▸ opponentOf_white, ?_⟩
    rw [Board.card_stones_set hfree, Board.stones_set_ne hfree (by decide), hcount]

theorem Places.in_turn {x : RoomTrans} (places : x.before.Places env m uid c color) (he : x.event = .request env req)
    (hm : req.members = .ok m) (hx : ¬x.OpensOutOfTurn) : uid = x.before.turnUid := by
  cases htiming : x.before.timingStarted with
  | true => exact places.turn htiming
  | false =>
    by_contra hne
    exact hx ⟨env, req, m, uid, c, color, he, hm, places, htiming, hne⟩

theorem Balanced.step (h : Balanced r) (hseated : Seated w b r) (hw : w ≠ 0) (hb : b ≠ 0) (hne : w ≠ b)
    (hs : machine.step r e = some (r', out)) (hx : ¬RoomTrans.OpensOutOfTurn ⟨r, e, r', out⟩) : Balanced r' := by
  have hseats := hseated.seats_ne hne
  rcases step_cases (hseated.white_ne_zero hw hb) (hseated.black_ne_zero hw hb) hs with
    ⟨env, req, m, rfl, hm, hreq⟩ | ⟨uid, -, rfl, -⟩
  · cases hreq with
    | idle => exact h
    | timeUp | walkover | claimed | won => exact .of_over rfl
    | invite _ _ hover => exact .of_over hover
    | placed places =>
      exact h.placed hseats places (places.in_turn (x := ⟨r, .request env req, _, _⟩) rfl hm hx)
    | accept => exact fun _ => Or.inl ⟨rfl, by simp [startRematch]⟩
  · exact .of_over (by rw [handleExit_fst])

/-! ### Runs -/

section Runs
variable {roomId : Nat} {now : Int} {ts : List RoomTrans}

theorem run_balanced (h : machine.Run (create roomId w b now) ts r) (hw : w ≠ 0) (hb : b ≠ 0) (hne : w ≠ b)
    (hopens : ∀ x ∈ ts, ¬x.OpensOutOfTurn) : Seated w b r ∧ Balanced r :=
  h.invariant_of (I := fun r => Seated w b r ∧ Balanced r) (C := fun x => ¬RoomTrans.OpensOutOfTurn x)
    ⟨seated_create roomId now, balanced_create roomId now⟩ hopens
    fun hi hs hx => ⟨hi.1.step hw hb hs, hi.2.step hi.1 hw hb hne hs hx⟩

/-- As long as nobody opens a game out of turn, the player to move puts every stone, black puts the first one of
    each game, and a running game has as many black stones as white ones, or one more. -/
theorem black_opens (h : machine.Run (create roomId w b now) ts r) (hw : w ≠ 0) (hb : b ≠ 0) (hne : w ≠ b)
    (hopens : ∀ x ∈ ts, ¬x.OpensOutOfTurn) :
    (∀ x ∈ ts, ∀ uid c color, x.PutsStone uid c color → uid = x.before.turnUid ∧ x.before.Seats uid ∧
        (x.before.board = Board.empty → color = .black ∧ uid = x.before.blackId)) ∧
      (r.statu = .gameStart → (r.board.stones .black).card = (r.board.stones .white).card ∨
        (r.board.stones .black).card = (r.board.stones .white).card + 1) := by
  constructor
  · intro x hx uid c color hputs
    obtain ⟨us, vs, rfl, hus, hs⟩ := h.split_mem hx
    obtain ⟨hseated, hbalanced⟩ := run_balanced hus hw hb hne fun y hy => hopens y (List.mem_append_left _ hy)
    obtain ⟨env, req, m, he, hm, places⟩ := places_of_putsStone hs hputs
    have hturn := places.in_turn he hm (hopens x hx)
    refine ⟨hturn, hturn ▸ hseated.turn, fun hempty => ?_⟩
    have hblack := hturn.trans (hbalanced.black_first places.running hempty)
    rw [places.color_eq, if_neg fun hwhite => hseated.seats_ne hne (hwhite.symm.trans hblack)]
    exact ⟨rfl, hblack⟩
  · intro hrun
    exact ((run_balanced h hw hb hne hopens).2 hrun).imp And.right And.right

/-- The same for a game that black opens. -/
theorem black_opens_once : ∃ (ts : List RoomTrans) (r : Room), machine.Run (create 1 10 20 0) ts r ∧
    r.statu = .gameStart ∧ r.board ⟨7, 7⟩ = some .black ∧
    ((r.board.stones .black).card = (r.board.stones .white).card ∨
      (r.board.stones .black).card = (r.board.stones .white).card + 1) := by
  obtain ⟨ts, r, h, hevents, hturn, hrun, hstone⟩ := Machine.Run.exists_of_exec_events machine (create 1 10 20 0)
    [move 0 20 7 7] (fun ts r => (∀ x ∈ ts, x.before.turnUid = 20) ∧ r.statu = .gameStart ∧ r.board ⟨7, 7⟩ = some .black)
    (by decide +kernel)
  refine ⟨ts, r, h, hrun, hstone, (black_opens h (by decide) (by decide) (by decide) fun x hx hopens => ?_).2 hrun⟩
  obtain ⟨env, req, m, uid, c, color, he, hm, places, -, hne⟩ := hopens
  have hmem := List.mem_map_of_mem (f := Machine.Trans.event) hx
  rw [hevents, List.mem_singleton, he] at hmem
  obtain ⟨rfl, rfl⟩ := RoomEvent.request.inj hmem
  obtain rfl := Except.ok.inj hm
  have hnames := places.names.symm.trans putChessMsg_names
  exact hne ((Except.ok.inj hnames).trans (hturn x hx).symm)

/-- White opens the game: the turn is not looked at before the first stone. -/
theorem white_opens : ¬∀ roomId w b now (ts : List RoomTrans) r, w ≠ 0 → b ≠ 0 → w ≠ b →
    machine.Run (create roomId w b now) ts r →
    ∀ x ∈ ts, ∀ uid c color, x.PutsStone uid c color → uid = x.before.turnUid := by
  intro hall
  obtain ⟨us, x, h, he, hid, hfree, hset, hturn⟩ := Machine.Run.exists_step_of_exec machine (create 1 10 20 0) []
    (move 0 10 7 7) (fun _ x => x.before.roomId = 1 ∧ x.before.board ⟨7, 7⟩ = none ∧
      x.after.board = x.before.board.set ⟨7, 7⟩ .white ∧ x.before.turnUid = 20) (by decide +kernel)
  have hnames := hall 1 10 20 0 _ _ (by decide) (by decide) (by decide) h x (List.mem_append_right _ (List.mem_singleton_self _))
    10 ⟨7, 7⟩ .white ⟨_, _, _, he, rfl, hid ▸ putChessMsg_asks (by rw [hid]; decide), putChessMsg_names, hfree, hset⟩
  rw [hturn] at hnames
  exact absurd hnames (by decide)

end Runs
end Room
end FiveStones
