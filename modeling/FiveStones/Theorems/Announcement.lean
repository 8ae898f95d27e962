import FiveStones.Replica
import FiveStones.Theorems.Opening
import FiveStones.Theorems.Rejection

/-! Whether a copy of the board that is kept from the broadcasts stays the server's board. -/

namespace FiveStones

namespace Board
variable {b b' : Board} {c c' : Cell} {color : Chess}

theorem set_eq_self_iff : b.set c color = b ↔ b c = some color :=
  (Function.update_eq_self_iff (f := b)).trans eq_comm

/-- The cells of the board, as a snapshot goes through them. -/
def cells : List Cell := (List.finRange boardRow).flatMap fun row => (List.finRange boardCol).map fun col => ⟨row, col⟩

theorem mem_cells (c : Cell) : c ∈ cells :=
  List.mem_flatMap.mpr ⟨c.row, List.mem_finRange _, List.mem_map.mpr ⟨c.col, List.mem_finRange _, rfl⟩⟩

end Board

namespace Replica
variable {p : Replica} {calls calls' : List Call} {resp : Members} {b b' : Board} {c : Cell} {color : Chess}

/-! ### The snapshot -/

/-- A cell of `board_snapshot`. -/
def snapshotCell (c : Cell) (color : Chess) : Json :=
  .obj [("row", .int c.row), ("col", .int c.col), ("color", .int (if color = .white then 1 else 2))]

theorem drawCell_snapshotCell : drawCell b (snapshotCell c color) = b.set c color := by
  have hcell : cellOf [("row", .int c.row), ("col", .int c.col), ("color", .int (if color = .white then 1 else 2))] = some c :=
    Cell.of?_coe c
  rw [snapshotCell, drawCell, hcell]
  cases color <;> rfl

theorem boardSnapshot_eq (r : Room) :
    r.boardSnapshot = .arr (Board.cells.filterMap fun c => (r.board c).map (snapshotCell c)) := by
  rw [Room.boardSnapshot, Board.cells, List.filterMap_flatMap]
  simp only [List.filterMap_map]
  rfl

/-- Drawing the stones of a board among some cells changes the board there. -/
theorem foldl_drawCell (l : List Cell) :
    (l.filterMap fun c => (b c).map (snapshotCell c)).foldl drawCell b' c =
      if c ∈ l ∧ (b c).isSome = true then b c else b' c := by
  induction l generalizing b' with
  | nil => simp
  | cons c' l ih =>
    cases hb : b c' with
    | none =>
      rw [List.filterMap_cons_none (by rw [hb, Option.map_none]), ih]
      by_cases heq : c = c'
      · subst heq
        simp [hb]
      · simp [heq]
    | some color =>
      rw [List.filterMap_cons_some (by rw [hb, Option.map_some]), List.foldl_cons, drawCell_snapshotCell, ih]
      by_cases heq : c = c'
      · subst heq
        simp [hb]
      · simp [heq, Board.set_ne heq]

theorem join_board (env : Env) (r : Room) : (join (Server.spectateReady env r)).board = r.board := by
  have hsnapshot : (Server.spectateReady env r).get "board_snapshot" = r.boardSnapshot :=
    Room.fillWhiteBlackUsernames_get (by decide)
  rw [join, hsnapshot, boardSnapshot_eq]
  funext c
  refine (foldl_drawCell Board.cells).trans ?_
  cases hb : r.board c with
  | none => simp [Board.empty]
  | some color => simp [Board.mem_cells]

theorem join_whiteId (env : Env) (r : Room) : (join (Server.spectateReady env r)).whiteId = .uint r.whiteId := by
  rw [join, Server.spectateReady]
  simp only
  rw [Room.fillWhiteBlackUsernames_get (by decide)]
  rfl

/-! ### Messages -/

@[simp] theorem follow_nil : p.follow [] = p := rfl

theorem follow_append : p.follow (calls ++ calls') = (p.follow calls).follow calls' := List.foldl_append ..

@[simp] theorem follow_broadcast : p.follow [.broadcast resp] = p.onMessage resp := rfl

@[simp] theorem follow_ends {winner loser : Uid} : p.follow [.win winner, .lose loser, .broadcast resp] = p.onMessage resp := rfl

theorem onMessage_refused (h : resp.get "result" = .bool false) : p.onMessage resp = p := by
  simp only [onMessage, h]

end Replica

/-! ### What a request announces -/

theorem Json.asInt_of_integer? {v : Json} {n : Int} (h : v.integer? = some n) (hlow : -2147483648 ≤ n) (hhigh : n ≤ 2147483647) :
    v.asInt = .ok n := by
  cases v with
  | int k =>
    obtain rfl := Option.some.inj h
    simp only [asInt, hlow, hhigh, and_self, ↓reduceIte]
  | real q text =>
    simp only [integer?] at h
    split at h
    · rename_i hden
      obtain rfl := Option.some.inj h
      have hq : ((q.num : Int) : Rat) = q := Rat.coe_int_num_of_den_eq_one hden
      have hlow' : (-2147483648 : Rat) ≤ q := by
        rw [← hq]
        exact_mod_cast hlow
      have hhigh' : q ≤ 2147483647 := by
        rw [← hq]
        exact_mod_cast hhigh
      have hcut : truncate q = q.num := by
        rw [← hq, truncate]
        split <;> simp
      simp only [asInt, hlow', hhigh', and_self, ↓reduceIte, hcut]
    · cases h
  | null | bool | str | arr | obj => cases h

/-- What a message names by integers is what the server takes it for. -/
theorem asInt_of_cellOf {m : Members} {c : Cell} (h : cellOf m = some c) :
    (m.get "row").asInt = .ok c.row ∧ (m.get "col").asInt = .ok c.col := by
  unfold cellOf at h
  split at h
  · rename_i row col hrow hcol
    obtain ⟨rfl, rfl⟩ := Cell.of?_eq_some.mp h
    have hr : c.row.val < 15 := c.row.isLt
    have hc : c.col.val < 15 := c.col.isLt
    exact ⟨Json.asInt_of_integer? hrow (by omega) (by omega), Json.asInt_of_integer? hcol (by omega) (by omega)⟩
  · cases h

namespace Room
variable {env : Env} {r r' : Room} {m resp : Members} {uid winner : Uid} {c : Cell} {color : Chess}

/-- The colour of the number that the request names as its user. -/
def announcedColor (r : Room) (m : Members) : Chess := if (m.get "uid").sameNumber (.uint r.whiteId) then .white else .black

/-- What is accepted of the request says what it does: a stone goes with its cell in integers and with the number of
    the player whose colour it has, and a game that is won because a player is absent goes with no cell in integers
    but one that holds the announced colour. -/
structure Announces (env : Env) (r : Room) (m : Members) : Prop where
  stone : ∀ uid c color, Places env r m uid c color → cellOf m = some c ∧ r.announcedColor m = color
  walkover : ∀ uid winner c, Admits env r m uid → Absent env r winner → cellOf m = some c →
    r.board c = some (r.announcedColor m)

theorem Places.unique {uid' : Uid} {c' : Cell} {color' : Chess} (places : Places env r m uid c color)
    (places' : Places env r m uid' c' color') : c' = c ∧ color' = color := by
  obtain rfl := Except.ok.inj (places.names.symm.trans places'.names)
  have hcell : Cell.of? c.row c.col = some c' :=
    Cell.of?_eq_some.mpr ⟨Except.ok.inj (places.row.symm.trans places'.row), Except.ok.inj (places.col.symm.trans places'.col)⟩
  exact ⟨(Option.some.inj ((Cell.of?_coe c).symm.trans hcell)).symm, places'.color_eq.trans places.color_eq.symm⟩

theorem announces_of_places (places : Places env r m uid c color) :
    Announces env r m ↔ cellOf m = some c ∧ r.announcedColor m = color := by
  constructor
  · intro h
    exact h.stone uid c color places
  · intro h
    refine ⟨fun uid' c' color' places' => ?_, fun uid' winner c' _ habsent => (places.not_absent habsent).elim⟩
    obtain ⟨rfl, rfl⟩ := places.unique places'
    exact h

theorem announces_of_absent (admits : Admits env r m uid) (habsent : Absent env r winner) :
    Announces env r m ↔ ∀ c, cellOf m = some c → r.board c = some (r.announcedColor m) := by
  constructor
  · intro h c
    exact h.walkover uid winner c admits habsent
  · intro h
    exact ⟨fun uid' c' color' places => (places.not_absent habsent).elim, fun uid' winner' c _ _ => h c⟩

/-- A request that is echoed to nobody has nothing to announce. -/
theorem announces_of_silent {req : Json} {out : List Call} (hm : req.members = .ok m) (h : r.handleRequest env req = .ok (r', out))
    (hsilent : Asks r m "put_chess" → ∀ resp, Call.broadcast resp ∈ out → Echoes m resp → False) : Announces env r m where
  stone uid c color places := by
    obtain ⟨resp, hresp, hechoes⟩ := places.echoed hm (fun hchess => ((handleChess_inv hchess).of_places places).2.1) h
    exact (hsilent places.asks resp hresp hechoes).elim
  walkover uid winner c admits habsent hcell := by
    obtain ⟨hrow, hcol⟩ := asInt_of_cellOf hcell
    obtain ⟨resp, hresp, hechoes⟩ := admits.echoed hm (fun hchess => ((handleChess_inv hchess).of_absent hrow hcol habsent).2) h
    exact (hsilent admits.asks resp hresp hechoes).elim

end Room

namespace Replica
open Room
variable {p : Replica} {env : Env} {r r' : Room} {m resp : Members} {uid winner : Uid} {c : Cell} {color : Chess}
  {e : RoomEvent} {out : List Call}

/-- The replica holds the server's board. -/
structure Copies (p : Replica) (r : Room) : Prop where
  board : p.board = r.board
  whiteId : p.whiteId = .uint r.whiteId

theorem copies_join (env : Env) (r : Room) : (join (Server.spectateReady env r)).Copies r :=
  ⟨join_board env r, join_whiteId env r⟩

theorem handlePutChess_whiteId : (p.handlePutChess m).whiteId = p.whiteId := by
  unfold handlePutChess
  split <;> rfl

theorem echo_optype (asks : Asks r m "put_chess") (hechoes : Echoes m resp) :
    (resp.get "optype").asString = .ok "put_chess" := by
  rw [hechoes.same "optype" (by decide)]
  exact asks.optype

/-- An echo does what the request itself would do. -/
theorem onMessage_echo (asks : Asks r m "put_chess") (hechoes : Echoes m resp) : p.onMessage resp = p.handlePutChess m := by
  simp only [onMessage, hechoes.result, echo_optype asks hechoes, ↓reduceIte, handlePutChess, cellOf, hechoes.same "row" (by decide),
    hechoes.same "col" (by decide), hechoes.same "uid" (by decide)]

theorem Copies.handlePutChess_board (h : p.Copies r) : (p.handlePutChess m).board =
    match cellOf m with
    | none => r.board
    | some c => r.board.set c (r.announcedColor m) := by
  unfold handlePutChess
  cases cellOf m with
  | none => exact h.board
  | some c => simp only [h.board, colorOf, h.whiteId, announcedColor]

theorem Copies.placed_iff (h : p.Copies r) (places : Places env r m uid c color) :
    (p.handlePutChess m).board = r.board.set c color ↔ Announces env r m := by
  rw [announces_of_places places, h.handlePutChess_board]
  have hfree := places.free
  cases hcell : cellOf m with
  | none =>
    simp only [reduceCtorEq, false_and, iff_false]
    exact fun heq => Board.set_ne_self hfree heq.symm
  | some c' =>
    simp only [Option.some.injEq]
    constructor
    · intro heq
      by_cases hc : c' = c
      · subst hc
        refine ⟨rfl, ?_⟩
        have hat := congrFun heq c'
        rw [Board.set_self, Board.set_self] at hat
        exact Option.some.inj hat
      · have hat := congrFun heq c
        rw [Board.set_self, Board.set_ne (Ne.symm hc), hfree] at hat
        cases hat
    · rintro ⟨rfl, rfl⟩
      rfl

theorem Copies.absent_iff (h : p.Copies r) (admits : Admits env r m uid) (habsent : Absent env r winner) :
    (p.handlePutChess m).board = r.board ↔ Announces env r m := by
  rw [announces_of_absent admits habsent, h.handlePutChess_board]
  cases hcell : cellOf m with
  | none => simp
  | some c =>
    simp only [Option.some.injEq, forall_eq']
    exact Board.set_eq_self_iff

end Replica

/-- What is accepted of a request says what it does. -/
def RoomTrans.Announces (x : RoomTrans) : Prop :=
  ∀ env req m, x.event = .request env req → req.members = .ok m → x.before.Announces env m

namespace Replica
open Room
variable {p : Replica} {env : Env} {r r' : Room} {m resp : Members} {req : Json} {uid winner : Uid} {c : Cell} {color : Chess}
  {e : RoomEvent} {out : List Call}

theorem announces_request (hm : req.members = .ok m) :
    RoomTrans.Announces ⟨r, .request env req, r', out⟩ ↔ Room.Announces env r m := by
  constructor
  · intro h
    exact h env req m rfl hm
  · intro h env' req' m' hevent hm'
    obtain ⟨rfl, rfl⟩ := RoomEvent.request.inj hevent
    obtain rfl := Except.ok.inj (hm.symm.trans hm')
    exact h

theorem onMessage_other {optype : String} (hop : (resp.get "optype").asString = .ok optype)
    (hchess : optype ≠ "put_chess") (hstart : optype ≠ "rematch_start") : p.onMessage resp = p := by
  unfold onMessage
  split
  · rename_i optype' _ hop'
    obtain rfl := Except.ok.inj (hop.symm.trans hop')
    rw [if_neg hchess, if_neg hstart]
  · rfl

/-- A departure is announced with no cell. -/
theorem follow_exit (uid : Uid) : p.follow (r.handleExit uid).2 = p := by
  cases hstatu : r.statu <;> simp only [handleExit, hstatu] <;> rfl

theorem follow_timedOut (late : Bool) : p.follow (r.timedOut late).2 = p := rfl

theorem startRematch_whiteId : (p.onMessage (r.startRematch env).2).whiteId = .uint (r.startRematch env).1.whiteId := by
  have hwhite : (r.startRematch env).2.get "white_id" = .uint r.blackId := by
    simp only [startRematch, Members.get_set_ne, ne_eq, String.reduceEq, not_false_eq_true]
    rw [fillWhiteBlackUsernames_get (by decide)]
    rfl
  exact hwhite

theorem Copies.step (h : p.Copies r) (hs : machine.step r e = some (r', out)) :
    (p.follow out).whiteId = .uint r'.whiteId ∧
      ((p.follow out).board = r'.board ↔ RoomTrans.Announces ⟨r, e, r', out⟩) := by
  rcases step_answer hs with ⟨env, req, m, rfl, hm, ha⟩ | ⟨uid, rfl, rfl, rfl⟩
  · have hreq : r.handleRequest env req = .ok (r', out) := ok_of_toOption hs
    rw [announces_request hm]
    have silent : (p.follow out).whiteId = .uint r'.whiteId → (p.follow out).board = r'.board →
        (Asks r m "put_chess" → ∀ resp, Call.broadcast resp ∈ out → Echoes m resp → False) →
        (p.follow out).whiteId = .uint r'.whiteId ∧ ((p.follow out).board = r'.board ↔ Room.Announces env r m) := by
      intro hwhite hboard hsilent
      exact ⟨hwhite, fun _ => announces_of_silent hm hreq hsilent, fun _ => hboard⟩
    have unmoved : p.follow out = p → r'.whiteId = r.whiteId → r'.board = r.board →
        (Asks r m "put_chess" → ∀ resp, Call.broadcast resp ∈ out → Echoes m resp → False) →
        (p.follow out).whiteId = .uint r'.whiteId ∧ ((p.follow out).board = r'.board ↔ Room.Announces env r m) := by
      intro hsame hwhite hboard
      refine silent ?_ ?_
      · rw [hsame, hwhite, h.whiteId]
      · rw [hsame, hboard, h.board]
    cases ha with
    | @refused resp hres =>
      refine unmoved (onMessage_refused hres) rfl rfl fun _ resp' hresp hechoes => ?_
      obtain rfl : resp' = resp := by simpa using hresp
      exact hechoes.not_refused hres
    | @chatted resp asks hechoes =>
      have hop : (resp.get "optype").asString = .ok "chat" := by
        rw [hechoes.same "optype" (by decide)]
        exact asks.optype
      exact unmoved (onMessage_other hop (by decide) (by decide)) rfl rfl
        fun asks' _ _ _ => absurd (asks.unique asks') (by decide)
    | timeUp =>
      refine unmoved (follow_timedOut _) rfl rfl fun asks resp hresp hechoes => ?_
      obtain rfl := broadcast_of_ends hresp
      have hop : Except.ok "timeout" = .ok "put_chess" := echo_optype asks hechoes
      exact absurd (Except.ok.inj hop) (by decide)
    | @walkover uid winner resp admits honboard habsent hzero hechoes =>
      have hsame : p.follow [.win winner, .lose (r.opponentOf winner), .broadcast resp] = p.handlePutChess m :=
        onMessage_echo admits.asks hechoes
      rw [hsame]
      exact ⟨handlePutChess_whiteId.trans h.whiteId, h.absent_iff admits habsent⟩
    | @drifted uid resp admits honboard habsent hechoes =>
      have hsame : p.follow [.broadcast resp] = p.handlePutChess m := onMessage_echo admits.asks hechoes
      rw [hsame, passTurn_board, passTurn_whiteId]
      exact ⟨handlePutChess_whiteId.trans h.whiteId, h.absent_iff admits habsent⟩
    | @claimed uid winner resp admits hrefuses hwinner hzero hres =>
      refine unmoved (onMessage_refused hres) rfl rfl fun _ resp' hresp hechoes => ?_
      obtain rfl := broadcast_of_ends hresp
      exact hechoes.not_refused hres
    | @placed uid c color resp places hwin hechoes =>
      have hsame : p.follow [.broadcast resp] = p.handlePutChess m := onMessage_echo places.asks hechoes
      rw [hsame, passTurn_board, passTurn_whiteId]
      exact ⟨handlePutChess_whiteId.trans h.whiteId, h.placed_iff places⟩
    | @won uid winner c color resp places hwin hzero hechoes =>
      have hsame : p.follow [.win winner, .lose (r.opponentOf winner), .broadcast resp] = p.handlePutChess m :=
        onMessage_echo places.asks hechoes
      rw [hsame]
      exact ⟨handlePutChess_whiteId.trans h.whiteId, h.placed_iff places⟩
    | @invite uid resp asks huid hover hseat hinit honline hop hres =>
      have hop : (resp.get "optype").asString = .ok "rematch_invite" := hop ▸ rfl
      exact unmoved (onMessage_other hop (by decide) (by decide)) rfl rfl
        fun asks' _ _ _ => absurd (asks.unique asks') (by decide)
    | accept asks =>
      exact silent (startRematch_whiteId (p := p)) rfl fun asks' _ _ _ => absurd (asks.unique asks') (by decide)
  · rw [follow_exit, handleExit_fst]
    refine ⟨h.whiteId, fun _ env req m hevent => ?_, fun _ => h.board⟩
    cases hevent

/-! ### Runs -/

variable {ts : List RoomTrans} {joined : Env}

/-- A spectator who has joined a room holds the server's board after every step, and every stone is announced with
    its cell. -/
def Follows (joined : Env) (r : Room) (ts : List RoomTrans) : Prop :=
  ∀ us x vs, ts = us ++ x :: vs →
    ((join (Server.spectateReady joined r)).follow (Machine.log (us ++ [x]))).board = x.after.board ∧
      ∀ uid c color, x.PutsStone uid c color → ∃ resp, Call.broadcast resp ∈ x.out ∧ resp.get "result" = .bool true ∧
        cellOf resp = some c

/-- A stone that is announced is announced with its cell. -/
theorem announced_of_putsStone (hs : machine.step r e = some (r', out)) (h : RoomTrans.Announces ⟨r, e, r', out⟩)
    (hstone : RoomTrans.PutsStone ⟨r, e, r', out⟩ uid c color) :
    ∃ resp, Call.broadcast resp ∈ out ∧ resp.get "result" = .bool true ∧ cellOf resp = some c := by
  obtain ⟨env, req, m, rfl, hm, places⟩ := places_of_putsStone hs hstone
  have hcell := ((h env req m rfl hm).stone uid c color places).1
  obtain ⟨resp, hresp, hechoes⟩ := places.echoed hm (fun hchess => ((handleChess_inv hchess).of_places places).2.1)
    (ok_of_toOption hs)
  refine ⟨resp, hresp, hechoes.result, ?_⟩
  simpa only [cellOf, hechoes.same "row" (by decide), hechoes.same "col" (by decide)] using hcell

theorem run_copies (h : machine.Run r ts r') (hC : ∀ x ∈ ts, RoomTrans.Announces x) :
    ((join (Server.spectateReady joined r)).follow (Machine.log ts)).Copies r' := by
  induction h with
  | nil => exact copies_join joined r
  | @snoc ts t u e out _ hs ih =>
    have hcopies := ih fun x hx => hC x (List.mem_append_left _ hx)
    obtain ⟨hwhite, hboard⟩ := hcopies.step hs
    rw [Machine.log_snoc, follow_append]
    exact ⟨hboard.mpr (hC _ (List.mem_append_right _ (List.mem_singleton_self _))), hwhite⟩

theorem announces_of_follows (h : machine.Run r ts r') (hfollows : Follows joined r ts) :
    ∀ x ∈ ts, RoomTrans.Announces x := by
  induction h with
  | nil =>
    intro x hx
    cases hx
  | @snoc ts t u e out hrun hs ih =>
    have hbefore := ih fun us x vs heq => hfollows us x (vs ++ [⟨t, e, u, out⟩]) (by rw [heq, List.append_assoc]; rfl)
    intro x hx
    rcases List.mem_append.mp hx with hx | hx
    · exact hbefore x hx
    · obtain rfl := List.mem_singleton.mp hx
      have hboard := (hfollows ts _ [] rfl).1
      rw [Machine.log_snoc, follow_append] at hboard
      exact ((run_copies hrun hbefore).step hs).2.mp hboard

/-- Whoever joins a room holds the server's board after every broadcast exactly when every accepted `put_chess` says
    what it does. -/
theorem follows_iff (h : machine.Run r ts r') : Follows joined r ts ↔ ∀ x ∈ ts, RoomTrans.Announces x := by
  constructor
  · exact announces_of_follows h
  · intro hC us x vs heq
    subst heq
    obtain ⟨hus, hs, -⟩ := h.split
    have hx := hC x (List.mem_append_right _ List.mem_cons_self)
    refine ⟨(run_copies (hus.snoc hs) fun y hy => ?_).board, fun uid c color => announced_of_putsStone hs hx⟩
    rcases List.mem_append.mp hy with hy | hy
    · exact hC y (List.mem_append_left _ hy)
    · obtain rfl := List.mem_singleton.mp hy
      exact hx

/-- Black opens a game in the middle of the board. -/
theorem opening_places : Places (.allPresent 0) (Room.create 1 10 20 0) (putChessMsg 1 20 7 7) 20 ⟨7, 7⟩ .black where
  asks := putChessMsg_asks (r := Room.create 1 10 20 0) (by decide)
  names := putChessMsg_names
  running := rfl
  turn ht := by cases ht
  inTime ht := by cases ht
  row := rfl
  col := rfl
  online := rfl
  free := rfl
  color_eq := rfl

theorem follows_iff_opening : ∃ (ts : List RoomTrans) (r' : Room), machine.Run (Room.create 1 10 20 0) ts r' ∧
    r'.board ⟨7, 7⟩ = some .black ∧ Follows (.allPresent 0) (Room.create 1 10 20 0) ts := by
  obtain ⟨us, x, h, hevent, hnil, hstone⟩ := Machine.Run.exists_step_of_exec machine (Room.create 1 10 20 0) [] (move 0 20 7 7)
    (fun us x => us = [] ∧ x.after.board ⟨7, 7⟩ = some .black) (by decide +kernel)
  subst hnil
  refine ⟨_, _, h, hstone, (follows_iff h).mpr fun y hy => ?_⟩
  obtain rfl := List.mem_singleton.mp hy
  have hbefore : y.before = Room.create 1 10 20 0 := h.snoc_inv.1.eq_of_nil
  intro env req m hrequest hm
  obtain ⟨rfl, rfl⟩ := RoomEvent.request.inj (hevent.symm.trans hrequest)
  obtain rfl := Except.ok.inj hm
  rw [hbefore]
  exact (announces_of_places opening_places).mpr ⟨rfl, rfl⟩

/-- A move that wins because the other player has left is broadcast as a stone that the server has not placed. -/
theorem phantom_stone : ¬∀ roomId w b now (rs : List RoomTrans) r joined (ts : List RoomTrans) r',
    machine.Run (Room.create roomId w b now) rs r → r.statu = .gameStart → machine.Run r ts r' → Follows joined r ts := by
  intro hall
  obtain ⟨us, x, h, -, hnil, hserver, hreplica⟩ := Machine.Run.exists_step_of_exec machine (Room.create 1 10 20 0) []
    (lonelyMove 0 20 3 3)
    (fun us x => us = [] ∧ x.after.board ⟨3, 3⟩ = none ∧
      ((join (Server.spectateReady (.allPresent 0) (Room.create 1 10 20 0))).follow (Machine.log [x])).board ⟨3, 3⟩ = some .black)
    (by decide +kernel)
  subst hnil
  have hboard := (hall 1 10 20 0 [] _ (.allPresent 0) _ _ .nil rfl h [] x [] rfl).1
  cases hreplica.symm.trans ((congrFun hboard ⟨3, 3⟩).trans hserver)

end Replica
end FiveStones
