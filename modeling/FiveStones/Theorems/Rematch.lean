import FiveStones.Lib.Simulation
import FiveStones.Theorems.Handshake

/-! A rematch against a new room with the seats swapped: the two answer everything that comes later alike. -/

namespace FiveStones

/-- Both calls throw, or both come back with related results. -/
inductive Both {ε α β : Type} (R : α → β → Prop) : Except ε α → Except ε β → Prop
  | ok {a : α} {b : β} : R a b → Both R (.ok a) (.ok b)
  | error (e : ε) : Both R (.error e) (.error e)

namespace Both
variable {ε α β α' β' γ : Type} {R : α → β → Prop} {S : α' → β' → Prop} {x : Except ε α} {y : Except ε β}

theorem bind {f : α → Except ε α'} {g : β → Except ε β'} (h : Both R x y) (hfg : ∀ a b, R a b → Both S (f a) (g b)) :
    Both S (x >>= f) (y >>= g) := by
  cases h with
  | ok hab => exact hfg _ _ hab
  | error e => exact .error e

/-- The same call on both sides. -/
theorem bind_same {z : Except ε γ} {f : γ → Except ε α'} {g : γ → Except ε β'} (hfg : ∀ c, Both S (f c) (g c)) :
    Both S (z >>= f) (z >>= g) := by
  cases z with
  | ok c => exact hfg c
  | error e => exact .error e

theorem ite {p q : Prop} [Decidable p] [Decidable q] {x' : Except ε α} {y' : Except ε β} (hpq : p ↔ q)
    (hpos : p → Both R x y) (hneg : ¬p → Both R x' y') : Both R (if p then x else x') (if q then y else y') := by
  by_cases hp : p
  · rw [if_pos hp, if_pos (hpq.mp hp)]
    exact hpos hp
  · rw [if_neg hp, if_neg (hpq.not.mp hp)]
    exact hneg hp

theorem toOption (h : Both R x y) :
    (x.toOption = none ∧ y.toOption = none) ∨ ∃ a b, x.toOption = some a ∧ y.toOption = some b ∧ R a b := by
  cases h with
  | ok hab => exact Or.inr ⟨_, _, rfl, rfl, hab⟩
  | error e => exact Or.inl ⟨rfl, rfl⟩

end Both

/-- The same call, but for the remaining times that a broadcast reports. -/
inductive AlikeOffTotals : Call → Call → Prop
  | win (uid : Uid) : AlikeOffTotals (.win uid) (.win uid)
  | lose (uid : Uid) : AlikeOffTotals (.lose uid) (.lose uid)
  | broadcast {resp resp' : Members} :
      (∀ name ∉ ["total_left_white_ms", "total_left_black_ms"], resp.get name = resp'.get name) →
      AlikeOffTotals (.broadcast resp) (.broadcast resp')

namespace Room

/-- The two rooms differ at most in `playerCount` and, before the clocks run, in what the clocks hold. -/
structure Alike (r f : Room) : Prop where
  roomId : r.roomId = f.roomId
  statu : r.statu = f.statu
  whiteId : r.whiteId = f.whiteId
  blackId : r.blackId = f.blackId
  board : r.board = f.board
  spectatorConns : r.spectatorConns = f.spectatorConns
  timingStarted : r.timingStarted = f.timingStarted
  turnUid : r.turnUid = f.turnUid
  rematchInitiatorUid : r.rematchInitiatorUid = f.rematchInitiatorUid
  clocks : r.timingStarted = true →
    r.turnStartTp = f.turnStartTp ∧ r.whiteTotalLeftMs = f.whiteTotalLeftMs ∧ r.blackTotalLeftMs = f.blackTotalLeftMs

end Room

/-- The two steps answer the same event alike and lead to rooms that are alike. Only where a game ends before its
    first stone do the reported remaining times differ. -/
structure AlikeStep (x y : RoomTrans) : Prop where
  event : x.event = y.event
  after : x.after.Alike y.after
  answers : x.out = y.out ∨ (x.Ends ∧ x.before.timingStarted = false ∧ List.Forall₂ AlikeOffTotals x.out y.out)

namespace Room
variable {env : Env} {r r' f f' : Room} {m resp : Members} {req : Json} {uid : Uid} {ms : Nat} {out : List Call}
  {e : RoomEvent}

/-- What a call on one of two rooms gives, against the same call on the other. -/
structure Matched (r : Room) (x y : Room × List Call) : Prop where
  rooms : x.1.Alike y.1
  answers : x.2 = y.2 ∨ (r.statu = .gameStart ∧ x.1.statu = .gameOver ∧ r.timingStarted = false ∧
    List.Forall₂ AlikeOffTotals x.2 y.2)

namespace Alike

theorem matched (h : Alike r f) (calls : List Call) (r₀ : Room) : Matched r₀ (r, calls) (f, calls) := ⟨h, Or.inl rfl⟩

/-- The same answer from both rooms, which stay as they are. -/
theorem same (h : Alike r f) (calls : List Call) (r₀ : Room) :
    Both (Matched r₀) (pure (r, calls) : Except JsonError _) (pure (f, calls)) := .ok (h.matched calls r₀)

theorem opponentOf_eq (h : Alike r f) (uid : Uid) : r.opponentOf uid = f.opponentOf uid := by
  simp only [opponentOf, h.whiteId, h.blackId]

theorem bothPlayersOnline_eq (h : Alike r f) : r.bothPlayersOnline env = f.bothPlayersOnline env := by
  simp only [bothPlayersOnline, h.whiteId, h.blackId]

theorem fillUsernames_eq (h : Alike r f) : r.fillWhiteBlackUsernames env resp = f.fillWhiteBlackUsernames env resp := by
  simp only [fillWhiteBlackUsernames, h.whiteId, h.blackId]

theorem curTotalLeftMs_eq (h : Alike r f) (ht : r.timingStarted = true) : r.curTotalLeftMs = f.curTotalLeftMs := by
  simp only [curTotalLeftMs, h.turnUid, h.whiteId, (h.clocks ht).2.1, (h.clocks ht).2.2]

theorem thinkingMs_eq (h : Alike r f) : r.thinkingMs env = f.thinkingMs env := by
  unfold thinkingMs
  rw [← h.timingStarted]
  split
  · rename_i ht
    rw [(h.clocks ht).1]
  · rfl

theorem checkWin_eq (h : Alike r f) (row col : Int) (color : Chess) : r.checkWin row col color = f.checkWin row col color := by
  simp only [checkWin, h.board, h.whiteId, h.blackId]

theorem ended (h : Alike r f) : Alike { r with statu := .gameOver } { f with statu := .gameOver } :=
  { h with statu := rfl }

theorem withStone (h : Alike r f) (c : Cell) (color : Chess) : Alike (r.withStone c color) (f.withStone c color) :=
  { h with board := congrArg (fun b => Board.set b c color) h.board }

theorem timedOut (h : Alike r f) (late : Bool) (r₀ : Room) : Matched r₀ (r.timedOut late) (f.timedOut late) where
  rooms := h.ended
  answers := by simp only [Room.timedOut, h.opponentOf_eq, h.turnUid, h.roomId, true_or]

/-- A turn that passes starts the clocks of both rooms, or charges both alike. -/
theorem passTurn (h : Alike r f) (uid : Uid) (ms : Nat) : Alike (r.passTurn env uid ms) (f.passTurn env uid ms) := by
  cases ht : r.timingStarted with
  | false =>
    simp only [Room.passTurn, ht, ← h.timingStarted, Bool.false_eq_true, ↓reduceIte]
    exact { h with timingStarted := rfl, turnUid := h.opponentOf_eq uid, clocks := fun _ => ⟨rfl, rfl, rfl⟩ }
  | true =>
    obtain ⟨-, hwhite, hblack⟩ := h.clocks ht
    have hleft := h.curTotalLeftMs_eq ht
    have hturn : r.turnUid = r.whiteId ↔ f.turnUid = f.whiteId := by rw [h.turnUid, h.whiteId]
    by_cases hwhiteTurn : f.turnUid = f.whiteId
    · simp only [Room.passTurn, ht, ← h.timingStarted, ↓reduceIte, if_pos hwhiteTurn, if_pos (hturn.mpr hwhiteTurn), hleft]
      exact { h with timingStarted := rfl, turnUid := h.opponentOf_eq uid, clocks := fun _ => ⟨rfl, rfl, hblack⟩ }
    · simp only [Room.passTurn, ht, ← h.timingStarted, ↓reduceIte, if_neg hwhiteTurn, if_neg (hturn.not.mpr hwhiteTurn),
        hleft]
      exact { h with timingStarted := rfl, turnUid := h.opponentOf_eq uid, clocks := fun _ => ⟨rfl, hwhite, rfl⟩ }

theorem withClocks_eq (h : Alike r f) (ht : r.timingStarted = true) : r.withClocks resp = f.withClocks resp := by
  simp only [withClocks, ← h.timingStarted, (h.clocks ht).2.1, (h.clocks ht).2.2]

theorem withClocks_get (h : Alike r f) {name : String}
    (hname : name ∉ ["total_left_white_ms", "total_left_black_ms"]) :
    (r.withClocks resp).get name = (f.withClocks resp).get name := by
  simp only [List.mem_cons, List.not_mem_nil, or_false, not_or] at hname
  by_cases hstep : name = "step_init_ms"
  · subst hstep
    simp only [withClocks, Members.get_set_self]
  by_cases htiming : name = "timing_started"
  · subst htiming
    simp only [withClocks, Members.get_set_ne, hname.1, hname.2, hstep, ne_eq, not_false_eq_true, Members.get_set_self,
      h.timingStarted]
  · simp only [withClocks, Members.get_set_ne, hname.1, hname.2, hstep, htiming, ne_eq, not_false_eq_true]

/-! ### The functions of the room, one after the other -/

theorem handleChess (h : Alike r f) : Both (fun x y => x.2 = y.2 ∧ x.1.Alike y.1 ∧ x.1.statu = r.statu ∧
    x.1.timingStarted = r.timingStarted) (r.handleChess env m) (f.handleChess env m) := by
  refine Both.bind_same fun row => Both.bind_same fun col => Both.bind_same fun uid => ?_
  cases Cell.of? row col with
  | none => exact .ok ⟨rfl, h, rfl, rfl⟩
  | some c =>
    refine .ite (by rw [h.whiteId]) (fun _ => .ok ⟨by simp only [h.blackId], h, rfl, rfl⟩) fun _ => ?_
    refine .ite (by rw [h.blackId]) (fun _ => .ok ⟨by simp only [h.whiteId], h, rfl, rfl⟩) fun _ => ?_
    refine .ite (by rw [h.board]) (fun _ => .ok ⟨rfl, h, rfl, rfl⟩) fun _ => ?_
    have hcolor : (if uid = r.whiteId then Chess.white else .black) = if uid = f.whiteId then .white else .black := by
      rw [h.whiteId]
    simp only [hcolor]
    generalize (if uid = f.whiteId then Chess.white else .black) = color
    have hstone := h.withStone c color
    refine .ok ⟨?_, hstone, rfl, rfl⟩
    simp only [hstone.checkWin_eq row col color]

theorem afterChess (h : Alike r f) (hrun : r.statu = .gameStart) (r₀ : Room) (hstatu : r₀.statu = r.statu)
    (htiming : r₀.timingStarted = r.timingStarted) :
    Both (Matched r₀) (r.afterChess env uid ms resp) (f.afterChess env uid ms resp) := by
  refine Both.bind_same fun accepted => Both.bind_same fun winner => ?_
  by_cases hpass : accepted = true ∧ winner = 0
  · simp only [hpass, and_self, ↓reduceIte, ne_eq, not_true_eq_false]
    have hafter : Alike (r.passTurn env uid ms) (f.passTurn env uid ms) := h.passTurn uid ms
    rw [hafter.withClocks_eq (passTurn_timingStarted ms)]
    exact hafter.same _ r₀
  · simp only [hpass, ↓reduceIte]
    refine .ite Iff.rfl (fun _ => .ok ⟨h.ended, ?_⟩) fun _ => h.same _ r₀
    cases ht : r.timingStarted with
    | true => exact Or.inl (by simp only [h.withClocks_eq ht, h.opponentOf_eq])
    | false =>
      refine Or.inr ⟨hstatu.trans hrun, rfl, htiming.trans ht, ?_⟩
      rw [h.opponentOf_eq]
      exact .cons (.win _) (.cons (.lose _) (.cons (.broadcast fun _ => h.withClocks_get) .nil))

theorem putChess (h : Alike r f) : Both (Matched r) (r.putChess env m) (f.putChess env m) := by
  refine Both.bind_same fun uid => .ite (by rw [h.statu]) (fun _ => h.same _ r) fun hrun => ?_
  have running : r.statu = .gameStart := by
    cases hs : r.statu <;> simp_all
  refine .ite (by rw [h.timingStarted, h.turnUid]) (fun _ => h.same _ r) fun _ => ?_
  simp only [← h.thinkingMs_eq]
  refine .ite ?_ (fun _ => .ok (h.timedOut _ r)) fun _ => h.handleChess.bind fun x y hxy => ?_
  · rw [← h.timingStarted]
    exact and_congr_right fun ht => by rw [totalExpired, totalExpired, h.curTotalLeftMs_eq ht]
  · obtain ⟨hresp, hrooms, hstatu, htiming⟩ := hxy
    rw [hresp]
    exact hrooms.afterChess (hstatu.trans running) r hstatu.symm htiming.symm

theorem timeout (h : Alike r f) : Both (Matched r) (r.timeout env m) (f.timeout env m) := by
  refine Both.bind_same fun uid => .ite (by rw [h.statu]) (fun _ => h.same _ r) fun _ => ?_
  refine .ite (by rw [h.timingStarted]) (fun _ => h.same _ r) fun htiming => ?_
  have ht : r.timingStarted = true := by simpa using htiming
  refine .ite (by rw [h.turnUid]) (fun _ => h.same _ r) fun _ => ?_
  simp only [(h.clocks ht).1]
  refine .ite ?_ (fun _ => h.same _ r) fun _ => .ok (h.timedOut _ r)
  rw [totalExpired, totalExpired, h.curTotalLeftMs_eq ht]

theorem rematchInvite (h : Alike r f) : Both (Matched r) (r.rematchInvite env m) (f.rematchInvite env m) := by
  refine Both.bind_same fun uid => .ite (by rw [h.statu]) (fun _ => h.same _ r) fun _ => ?_
  refine .ite (by rw [h.whiteId, h.blackId]) (fun _ => h.same _ r) fun _ => ?_
  refine .ite (by rw [h.rematchInitiatorUid]) (fun _ => h.same _ r) fun _ => ?_
  refine .ite (by rw [h.bothPlayersOnline_eq]) (fun _ => h.same _ r) fun _ => .ok ⟨?_, Or.inl ?_⟩
  · exact { h with rematchInitiatorUid := rfl }
  · simp only [h.fillUsernames_eq, h.roomId, h.whiteId, h.blackId]

theorem startRematch (h : Alike r f) (r₀ : Room) :
    Matched r₀ ((r.startRematch env).1, [.broadcast (r.startRematch env).2])
      ((f.startRematch env).1, [.broadcast (f.startRematch env).2]) where
  rooms := {
    roomId := h.roomId
    statu := rfl
    whiteId := h.blackId
    blackId := h.whiteId
    board := rfl
    spectatorConns := h.spectatorConns
    timingStarted := rfl
    turnUid := h.whiteId
    rematchInitiatorUid := rfl
    clocks := fun _ => ⟨rfl, rfl, rfl⟩ }
  answers := Or.inl (by simp only [Room.startRematch, fillWhiteBlackUsernames, h.roomId, h.whiteId, h.blackId])

theorem rematchAccept (h : Alike r f) : Both (Matched r) (r.rematchAccept env m) (f.rematchAccept env m) := by
  refine Both.bind_same fun uid => .ite (by rw [h.statu]) (fun _ => h.same _ r) fun _ => ?_
  refine .ite (by rw [h.rematchInitiatorUid]) (fun _ => h.same _ r) fun _ => ?_
  refine .ite (by rw [h.whiteId, h.blackId]) (fun _ => h.same _ r) fun _ => ?_
  refine .ite (by rw [h.rematchInitiatorUid]) (fun _ => h.same _ r) fun _ => ?_
  exact .ite (by rw [h.bothPlayersOnline_eq]) (fun _ => h.same _ r) fun _ => .ok (h.startRematch r)

theorem handleRequest (h : Alike r f) : Both (Matched r) (r.handleRequest env req) (f.handleRequest env req) := by
  refine Both.bind_same fun m => Both.bind_same fun roomId => Both.bind_same fun optype => ?_
  refine .ite (by rw [h.roomId]) (fun _ => h.same _ r) fun _ => ?_
  refine .ite Iff.rfl (fun _ => h.putChess) fun _ => .ite Iff.rfl (fun _ => h.timeout) fun _ => ?_
  refine .ite Iff.rfl (fun _ => h.rematchInvite) fun _ => .ite Iff.rfl (fun _ => h.rematchAccept) fun _ => ?_
  exact .ite Iff.rfl (fun _ => Both.bind_same fun resp => h.same _ r) fun _ => h.same _ r

theorem handleExit (h : Alike r f) (uid : Uid) : Matched r (r.handleExit uid) (f.handleExit uid) := by
  have hstatu := h.statu
  cases hs : r.statu with
  | gameStart =>
    rw [hs] at hstatu
    refine ⟨?_, Or.inl ?_⟩
    · simp only [handleExit_fst]
      exact { h with statu := rfl }
    · simp only [Room.handleExit, hs, ← hstatu, h.opponentOf_eq, h.whiteId, h.blackId, h.roomId]
  | gameOver =>
    rw [hs] at hstatu
    refine ⟨?_, Or.inl ?_⟩
    · simp only [handleExit_fst]
      exact { h with statu := rfl }
    · simp only [Room.handleExit, hs, ← hstatu, h.roomId]

/-! ### Steps and runs -/

theorem alikeStep (hm : Matched r (r', out) (f', out')) :
    AlikeStep ⟨r, e, r', out⟩ ⟨f, e, f', out'⟩ where
  event := rfl
  after := hm.rooms
  answers := hm.answers.imp_right fun ⟨hrun, hover, htiming, hcalls⟩ => ⟨⟨hrun, hover⟩, htiming, hcalls⟩

theorem step (h : Alike r f) (e : RoomEvent) : (machine.step r e = none ∧ machine.step f e = none) ∨
    ∃ x y, machine.step r e = some x ∧ machine.step f e = some y ∧ Matched r x y := by
  cases e with
  | request env req => exact h.handleRequest.toOption
  | exit uid => exact Or.inr ⟨_, _, rfl, rfl, h.handleExit uid⟩

/-- Whatever the one room does, the other does alike. -/
theorem simulates : Machine.Simulates machine machine Alike AlikeStep fun _ => True := by
  intro r f e r' out h hs _
  rcases h.step e with ⟨hnone, -⟩ | ⟨x, ⟨f', out'⟩, hx, hy, hmatched⟩
  · cases hs.symm.trans hnone
  · obtain rfl := Option.some.inj (hs.symm.trans hx)
    exact ⟨f', out', hy, hmatched.rooms, alikeStep hmatched⟩

theorem simulated : Machine.Simulates machine machine (fun f r => Alike r f) (fun y x => AlikeStep x y) fun _ => True := by
  intro f r e f' out h hs _
  rcases h.step e with ⟨-, hnone⟩ | ⟨⟨r', out'⟩, y, hx, hy, hmatched⟩
  · cases hs.symm.trans hnone
  · obtain rfl := Option.some.inj (hs.symm.trans hy)
    exact ⟨r', out', hx, hmatched.rooms, alikeStep hmatched⟩

end Alike

/-- The room that begins another game is like a new one with the seats swapped. -/
theorem alike_create (r : Room) (env : Env) (now : Int) : Alike (r.startRematch env).1
    { create r.roomId r.blackId r.whiteId now with spectatorConns := r.spectatorConns } where
  roomId := rfl
  statu := rfl
  whiteId := rfl
  blackId := rfl
  board := rfl
  spectatorConns := rfl
  timingStarted := rfl
  turnUid := rfl
  rematchInitiatorUid := rfl
  clocks htiming := by cases htiming

/-- A `rematch_accept` that is answered with success begins another game. -/
theorem accepted_eq (hm : req.members = .ok m) (asks : Asks r m "rematch_accept")
    (h : r.handleRequest env req = .ok (r', out)) (hresp : Call.broadcast resp ∈ out)
    (hres : resp.get "result" = .bool true) : r' = (r.startRematch env).1 := by
  obtain ⟨m', hm', ha⟩ := handleRequest_answer h
  obtain rfl := Except.ok.inj (hm.symm.trans hm')
  cases ha with
  | refused hno =>
    obtain rfl : resp = _ := by simpa using hresp
    rw [hno] at hres
    cases hres
  | chatted asks' => exact absurd (asks.unique asks') (by decide)
  | timeUp _ _ _ hasks =>
    rcases hasks with ⟨asks', -⟩ | ⟨asks', -⟩
    · exact absurd (asks.unique asks') (by decide)
    · exact absurd (asks.unique asks') (by decide)
  | walkover admits | drifted admits | claimed admits => exact absurd (asks.unique admits.asks) (by decide)
  | placed places | won places => exact absurd (asks.unique places.asks) (by decide)
  | invite asks' => exact absurd (asks.unique asks') (by decide)
  | accept => rfl

/-- After a successful `rematch_accept` the room and a new one with the seats swapped answer every later run of
    events alike, step by step, in whichever of the two the run is taken. -/
theorem rematch_is_fresh (hm : req.members = .ok m) (asks : Asks r m "rematch_accept")
    (h : r.handleRequest env req = .ok (r', out)) (hresp : Call.broadcast resp ∈ out)
    (hres : resp.get "result" = .bool true) (now : Int) {f : Room}
    (hf : f = { create r.roomId r.blackId r.whiteId now with spectatorConns := r'.spectatorConns }) :
    r'.Alike f ∧
      (∀ ts t, machine.Run r' ts t → ∃ us u, machine.Run f us u ∧ List.Forall₂ AlikeStep ts us) ∧
      (∀ us u, machine.Run f us u → ∃ ts t, machine.Run r' ts t ∧ List.Forall₂ AlikeStep ts us) := by
  obtain rfl := accepted_eq hm asks h hresp hres
  subst hf
  have halike := alike_create r env now
  refine ⟨halike, fun ts t hrun => ?_, fun us u hrun => ?_⟩
  · obtain ⟨us, u, hus, -, hsteps⟩ := Alike.simulates.run hrun halike fun _ _ => trivial
    exact ⟨us, u, hus, hsteps⟩
  · obtain ⟨ts, t, hts, -, hsteps⟩ := Alike.simulated.run hrun halike fun _ _ => trivial
    exact ⟨ts, t, hts, hsteps.flip⟩

/-- White leaves, and black accepts another game. -/
theorem rematch_is_fresh_once : ∃ (rs : List RoomTrans) (r r' : Room) (out : List Call),
    machine.Run (create 1 10 20 0) rs r ∧ machine.step r (ask "rematch_accept" 20) = some (r', out) ∧
    ∀ ts t, machine.Run r' ts t → ∃ us u, machine.Run (create 1 20 10 7) us u ∧ List.Forall₂ AlikeStep ts us := by
  have h : machine.Run (create 1 10 20 0) [⟨_, .exit 10, _, _⟩, ⟨_, ask "rematch_invite" 10, _, _⟩] _ :=
    (Machine.Run.nil.snoc rfl).snoc rfl
  have hreq : Room.handleRequest (.allPresent 0)
      { create 1 10 20 0 with statu := .gameOver, playerCount := 1, rematchInitiatorUid := 10 }
      (.obj [("room_id", .int 1), ("optype", .str "rematch_accept"), ("uid", .uint 20)]) = .ok _ := rfl
  have hfresh := rematch_is_fresh rfl ⟨⟨1, rfl, rfl⟩, rfl⟩ hreq List.mem_cons_self rfl 7 rfl
  exact ⟨_, _, _, _, h, step_of_ok hreq, hfresh.2.1⟩

end Room
end FiveStones
