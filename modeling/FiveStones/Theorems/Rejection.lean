import FiveStones.Theorems.Settlement

/-! What a request leaves of a room when its answer says that it was refused. -/

namespace FiveStones
namespace Room
variable {env : Env} {r r' : Room} {m resp : Members} {out : List Call} {req : Json}

/-- Everything that the rules of the game read is as it was. -/
structure Unchanged (r r' : Room) : Prop where
  board : r'.board = r.board
  whiteId : r'.whiteId = r.whiteId
  blackId : r'.blackId = r.blackId
  statu : r'.statu = r.statu
  turnUid : r'.turnUid = r.turnUid
  timingStarted : r'.timingStarted = r.timingStarted
  turnStartTp : r'.turnStartTp = r.turnStartTp
  whiteTotalLeftMs : r'.whiteTotalLeftMs = r.whiteTotalLeftMs
  blackTotalLeftMs : r'.blackTotalLeftMs = r.blackTotalLeftMs
  rematchInitiatorUid : r'.rematchInitiatorUid = r.rematchInitiatorUid

theorem Unchanged.refl (r : Room) : Unchanged r r := ⟨rfl, rfl, rfl, rfl, rfl, rfl, rfl, rfl, rfl, rfl⟩

/-- The message is a move that `handle_chess` refuses, and it has a `winner` of its own. -/
def Forges (env : Env) (r : Room) (m : Members) : Prop :=
  ∃ uid winner, Admits env r m uid ∧ Refuses env r m ∧ (m.get "winner").asUInt64 = .ok winner ∧ winner ≠ 0

theorem Echoes.not_refused (h : Echoes m resp) : resp.get "result" ≠ .bool false := by
  rw [h.result]
  simp

theorem broadcast_of_ends {winner loser : Uid} (h : Call.broadcast resp' ∈ [Call.win winner, .lose loser, .broadcast resp]) :
    resp' = resp := by
  simpa using h

/-- An answer that refuses comes without any change, or ends the game for the forger. -/
theorem Answer.of_refused (h : Answer env r m r' out) (hresp : Call.broadcast resp ∈ out)
    (hres : resp.get "result" = .bool false) : (r' = r ∧ wins out = [] ∧ loses out = []) ∨ Forges env r m := by
  cases h with
  | refused | chatted => exact Or.inl ⟨rfl, rfl, rfl⟩
  | claimed admits hrefuses hwinner hzero => exact Or.inr ⟨_, _, admits, hrefuses, hwinner, hzero⟩
  | timeUp =>
    obtain rfl := broadcast_of_ends hresp
    cases hres
  | walkover _ _ _ _ hechoes | won _ _ _ hechoes =>
    obtain rfl := broadcast_of_ends hresp
    exact absurd hres hechoes.not_refused
  | drifted _ _ _ hechoes | placed _ _ hechoes =>
    obtain rfl : resp = _ := by simpa using hresp
    exact absurd hres hechoes.not_refused
  | invite _ _ _ _ _ _ _ hresult =>
    obtain rfl : resp = _ := by simpa using hresp
    rw [hresult] at hres
    cases hres
  | accept =>
    obtain rfl : resp = _ := by simpa using hresp
    simp only [startRematch, fillWhiteBlackUsernames] at hres
    cases hres

/-- A forged move is answered as refused, and ends the game. -/
theorem Forges.ends (hforges : Forges env r m) (hm : req.members = .ok m) (h : r.handleRequest env req = .ok (r', out)) :
    r.statu = .gameStart ∧ r'.statu = .gameOver ∧
      ∃ resp, Call.broadcast resp ∈ out ∧ resp.get "result" = .bool false := by
  obtain ⟨uid, winner, admits, hrefuses, hwinner, hzero⟩ := hforges
  rw [admits.handleRequest_eq hm] at h
  obtain ⟨⟨r₁, resp⟩, hchess, h⟩ := ok_of_bind h
  obtain ⟨rfl, hresult, hown⟩ := (handleChess_inv hchess).of_refuses hrefuses
  obtain ⟨winner', resp', hwin, hclocks, hcase⟩ := afterChess_inv h
  obtain rfl : winner = winner' := Except.ok.inj (hwinner.symm.trans (hown ▸ hwin))
  rcases hcase with ⟨-, rfl, rfl⟩ | ⟨h0, -⟩ | ⟨h0, -⟩
  · exact ⟨admits.running, rfl, resp', by simp, (hclocks "result" (by decide)).trans hresult⟩
  · exact absurd h0 hzero
  · exact absurd h0 hzero

/-- An answer that says `result: false` means that nothing has changed and nobody was paid, for every request but
    a forged move. -/
theorem refusal_changes_nothing_iff (hm : req.members = .ok m) (h : r.handleRequest env req = .ok (r', out)) :
    (∀ resp, Call.broadcast resp ∈ out → resp.get "result" = .bool false →
      Unchanged r r' ∧ wins out = [] ∧ loses out = []) ↔ ¬Forges env r m := by
  constructor
  · intro hall hforges
    obtain ⟨hrun, hover, resp, hresp, hres⟩ := hforges.ends hm h
    have hsame := (hall resp hresp hres).1.statu
    rw [hrun, hover] at hsame
    cases hsame
  · intro hforges resp hresp hres
    obtain ⟨m', hm', hanswer⟩ := handleRequest_answer h
    obtain rfl := Except.ok.inj (hm.symm.trans hm')
    obtain ⟨rfl, hwins, hloses⟩ := (hanswer.of_refused hresp hres).resolve_right hforges
    exact ⟨Unchanged.refl r', hwins, hloses⟩

/-- White's message off the board in a room that nobody has played in yet. -/
theorem refusal_changes_nothing_iff_off_board : ∃ r' out,
    (create 1 10 20 0).handleRequest (.allPresent 0) (.obj (putChessMsg 1 10 (-1) 0)) = .ok (r', out) ∧
    ((∀ resp, Call.broadcast resp ∈ out → resp.get "result" = .bool false →
      Unchanged (create 1 10 20 0) r' ∧ wins out = [] ∧ loses out = []) ↔
        ¬Forges (.allPresent 0) (create 1 10 20 0) (putChessMsg 1 10 (-1) 0)) := by
  have h : (create 1 10 20 0).handleRequest (.allPresent 0) (.obj (putChessMsg 1 10 (-1) 0)) = .ok _ := rfl
  exact ⟨_, _, h, refusal_changes_nothing_iff rfl h⟩

/-- The forged move is answered with `result: false`, and the game is over. -/
theorem forged_refusal_ends_game : ¬∀ roomId w b now (ts : List RoomTrans) r env req r' out,
    machine.Run (create roomId w b now) ts r → r.handleRequest env req = .ok (r', out) →
    ∀ resp, Call.broadcast resp ∈ out → resp.get "result" = .bool false →
      Unchanged r r' ∧ wins out = [] ∧ loses out = [] := by
  intro hall
  have h : (create 1 10 20 0).handleRequest (.allPresent 0) (.obj ((putChessMsg 1 20 (-1) 0).set "winner" (.uint 20)))
      = .ok _ := rfl
  have hsame := (hall 1 10 20 0 [] _ _ _ _ _ .nil h _
    (List.mem_cons_of_mem _ (List.mem_cons_of_mem _ (List.mem_singleton_self _))) rfl).1.statu
  cases hsame

end Room
end FiveStones
