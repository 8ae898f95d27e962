import FiveStones.UserTable

/-! The rating ledger: what a settled game moves, and what the columns sum up to. -/

namespace FiveStones

namespace UserRow
variable {row row' : UserRow}

def CanWin (row : UserRow) : Prop :=
  row.score + 30 < scoreEnd ∧ row.totalCount + 1 < countEnd ∧ row.winCount + 1 < countEnd

/-- The loser's row takes another loss: it has the 30 points to give. -/
def CanLose (row : UserRow) : Prop := 30 ≤ row.score ∧ row.totalCount + 1 < countEnd

def InType (row : UserRow) : Prop := row.score < scoreEnd ∧ row.totalCount < countEnd ∧ row.winCount < countEnd

theorem play_win (h : row.CanWin) : row.play 30 1 =
    some { row with score := row.score + 30, totalCount := row.totalCount + 1, winCount := row.winCount + 1 } := by
  obtain ⟨h1, h2, h3⟩ := h
  have hscore : ((row.score : Int) + 30).toNat = row.score + 30 := by omega
  rw [play, if_pos ⟨by omega, by omega, h2, h3⟩, hscore]

theorem play_win_none (h : ¬row.CanWin) : row.play 30 1 = none :=
  if_neg fun ⟨_, h1, h2, h3⟩ => h ⟨by omega, h2, h3⟩

theorem play_lose (h : row.CanLose) (hin : row.InType) : row.play (-30) 0 =
    some { row with score := row.score - 30, totalCount := row.totalCount + 1 } := by
  obtain ⟨h1, h2⟩ := h
  obtain ⟨h3, -, h4⟩ := hin
  have hscore : ((row.score : Int) + -30).toNat = row.score - 30 := by omega
  rw [play, if_pos ⟨by omega, by omega, h2, h4⟩, hscore]
  rfl

theorem play_lose_none (h : ¬row.CanLose) : row.play (-30) 0 = none :=
  if_neg fun ⟨h1, _, h2, _⟩ => h ⟨by omega, h2⟩

end UserRow

namespace UserTable
variable {t t' : UserTable} {winner loser uid : Uid} {games : Nat} {row row' : UserRow} {e : TableEvent} {out : List Bool}

/-- No id is used twice, and the columns are in their types. -/
structure Sound (t : UserTable) : Prop where
  ids : (t.map UserRow.id).Nodup
  inType : ∀ row ∈ t, row.InType

/-- After so many games: what was paid to winners was taken from losers, and every game counts once for each
    side and once as a win. -/
structure Balanced (games : Nat) (t : UserTable) : Prop where
  score : (t.map UserRow.score).sum = 1000 * t.length
  total : (t.map UserRow.totalCount).sum = 2 * games
  wins : (t.map UserRow.winCount).sum = games
  winsLe : ∀ row ∈ t, row.winCount ≤ row.totalCount

def Payable (t : UserTable) (winner loser : Uid) : Prop :=
  (∀ row ∈ t, row.id = winner → row.CanWin) ∧ ∀ row ∈ t, row.id = loser → row.CanLose

theorem Sound.unique (h : Sound t) (hrow : row ∈ t) (hrow' : row' ∈ t) (hid : row.id = row'.id) : row = row' :=
  List.inj_on_of_nodup_map h.ids hrow hrow' hid

/-! ### One update -/

/-- What `win` does to a table, given the winner's row: one row is rewritten, or nothing. -/
theorem win_eq (h : Sound t) (hrow : row ∈ t) (hcan : row.CanWin) :
    ∃ before after, t = before ++ row :: after ∧ t.win row.id = (before ++
      { row with score := row.score + 30, totalCount := row.totalCount + 1, winCount := row.winCount + 1 } :: after, true) := by
  obtain ⟨before, after, ht, hup⟩ := Rows.update_eq_some h.ids hrow rfl (UserRow.play_win hcan)
  exact ⟨before, after, ht, by simp only [win, hup]⟩

theorem win_fails (hrow : row ∈ t) (hcan : ¬row.CanWin) : t.win row.id = (t, false) := by
  simp only [win, Rows.update_eq_none hrow rfl (UserRow.play_win_none hcan)]

theorem lose_eq (h : Sound t) (hrow : row ∈ t) (hcan : row.CanLose) :
    ∃ before after, t = before ++ row :: after ∧ t.lose row.id =
      (before ++ { row with score := row.score - 30, totalCount := row.totalCount + 1 } :: after, true) := by
  obtain ⟨before, after, ht, hup⟩ := Rows.update_eq_some h.ids hrow rfl (UserRow.play_lose hcan (h.inType row hrow))
  exact ⟨before, after, ht, by simp only [lose, hup]⟩

theorem lose_fails (hrow : row ∈ t) (hcan : ¬row.CanLose) : t.lose row.id = (t, false) := by
  simp only [lose, Rows.update_eq_none hrow rfl (UserRow.play_lose_none hcan)]

/-- What one update leaves, by the difference that it makes to each column. -/
structure Moves (t t' : UserTable) (uid : Uid) (up down played won : Nat) : Prop where
  sound : Sound t'
  length : t'.length = t.length
  score : (t'.map UserRow.score).sum + down = (t.map UserRow.score).sum + up
  total : (t'.map UserRow.totalCount).sum = (t.map UserRow.totalCount).sum + played
  wins : (t'.map UserRow.winCount).sum = (t.map UserRow.winCount).sum + won
  winsLe : (∀ row ∈ t, row.winCount ≤ row.totalCount) → ∀ row ∈ t', row.winCount ≤ row.totalCount
  others : ∀ row, row.id ≠ uid → (row ∈ t' ↔ row ∈ t)

theorem Moves.refl (h : Sound t) (uid : Uid) : Moves t t uid 0 0 0 0 := ⟨h, rfl, rfl, rfl, rfl, id, fun _ _ => Iff.rfl⟩

theorem moves_of_replace {before after : List UserRow} {up down played won : Nat} (h : Sound (before ++ row :: after))
    (hid : row'.id = row.id) (hin : row'.InType) (hscore : row'.score + down = row.score + up)
    (htotal : row'.totalCount = row.totalCount + played) (hwins : row'.winCount = row.winCount + won) (hle : won ≤ played) :
    Moves (before ++ row :: after) (before ++ row' :: after) row.id up down played won where
  sound := by
    refine ⟨?_, fun x hx => ?_⟩
    · have := h.ids
      simpa [hid] using this
    · rcases List.mem_append.mp hx with hx | hx
      · exact h.inType x (List.mem_append_left _ hx)
      · rcases List.mem_cons.mp hx with rfl | hx
        · exact hin
        · exact h.inType x (List.mem_append_right _ (List.mem_cons_of_mem _ hx))
  length := by simp
  score := by
    have := Rows.sum_replace UserRow.score before after row row'
    omega
  total := by
    have := Rows.sum_replace UserRow.totalCount before after row row'
    omega
  wins := by
    have := Rows.sum_replace UserRow.winCount before after row row'
    omega
  winsLe hall x hx := by
    rcases List.mem_append.mp hx with hx | hx
    · exact hall x (List.mem_append_left _ hx)
    · rcases List.mem_cons.mp hx with rfl | hx
      · have := hall row (by simp)
        omega
      · exact hall x (List.mem_append_right _ (List.mem_cons_of_mem _ hx))
  others x hx := by
    have hne : x ≠ row := fun heq => hx (heq ▸ rfl)
    have hne' : x ≠ row' := fun heq => hx (heq ▸ hid)
    simp [hne, hne']

theorem win_moves (h : Sound t) (hrow : row ∈ t) (hcan : row.CanWin) : Moves t (t.win row.id).1 row.id 30 0 1 1 := by
  obtain ⟨before, after, rfl, hwin⟩ := win_eq h hrow hcan
  rw [hwin]
  exact moves_of_replace h rfl hcan rfl rfl rfl (Nat.le_refl 1)

theorem lose_moves (h : Sound t) (hrow : row ∈ t) (hcan : row.CanLose) : Moves t (t.lose row.id).1 row.id 0 30 1 0 := by
  obtain ⟨before, after, rfl, hlose⟩ := lose_eq h hrow hcan
  rw [hlose]
  obtain ⟨h1, -, h3⟩ := h.inType row hrow
  obtain ⟨hscore, hcount⟩ := hcan
  refine moves_of_replace h rfl ⟨?_, hcount, h3⟩ ?_ rfl rfl (Nat.zero_le 1)
  · show row.score - 30 < scoreEnd
    omega
  · show row.score - 30 + 30 = row.score + 0
    omega

/-! ### One settlement -/

/-- A settlement makes each of its two updates or does not, as the rows allow. -/
theorem settle_moves (h : Sound t) (hne : winner ≠ loser) (hw : t.Registered winner) (hl : t.Registered loser) :
    ∃ t₁ won lost, Moves t t₁ winner (30 * won) 0 won won ∧
      Moves t₁ (t.pay [.win winner, .lose loser]) loser 0 (30 * lost) lost 0 ∧
      won ≤ 1 ∧ lost ≤ 1 ∧ (t.Payable winner loser ↔ won = 1 ∧ lost = 1) := by
  obtain ⟨wrow, hwrow, rfl⟩ := hw
  obtain ⟨lrow, hlrow, rfl⟩ := hl
  have hpay : t.Payable wrow.id lrow.id ↔ wrow.CanWin ∧ lrow.CanLose := by
    constructor
    · exact fun hp => ⟨hp.1 wrow hwrow rfl, hp.2 lrow hlrow rfl⟩
    · exact fun hp => ⟨fun row hrow hid => h.unique hrow hwrow hid ▸ hp.1,
        fun row hrow hid => h.unique hrow hlrow hid ▸ hp.2⟩
  obtain ⟨won, hwon, hmoves₁, hcanWin⟩ : ∃ won, won ≤ 1 ∧ Moves t (t.win wrow.id).1 wrow.id (30 * won) 0 won won ∧
      (wrow.CanWin ↔ won = 1) := by
    by_cases hcan : wrow.CanWin
    · exact ⟨1, Nat.le_refl 1, win_moves h hwrow hcan, by simp [hcan]⟩
    · exact ⟨0, Nat.zero_le 1, by rw [win_fails hwrow hcan]; exact .refl h _, by simp [hcan]⟩
  have hlrow₁ : lrow ∈ (t.win wrow.id).1 := (hmoves₁.others lrow (Ne.symm hne)).mpr hlrow
  obtain ⟨lost, hlost, hmoves₂, hcanLose⟩ : ∃ lost, lost ≤ 1 ∧
      Moves (t.win wrow.id).1 ((t.win wrow.id).1.lose lrow.id).1 lrow.id 0 (30 * lost) lost 0 ∧
      (lrow.CanLose ↔ lost = 1) := by
    by_cases hcan : lrow.CanLose
    · exact ⟨1, Nat.le_refl 1, lose_moves hmoves₁.sound hlrow₁ hcan, by simp [hcan]⟩
    · exact ⟨0, Nat.zero_le 1, by rw [lose_fails hlrow₁ hcan]; exact .refl hmoves₁.sound _, by simp [hcan]⟩
  exact ⟨_, won, lost, hmoves₁, hmoves₂, hwon, hlost, by rw [hpay, hcanWin, hcanLose]⟩

/-- A settlement keeps a balanced ledger balanced exactly when both sides can be settled. -/
theorem Balanced.settle_iff (hb : Balanced games t) (h : Sound t) (hne : winner ≠ loser) (hw : t.Registered winner)
    (hl : t.Registered loser) : Balanced (games + 1) (t.pay [.win winner, .lose loser]) ↔ t.Payable winner loser := by
  obtain ⟨t₁, won, lost, hmoves₁, hmoves₂, hwon, hlost, hpay⟩ := settle_moves h hne hw hl
  have hscore₁ := hmoves₁.score
  have hscore₂ := hmoves₂.score
  have htotal₁ := hmoves₁.total
  have htotal₂ := hmoves₂.total
  have hwins₁ := hmoves₁.wins
  have hwins₂ := hmoves₂.wins
  have hlength := hmoves₂.length.trans hmoves₁.length
  have hscore := hb.score
  have htotal := hb.total
  have hwins := hb.wins
  rw [hpay]
  constructor
  · intro hb'
    have htotal' := hb'.total
    omega
  · rintro ⟨rfl, rfl⟩
    refine ⟨?_, ?_, ?_, hmoves₂.winsLe (hmoves₁.winsLe hb.winsLe)⟩
    · rw [hlength]
      omega
    · omega
    · omega

/-! ### One registration -/

theorem insert_cases {id? : Option Uid} {user : Members} {done : Bool} (h : t.insert id? user = .ok (t', done)) :
    t' = t ∨ ∃ id username password, id? = some id ∧ (user.get "username").asCString = .ok username ∧
      t' = t ++ [⟨id, username, password, 1000, 0, 0⟩] := by
  unfold insert at h
  split at h
  · cases h
    exact Or.inl rfl
  · obtain ⟨username, hname, h⟩ := ok_of_bind h
    obtain ⟨password, -, h⟩ := ok_of_bind h
    obtain ⟨sql, -, h⟩ := ok_of_bind h
    split at h
    · cases h
      exact Or.inl rfl
    · cases h
      exact Or.inr ⟨_, username, password, rfl, ok_of_mapError hname, rfl⟩

theorem Sound.register (h : Sound t) {id : Uid} (hnew : ¬t.Registered id) (username password : String) :
    Sound (t ++ [⟨id, username, password, 1000, 0, 0⟩]) where
  ids := by
    rw [List.map_append, List.nodup_append]
    refine ⟨h.ids, by simp, fun id₁ h₁ id₂ h₂ heq => hnew ?_⟩
    obtain rfl : id₂ = id := by simpa using h₂
    obtain ⟨row, hrow, hid⟩ := List.mem_map.mp h₁
    exact ⟨row, hrow, hid.trans heq⟩
  inType row hrow := by
    rcases List.mem_append.mp hrow with hrow | hrow
    · exact h.inType row hrow
    · obtain rfl := List.mem_singleton.mp hrow
      exact ⟨(by decide : 1000 < scoreEnd), (by decide : 0 < countEnd), (by decide : 0 < countEnd)⟩

theorem Balanced.register (hb : Balanced games t) (id : Uid) (username password : String) :
    Balanced games (t ++ [⟨id, username, password, 1000, 0, 0⟩]) where
  score := by
    simp [hb.score]
    omega
  total := by simp [hb.total]
  wins := by simp [hb.wins]
  winsLe row hrow := by
    rcases List.mem_append.mp hrow with hrow | hrow
    · exact hb.winsLe row hrow
    · obtain rfl := List.mem_singleton.mp hrow
      exact Nat.le_refl 0

end UserTable

/-! ### Runs -/

namespace TableTrans

def settles (x : TableTrans) : Bool :=
  match x.event with
  | .settle _ _ => true
  | .register _ _ => false

def Payable (x : TableTrans) : Prop := ∀ winner loser, x.event = .settle winner loser → x.before.Payable winner loser

end TableTrans

namespace UserTable
variable {t t' : UserTable} {e : TableEvent} {out : List Bool} {ts : List TableTrans} {games : Nat}

theorem step_cases (h : machine.step t e = some (t', out)) :
    (∃ winner loser, e = .settle winner loser ∧ winner ≠ loser ∧ t.Registered winner ∧ t.Registered loser ∧
      t' = t.pay [.win winner, .lose loser]) ∨
      ∃ id? user, e = .register id? user ∧ (t' = t ∨ ∃ id username password, ¬t.Registered id ∧
        t' = t ++ [⟨id, username, password, 1000, 0, 0⟩]) := by
  cases e with
  | register id? user =>
    simp only [machine] at h
    split at h
    · cases h
    rename_i hnew
    split at h
    · cases h
    · rename_i t₁ done hins
      cases h
      refine Or.inr ⟨id?, user, rfl, ?_⟩
      rcases insert_cases hins with rfl | ⟨id, username, password, rfl, -, rfl⟩
      · exact Or.inl rfl
      · exact Or.inr ⟨id, username, password, fun h => hnew ⟨id, rfl, h⟩, rfl⟩
  | settle winner loser =>
    simp only [machine] at h
    split at h
    · rename_i hguard
      cases h
      exact Or.inl ⟨winner, loser, rfl, hguard.1, hguard.2.1, hguard.2.2, rfl⟩
    · cases h

theorem Sound.step (h : Sound t) (hs : machine.step t e = some (t', out)) : Sound t' := by
  rcases step_cases hs with ⟨winner, loser, -, hne, hw, hl, rfl⟩ | ⟨id?, user, -, rfl | ⟨id, username, password, hnew, rfl⟩⟩
  · obtain ⟨t₁, won, lost, -, hmoves₂, -⟩ := settle_moves h hne hw hl
    exact hmoves₂.sound
  · exact h
  · exact h.register hnew username password

theorem run_sound (h : machine.Run [] ts t) : Sound t :=
  h.invariant ⟨List.nodup_nil, fun _ hrow => by cases hrow⟩ Sound.step

theorem Balanced.step_iff (hb : Balanced games t) (h : Sound t) (hs : machine.step t e = some (t', out)) :
    Balanced (games + [(⟨t, e, t', out⟩ : TableTrans)].countP TableTrans.settles) t' ↔
      TableTrans.Payable ⟨t, e, t', out⟩ := by
  rcases step_cases hs with ⟨winner, loser, rfl, hne, hw, hl, rfl⟩ | ⟨id?, user, rfl, hrow⟩
  · rw [List.countP_cons_of_pos rfl, List.countP_nil, hb.settle_iff h hne hw hl]
    constructor
    · intro hpay winner' loser' heq
      obtain ⟨rfl, rfl⟩ := TableEvent.settle.inj heq
      exact hpay
    · exact fun hpay => hpay winner loser rfl
  · rw [List.countP_cons_of_neg (by simp [TableTrans.settles]), List.countP_nil, Nat.add_zero]
    refine ⟨fun _ winner loser heq => (by cases heq), fun _ => ?_⟩
    rcases hrow with rfl | ⟨id, username, password, -, rfl⟩
    · exact hb
    · exact hb.register id username password

def BalancedThroughout (ts : List TableTrans) : Prop :=
  ∀ us x vs, ts = us ++ x :: vs → Balanced ((us ++ [x]).countP TableTrans.settles) x.after

theorem BalancedThroughout.of_snoc {x : TableTrans} (h : BalancedThroughout (ts ++ [x])) : BalancedThroughout ts :=
  fun us y vs hts => h us y (vs ++ [x]) (by simp [hts])

theorem BalancedThroughout.snoc {x : TableTrans} (h : BalancedThroughout ts)
    (hx : Balanced ((ts ++ [x]).countP TableTrans.settles) x.after) : BalancedThroughout (ts ++ [x]) := by
  intro us y vs hts
  rcases vs.eq_nil_or_concat with rfl | ⟨vs, z, rfl⟩
  · obtain ⟨rfl, rfl⟩ := List.append_singleton_inj.mp hts
    exact hx
  · have hts' : ts ++ [x] = (us ++ y :: vs) ++ [z] := by simpa using hts
    obtain ⟨rfl, -⟩ := List.append_singleton_inj.mp hts'
    exact h us y vs rfl

/-- The ledger is balanced throughout a run exactly when every game could be settled on both sides: the loser
    had the 30 points, and no column was at its end. -/
theorem balanced_iff_payable (h : machine.Run [] ts t) : BalancedThroughout ts ↔ ∀ x ∈ ts, x.Payable := by
  suffices both : (BalancedThroughout ts ↔ ∀ x ∈ ts, x.Payable) ∧
      (BalancedThroughout ts → Balanced (ts.countP TableTrans.settles) t) from both.1
  induction h with
  | nil =>
    refine ⟨⟨fun _ _ hx => (nomatch hx), fun _ us x vs hts => ?_⟩, fun _ => ⟨rfl, rfl, rfl, fun _ hrow => nomatch hrow⟩⟩
    simp at hts
  | @snoc ts t u e out h hs ih =>
    obtain ⟨ih, hbal⟩ := ih
    have hstep : BalancedThroughout ts → (Balanced ((ts ++ [Machine.Trans.mk t e u out]).countP TableTrans.settles) u ↔
        TableTrans.Payable ⟨t, e, u, out⟩) := fun hall => by
      rw [List.countP_append]
      exact (hbal hall).step_iff (run_sound h) hs
    have hlast : BalancedThroughout (ts ++ [Machine.Trans.mk t e u out]) →
        Balanced ((ts ++ [Machine.Trans.mk t e u out]).countP TableTrans.settles) u := fun hall => hall ts _ [] rfl
    refine ⟨⟨fun hall x hx => ?_, fun hall => ?_⟩, hlast⟩
    · rcases List.mem_append.mp hx with hx | hx
      · exact ih.mp hall.of_snoc x hx
      · obtain rfl := List.mem_singleton.mp hx
        exact (hstep hall.of_snoc).mp (hlast hall)
    · have hts := ih.mpr fun y hy => hall y (List.mem_append_left _ hy)
      exact hts.snoc ((hstep hts).mpr (hall _ (List.mem_append_right _ (List.mem_singleton_self _))))

def newUser : Members := [("username", .str "a"), ("password", .str "p")]

theorem balanced_one_game : ∃ (ts : List TableTrans) (t : UserTable), machine.Run [] ts t ∧
    ts.countP TableTrans.settles = 1 ∧ (BalancedThroughout ts ↔ ∀ x ∈ ts, x.Payable) := by
  obtain ⟨ts, t, h, hcount⟩ := Machine.Run.exists_of_exec machine []
    [.register (some 1) newUser, .register (some 2) newUser, .settle 1 2]
    (fun (ts : List TableTrans) _ => ts.countP TableTrans.settles = 1) (by decide +kernel)
  exact ⟨ts, t, h, hcount, balanced_iff_payable h⟩

/-- User 2 loses 34 games to user 1: the last loss is not taken, the last win is. -/
theorem lost_34_games : ¬∀ (ts : List TableTrans) t, machine.Run [] ts t → Balanced (ts.countP TableTrans.settles) t := by
  intro hall
  obtain ⟨ts, t, h, hsum⟩ := Machine.Run.exists_of_exec machine []
    (.register (some 1) newUser :: .register (some 2) newUser :: List.replicate 34 (.settle 1 2))
    (fun _ t => (t.map UserRow.score).sum = 2030 ∧ t.length = 2) (by decide +kernel)
  have hscore := (hall ts t h).score
  rw [hsum.1, hsum.2] at hscore
  cases hscore

end UserTable
end FiveStones
