import FiveStones.Front
import FiveStones.Theorems.RoomStep
import FiveStones.Theorems.Statement

/-! The bodies that the handlers can convert: those that no exception and no overrun comes of. -/

namespace FiveStones

/-- The call comes back: no exception escapes from it, and it stays within its buffers. -/
def Returns {ε α : Type} (x : Except ε α) : Prop := ∃ a, x = .ok a

section
variable {ε ε' α β : Type} {x : Except ε α} {f : α → Except ε β}

@[simp] theorem returns_ok (a : α) : Returns (.ok a : Except ε α) := ⟨a, rfl⟩

@[simp] theorem returns_pure (a : α) : Returns (pure a : Except ε α) := ⟨a, rfl⟩

@[simp] theorem not_returns_error (e : ε) : ¬Returns (.error e : Except ε α) := by
  rintro ⟨a, h⟩
  cases h

theorem returns_bind : Returns (x >>= f) ↔ ∃ a, x = .ok a ∧ Returns (f a) := by
  constructor
  · rintro ⟨b, h⟩
    obtain ⟨a, ha, hf⟩ := ok_of_bind h
    exact ⟨a, ha, b, hf⟩
  · rintro ⟨a, rfl, h⟩
    exact h

/-- What comes after the first call does not throw. -/
theorem returns_bind_iff (h : ∀ a, x = .ok a → Returns (f a)) : Returns (x >>= f) ↔ Returns x :=
  returns_bind.trans ⟨fun ⟨a, ha, _⟩ => ⟨a, ha⟩, fun ⟨a, ha⟩ => ⟨a, ha, h a ha⟩⟩

theorem returns_guard {C : Prop} [Decidable C] {a : α} {e : ε} :
    Returns (if C then .ok a else .error e : Except ε α) ↔ C := by
  split <;> simp [*]

end

/-! ### Conversions -/

namespace Json

/-- A number, a boolean or null, and within the range of `asInt`. -/
def FitsInt : Json → Prop
  | null | bool _ => True
  | int n => -2147483648 ≤ n ∧ n ≤ 2147483647
  | real q _ => -2147483648 ≤ q ∧ q ≤ 2147483647
  | _ => False

def FitsUInt64 : Json → Prop
  | null | bool _ => True
  | int n => 0 ≤ n ∧ n < 2 ^ 64
  | real q _ => 0 ≤ q ∧ q < 2 ^ 64
  | _ => False

/-- Anything but an array or an object. -/
def HasText : Json → Prop
  | arr _ | obj _ => False
  | _ => True

variable {v : Json}

theorem asInt_returns : Returns v.asInt ↔ v.FitsInt := by
  cases v with
  | int | real => exact returns_guard
  | null | bool | str | arr | obj => simp [asInt, FitsInt]

theorem asUInt64_returns : Returns v.asUInt64 ↔ v.FitsUInt64 := by
  cases v with
  | int | real => exact returns_guard
  | null | bool | str | arr | obj => simp [asUInt64, FitsUInt64]

theorem asString_returns : Returns v.asString ↔ v.HasText := by
  cases v <;> simp [asString, HasText]

end Json

/-! ### `handle_request` -/

namespace Room
variable {env : Env} {r r' : Room} {m resp : Members} {uid : Uid} {ms : Nat}

theorem handleChess_returns : Returns (r.handleChess env m) ↔
    (m.get "row").FitsInt ∧ (m.get "col").FitsInt ∧ (m.get "uid").FitsUInt64 := by
  rw [← Json.asInt_returns, ← Json.asInt_returns, ← Json.asUInt64_returns]
  constructor
  · rintro ⟨x, h⟩
    obtain ⟨row, hrow, h⟩ := ok_of_bind h
    obtain ⟨col, hcol, h⟩ := ok_of_bind h
    obtain ⟨uid, huid, -⟩ := ok_of_bind h
    exact ⟨⟨row, hrow⟩, ⟨col, hcol⟩, ⟨uid, huid⟩⟩
  · rintro ⟨⟨row, hrow⟩, ⟨col, hcol⟩, ⟨uid, huid⟩⟩
    simp only [handleChess, hrow, hcol, huid, bind, Except.bind]
    split
    · exact ⟨_, rfl⟩
    split
    · exact ⟨_, rfl⟩
    split
    · exact ⟨_, rfl⟩
    split
    · exact ⟨_, rfl⟩
    · exact ⟨_, rfl⟩

theorem afterChess_returns : Returns (r.afterChess env uid ms resp) ↔
    Returns (resp.get "result").asBool ∧ (resp.get "winner").FitsUInt64 := by
  rw [← Json.asUInt64_returns]
  constructor
  · rintro ⟨x, h⟩
    obtain ⟨accepted, hacc, h⟩ := ok_of_bind h
    obtain ⟨winner, hwin, -⟩ := ok_of_bind h
    exact ⟨⟨accepted, hacc⟩, ⟨winner, hwin⟩⟩
  · rintro ⟨⟨accepted, hacc⟩, ⟨winner, hwin⟩⟩
    simp only [afterChess, hacc, hwin, bind, Except.bind]
    split
    · exact ⟨_, rfl⟩
    · exact ⟨_, rfl⟩

/-- The move that `put_chess` lets through to `handle_chess` comes back, when its coordinates can be converted and,
    where it is refused, its own `winner`. -/
theorem chess_returns (huid : (m.get "uid").FitsUInt64) :
    Returns (r.handleChess env m >>= fun x => x.1.afterChess env uid ms x.2) ↔
      (m.get "row").FitsInt ∧ (m.get "col").FitsInt ∧ (Refuses env r m → (m.get "winner").FitsUInt64) := by
  rw [returns_bind]
  constructor
  · rintro ⟨⟨r', resp⟩, hchess, hafter⟩
    obtain ⟨hrow, hcol, -⟩ := handleChess_returns.mp ⟨_, hchess⟩
    refine ⟨hrow, hcol, fun hrefuses => ?_⟩
    rw [← ((handleChess_inv hchess).of_refuses hrefuses).2.2]
    exact (afterChess_returns.mp hafter).2
  · rintro ⟨hrow, hcol, hwinner⟩
    obtain ⟨⟨r', resp⟩, hchess⟩ := handleChess_returns.mpr ⟨hrow, hcol, huid⟩
    refine ⟨_, hchess, afterChess_returns.mpr ?_⟩
    cases handleChess_inv hchess with
    | refused hr hc hwhy hres heq =>
      rw [hres, heq]
      exact ⟨⟨false, rfl⟩, hwinner ⟨_, _, hr, hc, hwhy⟩⟩
    | walkover _ _ _ _ hres heq | placed _ _ _ _ _ _ hres heq =>
      rw [hres, heq, ← Json.asUInt64_returns, Json.asUInt64_uint]
      exact ⟨⟨true, rfl⟩, returns_ok _⟩

theorem putChess_returns (asks : Asks r m "put_chess") : Returns (r.putChess env m) ↔ (m.get "uid").FitsUInt64 ∧
    ∀ uid, Admits env r m uid → (m.get "row").FitsInt ∧ (m.get "col").FitsInt ∧
      (Refuses env r m → (m.get "winner").FitsUInt64) := by
  constructor
  · intro hreturns
    obtain ⟨uid, huid, -⟩ := returns_bind.mp hreturns
    have hfits : (m.get "uid").FitsUInt64 := Json.asUInt64_returns.mp ⟨uid, huid⟩
    refine ⟨hfits, fun uid' admits => ?_⟩
    rw [admits.putChess_eq] at hreturns
    exact (chess_returns hfits).mp hreturns
  · rintro ⟨hfits, hreads⟩
    obtain ⟨uid, huid⟩ := Json.asUInt64_returns.mpr hfits
    refine returns_bind.mpr ⟨uid, huid, ?_⟩
    split
    · exact returns_pure _
    rename_i hover
    split
    · exact returns_pure _
    rename_i hwait
    simp only
    split
    · exact returns_pure _
    rename_i htime
    have running : r.statu = .gameStart := by
      cases hs : r.statu with
      | gameStart => rfl
      | gameOver => exact absurd hs hover
    have turn : r.timingStarted = true → uid = r.turnUid := fun ht => by
      by_contra hne
      exact hwait ⟨ht, hne⟩
    exact (chess_returns hfits).mpr (hreads uid ⟨asks, huid, running, turn, fun ht => by simpa [ht] using htime⟩)

/-- What a message in the room needs: its members convert as far as the branch that it takes reads them. -/
structure Reads (env : Env) (r : Room) (m : Members) : Prop where
  roomId : (m.get "room_id").FitsUInt64
  optype : (m.get "optype").HasText
  uid : ∀ optype ∈ ["put_chess", "timeout", "rematch_invite", "rematch_accept"], Asks r m optype → (m.get "uid").FitsUInt64
  chess : ∀ uid, Admits env r m uid → (m.get "row").FitsInt ∧ (m.get "col").FitsInt ∧
    (Refuses env r m → (m.get "winner").FitsUInt64)
  message : Asks r m "chat" → (m.get "message").HasText

theorem timeout_returns : Returns (r.timeout env m) ↔ (m.get "uid").FitsUInt64 := by
  rw [← Json.asUInt64_returns]
  refine returns_bind_iff fun uid _ => ?_
  split
  · exact returns_pure _
  split
  · exact returns_pure _
  split
  · exact returns_pure _
  simp only
  split
  · exact returns_pure _
  · exact returns_pure _

theorem rematchInvite_returns : Returns (r.rematchInvite env m) ↔ (m.get "uid").FitsUInt64 := by
  rw [← Json.asUInt64_returns]
  refine returns_bind_iff fun uid _ => ?_
  repeat' split
  all_goals exact returns_pure _

theorem rematchAccept_returns : Returns (r.rematchAccept env m) ↔ (m.get "uid").FitsUInt64 := by
  rw [← Json.asUInt64_returns]
  refine returns_bind_iff fun uid _ => ?_
  repeat' split
  all_goals exact returns_pure _

theorem handleChat_returns : Returns (handleChat m) ↔ (m.get "message").HasText := by
  rw [← Json.asString_returns]
  refine returns_bind_iff fun msg _ => ?_
  split
  · exact returns_pure _
  · exact returns_pure _

theorem handleRequest_obj_returns : Returns (r.handleRequest env (.obj m)) ↔ r.Reads env m := by
  change Returns ((m.get "room_id").asUInt64 >>= fun roomId => (m.get "optype").asString >>= fun optype => _) ↔ _
  constructor
  · rintro ⟨x, h⟩
    obtain ⟨roomId, hroom, h⟩ := ok_of_bind h
    obtain ⟨optype, hopt, h⟩ := ok_of_bind h
    have hbranch : ∀ optype', Asks r m optype' → optype = optype' ∧ ¬roomId.toNat ≠ r.roomId := by
      rintro optype' ⟨⟨roomId', hroom', hid⟩, hopt'⟩
      obtain rfl := Except.ok.inj (hroom.symm.trans hroom')
      exact ⟨Except.ok.inj (hopt.symm.trans hopt'), fun hne => hne hid⟩
    refine ⟨Json.asUInt64_returns.mp ⟨roomId, hroom⟩, Json.asString_returns.mp ⟨optype, hopt⟩, fun optype' hmem asks => ?_,
      fun uid admits => ?_, fun asks => ?_⟩
    · obtain ⟨rfl, hid⟩ := hbranch optype' asks
      rw [if_neg hid] at h
      simp only [List.mem_cons, List.not_mem_nil, or_false] at hmem
      rcases hmem with rfl | rfl | rfl | rfl
      · exact ((putChess_returns asks).mp ⟨x, by simpa using h⟩).1
      · exact timeout_returns.mp ⟨x, by simpa using h⟩
      · exact rematchInvite_returns.mp ⟨x, by simpa using h⟩
      · exact rematchAccept_returns.mp ⟨x, by simpa using h⟩
    · obtain ⟨rfl, hid⟩ := hbranch _ admits.asks
      rw [if_neg hid] at h
      exact ((putChess_returns admits.asks).mp ⟨x, by simpa using h⟩).2 uid admits
    · obtain ⟨rfl, hid⟩ := hbranch _ asks
      rw [if_neg hid] at h
      simp only [String.reduceEq, ↓reduceIte] at h
      obtain ⟨resp, hresp, -⟩ := ok_of_bind h
      exact handleChat_returns.mp ⟨resp, hresp⟩
  · intro hreads
    obtain ⟨roomId, hroom⟩ := Json.asUInt64_returns.mpr hreads.roomId
    obtain ⟨optype, hopt⟩ := Json.asString_returns.mpr hreads.optype
    refine returns_bind.mpr ⟨roomId, hroom, returns_bind.mpr ⟨optype, hopt, ?_⟩⟩
    split
    · exact returns_pure _
    rename_i hid
    have asks : Asks r m optype := ⟨⟨roomId, hroom, not_not.mp hid⟩, hopt⟩
    split
    · rename_i heq
      subst heq
      exact (putChess_returns asks).mpr ⟨hreads.uid _ (by simp) asks, hreads.chess⟩
    split
    · rename_i heq
      exact timeout_returns.mpr (hreads.uid optype (by simp [heq]) asks)
    split
    · rename_i heq
      exact rematchInvite_returns.mpr (hreads.uid optype (by simp [heq]) asks)
    split
    · rename_i heq
      exact rematchAccept_returns.mpr (hreads.uid optype (by simp [heq]) asks)
    split
    · rename_i heq
      exact (returns_bind_iff fun _ _ => returns_pure _).mpr (handleChat_returns.mpr (hreads.message (heq ▸ asks)))
    · exact returns_pure _

end Room

/-! ### The handlers -/

section
variable {s : Server} {env : Env} {rm : RoomManager} {selectById : Uid → Option Members} {uid : Uid} {conn : ConnId}
  {body : Json}

end

namespace Handler

end Handler
end FiveStones
