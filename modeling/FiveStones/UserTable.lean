import FiveStones.Lib.Machine
import FiveStones.Lib.Rows
import FiveStones.Room
import FiveStones.Sql

/-! `user_table`: the rows of the `user` table, and the statements that write them.

MySQL stands behind every one of them: an UPDATE that would take a column out of its type fails and changes
nothing. -/

namespace FiveStones

/-- A row, with `score BIGINT UNSIGNED` and the two counts `INT`. -/
structure UserRow where
  id : Uid
  username : String
  password : String
  score : Nat
  totalCount : Nat
  winCount : Nat

abbrev UserTable := List UserRow

def scoreEnd : Nat := 2 ^ 64
def countEnd : Nat := 2 ^ 31

/-- `set score=score+d, total_count=total_count+1, win_count=win_count+won`. -/
def UserRow.play (d : Int) (won : Nat) (row : UserRow) : Option UserRow :=
  if 0 ≤ row.score + d ∧ row.score + d < scoreEnd ∧ row.totalCount + 1 < countEnd ∧ row.winCount + won < countEnd then
    some { row with score := (row.score + d).toNat, totalCount := row.totalCount + 1, winCount := row.winCount + won }
  else none

namespace UserTable

/-- `insert`. MySQL refuses the statement, or stores a row under an id that it chooses. -/
def insert (id? : Option Uid) (t : UserTable) (user : Members) : Except Escape (UserTable × Bool) := do
  if (user.get "password").isNull || (user.get "username").isNull then return (t, false)
  else
    let username ← (user.get "username").asCString.mapError .json
    let password ← (user.get "password").asCString.mapError .json
    let _ ← Sql.print Sql.insertUser [.ofString username, .ofString password]
    match id? with
    | none => return (t, false)
    | some id => return (t ++ [⟨id, username, password, 1000, 0, 0⟩], true)

def win (t : UserTable) (id : Uid) : UserTable × Bool :=
  match Rows.update UserRow.id id (UserRow.play 30 1) t with
  | none => (t, false)
  | some t => (t, true)

def lose (t : UserTable) (id : Uid) : UserTable × Bool :=
  match Rows.update UserRow.id id (UserRow.play (-30) 0) t with
  | none => (t, false)
  | some t => (t, true)

/-- The calls of a room, made one after the other. It does not look at what they return. -/
def pay (t : UserTable) : List Call → UserTable
  | [] => t
  | .win uid :: calls => pay (t.win uid).1 calls
  | .lose uid :: calls => pay (t.lose uid).1 calls
  | _ :: calls => pay t calls

end UserTable

/-- What happens to the table: a registration, or the end of a game between two registered users. -/
inductive TableEvent
  | register (id? : Option Uid) (user : Members)
  | settle (winner loser : Uid)

def UserTable.Registered (t : UserTable) (uid : Uid) : Prop := ∃ row ∈ t, row.id = uid

instance (t : UserTable) : DecidablePred t.Registered := fun _ => inferInstanceAs (Decidable (∃ _ ∈ _, _))

/-- The table as a machine. The ids that MySQL chooses are new. -/
def UserTable.machine : Machine UserTable TableEvent Bool where
  step t
    | .register id? user =>
      if ∃ id ∈ id?, t.Registered id then none
      else
        match t.insert id? user with
        | .error _ => none
        | .ok (t, done) => some (t, [done])
    | .settle winner loser =>
      if winner ≠ loser ∧ t.Registered winner ∧ t.Registered loser then
        some (t.pay [.win winner, .lose loser], [])
      else none

abbrev TableTrans := Machine.Trans UserTable TableEvent Bool

end FiveStones
