import FiveStones.Lib.Machine
import FiveStones.Room

/-! Runs of a room: requests and exits in any order, with any presence of the players and any clock
    readings at each of them. -/

namespace FiveStones

inductive RoomEvent
  | request (env : Env) (req : Json)
  | exit (uid : Uid)

/-- A room as a machine. A request that throws has no step: the exception ends the server. -/
def Room.machine : Machine Room RoomEvent Call where
  step r
    | .request env req => (r.handleRequest env req).toOption
    | .exit uid => some (r.handleExit uid)

/-- The room that `create_room` makes for two users. -/
def Room.create (roomId : Nat) (white black : Uid) (now : Int) : Room :=
  ((Room.new roomId now).addWhiteUser white).addBlackUser black

abbrev RoomTrans := Machine.Trans Room RoomEvent Call

def wins (calls : List Call) : List Uid :=
  calls.filterMap fun
    | .win uid => some uid
    | _ => none

def loses (calls : List Call) : List Uid :=
  calls.filterMap fun
    | .lose uid => some uid
    | _ => none

/-- An environment with every user in the hall and in a room, one clock reading and no records. -/
def Env.allPresent (now : Int) : Env where
  om := ⟨fun _ => some 0, fun _ => some 0⟩
  isOpen _ := true
  selectById _ := none
  now := now
  later := now

/-- The message a client sends for a move. -/
def putChessMsg (roomId : Nat) (uid : Uid) (row col : Int) : Members :=
  [("room_id", .int roomId), ("optype", .str "put_chess"), ("uid", .uint uid), ("row", .int row), ("col", .int col)]

/-- The move of `uid` in room 1, with everyone present. -/
def move (now : Int) (uid : Uid) (row col : Int) : RoomEvent :=
  .request (.allPresent now) (.obj (putChessMsg 1 uid row col))

/-- The move of a player who has left the room, as everyone has. -/
def lonelyMove (now : Int) (uid : Uid) (row col : Int) : RoomEvent :=
  .request { Env.allPresent now with om := OnlineManager.empty } (.obj (putChessMsg 1 uid row col))

namespace RoomTrans

def Ends (x : RoomTrans) : Prop := x.before.statu = .gameStart ∧ x.after.statu = .gameOver

def Restarts (x : RoomTrans) : Prop := x.before.statu = .gameOver ∧ x.after.statu = .gameStart

instance : DecidablePred Ends := fun _ => inferInstanceAs (Decidable (_ ∧ _))
instance : DecidablePred Restarts := fun _ => inferInstanceAs (Decidable (_ ∧ _))

end RoomTrans
end FiveStones
