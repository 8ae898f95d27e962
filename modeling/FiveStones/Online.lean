import FiveStones.Lib.Dict

/-! `online_manager`: which connection a user has in the hall and in a room.

A connection leaves the open state on its own, so whether one is open is not part of the manager: every
test takes the states of the connections at its moment. -/

namespace FiveStones

abbrev Uid := UInt64
abbrev ConnId := Nat

/-- The two maps of `online_manager`, from a user to a connection. -/
structure OnlineManager where
  gameHall : Dict Uid ConnId
  gameRoom : Dict Uid ConnId

namespace OnlineManager

def empty : OnlineManager := ⟨Dict.empty, Dict.empty⟩

def enterGameHall (om : OnlineManager) (uid : Uid) (conn : ConnId) : OnlineManager :=
  { om with gameHall := om.gameHall.assign uid conn }

def exitGameHall (om : OnlineManager) (uid : Uid) : OnlineManager :=
  { om with gameHall := om.gameHall.erase uid }

def enterGameRoom (om : OnlineManager) (uid : Uid) (conn : ConnId) : OnlineManager :=
  { om with gameRoom := om.gameRoom.assign uid conn }

def exitGameRoom (om : OnlineManager) (uid : Uid) : OnlineManager :=
  { om with gameRoom := om.gameRoom.erase uid }

/-- `conn_is_online` on what a lookup found. -/
def connIsOnline (isOpen : ConnId → Bool) : Option ConnId → Bool
  | none => false
  | some conn => isOpen conn

def inGameHall (om : OnlineManager) (isOpen : ConnId → Bool) (uid : Uid) : Bool :=
  connIsOnline isOpen (om.gameHall uid)

def inGameRoom (om : OnlineManager) (isOpen : ConnId → Bool) (uid : Uid) : Bool :=
  connIsOnline isOpen (om.gameRoom uid)

/-- `get_conn_from_game_hall`: the connection of a user, if it is open. -/
def getConnFromGameHall (om : OnlineManager) (isOpen : ConnId → Bool) (uid : Uid) : Option ConnId :=
  (om.gameHall uid).filter fun conn => isOpen conn

/-- `get_conn_from_game_room`: the same for a room. -/
def getConnFromGameRoom (om : OnlineManager) (isOpen : ConnId → Bool) (uid : Uid) : Option ConnId :=
  (om.gameRoom uid).filter fun conn => isOpen conn

end OnlineManager
end FiveStones
