import FiveStones.Front

/-! The copy of a board that is kept from what the server sends: the snapshot of `spectate_ready`, then every
accepted `put_chess` and every `rematch_start`, as the game page reads them. -/

namespace FiveStones

namespace Json

/-- The number that a value is for a script. -/
def number? : Json → Option Rat
  | int n => some n
  | real q _ => some q
  | _ => none

/-- The integer that a value is for a script, to which 7.0 is 7. -/
def integer? : Json → Option Int
  | int n => some n
  | real q _ => if q.den = 1 then some q.num else none
  | _ => none

/-- Two values that are the same number. -/
def sameNumber (v w : Json) : Bool := v.number?.any fun q => w.number? = some q

end Json

/-- The cell that a message names by integers. -/
def cellOf (info : Members) : Option Cell :=
  match (info.get "row").integer?, (info.get "col").integer? with
  | some row, some col => Cell.of? row col
  | _, _ => none

structure Replica where
  board : Board
  whiteId : Json
  blackId : Json

namespace Replica

/-- A cell of a snapshot. -/
def drawCell (b : Board) : Json → Board
  | .obj cell =>
    match cellOf cell with
    | none => b
    | some c => b.set c (if (Members.get cell "color").integer? = some 1 then .white else .black)
  | _ => b

/-- What `spectate_ready` gives. -/
def join (ready : Members) : Replica where
  board :=
    match ready.get "board_snapshot" with
    | .arr cells => cells.foldl drawCell Board.empty
    | _ => Board.empty
  whiteId := ready.get "white_id"
  blackId := ready.get "black_id"

def colorOf (p : Replica) (uid : Json) : Chess := if uid.sameNumber p.whiteId then .white else .black

def handlePutChess (p : Replica) (info : Members) : Replica :=
  match cellOf info with
  | none => p
  | some c => { p with board := p.board.set c (p.colorOf (info.get "uid")) }

def applyRematchStart (info : Members) : Replica where
  board := Board.empty
  whiteId := info.get "white_id"
  blackId := info.get "black_id"

def onMessage (p : Replica) (info : Members) : Replica :=
  match info.get "result", (info.get "optype").asString with
  | .bool true, .ok optype =>
    if optype = "put_chess" then p.handlePutChess info
    else if optype = "rematch_start" then applyRematchStart info
    else p
  | _, _ => p

/-- The broadcasts among the calls, one after the other. -/
def follow (p : Replica) (calls : List Call) : Replica :=
  calls.foldl (fun p call =>
    match call with
    | .broadcast resp => p.onMessage resp
    | _ => p) p

end Replica
end FiveStones
