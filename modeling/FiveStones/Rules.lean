import FiveStones.Lib.Turns
import FiveStones.Play

/-! The rules of the game, without the network: two players at a table put stones on free places by turns, black first,
until one has five in a row, has no time left or is gone. As long as both are there they can play again, with the seats
swapped. -/

namespace FiveStones

/-- Black opens. -/
def stoneSides : Turns.Sides Chess := ⟨.black, .white, by decide⟩

/-- The board after the stones of a game. -/
def boardOf (p : Turns.Position Cell) : Board := p.owner stoneSides

structure Table where
  white : Uid
  black : Uid
  /-- Who has not gone yet. -/
  here : Uid → Bool
  /-- The game that is being played. -/
  game : Option (Turns.Position Cell)

inductive Turn
  | stone (c : Cell)
  | timeUp
  | depart (uid : Uid)
  | forfeit (uid : Uid)
  | again

namespace Table

def seatOf (t : Table) : Chess → Uid
  | .white => t.white
  | .black => t.black

def opponentOf (t : Table) (uid : Uid) : Uid := if uid = t.white then t.black else t.white

/-- Both players are there. -/
def Full (t : Table) : Prop := t.here t.white = true ∧ t.here t.black = true

instance : DecidablePred Full := fun _ => inferInstanceAs (Decidable (_ ∧ _))

/-- The game is over, and it is settled. -/
def settle (t : Table) (winner loser : Uid) : Table × List Call := ({ t with game := none }, [.win winner, .lose loser])

def start (w b : Uid) : Table := ⟨w, b, fun uid => uid = w ∨ uid = b, some .empty⟩

open Classical in
noncomputable def machine : Machine Table Turn Call where
  step t
    | .stone c =>
      match t.game with
      | none => none
      | some p =>
        if h : c ∉ p.points ∧ t.Full then
          let color := p.toMove stoneSides
          let p' := p.play c h.1
          if (boardOf p').FiveInRow color then some (t.settle (t.seatOf color) (t.opponentOf (t.seatOf color)))
          else some ({ t with game := some p' }, [])
        else none
    | .timeUp =>
      match t.game with
      | none => none
      | some p =>
        -- Nobody's time runs before the first stone.
        if p.points = [] then none
        else
          let loser := t.seatOf (p.toMove stoneSides)
          some (t.settle (t.opponentOf loser) loser)
    | .depart uid => some ({ t with here := Function.update t.here uid false }, [])
    | .forfeit uid =>
      if t.game ≠ none ∧ (uid = t.white ∨ uid = t.black) ∧ t.here uid = false then some (t.settle (t.opponentOf uid) uid)
      else none
    | .again =>
      if t.game = none ∧ t.Full then some ({ t with white := t.black, black := t.white, game := some .empty }, []) else none

end Table

end FiveStones
