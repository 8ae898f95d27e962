import FiveStones.Json
import FiveStones.Lib.Lexer
import FiveStones.Text

/-! The statements of `user_table` that hold a text of a user, as `sprintf` writes them. -/

namespace FiveStones

/-- What keeps a handler from coming back: an exception of a value, of a number in a text, or of a NULL taken as a
    text, or a statement that runs over the end of its buffer. -/
inductive Escape
  | json (e : JsonError)
  | number (e : Text.StoullError)
  | nullText
  | overrun
  deriving DecidableEq, Repr

namespace Sql

/-- The size of the buffer `sql`, in bytes. -/
def sqlSize : Nat := 4096

/-- `sprintf` for a format that has no other conversion than `%s`. -/
def sprintf : Text → List Text → Text
  | '%' :: 's' :: format, arg :: args => arg.cString ++ sprintf format args
  | c :: format, args => c :: sprintf format args
  | [], _ => []

/-- `sprintf` into `sql`, which does not look at the size of it. -/
def print (format : Text) (args : List Text) : Except Escape Text :=
  if (sprintf format args).length + 1 ≤ sqlSize then .ok (sprintf format args) else .error .overrun

/-- `INSERT_USER`. -/
def insertUser : Text := "insert user values(null, '%s', '%s', 1000, 0, 0);".toList

/-- `LOGIN_USER`. -/
def loginUser : Text :=
  "select id, score, total_count, win_count from user where username='%s' and password='%s' order by id desc limit 1;".toList

/-- `USER_BY_NAME`. -/
def userByName : Text := "select id, score, total_count, win_count from user where username='%s';".toList

end Sql

end FiveStones
