import FiveStones.Text

/-! `http_callback`, and `file_handler`, which it hands every request to that it has no other handler for. -/

namespace FiveStones

inductive HttpHandler
  | reg
  | login
  | info
  | cacheMetrics
  | file
  deriving DecidableEq, Repr

/-- The handler of a request. -/
def httpCallback (method uri : Text) : HttpHandler :=
  if method = "POST".toList ∧ uri = "/reg".toList then .reg
  else if method = "POST".toList ∧ uri = "/login".toList then .login
  else if method = "GET".toList ∧ uri = "/info".toList then .info
  else if method = "GET".toList ∧ uri = "/metrics/cache".toList then .cacheMetrics
  else .file

/-- What `file_util::read` throws when there is no memory for what the path claims to hold. A directory claims too much. -/
inductive ReadError
  | tooLong
  deriving DecidableEq, Repr

/-- The answer of `file_handler`, with the path that it opened. -/
structure FileResp where
  status : Nat
  body : Text
  opened : Text

def notFound : Text := "<html><head><meta charset='UTF-8'/></head><body><h1> Not Found </h1></body></html>".toList

/-- The path of a uri: without the query, and with the default page for a directory. -/
def realpath (webRoot uri : Text) : Text :=
  let uri := uri.takeWhile (· ≠ '?')
  let realpath := webRoot ++ uri
  if realpath.getLast? = some '/' then realpath ++ "login.html".toList else realpath

/-- `file_handler`, with what `file_util::read` makes of each path: the contents, or nothing where the file cannot be opened
    and read, or an exception. -/
def fileHandler (files : Text → Except ReadError (Option Text)) (webRoot uri : Text) : Except ReadError FileResp := do
  let opened := (realpath webRoot uri).cString
  match ← files opened with
  | none => return ⟨404, notFound, opened⟩
  | some body => return ⟨200, body, opened⟩

end FiveStones
