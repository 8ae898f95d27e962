import FiveStones.Lib.Path
import FiveStones.Json
import FiveStones.StaticFiles

/-! Which uris stay inside the web root. -/

namespace FiveStones

/-- What the opened path has after the web root: the uri up to its `?`, with the default page for a directory, and no
    more than comes before a NUL. -/
def servedTail (webRoot uri : Text) : Text :=
  let path := uri.takeWhile (· ≠ '?')
  let page : Text := if (webRoot ++ path).getLast? = some '/' then path ++ "login.html".toList else path
  if '\x00' ∈ webRoot then [] else page.cString

theorem opened_eq (webRoot uri : Text) : (realpath webRoot uri).cString = webRoot.cString ++ servedTail webRoot uri := by
  unfold realpath servedTail
  simp only
  split
  · rw [List.append_assoc, Text.cString_append]
  · rw [Text.cString_append]

/-- Every answer is about the one path that was opened. -/
theorem fileHandler_opened {files : Text → Except ReadError (Option Text)} {webRoot uri : Text} {resp : FileResp}
    (h : fileHandler files webRoot uri = .ok resp) : resp.opened = (realpath webRoot uri).cString := by
  obtain ⟨body, -, h⟩ := ok_of_bind h
  cases body with
  | none => rw [← Except.ok.inj h]
  | some body => rw [← Except.ok.inj h]

/-- Every uri comes to `file_handler` with some method. -/
theorem httpCallback_put (uri : Text) : httpCallback "PUT".toList uri = .file := by
  simp [httpCallback]

/-- The files that a uri is answered with lie inside the web root just when the uri stays there. -/
theorem files_inside_iff (cwd : Path.Names) (webRoot uri : Text) :
    (∀ method files resp, httpCallback method uri = .file → fileHandler files webRoot uri = .ok resp → resp.status = 200 →
      Path.Inside cwd webRoot.cString resp.opened) ↔
    Path.Stays cwd webRoot.cString (servedTail webRoot uri) := by
  rw [← Path.inside_append_iff, ← opened_eq]
  constructor
  · intro hall
    exact hall "PUT".toList (fun _ => .ok (some [])) _ (httpCallback_put uri) rfl rfl
  · intro hinside method files resp _ hresp _
    rwa [fileHandler_opened hresp]

/-- A uri that climbs out of the web root. -/
theorem files_outside : ¬∀ cwd webRoot uri method files resp, httpCallback method uri = .file →
    fileHandler files webRoot uri = .ok resp → resp.status = 200 → Path.Inside cwd webRoot.cString resp.opened := by
  intro hall
  have hinside := hall ["srv".toList] "./wwwroot/".toList "/../../etc/passwd".toList "GET".toList (fun _ => .ok (some [])) _
    (by decide +kernel) rfl rfl
  exact absurd hinside (by decide +kernel)

end FiveStones
