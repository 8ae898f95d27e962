import FiveStones.Theorems.SsidOwner
import FiveStones.Theorems.Pieces

/-! The way of an ssid through the browser: from `Set-Cookie` into a `Cookie` header, among other cookies, and back. -/

namespace FiveStones

namespace Text

/-- Pieces that are joined by a separator whose first character they lack. -/
theorem split_intercalate {c : Char} (sep : Text) {ps : List Text} (hps : ∀ p ∈ ps, p ≠ [] ∧ c ∉ p) :
    split ((c :: sep).intercalate ps) (c :: sep) = ps := by
  induction ps with
  | nil => exact split_nil (List.cons_ne_nil _ _)
  | cons p ps ih =>
    obtain ⟨hne, hfree⟩ := hps p (List.mem_cons_self ..)
    have ih := ih fun q hq => hps q (List.mem_cons_of_mem _ hq)
    cases ps with
    | nil =>
      have hwhole : ¬c :: sep <:+: p := fun h => hfree (h.subset (List.mem_cons_self ..))
      rw [List.intercalate_singleton, split_eq_self (List.cons_ne_nil _ _) hne hwhole]
    | cons q ps => rw [List.intercalate_cons_cons, split_append hfree hne, ih]

end Text

/-- A cookie besides `SSID`. -/
structure OtherCookie where
  name : Text
  value : Text
  name_ne : name ≠ []
  not_ssid : name ≠ "SSID".toList
  name_free : '=' ∉ name ∧ ';' ∉ name
  value_free : ';' ∉ value

def OtherCookie.pair (c : OtherCookie) : Text := c.name ++ '=' :: c.value

/-- The header for these pairs. -/
def cookieHeader (pairs : List Text) : Text := "; ".toList.intercalate pairs

/-! ### One pair -/

/-- What `get_cookie_val` takes from one piece of the header. -/
def pairVal (key str : Text) : Option Text :=
  match Text.split str ['='] with
  | [k, v] => if k = key then some v else none
  | _ => none

theorem getCookieVal_header (key : Text) {pairs : List Text} (hpairs : ∀ p ∈ pairs, p ≠ [] ∧ ';' ∉ p) :
    getCookieVal (cookieHeader pairs) key = pairs.findSome? (pairVal key) := by
  have hsplit : Text.split (cookieHeader pairs) "; ".toList = pairs := Text.split_intercalate [' '] hpairs
  rw [getCookieVal, hsplit]
  rfl

namespace OtherCookie
variable (c : OtherCookie)

theorem pair_valid : c.pair ≠ [] ∧ ';' ∉ c.pair := by
  refine ⟨by simp [pair], fun h => ?_⟩
  rcases List.mem_append.mp h with hname | hvalue
  · exact c.name_free.2 hname
  · rcases List.mem_cons.mp hvalue with heq | hvalue
    · cases heq
    · exact c.value_free hvalue

/-- The first piece of the pair is its name, whatever the value is cut into. -/
theorem pairVal_eq_none : pairVal "SSID".toList c.pair = none := by
  unfold pairVal pair
  rw [Text.split_append_char c.name_free.1 c.name_ne]
  split
  · rename_i k v hkv
    obtain ⟨rfl, -⟩ := List.cons.inj hkv
    exact if_neg c.not_ssid
  · rfl

theorem findSome?_pairs (cs : List OtherCookie) : (cs.map pair).findSome? (pairVal "SSID".toList) = none := by
  rw [List.findSome?_eq_none_iff]
  intro p hp
  obtain ⟨c, -, rfl⟩ := List.mem_map.mp hp
  exact c.pairVal_eq_none

end OtherCookie

theorem notMem_ofUInt64 {ssid : Ssid} {c : Char} (hc : c.isDigit = false) : c ∉ Text.ofUInt64 ssid := by
  intro h
  rw [Text.isDigit_of_mem_ofUInt64 h] at hc
  cases hc

theorem pairVal_cookieSsid (ssid : Ssid) : pairVal "SSID".toList (cookieSsid ssid) = some (Text.ofUInt64 ssid) := by
  have hne : Text.ofUInt64 ssid ≠ [] := Nat.toDigits_ne_nil
  have hwhole : ¬['='] <:+: Text.ofUInt64 ssid := fun h => notMem_ofUInt64 rfl (h.subset (List.mem_singleton_self _))
  have hsplit : Text.split (cookieSsid ssid) ['='] = ["SSID".toList, Text.ofUInt64 ssid] := by
    have hpair : cookieSsid ssid = "SSID".toList ++ '=' :: Text.ofUInt64 ssid := rfl
    rw [hpair, Text.split_append_char (by decide) (by decide), Text.split_eq_self (by decide) hne hwhole]
  simp only [pairVal, hsplit, ↓reduceIte]

theorem cookieSsid_valid (ssid : Ssid) : cookieSsid ssid ≠ [] ∧ ';' ∉ cookieSsid ssid := by
  refine ⟨List.append_ne_nil_of_left_ne_nil (by decide) _, fun h => ?_⟩
  rcases List.mem_append.mp h with hname | hvalue
  · exact absurd hname (by decide)
  · exact notMem_ofUInt64 rfl hvalue

/-! ### The header -/

/-- The header with the cookie of an ssid between others. -/
def ssidHeader (before : List OtherCookie) (ssid : Ssid) (after : List OtherCookie) : Text :=
  cookieHeader (before.map OtherCookie.pair ++ cookieSsid ssid :: after.map OtherCookie.pair)

theorem pairs_valid {cs : List OtherCookie} {p : Text} (hp : p ∈ cs.map OtherCookie.pair) : p ≠ [] ∧ ';' ∉ p := by
  obtain ⟨c, -, rfl⟩ := List.mem_map.mp hp
  exact c.pair_valid

theorem getCookieVal_ssidHeader (before after : List OtherCookie) (ssid : Ssid) :
    getCookieVal (ssidHeader before ssid after) "SSID".toList = some (Text.ofUInt64 ssid) := by
  rw [ssidHeader, getCookieVal_header, List.findSome?_append, OtherCookie.findSome?_pairs, Option.none_or,
    List.findSome?_cons, pairVal_cookieSsid]
  intro p hp
  rcases List.mem_append.mp hp with hp | hp
  · exact pairs_valid hp
  · rcases List.mem_cons.mp hp with rfl | hp
    · exact cookieSsid_valid ssid
    · exact pairs_valid hp

/-- Other cookies before and after it do not hide the ssid, and do not stand for one. -/
theorem ssid_round_trip (before after others : List OtherCookie) (ssid : Ssid) :
    (∃ v, getCookieVal (ssidHeader before ssid after) "SSID".toList = some v ∧ Text.stoull v = .ok ssid) ∧
      getCookieVal (cookieHeader (others.map OtherCookie.pair)) "SSID".toList = none := by
  constructor
  · exact ⟨_, getCookieVal_ssidHeader before after ssid, Text.stoull_ofUInt64 ssid⟩
  · rw [getCookieVal_header _ fun p hp => pairs_valid hp, OtherCookie.findSome?_pairs]

/-- The largest ssid, behind a value with `=` and blanks and before an empty one and one that looks like a cookie. -/
theorem ssid_round_trip_among :
    (∃ v, getCookieVal "theme=a = b c; SSID=18446744073709551615; seen=; note=SSID=7".toList "SSID".toList = some v ∧
      Text.stoull v = .ok 18446744073709551615) ∧
      getCookieVal "seen=; note=SSID=7".toList "SSID".toList = none := by
  let theme : OtherCookie := ⟨"theme".toList, "a = b c".toList, by decide, by decide, by decide, by decide⟩
  let seen : OtherCookie := ⟨"seen".toList, [], by decide, by decide, by decide, by decide⟩
  let note : OtherCookie := ⟨"note".toList, "SSID=7".toList, by decide, by decide, by decide, by decide⟩
  have hheader : ssidHeader [theme] 18446744073709551615 [seen, note] =
      "theme=a = b c; SSID=18446744073709551615; seen=; note=SSID=7".toList := by decide
  have hothers : cookieHeader ([seen, note].map OtherCookie.pair) = "seen=; note=SSID=7".toList := by decide
  rw [← hheader, ← hothers]
  exact ssid_round_trip [theme] [seen, note] [seen, note] 18446744073709551615

namespace Sessions

/-- The header with the cookie of a login finds the session of that login. -/
theorem found_after_login (st : Sessions) (up up' : RedisUp) (uid : Uid) (before after : List OtherCookie)
    (optype : String) :
    (st.login up uid).1.getSessionByCookie up' (ssidHeader before (st.login up uid).2 after) optype =
      .ok ((st.login up uid).1, .session (st.login up uid).2 uid) := by
  have hval := getCookieVal_ssidHeader before after (st.login up uid).2
  have hne : ssidHeader before (st.login up uid).2 after ≠ [] := by
    intro hnil
    rw [hnil, getCookieVal, Text.split_nil (by decide)] at hval
    cases hval
  have huser : (st.login up uid).1.userOf (st.login up uid).2 = some uid := userOf_login.trans (if_pos rfl)
  obtain ⟨ssp, hssp, rfl⟩ := Option.map_eq_some_iff.mp huser
  have hfind : (st.login up ssp.uid).1.findSession up' (st.login up ssp.uid).2 =
      ((st.login up ssp.uid).1, some ssp.uid) := by
    rw [findSession, SessionManager.getSessionBySsid, hssp]
  simp only [getSessionByCookie, if_neg hne, hval, Text.stoull_ofUInt64, bind, Except.bind, hfind, pure, Except.pure]

end Sessions
end FiveStones
