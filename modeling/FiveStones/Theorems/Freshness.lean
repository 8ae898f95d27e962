import FiveStones.Theorems.Ledger
import FiveStones.UserCache

/-! What the user cache holds of a row, while selects fill it and updates clear it. -/

namespace FiveStones

namespace UserTable
variable {t t' : UserTable} {uid : Uid} {row : UserRow}

theorem rowById_eq (h : t.rowById uid = some row) : row ∈ t ∧ row.id = uid := by
  unfold rowById at h
  split at h
  · rename_i row' hfilter
    obtain rfl := Option.some.inj h
    have hmem : row' ∈ t.filter (·.id = uid) := hfilter ▸ List.mem_singleton_self _
    exact (List.mem_filter.mp hmem).imp_right of_decide_eq_true
  · cases h

/-- A row and what an update of `uid` makes of it: the names stay, and rows of other users stay as they are. -/
def Keeps (uid : Uid) (row row' : UserRow) : Prop :=
  row'.id = row.id ∧ row'.username = row.username ∧ (row.id ≠ uid → row' = row)

theorem play_names {d : Int} {won : Nat} {row row' : UserRow} (h : row.play d won = some row') :
    row'.id = row.id ∧ row'.username = row.username := by
  unfold UserRow.play at h
  split at h
  · cases h
    exact ⟨rfl, rfl⟩
  · cases h

theorem keeps_of_update {d : Int} {won : Nat} (h : Rows.update UserRow.id uid (UserRow.play d won) t = some t') :
    List.Forall₂ (Keeps uid) t t' := by
  refine (Rows.forall₂_of_update h).imp fun row row' hrow => ?_
  split at hrow
  · rename_i hid
    obtain ⟨h1, h2⟩ := play_names hrow
    exact ⟨h1, h2, fun hne => absurd hid hne⟩
  · obtain rfl := Option.some.inj hrow
    exact ⟨rfl, rfl, fun _ => rfl⟩

theorem win_keeps (h : t.win uid = (t', true)) : List.Forall₂ (Keeps uid) t t' := by
  unfold win at h
  split at h
  · cases h
  · rename_i hup
    obtain ⟨rfl, -⟩ := Prod.mk.inj h
    exact keeps_of_update hup

theorem lose_keeps (h : t.lose uid = (t', true)) : List.Forall₂ (Keeps uid) t t' := by
  unfold lose at h
  split at h
  · cases h
  · rename_i hup
    obtain ⟨rfl, -⟩ := Prod.mk.inj h
    exact keeps_of_update hup

theorem ids_of_keeps (h : List.Forall₂ (Keeps uid) t t') : t.map UserRow.id = t'.map UserRow.id := by
  induction h with
  | nil => rfl
  | cons hrow _ ih => rw [List.map_cons, List.map_cons, hrow.1, ih]

end UserTable

/-- The keys that a record belongs under. -/
def CacheKey.Of (user : UserRecord) : CacheKey → Prop
  | .id uid => user.id = uid
  | .name n => user.username = n

/-- The invalidation that a thread is in will still delete what is under `k` of the user. -/
def CachePc.Clears (user : UserRecord) (k : CacheKey) : CachePc → Prop
  | read uid => user.id = uid
  | delName uid name => user.id = uid ∧ (k = .id uid ∨ k = .name name)
  | delId uid => k = .id uid
  | _ => False

namespace CachedTable
variable {c c' : CachedTable} {e : CacheEvent} {t : Thread} {k : CacheKey} {user : UserRecord} {uid : Uid} {name : String}
  {out : List CacheObs} {keys : KeyStore CacheKey UserRecord} {pc : CachePc} {mysql : UserTable → Text → Option UserRow}

/-- What a step does. -/
inductive CacheStep (c : CachedTable) : CacheEvent → CachedTable → List CacheObs → Prop
  | same {e : CacheEvent} {out : List CacheObs} :
      (∀ t user, .selected t (some user) ∈ out → ∃ k, c.keys.get k = some user) → CacheStep c e c out
  | registered {id? : Option Uid} {user : Members} {row : UserRow} :
      (∀ t, (c.pcs t).holds = false) → ¬c.table.Registered row.id → CacheStep c (.register id? user) { c with table := c.table ++ [row] } []
  | missed {e : CacheEvent} {t : Thread} {pc : CachePc} :
      c.pcs t = .idle → (∀ uid name, pc ≠ .delName uid name) → CacheStep c e (c.goto t pc) []
  | failed {t : Thread} : (c.pcs t).holds = false → CacheStep c (.turn t) (c.goto t .idle) [.selected t none]
  | queried {t : Thread} {user : UserRecord} : (c.pcs t).holds = false → CacheStep c (.turn t) (c.goto t (.setId user)) []
  | updated {e : CacheEvent} {t : Thread} {uid : Uid} {table : UserTable} :
      c.pcs t = .idle → List.Forall₂ (UserTable.Keeps uid) c.table table →
      CacheStep c e ({ c with table }.goto t (.read uid)) []
  | setId {t : Thread} {user : UserRecord} : c.pcs t = .setId user →
      CacheStep c (.turn t) ((c.withKeys (c.keys.set (.id user.id) user)).goto t (.setName user)) []
  | setName {t : Thread} {user : UserRecord} : c.pcs t = .setName user →
      CacheStep c (.turn t) ((c.withKeys (c.keys.set (.name user.username) user)).goto t (.expireId user)) []
  | expireId {t : Thread} {user : UserRecord} : c.pcs t = .expireId user →
      CacheStep c (.turn t) ((c.withKeys (c.keys.expire (.id user.id))).goto t (.expireName user)) []
  | expireName {t : Thread} {user : UserRecord} : c.pcs t = .expireName user →
      CacheStep c (.turn t) ((c.withKeys (c.keys.expire (.name user.username))).goto t .idle) [.selected t (some user)]
  | found {t : Thread} {uid : Uid} {user : UserRecord} : c.pcs t = .read uid → c.keys.get (.id uid) = some user →
      CacheStep c (.turn t) (c.goto t (.delName uid user.username)) []
  | notFound {t : Thread} {uid : Uid} : c.pcs t = .read uid → c.keys.get (.id uid) = none →
      CacheStep c (.turn t) (c.goto t (.delId uid)) []
  | delName {t : Thread} {uid : Uid} {name : String} : c.pcs t = .delName uid name →
      CacheStep c (.turn t) ((c.withKeys (c.keys.del (.name name))).goto t (.delId uid)) []
  | delId {t : Thread} {uid : Uid} : c.pcs t = .delId uid →
      CacheStep c (.turn t) ((c.withKeys (c.keys.del (.id uid))).goto t .idle) [.updated t true]
  | lapsed {k : CacheKey} : CacheStep c (.lapse k) (c.withKeys (c.keys.del k)) []

theorem getByKey_inv (hidle : c.pcs t = .idle) (hname : ∀ uid name, pc ≠ .delName uid name)
    (h : c.getByKey t k pc = (c', out)) : CacheStep c e c' out := by
  unfold getByKey at h
  split at h
  · rename_i user hget
    obtain ⟨rfl, rfl⟩ := Prod.mk.inj h
    refine .same fun t' user' hmem => ⟨k, ?_⟩
    obtain ⟨-, rfl⟩ : t' = t ∧ user' = user := by simpa using hmem
    exact hget
  · obtain ⟨rfl, rfl⟩ := Prod.mk.inj h
    exact .missed hidle hname

theorem update_inv {x : UserTable × Bool} (hidle : c.pcs t = .idle)
    (hkeeps : ∀ table, x = (table, true) → List.Forall₂ (UserTable.Keeps uid) c.table table)
    (h : c.update t uid x = (c', out)) : CacheStep c e c' out := by
  obtain ⟨table, done⟩ := x
  unfold update at h
  split at h
  · rename_i hdone
    obtain ⟨rfl, rfl⟩ := Prod.mk.inj h
    exact .updated hidle (hkeeps table (by simpa using hdone))
  · obtain ⟨rfl, rfl⟩ := Prod.mk.inj h
    exact .same fun t' user' hmem => by simp at hmem

theorem query_inv {user : Option UserRecord} (hfree : (c.pcs t).holds = false) (h : c.query t user = (c', out)) :
    CacheStep c (.turn t) c' out := by
  unfold query at h
  split at h
  · obtain ⟨rfl, rfl⟩ := Prod.mk.inj h
    exact .failed hfree
  · obtain ⟨rfl, rfl⟩ := Prod.mk.inj h
    exact .queried hfree

theorem turn_inv (h : c.turn mysql t = some (c', out)) : CacheStep c (.turn t) c' out := by
  unfold turn at h
  split at h
  · cases h
  · rename_i uid hpc
    split at h
    · cases h
    · exact query_inv (by rw [hpc]; rfl) (Option.some.inj h)
  · rename_i name hpc
    split at h
    · cases h
    · split at h
      · cases h
      · exact query_inv (by rw [hpc]; rfl) (Option.some.inj h)
  · rename_i hpc
    obtain ⟨rfl, rfl⟩ := Prod.mk.inj (Option.some.inj h)
    exact .setId hpc
  · rename_i hpc
    obtain ⟨rfl, rfl⟩ := Prod.mk.inj (Option.some.inj h)
    exact .setName hpc
  · rename_i hpc
    obtain ⟨rfl, rfl⟩ := Prod.mk.inj (Option.some.inj h)
    exact .expireId hpc
  · rename_i hpc
    obtain ⟨rfl, rfl⟩ := Prod.mk.inj (Option.some.inj h)
    exact .expireName hpc
  · rename_i hpc
    split at h
    · rename_i hget
      obtain ⟨rfl, rfl⟩ := Prod.mk.inj (Option.some.inj h)
      exact .found hpc hget
    · rename_i hget
      obtain ⟨rfl, rfl⟩ := Prod.mk.inj (Option.some.inj h)
      exact .notFound hpc hget
  · rename_i hpc
    obtain ⟨rfl, rfl⟩ := Prod.mk.inj (Option.some.inj h)
    exact .delName hpc
  · rename_i hpc
    obtain ⟨rfl, rfl⟩ := Prod.mk.inj (Option.some.inj h)
    exact .delId hpc

theorem step_inv (h : (machine mysql).step c e = some (c', out)) : CacheStep c e c' out := by
  cases e with
  | register id? user =>
    simp only [machine] at h
    split at h
    · cases h
    rename_i hnew
    split at h
    · cases h
    · rename_i table done hinsert
      obtain ⟨rfl, rfl⟩ := Prod.mk.inj (Option.some.inj h)
      rcases UserTable.insert_cases hinsert with rfl | ⟨id, username, password, rfl, -, rfl⟩
      · exact .same fun t' user' hmem => by simp at hmem
      · have hfree : ∀ t, (c.pcs t).holds = false := by
          by_contra hheld
          exact hnew (Or.inl (by simpa [locked] using hheld))
        exact .registered hfree fun hreg => hnew (Or.inr ⟨id, rfl, hreg⟩)
  | selectById t uid =>
    simp only [machine] at h
    split at h
    · rename_i hidle
      exact getByKey_inv hidle (by simp) (Option.some.inj h)
    · cases h
  | selectByName t name =>
    simp only [machine] at h
    split at h
    · rename_i hidle
      exact getByKey_inv hidle (by simp) (Option.some.inj h)
    · cases h
  | win t uid =>
    simp only [machine] at h
    split at h
    · rename_i hidle
      exact update_inv hidle.1 (fun _ => UserTable.win_keeps) (Option.some.inj h)
    · cases h
  | lose t uid =>
    simp only [machine] at h
    split at h
    · rename_i hidle
      exact update_inv hidle.1 (fun _ => UserTable.lose_keeps) (Option.some.inj h)
    · cases h
  | turn t => exact turn_inv h
  | lapse k =>
    obtain ⟨rfl, rfl⟩ := Prod.mk.inj (Option.some.inj h)
    exact .lapsed

/-! ### The invariant -/

/-- There is a row with the record's id and name. -/
def Known (c : CachedTable) (user : UserRecord) : Prop := ∃ row ∈ c.table, row.id = user.id ∧ row.username = user.username

/-- The record is what the row of its user has now. -/
def Current (c : CachedTable) (user : UserRecord) : Prop := ∃ row ∈ c.table, row.record = user

/-- An invalidation is under way that will still delete the record. -/
def Cleared (c : CachedTable) (user : UserRecord) (k : CacheKey) : Prop := ∃ t, (c.pcs t).Clears user k

structure Inv (c : CachedTable) : Prop where
  ids : (c.table.map UserRow.id).Nodup
  keyed : ∀ k user, c.keys.get k = some user → k.Of user ∧ c.Known user
  named : ∀ t uid name, c.pcs t = .delName uid name → ∀ row ∈ c.table, row.id = uid → row.username = name
  fresh : ∀ k user, c.keys.get k = some user → c.Current user ∨ c.Cleared user k

theorem Current.known (h : c.Current user) : c.Known user := by
  obtain ⟨row, hrow, rfl⟩ := h
  exact ⟨row, hrow, rfl, rfl⟩

theorem Inv.unique (hi : Inv c) {row row' : UserRow} (hrow : row ∈ c.table) (hrow' : row' ∈ c.table) (hid : row.id = row'.id) :
    row = row' := List.inj_on_of_nodup_map hi.ids hrow hrow' hid

theorem inv_start : Inv start where
  ids := List.nodup_nil
  keyed _ _ h := by cases h
  named _ _ _ h := by cases h
  fresh _ _ h := by cases h

/-- A step that writes no record and no row: the thread goes on, and keys may go. -/
theorem Inv.goto (hi : Inv c) (hkeys : ∀ k user, keys.get k = some user → c.keys.get k = some user)
    (hnamed : ∀ uid name, pc = .delName uid name → ∀ row ∈ c.table, row.id = uid → row.username = name)
    (hclears : ∀ k user, keys.get k = some user → (c.pcs t).Clears user k → pc.Clears user k ∨ c.Current user) :
    Inv ((c.withKeys keys).goto t pc) where
  ids := hi.ids
  keyed k user h := hi.keyed k user (hkeys k user h)
  named t' uid name h := by
    by_cases ht : t' = t
    · subst ht
      exact hnamed uid name (by simpa [CachedTable.goto] using h)
    · exact hi.named t' uid name (by simpa [CachedTable.goto, withKeys, ht] using h)
  fresh k user h := by
    rcases hi.fresh k user (hkeys k user h) with hcur | ⟨t', hclear⟩
    · exact Or.inl hcur
    · by_cases ht : t' = t
      · subst ht
        rcases hclears k user h hclear with hpc | hcur
        · exact Or.inr ⟨t', by simpa [CachedTable.goto] using hpc⟩
        · exact Or.inl hcur
      · exact Or.inr ⟨t', by simpa [CachedTable.goto, withKeys, ht] using hclear⟩

/-- The same without a change of the keys. -/
theorem Inv.advance (hi : Inv c)
    (hnamed : ∀ uid name, pc = .delName uid name → ∀ row ∈ c.table, row.id = uid → row.username = name)
    (hclears : ∀ k user, c.keys.get k = some user → (c.pcs t).Clears user k → pc.Clears user k ∨ c.Current user) :
    Inv (c.goto t pc) := by
  change Inv ((c.withKeys c.keys).goto t pc)
  exact hi.goto (fun _ _ h => h) hnamed hclears

/-- A record is written that is up to date, or that an invalidation will still delete. -/
theorem Inv.write (hi : Inv c) (hkey : k.Of user) (hknown : c.Known user) (hfresh : c.Current user ∨ c.Cleared user k)
    (hold : ∀ k user, ¬(c.pcs t).Clears user k) (hnamed : ∀ uid name, pc ≠ .delName uid name) :
    Inv ((c.withKeys (c.keys.set k user)).goto t pc) where
  ids := hi.ids
  keyed k' user' h := by
    rcases KeyStore.get_of_set h with ⟨rfl, rfl⟩ | hget
    · exact ⟨hkey, hknown⟩
    · exact hi.keyed k' user' hget
  named t' uid name h := by
    by_cases ht : t' = t
    · subst ht
      exact absurd (by simpa [CachedTable.goto] using h) (hnamed uid name)
    · exact hi.named t' uid name (by simpa [CachedTable.goto, withKeys, ht] using h)
  fresh k' user' h := by
    have hkept : c.Cleared user' k' → ((c.withKeys (c.keys.set k user)).goto t pc).Cleared user' k' := by
      rintro ⟨t', hclear⟩
      have ht : t' ≠ t := fun heq => hold k' user' (heq ▸ hclear)
      exact ⟨t', by simpa [CachedTable.goto, withKeys, ht] using hclear⟩
    rcases KeyStore.get_of_set h with ⟨rfl, rfl⟩ | hget
    · exact hfresh.imp_right hkept
    · exact (hi.fresh k' user' hget).imp_right hkept

/-- The rows after an update of `uid`, which goes on to invalidate what is cached of them. -/
theorem Inv.update (hi : Inv c) {table : UserTable} (hidle : c.pcs t = .idle)
    (hkeeps : List.Forall₂ (UserTable.Keeps uid) c.table table) : Inv ({ c with table }.goto t (.read uid)) := by
  have hafter : ∀ row ∈ c.table, ∃ row' ∈ table, UserTable.Keeps uid row row' := fun row hrow => Rows.exists_right hkeeps hrow
  have hbefore : ∀ row' ∈ table, ∃ row ∈ c.table, UserTable.Keeps uid row row' := fun row' hrow => Rows.exists_left hkeeps hrow
  have hknown : ∀ user, c.Known user → ({ c with table }.goto t (.read uid)).Known user := by
    rintro user ⟨row, hrow, hid, hname⟩
    obtain ⟨row', hrow', hid', hname', -⟩ := hafter row hrow
    exact ⟨row', hrow', hid'.trans hid, hname'.trans hname⟩
  refine ⟨UserTable.ids_of_keeps hkeeps ▸ hi.ids, fun k user h => ?_, fun t' uid' name h row' hrow' hid' => ?_, fun k user h => ?_⟩
  · obtain ⟨hkey, hk⟩ := hi.keyed k user h
    exact ⟨hkey, hknown user hk⟩
  · by_cases ht : t' = t
    · subst ht
      simp [CachedTable.goto] at h
    · obtain ⟨row, hrow, hid, hname, -⟩ := hbefore row' hrow'
      rw [hname]
      exact hi.named t' uid' name (by simpa [CachedTable.goto, ht] using h) row hrow (hid.symm.trans hid')
  · by_cases hu : user.id = uid
    · exact Or.inr ⟨t, by simpa [CachedTable.goto, CachePc.Clears] using hu⟩
    · rcases hi.fresh k user h with ⟨row, hrow, rfl⟩ | ⟨t', hclear⟩
      · obtain ⟨row', hrow', -, -, hsame⟩ := hafter row hrow
        exact Or.inl ⟨row', hrow', by rw [hsame hu]⟩
      · have ht : t' ≠ t := by
          rintro rfl
          simp [hidle, CachePc.Clears] at hclear
        exact Or.inr ⟨t', by simpa [CachedTable.goto, ht] using hclear⟩

theorem Inv.register (hi : Inv c) {row : UserRow} (hfree : ∀ t, (c.pcs t).holds = false) (hnew : ¬c.table.Registered row.id) :
    Inv { c with table := c.table ++ [row] } := by
  have hknown : ∀ user, c.Known user → Known { c with table := c.table ++ [row] } user := by
    rintro user ⟨row', hrow', hnames⟩
    exact ⟨row', List.mem_append_left _ hrow', hnames⟩
  refine ⟨?_, fun k user h => ?_, fun t uid name h => ?_, fun k user h => ?_⟩
  · rw [List.map_append, List.nodup_append]
    refine ⟨hi.ids, by simp, fun id₁ h₁ id₂ h₂ heq => hnew ?_⟩
    obtain rfl : id₂ = row.id := by simpa using h₂
    obtain ⟨row', hrow', hid⟩ := List.mem_map.mp h₁
    exact ⟨row', hrow', hid.trans heq⟩
  · obtain ⟨hkey, hk⟩ := hi.keyed k user h
    exact ⟨hkey, hknown user hk⟩
  · have hheld := hfree t
    rw [show c.pcs t = .delName uid name from h] at hheld
    cases hheld
  · rcases hi.fresh k user h with ⟨row', hrow', rfl⟩ | hclear
    · exact Or.inl ⟨row', List.mem_append_left _ hrow', rfl⟩
    · exact Or.inr hclear

end CachedTable

open CachedTable

namespace CachePc

/-- A record that a select writes has the name of its row, and is still what the row has or is left to an invalidation;
    and an invalidation that finds no record under the id leaves no outdated record of the user under the name. -/
def Timely (c : CachedTable) : CachePc → Prop
  | setId user => c.Known user ∧ (c.Current user ∨ c.Cleared user (.id user.id))
  | setName user => c.Known user ∧ (c.Current user ∨ c.Cleared user (.name user.username))
  | read uid => c.keys.get (.id uid) = none → ∀ row ∈ c.table, row.id = uid →
      ∀ user ∈ c.keys.get (.name row.username), user.id = uid → c.Current user
  | _ => True

end CachePc

def CacheTrans.Timely (x : CacheTrans) : Prop :=
  match x.event with
  | .turn t => (x.before.pcs t).Timely x.before
  | _ => True

namespace CachedTable
variable {c c' : CachedTable} {e : CacheEvent} {t : Thread} {k : CacheKey} {user : UserRecord} {uid : Uid} {name : String}
  {out : List CacheObs} {ts : List CacheTrans} {mysql : UserTable → Text → Option UserRow}

theorem not_clears (h : (c.pcs t).holds = false) (k : CacheKey) (user : UserRecord) : ¬(c.pcs t).Clears user k := by
  intro hclear
  cases hpc : c.pcs t <;> simp_all [CachePc.Clears, CachePc.holds]

/-- The record under the id has the name under which the user's other record is. -/
theorem Inv.found (hi : Inv c) (hpc : c.pcs t = .read uid) (hget : c.keys.get (.id uid) = some user) :
    Inv (c.goto t (.delName uid user.username)) := by
  obtain ⟨hid, row, hrow, hrowId, hrowName⟩ := hi.keyed _ _ hget
  have hname : ∀ row' ∈ c.table, row'.id = uid → row'.username = user.username := fun row' hrow' hid' => by
    rw [hi.unique hrow' hrow (hid'.trans (hid.symm.trans hrowId.symm)), hrowName]
  refine hi.advance ?_ fun k user' h hclear => Or.inl ?_
  · rintro uid' name ⟨⟩
    exact hname
  · have hid' : user'.id = uid := by simpa [hpc, CachePc.Clears] using hclear
    obtain ⟨hkey, row', hrow', hrowId', hrowName'⟩ := hi.keyed k user' h
    refine ⟨hid', ?_⟩
    cases k with
    | id uid' => exact Or.inl (congrArg CacheKey.id (hkey.symm.trans hid'))
    | name n =>
      refine Or.inr (congrArg CacheKey.name ?_)
      rw [← hname row' hrow' (hrowId'.trans hid'), hrowName']
      exact hkey.symm

theorem Inv.notFound (hi : Inv c) (hpc : c.pcs t = .read uid) (hget : c.keys.get (.id uid) = none)
    (hx : (CachePc.read uid).Timely c) : Inv (c.goto t (.delId uid)) := by
  refine hi.advance (by simp) fun k user h hclear => ?_
  have hid : user.id = uid := by simpa [hpc, CachePc.Clears] using hclear
  obtain ⟨hkey, row, hrow, hrowId, hrowName⟩ := hi.keyed k user h
  cases k with
  | id uid' =>
    obtain rfl : user.id = uid' := hkey
    rw [hid, hget] at h
    cases h
  | name n =>
    obtain rfl : user.username = n := hkey
    exact Or.inr (hx hget row hrow (hrowId.trans hid) user (by rwa [hrowName]) hid)

theorem Inv.step (hi : Inv c) (hs : CacheStep c e c' out) (hx : CacheTrans.Timely ⟨c, e, c', out⟩) : Inv c' := by
  cases hs with
  | same => exact hi
  | registered hfree hnew => exact hi.register hfree hnew
  | @missed e t pc hidle hname =>
    exact hi.advance (fun uid name h => absurd h (hname uid name))
      fun k user _ hclear => absurd hclear (not_clears (by rw [hidle]; rfl) k user)
  | failed hfree =>
    exact hi.advance (by simp)
      fun k user _ hclear => absurd hclear (not_clears hfree k user)
  | queried hfree =>
    exact hi.advance (by simp) fun k user _ hclear => absurd hclear (not_clears hfree k user)
  | updated hidle hkeeps => exact hi.update hidle hkeeps
  | @setId t user hpc =>
    simp only [CacheTrans.Timely, hpc, CachePc.Timely] at hx
    exact hi.write rfl hx.1 hx.2 (not_clears (by rw [hpc]; rfl)) (by simp)
  | @setName t user hpc =>
    simp only [CacheTrans.Timely, hpc, CachePc.Timely] at hx
    exact hi.write rfl hx.1 hx.2 (not_clears (by rw [hpc]; rfl)) (by simp)
  | expireId hpc =>
    exact hi.goto (fun _ _ h => by rwa [KeyStore.get_expire] at h) (by simp)
      fun k user _ hclear => absurd hclear (not_clears (by rw [hpc]; rfl) k user)
  | expireName hpc =>
    exact hi.goto (fun _ _ h => by rwa [KeyStore.get_expire] at h) (by simp)
      fun k user _ hclear => absurd hclear (not_clears (by rw [hpc]; rfl) k user)
  | found hpc hget => exact hi.found hpc hget
  | @notFound t uid hpc hget =>
    simp only [CacheTrans.Timely, hpc] at hx
    exact hi.notFound hpc hget hx
  | @delName t uid name hpc =>
    refine hi.goto (fun _ _ h => KeyStore.get_of_del h) (by simp) fun k user h hclear => ?_
    obtain ⟨-, rfl | rfl⟩ : user.id = uid ∧ (k = .id uid ∨ k = .name name) := by simpa [hpc, CachePc.Clears] using hclear
    · exact Or.inl rfl
    · rw [KeyStore.get_del_self] at h
      cases h
  | @delId t uid hpc =>
    refine hi.goto (fun _ _ h => KeyStore.get_of_del h) (by simp) fun k user h hclear => ?_
    obtain rfl : k = .id uid := by simpa [hpc, CachePc.Clears] using hclear
    rw [KeyStore.get_del_self] at h
    cases h
  | lapsed =>
    exact ⟨hi.ids, fun k user h => hi.keyed k user (KeyStore.get_of_del h), hi.named,
      fun k user h => hi.fresh k user (KeyStore.get_of_del h)⟩

/-- No select and no update is in progress. -/
def Quiet (c : CachedTable) : Prop := ∀ t, c.pcs t = .idle

/-- Each record under a key of a user is what the user's row has. -/
def UpToDate (c : CachedTable) : Prop :=
  ∀ k user, c.keys.get k = some user → ∃ row ∈ c.table, k.Of row.record ∧ row.record = user

/-- Where nothing is in progress the cache is up to date, and a select that begins there and finds a record gets what
    the row has. -/
def KeptUpToDate (ts : List CacheTrans) (c : CachedTable) : Prop :=
  (c.Quiet → c.UpToDate) ∧ ∀ us x vs t user, ts = us ++ x :: vs → x.before.Quiet → .selected t (some user) ∈ x.out →
    x.before.Current user

theorem Inv.upToDate (hi : Inv c) (hquiet : c.Quiet) : c.UpToDate := by
  intro k user h
  rcases hi.fresh k user h with ⟨row, hrow, rfl⟩ | ⟨t, hclear⟩
  · exact ⟨row, hrow, (hi.keyed k _ h).1, rfl⟩
  · exact absurd hclear (not_clears (by rw [hquiet t]; rfl) k user)

theorem selected_of_quiet (hs : CacheStep c e c' out) (hquiet : c.Quiet) (hmem : .selected t (some user) ∈ out) :
    ∃ k, c.keys.get k = some user := by
  cases hs with
  | same hsel => exact hsel t user hmem
  | expireName hpc => simp [hquiet _] at hpc
  | _ => simp at hmem

/-- As long as every step is timely, the cache is kept up to date. -/
theorem kept_up_to_date (h : (machine mysql).Run start ts c) (hC : ∀ x ∈ ts, x.Timely) : KeptUpToDate ts c := by
  have hstep : ∀ {c e c' out}, Inv c → (machine mysql).step c e = some (c', out) → CacheTrans.Timely ⟨c, e, c', out⟩ → Inv c' :=
    fun hi hs hx => hi.step (step_inv hs) hx
  refine ⟨(h.invariant_of inv_start hC hstep).upToDate, ?_⟩
  rintro us ⟨before, e, after, out⟩ vs t user rfl hquiet hmem
  have hus := h.split.1
  have hs : (machine mysql).step before e = some (after, out) := h.split.2.1
  have hi : Inv before := hus.invariant_of inv_start (fun x hx => hC x (List.mem_append_left _ hx)) hstep
  obtain ⟨k, hget⟩ := selected_of_quiet (step_inv hs) hquiet hmem
  obtain ⟨row, hrow, -, rfl⟩ := hi.upToDate hquiet k user hget
  exact ⟨row, hrow, rfl⟩

instance (user : UserRecord) (k : CacheKey) : (pc : CachePc) → Decidable (pc.Clears user k)
  | .read uid => inferInstanceAs (Decidable (user.id = uid))
  | .delName uid name => inferInstanceAs (Decidable (user.id = uid ∧ (k = .id uid ∨ k = .name name)))
  | .delId uid => inferInstanceAs (Decidable (k = .id uid))
  | .idle | .queryId _ | .queryName _ | .setId _ | .setName _ | .expireId _ | .expireName _ => inferInstanceAs (Decidable False)

instance (c : CachedTable) : DecidablePred c.Known := fun _ => inferInstanceAs (Decidable (∃ _ ∈ _, _))

instance (c : CachedTable) : DecidablePred c.Current := fun _ => inferInstanceAs (Decidable (∃ _ ∈ _, _))

instance (c : CachedTable) (user : UserRecord) (k : CacheKey) : Decidable (c.Cleared user k) :=
  decidable_of_iff (¬∀ t, ¬(c.pcs t).Clears user k) not_forall_not

instance (c : CachedTable) : (pc : CachePc) → Decidable (pc.Timely c)
  | .setId user => inferInstanceAs (Decidable (c.Known user ∧ (c.Current user ∨ c.Cleared user (.id user.id))))
  | .setName user => inferInstanceAs (Decidable (c.Known user ∧ (c.Current user ∨ c.Cleared user (.name user.username))))
  | .read uid => inferInstanceAs (Decidable (c.keys.get (.id uid) = none → ∀ row ∈ c.table, row.id = uid →
      ∀ user ∈ c.keys.get (.name row.username), user.id = uid → c.Current user))
  | .idle | .queryId _ | .queryName _ | .expireId _ | .expireName _ | .delName _ _ | .delId _ => inferInstanceAs (Decidable True)

instance : DecidablePred CacheTrans.Timely
  | ⟨before, .turn t, _, _⟩ => inferInstanceAs (Decidable ((before.pcs t).Timely before))
  | ⟨_, .register .., _, _⟩ | ⟨_, .selectById .., _, _⟩ | ⟨_, .selectByName .., _, _⟩ | ⟨_, .win .., _, _⟩
  | ⟨_, .lose .., _, _⟩ | ⟨_, .lapse _, _, _⟩ => inferInstanceAs (Decidable True)

instance (c : CachedTable) : Decidable c.Quiet := inferInstanceAs (Decidable (∀ _, _))

/-- MySQL with a collation that compares byte for byte. -/
def binaryMysql (t : UserTable) (sql : Text) : Option UserRow :=
  t.find? fun row => sql = Sql.sprintf Sql.userByName [.ofString row.username]

/-- User 1 registers. -/
def registration : CacheEvent := .register (some 1) [("username", .str "bob"), ("password", .str "secret")]

/-- A user is selected, wins, and is selected again. -/
theorem kept_up_to_date_win : ∃ (ts : List CacheTrans) (c : CachedTable), (machine binaryMysql).Run start ts c ∧ c.Quiet ∧
    (∃ user, c.keys.get (.id 1) = some user ∧ user.score = 1030) ∧ KeptUpToDate ts c := by
  obtain ⟨ts, c, h, hC, hquiet, hkey⟩ := Machine.Run.exists_of_exec (machine binaryMysql) start
    ([registration, .selectById (some .normal) 1] ++ List.replicate 5 (.turn (some .normal)) ++ [.win none 1]
      ++ List.replicate 3 (.turn none) ++ [.selectByName none "bob"] ++ List.replicate 5 (.turn none))
    (fun (ts : List CacheTrans) c => (∀ x ∈ ts, x.Timely) ∧ c.Quiet ∧ ∃ user ∈ c.keys.get (.id 1), user.score = 1030)
    (by decide +kernel)
  exact ⟨ts, c, h, hquiet, hkey, kept_up_to_date h hC⟩

/-- A match thread selects a user, who wins before the record is written: the cache keeps the old score. -/
theorem kept_outdated : ¬∀ mysql (ts : List CacheTrans) c, (machine mysql).Run start ts c → KeptUpToDate ts c := by
  intro hall
  obtain ⟨ts, c, h, hquiet, ⟨user, hkey, hscore⟩, hrow⟩ := Machine.Run.exists_of_exec (machine binaryMysql) start
    ([registration, .selectById (some .normal) 1, .turn (some .normal), .win none 1] ++ List.replicate 2 (.turn none)
      ++ List.replicate 4 (.turn (some .normal)))
    (fun (_ : List CacheTrans) c => c.Quiet ∧ (∃ user ∈ c.keys.get (.id 1), user.score = 1000) ∧ ∀ row ∈ c.table, row.score = 1030)
    (by decide +kernel)
  obtain ⟨row, hmem, -, rfl⟩ := (hall binaryMysql ts c h).1 hquiet (.id 1) user hkey
  cases hscore.symm.trans (hrow row hmem)

end CachedTable
end FiveStones
