import FiveStones.Lib.Simulation
import FiveStones.Theorems.Freshness
import FiveStones.UserStore

/-! What `user_table` answers with Redis in front of it, against what it answers without. -/

namespace FiveStones

namespace UserTable
variable {t t' : UserTable} {row : UserRow} {id : Uid} {name : String}

theorem rowById_of_mem (hids : (t.map UserRow.id).Nodup) (hrow : row ∈ t) : t.rowById row.id = some row := by
  unfold rowById
  rw [Rows.filter_key hids hrow]

theorem rowByName_eq (h : t.rowByName (· = ·) name = some row) : row ∈ t ∧ row.username = name := by
  unfold rowByName at h
  split at h
  · rename_i row' hfilter
    obtain rfl := Option.some.inj h
    have hmem : row' ∈ t.filter (·.username = name) := hfilter ▸ List.mem_singleton_self _
    exact (List.mem_filter.mp hmem).imp_right of_decide_eq_true
  · cases h

theorem rowByName_of_mem (hnames : (t.map UserRow.username).Nodup) (hrow : row ∈ t) :
    t.rowByName (· = ·) row.username = some row := by
  simp only [rowByName, Rows.filter_key hnames hrow]

theorem names_of_keeps (h : List.Forall₂ (Keeps id) t t') : t.map UserRow.username = t'.map UserRow.username := by
  induction h with
  | nil => rfl
  | cons hrow _ ih => rw [List.map_cons, List.map_cons, hrow.2.1, ih]

end UserTable

namespace UserCache
variable {c : UserCache} {up : UserRedisUp} {uid : Uid} {name : String} {user v : UserRecord} {ttlSec : Int} {k : CacheKey}

/-- After `setUser` a key holds what it held, or the new record under one of the two keys of the user. -/
theorem get_setUser (h : (c.setUser up uid name user ttlSec).1.keys.get k = some v) :
    (v = user ∧ (k = .id uid ∨ k = .name name)) ∨ c.keys.get k = some v := by
  have one : (c.keys.set (.id uid) user).get k = some v → (v = user ∧ (k = .id uid ∨ k = .name name)) ∨ c.keys.get k = some v := by
    intro h
    rcases KeyStore.get_of_set h with ⟨hk, hv⟩ | hold
    · exact Or.inl ⟨hv, Or.inl hk⟩
    · exact Or.inr hold
  have both : ((c.keys.set (.id uid) user).set (.name name) user).get k = some v →
      (v = user ∧ (k = .id uid ∨ k = .name name)) ∨ c.keys.get k = some v := by
    intro h
    rcases KeyStore.get_of_set h with ⟨hk, hv⟩ | hold
    · exact Or.inl ⟨hv, Or.inr hk⟩
    · exact one hold
  unfold setUser at h
  simp only [withKeys] at h
  split at h
  · exact Or.inr h
  split at h
  · exact one h
  split at h
  · split at h
    · exact both h
    split at h
    · exact both (by rwa [KeyStore.get_expire] at h)
    · exact both (by rwa [KeyStore.get_expire, KeyStore.get_expire] at h)
  · exact both h

theorem get_delId (h : (c.delId up uid).1.keys.get k = some v) : c.keys.get k = some v := by
  unfold delId at h
  split at h
  · exact h
  · exact KeyStore.get_of_del h

theorem get_invalidateById (h : (c.invalidateById up uid).1.keys.get k = some v) : c.keys.get k = some v := by
  unfold invalidateById at h
  split at h
  · exact h
  split at h
  · exact get_delId h
  split at h
  · exact h
  · exact KeyStore.get_of_del (get_delId h)

/-- Where the record of the user is under the id, and nothing throws, both keys of it go. -/
theorem invalidateById_eq (hid : c.keys.get (.id uid) = some user) (hget : c.reaches up.get = true)
    (hname : up.delName = true) (hdel : up.delId = true) : c.invalidateById up uid =
      (c.withKeys ((c.keys.del (.name user.username)).del (.id uid)), true) := by
  simp [invalidateById, delId, hid, hget, hname, hdel, withKeys]

section Noop
variable (hnoop : c.redis = false)
include hnoop

theorem setUser_noop : c.setUser up uid name user ttlSec = (c, false) := by simp [setUser, reaches, hnoop]

theorem invalidateById_noop : c.invalidateById up uid = (c, false) := by simp [invalidateById, reaches, hnoop]

end Noop

end UserCache

namespace UserStore
variable {s s' t t' : UserStore} {up : UserRedisUp} {id : Uid} {name : String} {user : UserRecord} {k : CacheKey}
  {x : UserTable × Bool} {e : UserEvent} {out : List UserObs}

/-- Ids and names are unique, and whatever is cached is what the row of its user has now, under a key of its own. -/
structure Mirrors (s : UserStore) : Prop where
  ids : (s.table.map UserRow.id).Nodup
  names : (s.table.map UserRow.username).Nodup
  cached : ∀ k user, s.cache.keys.get k = some user → k.Of user ∧ ∃ row ∈ s.table, row.record = user

/-- The update would leave nothing cached of the user: there is nothing under the user's id and name, or there is a
    record under the id and all that deletes it is carried out. -/
def Clears (s : UserStore) (up : UserRedisUp) (id : Uid) : Prop :=
  (s.cache.keys.get (.id id) = none ∧ ∀ row ∈ s.table, row.id = id → s.cache.keys.get (.name row.username) = none) ∨
    ((s.cache.keys.get (.id id)).isSome = true ∧ s.cache.reaches up.get = true ∧ up.delName = true ∧ up.delId = true)

theorem mirrors_start (redis : Bool) (ttlSec : Int) : (start redis ttlSec).Mirrors where
  ids := List.nodup_nil
  names := List.nodup_nil
  cached k user h := by cases h

/-! ### Selects -/

theorem Mirrors.hit (h : s.Mirrors) (hhit : s.cache.getByKey up k = some user) :
    k.Of user ∧ ∃ row ∈ s.table, row.record = user := by
  unfold UserCache.getByKey at hhit
  split at hhit
  · exact h.cached k user hhit
  · cases hhit

theorem Mirrors.selectById_snd (h : s.Mirrors) : (s.selectById up id).2 = (s.table.rowById id).map UserRow.record := by
  unfold selectById
  split
  · rename_i user hhit
    obtain ⟨rfl, row, hrow, rfl⟩ := h.hit hhit
    rw [show row.record.id = row.id from rfl, UserTable.rowById_of_mem h.ids hrow, Option.map_some]
  · split
    · rename_i hnone
      rw [hnone, Option.map_none]
    · rename_i row hrow
      rw [hrow, Option.map_some, cacheUser, ← (UserTable.rowById_eq hrow).2]
      rfl

theorem Mirrors.selectByName_snd (h : s.Mirrors) :
    (s.selectByName up name).2 = (s.table.rowByName (· = ·) name).map UserRow.record := by
  unfold selectByName
  split
  · rename_i user hhit
    obtain ⟨rfl, row, hrow, rfl⟩ := h.hit hhit
    rw [show row.record.username = row.username from rfl, UserTable.rowByName_of_mem h.names hrow, Option.map_some]
  · split
    · rename_i hnone
      rw [hnone, Option.map_none]
    · rename_i row hrow
      rw [hrow, Option.map_some, cacheUser, ← (UserTable.rowByName_eq hrow).2]
      rfl

theorem selectById_table : (s.selectById up id).1.table = s.table := by
  unfold selectById
  split
  · rfl
  split <;> rfl

theorem selectByName_table : (s.selectByName up name).1.table = s.table := by
  unfold selectByName
  split
  · rfl
  split <;> rfl

/-- A record is cached of a row that is there. -/
theorem Mirrors.cacheUser (h : s.Mirrors) {row : UserRow} (hrow : row ∈ s.table) :
    (s.cacheUser up row.id row.username row.record).1.Mirrors where
  ids := h.ids
  names := h.names
  cached k user hget := by
    rcases UserCache.get_setUser hget with ⟨rfl, rfl | rfl⟩ | hold
    · exact ⟨rfl, row, hrow, rfl⟩
    · exact ⟨rfl, row, hrow, rfl⟩
    · exact h.cached k user hold

theorem Mirrors.selectById (h : s.Mirrors) : (s.selectById up id).1.Mirrors := by
  unfold UserStore.selectById
  split
  · exact h
  split
  · exact h
  · rename_i row hrow
    rw [← (UserTable.rowById_eq hrow).2]
    exact h.cacheUser (UserTable.rowById_eq hrow).1

theorem Mirrors.selectByName (h : s.Mirrors) : (s.selectByName up name).1.Mirrors := by
  unfold UserStore.selectByName
  split
  · exact h
  split
  · exact h
  · rename_i row hrow
    rw [← (UserTable.rowByName_eq hrow).2]
    exact h.cacheUser (UserTable.rowByName_eq hrow).1

/-! ### Updates -/

/-- What the update leaves in the cache it left there before, and it is of another user. -/
theorem Mirrors.cleared (h : s.Mirrors) (hclears : s.Clears up id)
    (hget : (s.cache.invalidateById up id).1.keys.get k = some user) : s.cache.keys.get k = some user ∧ user.id ≠ id := by
  have hold := UserCache.get_invalidateById hget
  refine ⟨hold, fun hid => ?_⟩
  obtain ⟨hkey, row, hrow, rfl⟩ := h.cached k user hold
  have hrowId : row.id = id := hid
  rcases hclears with ⟨hnone, hnames⟩ | ⟨hsome, hreached, hdelName, hdelId⟩
  · cases k with
    | id uid =>
      obtain rfl : uid = id := (hkey : row.id = uid).symm.trans hrowId
      cases hnone.symm.trans hold
    | name n =>
      obtain rfl : row.username = n := hkey
      cases (hnames row hrow hrowId).symm.trans hold
  · obtain ⟨found, hfound⟩ := Option.isSome_iff_exists.mp hsome
    obtain ⟨hkey', row', hrow', rfl⟩ := h.cached _ _ hfound
    have hsame : row' = row := List.inj_on_of_nodup_map h.ids hrow' hrow ((hkey' : row'.id = id).trans hrowId.symm)
    subst hsame
    rw [UserCache.invalidateById_eq hfound hreached hdelName hdelId] at hget
    cases k with
    | id uid =>
      obtain rfl : uid = id := (hkey : row'.id = uid).symm.trans hrowId
      cases KeyStore.get_del_self.symm.trans hget
    | name n =>
      obtain rfl : row'.username = n := hkey
      cases KeyStore.get_del_self.symm.trans (KeyStore.get_of_del hget)

theorem Mirrors.written (h : s.Mirrors) (hkeeps : ∀ table, x = (table, true) → List.Forall₂ (UserTable.Keeps id) s.table table)
    (hclears : x.2 = true → s.Clears up id) : (s.written up id x).1.Mirrors := by
  obtain ⟨table, done⟩ := x
  cases done with
  | false => exact h
  | true =>
    have hkeeps := hkeeps table rfl
    refine ⟨UserTable.ids_of_keeps hkeeps ▸ h.ids, UserTable.names_of_keeps hkeeps ▸ h.names, fun k user hget => ?_⟩
    obtain ⟨hold, hne⟩ := h.cleared (hclears rfl) hget
    obtain ⟨hkey, row, hrow, rfl⟩ := h.cached k user hold
    obtain ⟨row', hrow', -, -, hsame⟩ := Rows.exists_right hkeeps hrow
    exact ⟨hkey, row', hrow', by rw [hsame hne]⟩

theorem written_snd : (s.written up id x).2 = x.2 := by
  obtain ⟨table, done⟩ := x
  cases done <;> rfl

/-! ### Without Redis -/

/-- `NoopUserCache`, whose keys are none. -/
structure Noop (s : UserStore) : Prop where
  redis : s.cache.redis = false
  keys : s.cache.keys = Dict.empty

theorem Noop.clears (h : s.Noop) : s.Clears up id :=
  Or.inl ⟨by rw [h.keys]; rfl, fun row _ _ => by rw [h.keys]; rfl⟩

theorem Noop.cacheUser (h : s.Noop) : (s.cacheUser up id name user).1 = s := by
  rw [UserStore.cacheUser, UserCache.setUser_noop h.redis]

theorem Noop.selectById (h : s.Noop) : (s.selectById up id).1 = s := by
  unfold UserStore.selectById
  split
  · rfl
  split
  · rfl
  · exact h.cacheUser

theorem Noop.selectByName (h : s.Noop) : (s.selectByName up name).1 = s := by
  unfold UserStore.selectByName
  split
  · rfl
  split
  · rfl
  · exact h.cacheUser

theorem Noop.written (h : s.Noop) : (s.written up id x).1.Noop := by
  obtain ⟨table, done⟩ := x
  cases done with
  | false => exact h
  | true =>
    simp only [UserStore.written, UserCache.invalidateById_noop h.redis]
    exact ⟨h.redis, h.keys⟩

theorem Noop.lapse (h : s.Noop) : s.lapse k = s := by
  have hkeys : (s.cache.keys.lapse k).getD s.cache.keys = s.cache.keys := by rw [h.keys]; rfl
  rw [UserStore.lapse, hkeys]
  rfl

/-! ### With and without -/

/-- The same table, with what Redis mirrors of it and without. -/
structure Alike (s t : UserStore) : Prop where
  table : t.table = s.table
  mirrors : s.Mirrors
  noopMirrors : t.Mirrors
  noop : t.Noop

theorem alike_start (redis : Bool) (ttlSec : Int) : (start redis ttlSec).Alike (start false ttlSec) :=
  ⟨rfl, mirrors_start redis ttlSec, mirrors_start false ttlSec, rfl, rfl⟩

end UserStore

/-- An update that is made leaves nothing cached of its user. -/
def UserTrans.Clears (x : UserTrans) : Prop :=
  match x.event with
  | .win id up => (x.before.table.win id).2 = true → x.before.Clears up id
  | .lose id up => (x.before.table.lose id).2 = true → x.before.Clears up id
  | _ => True

/-- The two calls are one, and return the same. -/
def UserTrans.Same (x y : UserTrans) : Prop := x.event = y.event ∧ x.out = y.out

namespace UserStore
variable {s s' t t' : UserStore} {up : UserRedisUp} {id : Uid} {k : CacheKey} {x : UserTable × Bool} {e : UserEvent}
  {ts : List UserTrans} {redis : Bool} {ttlSec : Int}

theorem Mirrors.insert (h : s.Mirrors) {id? : Option Uid} {user : Members} {table : UserTable} {done : Bool}
    (hnew : id?.all (fun id => s.table.Accepts id user) = true) (hins : s.table.insert id? user = .ok (table, done)) :
    Mirrors { s with table } := by
  rcases UserTable.insert_cases hins with rfl | ⟨id, username, password, rfl, hname, rfl⟩
  · exact h
  obtain ⟨-, hid, hnames⟩ := of_decide_eq_true hnew
  refine ⟨?_, ?_, fun k user hget => ?_⟩
  · rw [List.map_append, List.map_singleton]
    refine List.nodup_append.mpr ⟨h.ids, List.nodup_singleton _, fun id' hmem id'' hnew heq => ?_⟩
    obtain ⟨row, hrow, rfl⟩ := List.mem_map.mp hmem
    exact hid ⟨row, hrow, heq.trans (List.mem_singleton.mp hnew)⟩
  · rw [List.map_append, List.map_singleton]
    refine List.nodup_append.mpr ⟨h.names, List.nodup_singleton _, fun name hmem name' hnew heq => ?_⟩
    obtain ⟨row, hrow, rfl⟩ := List.mem_map.mp hmem
    refine hnames row hrow (hname.trans ?_)
    rw [heq, List.mem_singleton.mp hnew]
  · obtain ⟨hkey, row, hrow, heq⟩ := h.cached k user hget
    exact ⟨hkey, row, List.mem_append_left _ hrow, heq⟩

theorem Mirrors.lapse (h : s.Mirrors) : (s.lapse k).Mirrors where
  ids := h.ids
  names := h.names
  cached k' user hget := by
    refine h.cached k' user ?_
    cases hlapse : s.cache.keys.lapse k with
    | none =>
      simp only [UserStore.lapse, hlapse] at hget
      exact hget
    | some keys =>
      simp only [UserStore.lapse, hlapse] at hget
      exact KeyStore.get_of_lapse hlapse hget

/-- An update of the same row in both. -/
theorem Alike.written (h : s.Alike t)
    (hkeeps : ∀ table, x = (table, true) → List.Forall₂ (UserTable.Keeps id) s.table table)
    (hclears : x.2 = true → s.Clears up id) : (s.written up id x).1.Alike (t.written up id x).1 where
  table := by
    obtain ⟨table, done⟩ := x
    cases done with
    | false => exact h.table
    | true => rfl
  mirrors := h.mirrors.written hkeeps hclears
  noopMirrors := h.noopMirrors.written (h.table ▸ hkeeps) fun _ => h.noop.clears
  noop := h.noop.written

/-- Each call returns the same with Redis and without, as long as updates leave nothing cached of their user. -/
theorem Alike.simulates : machine.Simulates machine Alike UserTrans.Same UserTrans.Clears := by
  intro s t e s' out h hs hclears
  cases e with
  | insert id? user =>
    simp only [machine] at hs
    split at hs
    · rename_i hnew
      split at hs
      · rename_i error hins
        obtain ⟨rfl, rfl⟩ := Prod.mk.inj (Option.some.inj hs)
        refine ⟨t, _, ?_, h, rfl, rfl⟩
        simp only [machine, h.table, if_pos hnew, hins]
      · cases hs
      · rename_i table done hins
        obtain ⟨rfl, rfl⟩ := Prod.mk.inj (Option.some.inj hs)
        refine ⟨{ t with table }, _, ?_, ⟨rfl, h.mirrors.insert hnew hins, ?_, h.noop.redis, h.noop.keys⟩, rfl, rfl⟩
        · simp only [machine, h.table, if_pos hnew, hins]
        · exact h.noopMirrors.insert (h.table ▸ hnew) (h.table ▸ hins)
    · cases hs
  | selectByName name up =>
    obtain ⟨rfl, rfl⟩ := Prod.mk.inj (Option.some.inj hs)
    refine ⟨(t.selectByName up name).1, _, rfl, ?_, rfl, ?_⟩
    · rw [h.noop.selectByName]
      refine ⟨?_, h.mirrors.selectByName, h.noopMirrors, h.noop⟩
      rw [h.table, selectByName_table]
    · rw [h.mirrors.selectByName_snd, h.noopMirrors.selectByName_snd, h.table]
  | selectById id up =>
    obtain ⟨rfl, rfl⟩ := Prod.mk.inj (Option.some.inj hs)
    refine ⟨(t.selectById up id).1, _, rfl, ?_, rfl, ?_⟩
    · rw [h.noop.selectById]
      refine ⟨?_, h.mirrors.selectById, h.noopMirrors, h.noop⟩
      rw [h.table, selectById_table]
    · rw [h.mirrors.selectById_snd, h.noopMirrors.selectById_snd, h.table]
  | win id up =>
    obtain ⟨rfl, rfl⟩ := Prod.mk.inj (Option.some.inj hs)
    refine ⟨(t.win up id).1, _, rfl, ?_, rfl, ?_⟩
    · rw [win, win, h.table]
      exact h.written (fun _ => UserTable.win_keeps) hclears
    · rw [win, win, written_snd, written_snd, h.table]
  | lose id up =>
    obtain ⟨rfl, rfl⟩ := Prod.mk.inj (Option.some.inj hs)
    refine ⟨(t.lose up id).1, _, rfl, ?_, rfl, ?_⟩
    · rw [lose, lose, h.table]
      exact h.written (fun _ => UserTable.lose_keeps) hclears
    · rw [lose, lose, written_snd, written_snd, h.table]
  | lapse k =>
    obtain ⟨rfl, rfl⟩ := Prod.mk.inj (Option.some.inj hs)
    refine ⟨t.lapse k, [], rfl, ?_, rfl, rfl⟩
    rw [h.noop.lapse]
    exact ⟨h.table, h.mirrors.lapse, h.noopMirrors, h.noop⟩

/-- What a history of calls returns, the same history returns with `NoopUserCache`. -/
def Transparent (ttlSec : Int) (ts : List UserTrans) : Prop :=
  ∃ us t, machine.Run (start false ttlSec) us t ∧ List.Forall₂ UserTrans.Same ts us

/-- As long as each update that is made leaves nothing cached of its user, whatever else throws and whatever expires,
    the calls return what they return without Redis. -/
theorem transparent (h : machine.Run (start redis ttlSec) ts s) (hC : ∀ x ∈ ts, UserTrans.Clears x) :
    Transparent ttlSec ts := by
  obtain ⟨us, t, hrun, -, hsame⟩ := Alike.simulates.run h (alike_start redis ttlSec) hC
  exact ⟨us, t, hrun, hsame⟩

instance (s : UserStore) (up : UserRedisUp) (id : Uid) : Decidable (s.Clears up id) := inferInstanceAs (Decidable (_ ∨ _))

instance : DecidablePred UserTrans.Clears
  | ⟨before, .win id up, _, _⟩ => inferInstanceAs (Decidable ((before.table.win id).2 = true → before.Clears up id))
  | ⟨before, .lose id up, _, _⟩ => inferInstanceAs (Decidable ((before.table.lose id).2 = true → before.Clears up id))
  | ⟨_, .insert .., _, _⟩ | ⟨_, .selectByName .., _, _⟩ | ⟨_, .selectById .., _, _⟩ | ⟨_, .lapse _, _, _⟩ =>
    inferInstanceAs (Decidable True)

/-- User 1 registers. -/
def bob : UserEvent := .insert (some 1) [("username", .str "bob"), ("password", .str "secret")]

/-- A user is selected, wins, and is selected again while Redis writes one key of two. -/
theorem transparent_win : ∃ (ts : List UserTrans) (s : UserStore), machine.Run (start true 120) ts s ∧
    ts.getLast?.map Machine.Trans.out = some [.selected (some ⟨1, "bob", 1030, 1, 1⟩)] ∧ Transparent 120 ts := by
  obtain ⟨ts, s, h, hC, hlast⟩ := Machine.Run.exists_of_exec machine (start true 120)
    [bob, .selectById 1 .all, .win 1 .all, .selectByName "bob" { UserRedisUp.all with setName := false },
      .lapse (.id 1), .selectById 1 .all]
    (fun (ts : List UserTrans) _ => (∀ x ∈ ts, UserTrans.Clears x) ∧
      ts.getLast?.map Machine.Trans.out = some [.selected (some ⟨1, "bob", 1030, 1, 1⟩)]) (by decide +kernel)
  exact ⟨ts, s, h, hlast, transparent h hC⟩

theorem maps_of_same {us : List UserTrans} (h : List.Forall₂ UserTrans.Same ts us) :
    us.map Machine.Trans.event = ts.map Machine.Trans.event ∧ us.map Machine.Trans.out = ts.map Machine.Trans.out := by
  induction h with
  | nil => exact ⟨rfl, rfl⟩
  | cons hsame _ ih => exact ⟨congrArg₂ List.cons hsame.1.symm ih.1, congrArg₂ List.cons hsame.2.symm ih.2⟩

/-- A user wins while Redis is away, and the cached record keeps the old score. -/
theorem outdated_after_throw : ¬∀ redis ttlSec (ts : List UserTrans) s, machine.Run (start redis ttlSec) ts s →
    Transparent ttlSec ts := by
  intro hall
  obtain ⟨ts, s, h, hevents, hlast⟩ := Machine.Run.exists_of_exec_events machine (start true 120)
    [bob, .selectById 1 .all, .win 1 { UserRedisUp.all with get := false }, .selectById 1 .all]
    (fun (ts : List UserTrans) _ => (ts.map Machine.Trans.out).getLast? = some [.selected (some ⟨1, "bob", 1000, 0, 0⟩)])
    (by decide +kernel)
  obtain ⟨us, t, hrun, hsame⟩ := hall true 120 ts s h
  obtain ⟨hsameEvents, hsameOut⟩ := maps_of_same hsame
  have hscore : (us.map Machine.Trans.out).getLast? = some [.selected (some ⟨1, "bob", 1030, 1, 1⟩)] :=
    hrun.forall_of_exec _ (fun (us : List UserTrans) _ => (us.map Machine.Trans.out).getLast? =
      some [.selected (some ⟨1, "bob", 1030, 1, 1⟩)]) (hsameEvents.trans hevents) (by decide +kernel)
  rw [hsameOut, hlast] at hscore
  cases hscore

end UserStore
end FiveStones
