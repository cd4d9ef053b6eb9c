import Mathlib
import UnifyConsole.Routing.Retry

/-!
# The status of a channel in its three copies

A channel's status is in its row, in the cached channel and, as membership, in
the index that selections read.  `Indexed` says that the index has the entries
that `initChannelCache` would make of the cached channels, as often as it would
make them.  A status that is written by hand keeps it (`Indexed.write`) except in
two cases: a channel that is switched on is not entered again, and of a channel
that lists a model twice only one entry is removed.

`never_selects_disabled` draws from `Indexed` what a selection can return, and
`cache_agrees_with_database` adds that the cached channels are the stored ones.
-/

namespace UnifyConsole.Routing

open Lib
open List Option Function ChannelCache

/-- The index is what the cached channels make of it. -/
def Indexed (pricingGroups : List String) (cache : ChannelCache) : Prop :=
  ∀ group model id, (cache.index group model).count id =
    (cache.byId id).elim 0 fun c => (c.entries pricingGroups group model).length

/-- The channel is to be found under some group and model when it is enabled. -/
def Channel.Listed (channel : Channel) (pricingGroups : List String) : Prop :=
  channel.routingGroups pricingGroups ≠ [] ∧ channel.models ≠ []

open Channel

/-- The status may be written: not on while the channel is listed, not off while it lists a model
twice. -/
def Channel.Writable (channel : Channel) (pricingGroups : List String) (status : ChannelStatus) :
    Prop :=
  (channel.status ≠ .enabled → status = .enabled → ¬ channel.Listed pricingGroups) ∧
  (channel.status = .enabled → status ≠ .enabled →
    channel.models.Nodup ∨ ¬ channel.Listed pricingGroups)

variable {pricingGroups : List String}

section Entries

variable {c u : Channel}

theorem length_entries (group model : String) : (c.entries pricingGroups group model).length =
    if c.status = .enabled ∧ group ∈ c.routingGroups pricingGroups then c.models.count model
      else 0 := by
  unfold entries
  split
  · rw [length_map, ← countP_eq_length_filter, count]
    exact countP_congr fun m _ => by simp
  · rfl

theorem length_entries_of_disabled (h : c.status ≠ .enabled) (group model : String) :
    (c.entries pricingGroups group model).length = 0 := by
  rw [length_entries, if_neg (fun hc => h hc.1)]

theorem length_entries_of_not_listed (h : ¬ c.Listed pricingGroups) (group model : String) :
    (c.entries pricingGroups group model).length = 0 := by
  rw [length_entries]
  split
  · rename_i hc
    have hmodels : c.models = [] := by
      by_contra hne
      exact h ⟨ne_nil_of_mem hc.2, hne⟩
    rw [hmodels]
    rfl
  · rfl

theorem length_entries_congr (hstatus : u.status = .enabled ↔ c.status = .enabled)
    (hgroups : u.groups = c.groups) (hmodels : u.models = c.models) (group model : String) :
    (u.entries pricingGroups group model).length =
      (c.entries pricingGroups group model).length := by
  rw [length_entries, length_entries, hmodels]
  exact if_congr (and_congr hstatus (by rw [routingGroups, hgroups]; rfl)) rfl rfl

theorem count_entries (group model : String) (id : Int) :
    (c.entries pricingGroups group model).count id =
      if c.id = id then (c.entries pricingGroups group model).length else 0 := by
  unfold entries
  split
  · rw [map_const', count_replicate, length_replicate]
    simp only [beq_iff_eq]
  · simp

end Entries

/-- A freshly loaded cache is indexed. -/
theorem indexed_initChannelCache (pricingGroups : List String) (db : ChannelDb) :
    Indexed pricingGroups (initChannelCache pricingGroups db) := by
  intro group model id
  show count id (insertionSort _ _) = (db.channels.find? id).elim 0 _
  rw [(perm_insertionSort _ _).count_eq, count_flatMap]
  have hsum : ∀ l : List Channel, (l.map Channel.id).Nodup →
      (l.map fun c => (c.entries pricingGroups group model).count id).sum =
        (l.find? fun c => decide (c.id = id)).elim 0
          (fun c => (c.entries pricingGroups group model).length) := by
    intro l
    induction l with
    | nil =>
      intro _
      rfl
    | cons c l ih =>
      intro hnodup
      rw [map_cons, nodup_cons] at hnodup
      rw [map_cons, sum_cons, count_entries]
      by_cases hid : c.id = id
      · have hrest : l.find? (fun c => decide (c.id = id)) = none := by
          rw [find?_eq_none]
          intro d hd
          simpa using fun he => hnodup.1 (mem_map.mpr ⟨d, hd, he.trans hid.symm⟩)
        rw [find?_cons_of_pos (by simpa using hid), if_pos hid, ih hnodup.2, hrest]
        rfl
      · rw [find?_cons_of_neg (by simpa using hid), if_neg hid, ih hnodup.2, Nat.zero_add]
  exact hsum _ db.channels.nodup

/-- What a write of a channel's status does to the cache. -/
structure Wrote (id : Int) (c u : Channel) (cache cache' : ChannelCache) : Prop where
  before : cache.byId id = some c
  byId : cache'.byId = Function.update cache.byId id (some u)
  index : ∀ group model, cache'.index group model =
    if c.status ≠ u.status ∧ u.status ≠ .enabled then (cache.index group model).erase id
    else cache.index group model
  groups : u.groups = c.groups
  models : u.models = c.models

variable {id : Int} {c : Channel} {cache : ChannelCache}

theorem Indexed.write {u : Channel} {cache' : ChannelCache} (h : Indexed pricingGroups cache)
    (hw : Wrote id c u cache cache') (hok : c.Writable pricingGroups u.status) :
    Indexed pricingGroups cache' := by
  intro group model k
  have hcount := h group model k
  rw [hw.index, hw.byId]
  by_cases hk : k = id
  · subst hk
    rw [hw.before, elim_some] at hcount
    rw [update_self, elim_some]
    by_cases hu : u.status = .enabled
    · rw [if_neg (fun hx => hx.2 hu), hcount]
      by_cases hc : c.status = .enabled
      · exact (length_entries_congr (iff_of_true hu hc) hw.groups hw.models _ _).symm
      have hno := hok.1 hc hu
      rw [length_entries_of_disabled hc, length_entries_of_not_listed]
      unfold Listed routingGroups at hno ⊢
      rwa [hw.groups, hw.models]
    rw [length_entries_of_disabled hu]
    by_cases hc : c.status = .enabled
    · -- the one entry that the channel has is removed
      rw [if_pos ⟨fun he => hu (he ▸ hc), hu⟩, count_erase_self, hcount]
      have hle : (c.entries pricingGroups group model).length ≤ 1 := by
        rcases hok.2 hc hu with hnodup | hno
        · rw [length_entries]
          split
          · exact nodup_iff_count_le_one.mp hnodup model
          · exact Nat.zero_le 1
        · rw [length_entries_of_not_listed hno]
          exact Nat.zero_le 1
      omega
    · rw [length_entries_of_disabled hc] at hcount
      split
      · rw [erase_of_not_mem (count_eq_zero.mp hcount), hcount]
      · exact hcount
  · rw [update_of_ne hk, ← hcount]
    split
    · exact count_erase_of_ne hk
    · rfl

/-! ### Selections -/

/-- Selections return enabled channels only, and an enabled one is a candidate wherever it is
listed. -/
def Serves (pricingGroups : List String) (cache : ChannelCache) : Prop :=
  (∀ env group model retry requestPath c,
    getRandomSatisfiedChannel env cache group model retry requestPath = .ok (some c) →
    ∃ id, cache.byId id = some c ∧ c.status = .enabled) ∧
  ∀ env group model requestPath id c, cache.byId id = some c → c.status = .enabled →
    group ∈ c.routingGroups pricingGroups → model ∈ c.models →
    (requestPath ≠ "" → env.supportsPath c requestPath model = true) →
    ∃ channels, cache.channelsOf (cache.candidates env group model requestPath) = .ok channels ∧
      c ∈ level channels c.priority

theorem Indexed.serves (h : Indexed pricingGroups cache) : Serves pricingGroups cache := by
  have henabled : ∀ group model, ∀ id ∈ cache.index group model, ∃ c, cache.byId id = some c ∧
      c.status = .enabled := by
    intro group model id hid
    have hcount := h group model id
    have hpos := count_pos_iff.mpr hid
    cases hc : cache.byId id with
    | none =>
      rw [hc, elim_none] at hcount
      omega
    | some c =>
      refine ⟨c, rfl, ?_⟩
      by_contra hstatus
      rw [hc, elim_some, length_entries_of_disabled hstatus] at hcount
      omega
  have hcomplete : ∀ env group model requestPath,
    ∀ id ∈ cache.candidates env group model requestPath,
      (cache.byId id).isSome = true := by
    intro env group model requestPath id hid
    obtain ⟨m, hm⟩ := mem_candidates hid
    obtain ⟨c, hc, -⟩ := henabled group m id hm
    rw [hc]
    rfl
  constructor
  · intro env group model retry requestPath c hc
    obtain ⟨id, hid, hbyId⟩ := mem_candidates_of_selected hc
    obtain ⟨m, hm⟩ := mem_candidates hid
    obtain ⟨d, hd, hstatus⟩ := henabled group m id hm
    rw [hbyId] at hd
    cases hd
    exact ⟨id, hbyId, hstatus⟩
  intro env group model requestPath id c hc hstatus hgroup hmodel hpath
  have hid : id ∈ cache.candidates env group model requestPath := by
    have hindex : id ∈ cache.index group model := by
      rw [← count_pos_iff, h group model id, hc, elim_some, length_entries,
        if_pos ⟨hstatus, hgroup⟩]
      exact count_pos_iff.mpr hmodel
    have hexact : id ∈ cache.filterChannels env (cache.index group model) requestPath model := by
      unfold filterChannels
      split
      · exact hindex
      · rename_i hne
        rw [mem_filter, hc]
        exact ⟨hindex, hpath hne⟩
    unfold candidates
    split
    · rename_i hnil
      rw [hnil] at hexact
      cases hexact
    · exact hexact
  refine ⟨_, channelsOf_eq (hcomplete _ _ _ _), ?_⟩
  exact mem_filter.mpr ⟨mem_filterMap.mpr ⟨id, hid, hc⟩, by simp⟩

/-! ### Updates -/

/-- What `UpdateChannelStatus` makes of a channel. -/
def Channel.updated (channel : Channel) (usingKey : String) (status : ChannelStatus) : Channel :=
  if channel.isMultiKey then handlerMultiKeyUpdate channel usingKey status
  else { channel with status := status }

section Updated

variable (c : Channel) (usingKey : String) (status : ChannelStatus)

/-- A key at a position of the list: `handlerMultiKeyUpdate` writes the status there. -/
def Channel.setKey (i : ℕ) (status : ChannelStatus) (channel : Channel) : Channel :=
  let statusList := Function.update channel.statusList i
    (if status = .enabled then none else some status)
  { channel with
    statusList := statusList
    status := if hasEnabledMultiKey channel.keys statusList = false then .autoDisabled
      else if status = .enabled then .enabled else channel.status }

theorem updated_cases : c.updated usingKey status = c ∧ usingKey ∉ c.keys ∨
    c.updated usingKey status = { c with status := status } ∨
    ∃ i, c.keys.idxOf? usingKey = some i ∧ c.updated usingKey status = c.setKey i status := by
  unfold updated
  split
  · unfold handlerMultiKeyUpdate
    split
    · exact .inr (.inl rfl)
    split
    · rename_i hnone
      split
      · exact .inl ⟨rfl, idxOf?_eq_none_iff.mp hnone⟩
      · exact .inr (.inl rfl)
    · exact .inr (.inr ⟨_, by assumption, rfl⟩)
  · exact .inr (.inl rfl)

theorem updated_rest : (c.updated usingKey status).groups = c.groups ∧
    (c.updated usingKey status).models = c.models ∧ (c.updated usingKey status).id = c.id := by
  rcases updated_cases c usingKey status with ⟨h, -⟩ | h | ⟨i, -, h⟩ <;> rw [h] <;>
    exact ⟨rfl, rfl, rfl⟩

/-- A status that changes becomes enabled exactly when that was asked for. -/
theorem updated_enabled_iff (h : c.status ≠ (c.updated usingKey status).status) :
    (c.updated usingKey status).status = .enabled ↔ status = .enabled := by
  rcases updated_cases c usingKey status with ⟨hu, -⟩ | hu | ⟨i, hi, hu⟩
  · rw [hu] at h
    exact absurd rfl h
  · rw [hu]
  rw [hu] at h ⊢
  by_cases hs : status = .enabled
  · -- the key itself is enabled then
    have hlt : i < c.keys.length := by
      rw [idxOf?, findIdx?_eq_some_iff_getElem] at hi
      exact hi.1
    have hsome : hasEnabledMultiKey c.keys (update c.statusList i none) = true :=
      any_eq_true.mpr ⟨i, mem_range.mpr hlt, by simp⟩
    simp [setKey, hs, hsome]
  refine iff_of_false (fun he => ?_) hs
  simp only [setKey, hs, if_false] at h he
  split at he
  · cases he
  · rename_i hsome
    rw [if_neg hsome] at h
    exact h rfl

end Updated

theorem wrote_cacheUpdateChannelStatus (hc : cache.byId id = some c) (status : ChannelStatus)
    (hne : c.status ≠ status) :
    Wrote id c { c with status := status } cache (cacheUpdateChannelStatus id status cache) where
  before := hc
  byId := by
    show update cache.byId id _ = _
    rw [hc]
    rfl
  index group model := by
    show (if status = .enabled then _ else _) = _
    by_cases hs : status = .enabled
    · rw [if_pos hs, if_neg (fun h => h.2 hs)]
    · rw [if_neg hs, if_pos ⟨hne, hs⟩]
  groups := rfl
  models := rfl

variable {usingKey : String} {status : ChannelStatus}

theorem wrote_updateCachedStatus {cache' : ChannelCache}
    (h : updateCachedStatus id usingKey status cache = some cache') :
    ∃ c, Wrote id c (c.updated usingKey status) cache cache' := by
  unfold updateCachedStatus at h
  split at h
  · cases h
  rename_i c hc
  refine ⟨c, ?_⟩
  obtain ⟨hgroups, hmodels, -⟩ := updated_rest c usingKey status
  split at h
  · rename_i hmulti
    have hu : handlerMultiKeyUpdate c usingKey status = c.updated usingKey status :=
      (if_pos hmulti).symm
    dsimp only at h
    rw [hu] at h
    split at h
    · rename_i hne
      obtain rfl := some.inj h
      refine ⟨hc, ?_, fun group model => ?_, hgroups, hmodels⟩
      · simp only [cacheUpdateChannelStatus, update_idem, update_self,
          map_some]
      show (if (c.updated usingKey status).status = .enabled then _ else _) = _
      by_cases hs : (c.updated usingKey status).status = .enabled
      · rw [if_pos hs, if_neg (fun h => h.2 hs)]
      · rw [if_neg hs, if_pos ⟨hne, hs⟩]
    · rename_i hsame
      obtain rfl := some.inj h
      exact ⟨hc, rfl, fun group model => (if_neg fun hx => hsame hx.1).symm, hgroups, hmodels⟩
  · rename_i hsingle
    have hu : c.updated usingKey status = { c with status := status } := if_neg hsingle
    split at h
    · cases h
    rename_i hne
    obtain rfl := some.inj h
    rw [hu]
    exact wrote_cacheUpdateChannelStatus hc status hne

/-! ### Runs -/

structure StatusCall where
  id : Int
  usingKey : String
  status : ChannelStatus

inductive CacheCall where
  | initChannelCache
  | cacheUpdateChannelStatus (id : Int) (status : ChannelStatus)
  | cacheUpdateChannel (channel : Channel)
  | updateChannelStatus (call : StatusCall)

def StatusCall.run (call : StatusCall) (s : ChannelSystem) : ChannelSystem :=
  (updateChannelStatus call.id call.usingKey call.status s).1

def CacheCall.run (pricingGroups : List String) (s : ChannelSystem) : CacheCall → ChannelSystem
  | .initChannelCache => { s with cache := Routing.initChannelCache pricingGroups s.db }
  | .cacheUpdateChannelStatus id status =>
    { s with cache := Routing.cacheUpdateChannelStatus id status s.cache }
  | .cacheUpdateChannel channel => { s with cache := Routing.cacheUpdateChannel channel s.cache }
  | .updateChannelStatus call => call.run s

/-- The call leaves the index right. -/
def CacheCall.Steady (pricingGroups : List String) (s : ChannelSystem) : CacheCall → Prop
  | .initChannelCache => True
  | .cacheUpdateChannelStatus id status =>
    ∀ c, s.cache.byId id = some c → c.Writable pricingGroups status
  | .cacheUpdateChannel channel =>
    (channel.status = .enabled ↔ ∃ c, s.cache.byId channel.id = some c ∧ c.status = .enabled) ∧
    ∀ c, s.cache.byId channel.id = some c → c.status = .enabled →
      channel.groups = c.groups ∧ channel.models = c.models
  | .updateChannelStatus call =>
    ∀ c, s.cache.byId call.id = some c →
      c.Writable pricingGroups (c.updated call.usingKey call.status).status

/-- Every call of a run is steady in the state it finds. -/
def AllSteady (pricingGroups : List String) : ChannelSystem → List CacheCall → Prop
  | _, [] => True
  | s, call :: calls =>
    call.Steady pricingGroups s ∧ AllSteady pricingGroups (call.run pricingGroups s) calls

/-- A status that the cached channel has, or that there is no channel for, changes nothing. -/
theorem Indexed.idle (h : Indexed pricingGroups cache)
    (hsame : ∀ c, cache.byId id = some c → c.status = status) :
    cacheUpdateChannelStatus id status cache = cache := by
  have hindex : (fun group model => if status = .enabled then cache.index group model
      else (cache.index group model).erase id) = cache.index := by
    funext group model
    split
    · rfl
    rename_i hs
    refine erase_of_not_mem (count_eq_zero.mp ?_)
    rw [h group model id]
    cases hc : cache.byId id with
    | none => rfl
    | some c => exact length_entries_of_disabled (fun he => hs ((hsame c hc).symm.trans he)) _ _
  have hbyId : (cache.byId id).map (fun c => { c with status := status }) = cache.byId id := by
    cases hc : cache.byId id with
    | none => rfl
    | some c =>
      rw [map_some, ← hsame c hc]
  unfold cacheUpdateChannelStatus
  rw [hbyId, update_eq_self, hindex]

variable {s : ChannelSystem}

theorem Indexed.run (h : Indexed pricingGroups s.cache) {call : CacheCall}
    (hok : call.Steady pricingGroups s) :
    Indexed pricingGroups (call.run pricingGroups s).cache := by
  cases call with
  | initChannelCache => exact indexed_initChannelCache pricingGroups s.db
  | cacheUpdateChannelStatus id status =>
    by_cases hsame : ∀ c, s.cache.byId id = some c → c.status = status
    · show Indexed pricingGroups (cacheUpdateChannelStatus id status s.cache)
      rw [h.idle hsame]
      exact h
    · simp only [not_forall] at hsame
      obtain ⟨c, hc, hne⟩ := hsame
      exact h.write (wrote_cacheUpdateChannelStatus hc status hne) (hok c hc)
  | cacheUpdateChannel channel =>
    intro group model id
    show (s.cache.index group model).count id = (update s.cache.byId _ _ id).elim 0 _
    rw [h group model id]
    by_cases hid : id = channel.id
    · subst hid
      rw [update_self, elim_some]
      by_cases hs : channel.status = .enabled
      · obtain ⟨c, hc, hcs⟩ := hok.1.mp hs
        obtain ⟨hgroups, hmodels⟩ := hok.2 c hc hcs
        rw [hc, elim_some]
        exact (length_entries_congr (iff_of_true hs hcs) hgroups hmodels _ _).symm
      rw [length_entries_of_disabled hs]
      cases hc : s.cache.byId channel.id with
      | none => rfl
      | some c => exact length_entries_of_disabled (fun he => hs (hok.1.mpr ⟨c, hc, he⟩)) _ _
    · rw [update_of_ne hid]
  | updateChannelStatus =>
    show Indexed pricingGroups (updateChannelStatus _ _ _ s).1.cache
    unfold updateChannelStatus
    split
    · exact h
    · rename_i cache' hcache
      obtain ⟨c, hw⟩ := wrote_updateCachedStatus hcache
      exact h.write hw (hok c hw.before)

/-- **A disabled channel is never selected**, and an enabled one is a candidate wherever it is
listed, after every run of steady calls from a loaded cache. -/
theorem never_selects_disabled (pricingGroups : List String) (calls : List CacheCall) :
    ∀ (s : ChannelSystem), s.cache = initChannelCache pricingGroups s.db →
    AllSteady pricingGroups s calls →
    Serves pricingGroups (calls.foldl (CacheCall.run pricingGroups) s).cache := by
  intro s hloaded hok
  have h : Indexed pricingGroups s.cache := by
    rw [hloaded]
    exact indexed_initChannelCache pricingGroups s.db
  clear hloaded
  induction calls generalizing s with
  | nil => exact h.serves
  | cons call calls ih => exact ih _ hok.2 (h.run hok.1)

/-- Channel `1` is switched off and everything is loaded again. -/
def switchedOff : List CacheCall :=
  [.updateChannelStatus ⟨1, "key", .autoDisabled⟩, .initChannelCache]

theorem never_selects_disabled_switchedOff :
    Serves [] (switchedOff.foldl (CacheCall.run [])
      ⟨oneGroupDb, initChannelCache [] oneGroupDb⟩).cache := by
  refine never_selects_disabled [] switchedOff _ rfl ⟨fun c hc => ?_, trivial, trivial⟩
  cases hc
  exact ⟨fun h => absurd rfl h, fun _ _ => .inl (by decide)⟩

def twiceDb : ChannelDb where
  channels := ⟨[{ groupChannel 1 "pro" 0 with models := ["gpt", "gpt"] }], by decide⟩
  abilities := []

def loadedAfter (db : ChannelDb) (calls : List CacheCall) : ChannelSystem :=
  calls.foldl (CacheCall.run []) ⟨db, initChannelCache [] db⟩

/-- A channel that lists its model twice is still selected when off; off and on again, one is not.
-/
theorem disabled_channel_selected :
    ((loadedAfter twiceDb [.updateChannelStatus ⟨1, "key", .autoDisabled⟩]).cache.pick plainEnv
      "gpt" "" "pro" 0).map Channel.status = some .autoDisabled ∧
    ((loadedAfter oneGroupDb [.updateChannelStatus ⟨1, "key", .autoDisabled⟩,
      .updateChannelStatus ⟨1, "key", .enabled⟩]).cache.byId 1).map Channel.status =
        some .enabled ∧
    (loadedAfter oneGroupDb [.updateChannelStatus ⟨1, "key", .autoDisabled⟩,
      .updateChannelStatus ⟨1, "key", .enabled⟩]).cache.candidates plainEnv "pro" "gpt" "" =
        [2] := by
  decide +kernel

/-! ### The cache and the database -/

/-- The cached channels are the stored ones, and loading them again would change nothing. -/
structure Agrees (pricingGroups : List String) (s : ChannelSystem) : Prop where
  channels : ∀ id, s.cache.byId id = s.db.channels.find? id
  abilities : ∀ a ∈ s.db.abilities, ∀ c, s.db.channels.find? a.channelId = some c →
    (a.enabled = true ↔ c.status = .enabled)
  reload : ∀ group model,
    (s.cache.index group model).Perm ((initChannelCache pricingGroups s.db).index group model)

/-- The key has its status already, and the channel the one that follows from its keys. -/
def Channel.Settled (channel : Channel) (usingKey : String) (status : ChannelStatus) : Prop :=
  usingKey ∈ channel.keys →
    channel.statusList (channel.keys.idxOf usingKey) =
      (if status = .enabled then none else some status) ∧
    (hasEnabledMultiKey channel.keys channel.statusList = true ∨ status = .autoDisabled)

/-- The call changes both copies alike: where the stored half stops, there is nothing to change. -/
def StatusCall.Mirrored (pricingGroups : List String) (call : StatusCall) (s : ChannelSystem) :
    Prop :=
  ∀ c, s.cache.byId call.id = some c →
    c.Writable pricingGroups (c.updated call.usingKey call.status).status ∧
    (c.isMultiKey = true → c.status = call.status → c.Settled call.usingKey call.status)

def AllMirrored (pricingGroups : List String) : ChannelSystem → List StatusCall → Prop
  | _, [] => True
  | s, call :: calls =>
    call.Mirrored pricingGroups s ∧ AllMirrored pricingGroups (call.run s) calls

theorem updated_of_settled (h : c.Settled usingKey c.status) : c.updated usingKey c.status = c := by
  rcases updated_cases c usingKey c.status with ⟨hu, -⟩ | hu | ⟨i, hi, hu⟩
  · exact hu
  · exact hu
  obtain ⟨hlt, hget, hfirst⟩ := idxOf?_eq_some_iff.mp hi
  have hidx : c.keys.idxOf usingKey = i := by
    rw [idxOf_eq_getD_idxOf?, hi, getD_some]
  obtain ⟨hlist, hkeys⟩ := h (hget ▸ getElem_mem hlt)
  rw [hidx] at hlist
  have hstatus : (if hasEnabledMultiKey c.keys c.statusList = false then .autoDisabled
      else if c.status = .enabled then .enabled else c.status) = c.status := by
    rcases hkeys with hkeys | hauto
    · simpa [hkeys] using Eq.symm
    · simp [hauto]
  rw [hu, setKey, ← hlist, update_eq_self, hstatus]

theorem indexed_iff_reload (h : ∀ id, s.cache.byId id = s.db.channels.find? id) :
    Indexed pricingGroups s.cache ↔ ∀ group model,
      (s.cache.index group model).Perm ((initChannelCache pricingGroups s.db).index group model) := by
  have hinit := indexed_initChannelCache pricingGroups s.db
  refine forall₂_congr fun group model => ?_
  rw [perm_iff_count]
  refine forall_congr' fun id => ?_
  rw [hinit group model id, h id]
  rfl

/-- What the stored half writes; where it stops, there was nothing to write. -/
theorem updateStoredStatus_spec {db : ChannelDb} (hc : db.channels.find? c.id = some c)
    (hsettled : c.status = status → c.updated usingKey status = c) :
    (∀ id, (updateStoredStatus c.id usingKey status db).1.channels.find? id =
      if id = c.id then some (c.updated usingKey status) else db.channels.find? id) ∧
    (updateStoredStatus c.id usingKey status db).1.abilities = db.abilities.map (fun a =>
      if a.channelId = c.id ∧ c.status ≠ (c.updated usingKey status).status then
        { a with enabled := status = .enabled } else a) := by
  unfold updateStoredStatus
  rw [hc]
  dsimp only
  split
  · rename_i hs
    rw [hsettled hs]
    refine ⟨fun id => ?_, by simp⟩
    split
    · rename_i hid
      rw [hid, hc]
    · rfl
  have hu : (if c.isMultiKey then handlerMultiKeyUpdate c usingKey status
      else { c with status := status }) = c.updated usingKey status := rfl
  have hrow : ({ c.updated usingKey status with id := c.id } : Channel) =
      c.updated usingKey status := by
    rw [← (updated_rest c usingKey status).2.2]
  have hfind : ∀ id, (db.channels.update (fun x => decide (x.id = c.id))
      (fun x => { c.updated usingKey status with id := x.id }) fun _ => rfl).find? id =
        if id = c.id then some (c.updated usingKey status) else db.channels.find? id := by
    intro id
    rw [Table.find?_update_at hc (by simp) (fun x hx => by simpa using hx), hrow]
  rw [hu]
  split
  · rename_i hne
    exact ⟨hfind, by simp [updateAbilityStatus, hne]⟩
  · rename_i hsame
    exact ⟨hfind, by simp [hsame]⟩

theorem Agrees.run (h : Agrees pricingGroups s) {call : StatusCall}
    (hok : call.Mirrored pricingGroups s) : Agrees pricingGroups (call.run s) := by
  have hindexed := (indexed_iff_reload h.channels).mpr h.reload
  unfold StatusCall.run updateChannelStatus
  split
  · exact h
  rename_i cache' hcache
  obtain ⟨c, hw⟩ := wrote_updateCachedStatus hcache
  obtain ⟨hwrite, hsettled⟩ := hok c hw.before
  have hstored : s.db.channels.find? call.id = some c := (h.channels call.id).symm.trans hw.before
  have hid : call.id = c.id := (Table.key_of_find? hstored).symm
  rw [hid] at hstored hw ⊢
  -- a channel with one key has not got as far as this with the status it has
  have hnothing : c.status = call.status → c.updated call.usingKey call.status = c := by
    intro hs
    by_cases hmulti : c.isMultiKey = true
    · have := updated_of_settled (hs ▸ hsettled hmulti hs)
      rwa [hs] at this
    · rw [updated, if_neg hmulti, ← hs]
  obtain ⟨hfind, habilities⟩ := updateStoredStatus_spec hstored hnothing
  have hchannels : ∀ id, cache'.byId id =
      (updateStoredStatus c.id call.usingKey call.status s.db).1.channels.find? id := by
    intro id
    rw [hw.byId, update_apply, hfind, h.channels]
  refine ⟨hchannels, fun a' ha' d hd => ?_, (indexed_iff_reload hchannels).mp
    (hindexed.write hw hwrite)⟩
  rw [habilities] at ha'
  obtain ⟨a, ha, rfl⟩ := mem_map.mp ha'
  have hsame : (if a.channelId = c.id ∧ c.status ≠ (c.updated call.usingKey call.status).status
      then { a with enabled := call.status = .enabled } else a).channelId = a.channelId := by
    split <;> rfl
  rw [hsame, hfind] at hd
  by_cases hmine : a.channelId = c.id
  · rw [if_pos hmine] at hd
    cases hd
    by_cases hne : c.status ≠ (c.updated call.usingKey call.status).status
    · rw [if_pos ⟨hmine, hne⟩, updated_enabled_iff c call.usingKey call.status hne]
      exact decide_eq_true_iff
    · rw [if_neg (fun hx => hne hx.2), ← not_not.mp hne]
      exact h.abilities a ha c (hmine ▸ hstored)
  · rw [if_neg hmine] at hd
    rw [if_neg (fun hx => hmine hx.1)]
    exact h.abilities a ha d hd

/-- **Cache and database agree** after every run of mirrored calls from a freshly loaded cache. -/
theorem cache_agrees_with_database (pricingGroups : List String) (calls : List StatusCall) :
    ∀ (s : ChannelSystem), s.cache = initChannelCache pricingGroups s.db →
    (∀ a ∈ s.db.abilities, ∀ c, s.db.channels.find? a.channelId = some c →
      (a.enabled = true ↔ c.status = .enabled)) →
    AllMirrored pricingGroups s calls →
    Agrees pricingGroups (calls.foldl (fun s call => call.run s) s) := by
  intro s hloaded habilities hok
  have h : Agrees pricingGroups s :=
    ⟨fun id => by rw [hloaded]; rfl, habilities, fun group model => by rw [hloaded]⟩
  clear hloaded habilities
  induction calls generalizing s with
  | nil => exact h
  | cons call calls ih => exact ih _ hok.2 (h.run hok.1)

def twoKeysDb : ChannelDb where
  channels := ⟨[{ groupChannel 1 "pro" 0 with keys := ["a", "b"], isMultiKey := true }], by decide⟩
  abilities := [⟨"pro", "gpt", 1, true⟩]

theorem cache_agrees_with_database_oneKeyOff :
    Agrees [] ([StatusCall.mk 1 "a" .autoDisabled].foldl (fun s call => call.run s)
      ⟨twoKeysDb, initChannelCache [] twoKeysDb⟩) := by
  refine cache_agrees_with_database [] _ _ rfl ?_ ⟨fun c hc => ?_, trivial⟩
  · intro a ha c hc
    cases mem_singleton.mp ha
    cases hc
    decide
  · cases hc
    exact ⟨⟨fun h => absurd rfl h, fun _ _ => .inl (by decide)⟩, nofun⟩

/-- A key goes off and on again; the stored half of the second call stops, and the key stays
disabled there. -/
theorem stored_key_stays_disabled :
    let s := [StatusCall.mk 1 "a" .autoDisabled, ⟨1, "a", .enabled⟩].foldl
      (fun s call => call.run s) ⟨twoKeysDb, initChannelCache [] twoKeysDb⟩
    (s.cache.byId 1).map (fun c => c.statusList 0) = some none ∧
      (s.db.channels.find? 1).map (fun c => c.statusList 0) = some (some .autoDisabled) := by
  decide +kernel

end UnifyConsole.Routing
