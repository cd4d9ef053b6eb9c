import Mathlib
import UnifyConsole.Lib.Table

/-!
# Channels and their cache

`model/channel_cache.go` and the status part of `model/channel.go`.  The channels
are rows of a table, each with ability rows that say where it serves.  With the
memory cache on there are two more copies: `channelsIDM`, all channels by id, and
`group2model2channels`, the ids of the enabled ones under each group and model.
`initChannelCache` builds both from the rows; the other functions change one or
the other by hand.

A key list is what `GetKeys` makes of the key column, and the lists of groups and
models what the source splits their columns into.  Nothing here reads the columns
that no function below reads.
-/

namespace UnifyConsole.Routing

open Lib

inductive ChannelStatus where
  | unknown
  | enabled
  | manuallyDisabled
  | autoDisabled
deriving DecidableEq

structure Channel where
  id : Int
  status : ChannelStatus
  /-- `GetKeys`. -/
  keys : List String
  isMultiKey : Bool
  /-- `MultiKeyStatusList`, by position. -/
  statusList : ℕ → Option ChannelStatus
  priority : Int
  weight : ℕ
  /-- `GetGroups`. -/
  groups : List String
  models : List String

/-- `routingGroups`: its own groups first, then the pricing groups, each once. -/
def Channel.routingGroups (channel : Channel) (pricingGroups : List String) : List String :=
  (channel.groups.filter (· ≠ "") ++ pricingGroups).eraseDups

structure Ability where
  group : String
  model : String
  channelId : Int
  enabled : Bool

structure ChannelDb where
  channels : Table Channel.id
  abilities : List Ability

structure ChannelCache where
  /-- `group2model2channels`. -/
  index : String → String → List Int
  /-- `channelsIDM`. -/
  byId : Int → Option Channel

/-! ### The index -/

/-- The entries of one channel under a group and a model: one for each time it lists the model. -/
def Channel.entries (channel : Channel) (pricingGroups : List String) (group model : String) :
    List Int :=
  if channel.status = .enabled ∧ group ∈ channel.routingGroups pricingGroups then
    (channel.models.filter (· = model)).map fun _ => channel.id
  else []

def initChannelCache (pricingGroups : List String) (db : ChannelDb) : ChannelCache where
  index group model :=
    (db.channels.rows.flatMap fun c => c.entries pricingGroups group model).insertionSort
      (fun a b => (db.channels.find? b).elim 0 Channel.priority ≤
        (db.channels.find? a).elim 0 Channel.priority)
  byId := db.channels.find?

/-- `CacheUpdateChannelStatus`.  The loop over a list stops after it has removed one entry. -/
def cacheUpdateChannelStatus (id : Int) (status : ChannelStatus) (cache : ChannelCache) :
    ChannelCache where
  index group model :=
    if status = .enabled then cache.index group model else (cache.index group model).erase id
  byId := Function.update cache.byId id
    ((cache.byId id).map fun c => { c with status := status })

def cacheUpdateChannel (channel : Channel) (cache : ChannelCache) : ChannelCache :=
  { cache with byId := Function.update cache.byId channel.id (some channel) }

/-! ### Selection -/

structure SelectEnv where
  /-- `FormatMatchingModelName`. -/
  formatMatchingModelName : String → String
  /-- Whether a channel serves a path and a model; only Advanced Custom channels may not. -/
  supportsPath : Channel → String → String → Bool
  /-- The snapshot of `dropRateLimitedChannels`. -/
  saturated : Int → Bool
  /-- `rand.Intn`. -/
  intn : ℕ → ℕ

inductive SelectError where
  | missing (id : Int)
  | noChannel
  | notFound
deriving DecidableEq

namespace ChannelCache

variable (cache : ChannelCache) (env : SelectEnv)

def filterChannels (ids : List Int) (requestPath model : String) : List Int :=
  if requestPath = "" then ids
  else ids.filter fun id => (cache.byId id).all fun c => env.supportsPath c requestPath model

def candidates (group model requestPath : String) : List Int :=
  match cache.filterChannels env (cache.index group model) requestPath model with
  | [] => cache.filterChannels env (cache.index group (env.formatMatchingModelName model))
      requestPath model
  | ids => ids

/-- The channels of a list of ids, unless one is missing. -/
def channelsOf (ids : List Int) : Except SelectError (List Channel) :=
  ids.mapM fun id => match cache.byId id with
    | some c => .ok c
    | none => .error (.missing id)

end ChannelCache

/-- The priorities of a list of channels, each once, the highest first. -/
def sortedUniquePriorities (channels : List Channel) : List Int :=
  (channels.map Channel.priority).dedup.insertionSort (· ≥ ·)

/-- The priority of a retry; from the last one on it stays the lowest. -/
def targetPriority (channels : List Channel) (retry : ℕ) : Int :=
  let priorities := sortedUniquePriorities channels
  priorities.getD (min retry (priorities.length - 1)) 0

def level (channels : List Channel) (priority : Int) : List Channel :=
  channels.filter fun c => c.priority = priority

/-- The candidates without the saturated ones, unless all are. -/
def withoutSaturated (saturated : Int → Bool) (targets : List Channel) : List Channel :=
  let available := targets.filter fun c => !saturated c.id
  if available = [] then targets else available

def pickWeighted (smoothingFactor smoothingAdjustment : ℕ) : Int → List Channel → Option Channel
  | _, [] => none
  | randomWeight, c :: cs =>
    let rest := randomWeight - (c.weight * smoothingFactor + smoothingAdjustment : ℕ)
    if rest < 0 then some c else pickWeighted smoothingFactor smoothingAdjustment rest cs

/-- The choice by weight at the end of `GetRandomSatisfiedChannel`. -/
def chooseByWeight (intn : ℕ → ℕ) (targets : List Channel) : Option Channel :=
  let sumWeight := (targets.map Channel.weight).sum
  if sumWeight = 0 then pickWeighted 1 100 (intn (targets.length * 100)) targets
  else if sumWeight / targets.length < 10 then pickWeighted 100 0 (intn (sumWeight * 100)) targets
  else pickWeighted 1 0 (intn sumWeight) targets

/-- `GetRandomSatisfiedChannel` with the memory cache on. -/
def getRandomSatisfiedChannel (env : SelectEnv) (cache : ChannelCache) (group model : String)
    (retry : ℕ) (requestPath : String) : Except SelectError (Option Channel) :=
  match cache.candidates env group model requestPath with
  | [] => .ok none
  | [id] => match cache.byId id with
    | some c => .ok (some c)
    | none => .error (.missing id)
  | ids => do
    let channels ← cache.channelsOf ids
    let targets := withoutSaturated env.saturated (level channels (targetPriority channels retry))
    if targets = [] then .error .noChannel
    else match chooseByWeight env.intn targets with
      | some c => .ok (some c)
      | none => .error .notFound

/-! ### Status -/

def hasEnabledMultiKey (keys : List String) (statusList : ℕ → Option ChannelStatus) : Bool :=
  (List.range keys.length).any fun i => (statusList i).all (· = .enabled)

/-- `handlerMultiKeyUpdate`, without the reasons and times it notes. -/
def handlerMultiKeyUpdate (channel : Channel) (usingKey : String) (status : ChannelStatus) :
    Channel :=
  if channel.keys = [] then { channel with status := status }
  else match channel.keys.idxOf? usingKey with
    | none => if usingKey ≠ "" then channel else { channel with status := status }
    | some keyIndex =>
      let statusList := Function.update channel.statusList keyIndex
        (if status = .enabled then none else some status)
      { channel with
        statusList := statusList
        status := if hasEnabledMultiKey channel.keys statusList = false then .autoDisabled
          else if status = .enabled then .enabled else channel.status }

structure ChannelSystem where
  db : ChannelDb
  cache : ChannelCache

def updateAbilityStatus (channelId : Int) (enabled : Bool) (db : ChannelDb) : ChannelDb :=
  { db with
    abilities := db.abilities.map
      (fun a => if a.channelId = channelId then { a with enabled := enabled } else a) }

/-- The cached half of `UpdateChannelStatus`: `none` where the call returns at once. -/
def updateCachedStatus (id : Int) (usingKey : String) (status : ChannelStatus)
    (cache : ChannelCache) : Option ChannelCache :=
  match cache.byId id with
  | none => none
  | some cached =>
    if cached.isMultiKey then
      let updated := handlerMultiKeyUpdate cached usingKey status
      let cache := { cache with byId := Function.update cache.byId id (some updated) }
      some (if cached.status ≠ updated.status then cacheUpdateChannelStatus id updated.status cache
        else cache)
    else if cached.status = status then none
    else some (cacheUpdateChannelStatus id status cache)

/-- The stored half of `UpdateChannelStatus`.  The abilities follow the requested status. -/
def updateStoredStatus (id : Int) (usingKey : String) (status : ChannelStatus) (db : ChannelDb) :
    ChannelDb × Bool :=
  match db.channels.find? id with
  | none => (db, false)
  | some channel =>
    if channel.status = status then (db, false)
    else
      let updated := if channel.isMultiKey then handlerMultiKeyUpdate channel usingKey status
        else { channel with status := status }
      let saved := { db with
        channels := db.channels.update (fun c => decide (c.id = id))
          (fun c => { updated with id := c.id }) (fun _ => rfl) }
      (if channel.status ≠ updated.status then updateAbilityStatus id (status = .enabled) saved
        else saved, true)

/-- `UpdateChannelStatus` with the memory cache on and no database error. -/
def updateChannelStatus (id : Int) (usingKey : String) (status : ChannelStatus)
    (s : ChannelSystem) : ChannelSystem × Bool :=
  match updateCachedStatus id usingKey status s.cache with
  | none => (s, false)
  | some cache =>
    let stored := updateStoredStatus id usingKey status s.db
    (⟨stored.1, cache⟩, stored.2)

end UnifyConsole.Routing
