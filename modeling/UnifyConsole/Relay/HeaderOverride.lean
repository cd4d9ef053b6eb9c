import Mathlib
import UnifyConsole.Lib.Table
import UnifyConsole.Lib.Text

/-!
# Header overrides of a request and its retries

A channel may override headers of the upstream request, and its parameter override may change
them further: `set_header`, `copy_header` and their kin work on a copy of the channel's header
map, and what comes out is kept on the request as its runtime map, from which
`processHeaderOverride` then takes the headers it sends.  A request that fails on one channel is
tried on another one.  The channel's data are read anew for each attempt; the runtime map is not,
and neither are the model name and the path of the request, which a handler may change.

The JSON library is a parameter (`JsonLib`): how a path is looked up in a body, what an operation
on the body does, which regular expressions compile.  Everything that is done to headers is
written out.  A Go map is the table of its entries in the order in which a range visits them.

`attempt_isolated` is the step: an attempt that finds no runtime map but its own, and whose
operations do not look at what it finds different from a first attempt, sends what it would send
as the first one.
-/

namespace UnifyConsole.Relay

open Lib (Table)
open Lib.Text (trimSpace hasPrefix hasSuffix contains split replaceAll)
open List

/-! ### Values -/

/-- A decoded JSON value; a number keeps its text, and the fields of an object are sorted by name.
-/
inductive Value
  | null
  | bool (b : Bool)
  | num (value : ℚ) (text : String)
  | str (text : String)
  | list (items : List Value)
  | obj (fields : List (String × Value))

mutual

/-- `fmt.Sprintf("%v", …)`. -/
def sprint : Value → String
  | .null => "<nil>"
  | .bool b => if b then "true" else "false"
  | .num _ text => text
  | .str text => text
  | .list items => "[" ++ sprintItems items ++ "]"
  | .obj fields => "map[" ++ sprintFields fields ++ "]"

def sprintItems : List Value → String
  | [] => ""
  | v :: vs => sprint v ++ (if vs.isEmpty then "" else " " ++ sprintItems vs)

def sprintFields : List (String × Value) → String
  | [] => ""
  | f :: fs => sprintField f ++ (if fs.isEmpty then "" else " " ++ sprintFields fs)

def sprintField : String × Value → String
  | (name, v) => name ++ ":" ++ sprint v

end

inductive OverrideError
  | sourceHeaderNotFound (name : String)
  | message (text : String)
  deriving DecidableEq

/-! ### Parameter overrides -/

structure Condition where
  path : String
  mode : String
  value : Value
  invert : Bool := false
  passMissingKey : Bool := false

/-- The modes of an operation; the ones that only edit the body go by their name. -/
inductive OperationMode
  | body (name : String)
  | returnError
  | setHeader
  | deleteHeader
  | copyHeader
  | moveHeader
  | passHeaders
  | syncFields
  | unknown (name : String)

structure ParamOperation where
  path : String := ""
  mode : OperationMode
  value : Value := .null
  keepOrigin : Bool := false
  source : String := ""
  target : String := ""
  conditions : List Condition := []
  logic : String := "OR"

/-- A parameter override as `tryParseOperations` and `buildLegacyParamOverride` take it apart. -/
structure ParamOverride where
  legacy : List (String × Value) := []
  operations : Option (List ParamOperation) := none

/-- `len(paramOverride) == 0`. -/
def ParamOverride.isEmpty (p : ParamOverride) : Bool := p.legacy.isEmpty && p.operations.isNone

/-- What the code takes from `gjson`, `sjson`, `regexp` and the parser of header names. -/
structure JsonLib (B : Type) where
  /-- `gjson.GetBytes` after `processNegativeIndex`. -/
  get : B → String → Option Value
  /-- `gjson.Get` on the context. -/
  getContext : Value → String → Option Value
  /-- The text of a value, as `gjson.Result.String` gives it for arrays and objects. -/
  raw : Value → String
  /-- `sjson.SetBytes` after `processNegativeIndex`. -/
  set : B → String → Value → Except OverrideError B
  /-- An operation that edits the body only; `prune_objects` looks at the context. -/
  edit : ParamOperation → Value → B → Except OverrideError B
  /-- The error of a `return_error` operation. -/
  returnedError : Value → OverrideError
  /-- `parseHeaderPassThroughNames`. -/
  passThroughNames : Value → Except OverrideError (List String)
  /-- `regexp.Compile`. -/
  compile : String → Option (String → Bool)

variable {B : Type}

/-! ### Conditions -/

inductive JsonType
  | null | bool | number | string | json
  deriving DecidableEq

def Value.type : Value → JsonType
  | .null => .null
  | .bool _ => .bool
  | .num _ _ => .number
  | .str _ => .string
  | .list _ => .json
  | .obj _ => .json

def Value.string (lib : JsonLib B) : Value → String
  | .null => ""
  | .bool b => if b then "true" else "false"
  | .num _ text => text
  | .str text => text
  | v => lib.raw v

def compareEqual (lib : JsonLib B) (jsonValue targetValue : Value) : Except OverrideError Bool :=
  if jsonValue.type = .null ∨ targetValue.type = .null then
    .ok (decide (jsonValue.type = .null ∧ targetValue.type = .null))
  else
    match jsonValue, targetValue with
    | .bool a, .bool b => .ok (a == b)
    | .num a _, .num b _ => .ok (a == b)
    | a, b =>
      if a.type ≠ b.type then .error (.message "compare for different types")
      else .ok (a.string lib == b.string lib)

def compareNumeric (holds : ℚ → ℚ → Bool) : Value → Value → Except OverrideError Bool
  | .num a _, .num b _ => .ok (holds a b)
  | _, _ => .error (.message "numeric comparison requires both values to be numbers")

def compareGjsonValues (lib : JsonLib B) (jsonValue targetValue : Value) (mode : String) :
    Except OverrideError Bool :=
  match mode with
  | "full" => compareEqual lib jsonValue targetValue
  | "prefix" => .ok (hasPrefix (jsonValue.string lib) (targetValue.string lib))
  | "suffix" => .ok (hasSuffix (jsonValue.string lib) (targetValue.string lib))
  | "contains" => .ok (contains (jsonValue.string lib) (targetValue.string lib))
  | "gt" => compareNumeric (fun a b => decide (b < a)) jsonValue targetValue
  | "gte" => compareNumeric (fun a b => decide (b ≤ a)) jsonValue targetValue
  | "lt" => compareNumeric (fun a b => decide (a < b)) jsonValue targetValue
  | "lte" => compareNumeric (fun a b => decide (a ≤ b)) jsonValue targetValue
  | mode => .error (.message ("unsupported comparison mode: " ++ mode))

def checkSingleCondition (lib : JsonLib B) (body : B) (context : Value) (c : Condition) :
    Except OverrideError Bool :=
  match (lib.get body c.path).or (lib.getContext context c.path) with
  | none => .ok c.passMissingKey
  | some value => do
    let result ← compareGjsonValues lib value c.value c.mode.toLower
    return if c.invert then !result else result

def checkConditions (lib : JsonLib B) (body : B) (context : Value) (conditions : List Condition)
    (logic : String) : Except OverrideError Bool :=
  if conditions.isEmpty then .ok true
  else do
    let results ← conditions.mapM (checkSingleCondition lib body context)
    return if logic.toUpper = "AND" then results.all id else results.any id

/-! ### Headers in the context of an override -/

abbrev Headers := Table (Prod.fst : String × String → String)

def normalizeHeaderContextKey (key : String) : String := trimSpace key.toLower

def isHeaderPassthroughRuleKeyForOverride (key : String) : Bool :=
  let key := trimSpace key.toLower
  key == "*" || hasPrefix key "re:" || hasPrefix key "regex:"

def sanitizeHeaderOverrideMap (source : List (String × Value)) : Headers :=
  source.foldl (fun target entry =>
    let key := normalizeHeaderContextKey entry.1
    let value := trimSpace (sprint entry.2)
    if key = "" then target
    else if value = "" then
      if isHeaderPassthroughRuleKeyForOverride key then target.put key "" else target
    else target.put key value) Table.empty

def Headers.values (h : Headers) : List (String × Value) := h.rows.map (fun r => (r.1, .str r.2))

/-- The two maps of the context that header operations work on. -/
structure HeaderContext where
  requestHeaders : Headers
  headerOverride : Headers

def getHeaderValueFromContext (ctx : HeaderContext) (headerName : String) : Option String :=
  let name := normalizeHeaderContextKey headerName
  if name = "" then none
  else
    let found := fun h : Headers => ((h.value? name).map trimSpace).filter (· ≠ "")
    (found ctx.headerOverride).or (found ctx.requestHeaders)

def splitHeaderListValue (raw : String) : List String :=
  ((split raw ',').map trimSpace).filter (· ≠ "")

mutual

def parseHeaderReplacementTokens : Value → Except OverrideError (List String)
  | .null => .ok []
  | .str raw => .ok (splitHeaderListValue raw)
  | .list items => (parseHeaderReplacementItems items).map List.eraseDups
  | .obj _ => .error (.message "header replacement value must be string, array or null")
  | .bool b => .ok [if b then "true" else "false"]
  | .num _ text => .ok ([trimSpace text].filter (· ≠ ""))

def parseHeaderReplacementItems : List Value → Except OverrideError (List String)
  | [] => .ok []
  | v :: vs =>
    match parseHeaderReplacementTokens v with
    | .error e => .error e
    | .ok tokens => (parseHeaderReplacementItems vs).map (tokens ++ ·)

end

def parseHeaderAppendTokens (mapping : List (String × Value)) :
    Except OverrideError (List String) :=
  match mapping.lookup "$append" with
  | none => .ok []
  | some value => parseHeaderReplacementTokens value

def parseHeaderKeepOnlyDeclared (mapping : List (String × Value)) : Bool :=
  match mapping.lookup "$keep_only_declared" with
  | some (.bool b) => b
  | _ => false

def replaceHeaderToken (mapping : List (String × Value)) (token : String) :
    Except OverrideError (List String) :=
  let keepOnlyDeclared := parseHeaderKeepOnlyDeclared mapping
  let wildcard := if keepOnlyDeclared then none else mapping.lookup "*"
  match (mapping.lookup token).or wildcard with
  | some replacement => parseHeaderReplacementTokens replacement
  | none => .ok (if keepOnlyDeclared then [] else [token])

def resolveHeaderOverrideValueByMapping (ctx : HeaderContext) (headerName : String)
    (mapping : List (String × Value)) : Except OverrideError (Option String) :=
  if mapping.isEmpty then .error (.message "header value mapping cannot be empty")
  else do
    let appended ← parseHeaderAppendTokens mapping
    let present := ((getHeaderValueFromContext ctx headerName).map splitHeaderListValue).getD []
    let replaced ← present.mapM (replaceHeaderToken mapping)
    let tokens := (replaced.flatten ++ appended).eraseDups
    return if tokens.isEmpty then none else some (",".intercalate tokens)

def resolveHeaderOverrideValue (ctx : HeaderContext) (headerName : String) :
    Value → Except OverrideError (Option String)
  | .null => .error (.message "header value is required")
  | .obj mapping => resolveHeaderOverrideValueByMapping ctx headerName mapping
  | value =>
    let text := trimSpace (sprint value)
    .ok (if text = "" then none else some text)

def HeaderContext.put (ctx : HeaderContext) (name value : String) : HeaderContext :=
  { ctx with headerOverride := ctx.headerOverride.put name value }

def HeaderContext.drop (ctx : HeaderContext) (name : String) : HeaderContext :=
  { ctx with headerOverride := ctx.headerOverride.delete (fun r => decide (r.1 = name)) }

def setHeaderOverrideInContext (ctx : HeaderContext) (headerName : String) (value : Value)
    (keepOrigin : Bool) : Except OverrideError HeaderContext :=
  let name := normalizeHeaderContextKey headerName
  if name = "" then .error (.message "header name is required")
  else if keepOrigin ∧ ((ctx.headerOverride.value? name).map trimSpace).any (· ≠ "") then .ok ctx
  else do
    match ← resolveHeaderOverrideValue ctx name value with
    | none => return ctx.drop name
    | some text => return ctx.put name text

def deleteHeaderOverrideInContext (ctx : HeaderContext) (headerName : String) :
    Except OverrideError HeaderContext :=
  let name := normalizeHeaderContextKey headerName
  if name = "" then .error (.message "header name is required") else .ok (ctx.drop name)

def copyHeaderInContext (ctx : HeaderContext) (fromHeader toHeader : String)
    (keepOrigin : Bool) : Except OverrideError HeaderContext :=
  let source := normalizeHeaderContextKey fromHeader
  let target := normalizeHeaderContextKey toHeader
  if source = "" ∨ target = "" then .error (.message "copy_header from/to is required")
  else
    match getHeaderValueFromContext ctx source with
    | none => .error (.sourceHeaderNotFound source)
    | some value => setHeaderOverrideInContext ctx target (.str value) keepOrigin

def moveHeaderInContext (ctx : HeaderContext) (fromHeader toHeader : String)
    (keepOrigin : Bool) : Except OverrideError HeaderContext :=
  let source := normalizeHeaderContextKey fromHeader
  let target := normalizeHeaderContextKey toHeader
  if source = "" ∨ target = "" then .error (.message "move_header from/to is required")
  else do
    let ctx ← copyHeaderInContext ctx source target keepOrigin
    if source = target then return ctx else deleteHeaderOverrideInContext ctx source

/-- A missing source header leaves the context as it was. -/
def tolerateMissing (ctx : HeaderContext) :
    Except OverrideError HeaderContext → Except OverrideError HeaderContext
  | .error (.sourceHeaderNotFound _) => .ok ctx
  | result => result

/-- The two names of a copy or a move; either may stand in `path`. -/
def ParamOperation.headerNames (op : ParamOperation) : String × String :=
  let name := fun text : String => if trimSpace text = "" then trimSpace op.path else trimSpace text
  (name op.source, name op.target)

def passHeaders (names : List String) (keepOrigin : Bool) (ctx : HeaderContext) :
    Except OverrideError HeaderContext :=
  names.foldlM (fun ctx name => tolerateMissing ctx (copyHeaderInContext ctx name name keepOrigin))
    ctx

inductive SyncTarget
  | json (key : String)
  | header (key : String)

def parseSyncTarget (spec : String) : Except OverrideError SyncTarget :=
  let raw := trimSpace spec
  if raw = "" then .error (.message "sync_fields target is required")
  else
    match raw.toList.span (· ≠ ':') with
    | (_, []) => .ok (.json raw)
    | (kind, _ :: rest) =>
      let key := trimSpace (String.ofList rest)
      if key = "" then .error (.message ("sync_fields target key is required: " ++ raw))
      else
        match (trimSpace (String.ofList kind)).toLower with
        | "json" => .ok (.json key)
        | "body" => .ok (.json key)
        | "header" => .ok (.header key)
        | _ => .error (.message ("sync_fields target prefix is invalid: " ++ raw))

def readSyncTargetValue (lib : JsonLib B) (body : B) (ctx : HeaderContext) :
    SyncTarget → Option Value
  | .json key =>
    (lib.get body key).filter (fun v => match v with
      | .null => false
      | .str text => trimSpace text ≠ ""
      | _ => true)
  | .header key => (getHeaderValueFromContext ctx key).map .str

def writeSyncTargetValue (lib : JsonLib B) (body : B) (ctx : HeaderContext) (value : Value) :
    SyncTarget → Except OverrideError (B × HeaderContext)
  | .json key => (lib.set body key value).map (·, ctx)
  | .header key => (setHeaderOverrideInContext ctx key value false).map (body, ·)

def syncFieldsBetweenTargets (lib : JsonLib B) (body : B) (ctx : HeaderContext)
    (fromSpec toSpec : String) : Except OverrideError (B × HeaderContext) := do
  let fromTarget ← parseSyncTarget fromSpec
  let toTarget ← parseSyncTarget toSpec
  match readSyncTargetValue lib body ctx fromTarget, readSyncTargetValue lib body ctx toTarget with
  | some value, none => writeSyncTargetValue lib body ctx value toTarget
  | none, some value => writeSyncTargetValue lib body ctx value fromTarget
  | _, _ => return (body, ctx)

/-! ### Applying an override -/

structure ApiError where
  statusCode : ℤ
  message : String
  code : String
  type : String
  skipRetry : Bool

structure RequestNames where
  originModelName : String
  requestURLPath : String
  deriving DecidableEq

/-- The client's request, the same for all attempts, with the names that it comes with. -/
structure ClientRequest where
  headers : Headers
  names : RequestNames
  isChannelTest : Bool

structure Channel where
  headersOverride : List (String × Value) := []
  paramOverride : ParamOverride := {}
  apiKey : String := ""

/-- The part of `RelayInfo` that outlives an attempt. -/
structure RelayInfo where
  /-- `RuntimeHeadersOverride`, once `UseRuntimeHeadersOverride` is set. -/
  runtimeHeaders : Option Headers
  retryIndex : ℕ
  lastError : Option ApiError
  /-- `OriginModelName` and `RequestURLPath`. -/
  names : RequestNames

open RelayInfo

def RelayInfo.fresh (req : ClientRequest) : RelayInfo := ⟨none, 0, none, req.names⟩

/-- `http.Header.Get`. -/
def ClientRequest.header (req : ClientRequest) (name : String) : String :=
  ((req.headers.rows.find? (fun r => r.1.toLower == name.toLower)).map Prod.snd).getD ""

def cloneRequestHeaders (req : ClientRequest) : List (String × String) :=
  (req.headers.rows.map (fun r => (r.1, trimSpace r.2))).filter (fun r => r.2 ≠ "")

def buildRequestHeadersContext (headers : List (String × String)) : Headers :=
  headers.foldl (fun h r =>
    let key := normalizeHeaderContextKey r.1
    let value := trimSpace r.2
    if key = "" ∨ value = "" then h else h.put key value) Table.empty

def getEffectiveHeaderOverride (info : RelayInfo) (channel : Channel) : Headers :=
  match info.runtimeHeaders with
  | some headers => sanitizeHeaderOverrideMap headers.values
  | none => sanitizeHeaderOverrideMap channel.headersOverride

/-- The fields of the context that no operation changes. -/
def contextFields (req : ClientRequest) (upstream : String) (info : RelayInfo) :
    List (String × Value) :=
  let model := if upstream ≠ "" then upstream else info.names.originModelName
  let field := fun (name text : String) => if text = "" then [] else [(name, Value.str text)]
  let number := fun n : ℤ => Value.num n (toString n)
  let retried := Value.bool (decide (0 < info.retryIndex))
  field "model" model ++ field "upstream_model" upstream ++
    field "original_model" info.names.originModelName ++
    field "request_path" info.names.requestURLPath ++
    [("retry_index", number info.retryIndex), ("is_retry", retried),
      ("retry", .obj [("index", number info.retryIndex), ("is_retry", retried)])] ++
    (match info.lastError with
    | none => []
    | some e =>
      [("last_error", .obj
        [("code", .str e.code), ("error_code", .str e.code), ("error_type", .str e.type),
          ("message", .str e.message), ("skip_retry", .bool e.skipRetry),
          ("status_code", number e.statusCode), ("type", .str e.type)]),
        ("last_error_status_code", number e.statusCode),
        ("last_error_message", .str e.message), ("last_error_code", .str e.code),
        ("last_error_type", .str e.type)]) ++
    [("is_channel_test", .bool req.isChannelTest)]

/-- `marshalContextJSON` of the context with its present header maps. -/
def marshalContextJSON (fields : List (String × Value)) (ctx : HeaderContext) : Value :=
  .obj (fields ++ [("request_headers", .obj (Headers.values ctx.requestHeaders)),
    ("header_override", .obj (Headers.values ctx.headerOverride))])

def performOperation (lib : JsonLib B) (context : Value) (op : ParamOperation) (body : B)
    (ctx : HeaderContext) : Except OverrideError (B × HeaderContext) :=
  match op.mode with
  | .body _ => (lib.edit op context body).map (·, ctx)
  | .returnError => .error (lib.returnedError op.value)
  | .setHeader => (setHeaderOverrideInContext ctx op.path op.value op.keepOrigin).map (body, ·)
  | .deleteHeader => (deleteHeaderOverrideInContext ctx op.path).map (body, ·)
  | .copyHeader =>
    (tolerateMissing ctx
      (copyHeaderInContext ctx op.headerNames.1 op.headerNames.2 op.keepOrigin)).map (body, ·)
  | .moveHeader =>
    (tolerateMissing ctx
      (moveHeaderInContext ctx op.headerNames.1 op.headerNames.2 op.keepOrigin)).map (body, ·)
  | .passHeaders =>
    (lib.passThroughNames op.value).bind
      (fun names => (passHeaders names op.keepOrigin ctx).map (body, ·))
  | .syncFields => syncFieldsBetweenTargets lib body ctx op.source op.target
  | .unknown name => .error (.message ("unknown operation: " ++ name))

def applyOperations (lib : JsonLib B) (fields : List (String × Value)) :
    List ParamOperation → B → HeaderContext → Except OverrideError (B × HeaderContext)
  | [], body, ctx => .ok (body, ctx)
  | op :: ops, body, ctx =>
    match checkConditions lib body (marshalContextJSON fields ctx) op.conditions op.logic with
    | .error e => .error e
    | .ok false => applyOperations lib fields ops body ctx
    | .ok true =>
      match performOperation lib (marshalContextJSON fields ctx) op body ctx with
      | .error e => .error e
      | .ok (body, ctx) => applyOperations lib fields ops body ctx

def applyOperationsLegacy (lib : JsonLib B) (legacy : List (String × Value)) (body : B) :
    Except OverrideError B :=
  legacy.foldlM (fun body entry => lib.set body entry.1 entry.2) body

def applyParamOverride (lib : JsonLib B) (fields : List (String × Value)) (p : ParamOverride)
    (body : B) (ctx : HeaderContext) : Except OverrideError (B × HeaderContext) :=
  match applyOperationsLegacy lib p.legacy body with
  | .error e => .error e
  | .ok body => applyOperations lib fields (p.operations.getD []) body ctx

def buildParamOverrideContext (req : ClientRequest) (channel : Channel) (info : RelayInfo) :
    HeaderContext where
  requestHeaders := buildRequestHeadersContext (cloneRequestHeaders req)
  headerOverride := sanitizeHeaderOverrideMap
    (Headers.values (getEffectiveHeaderOverride info channel))

/-- The runtime map after the override; `none` when the override ends in an error. -/
def applyParamOverrideWithRelayInfo (lib : JsonLib B) (req : ClientRequest) (channel : Channel)
    (upstream : String) (body : B) (info : RelayInfo) : Option RelayInfo :=
  if channel.paramOverride.isEmpty then some info
  else
    match applyParamOverride lib (contextFields req upstream info) channel.paramOverride body
      (buildParamOverrideContext req channel info) with
    | .error _ => none
    | .ok (_, ctx) =>
      -- `syncRuntimeHeaderOverrideFromContext`: the context always has the map.
      some { info with
        runtimeHeaders := some (sanitizeHeaderOverrideMap (Headers.values ctx.headerOverride)) }

/-! ### The headers that are sent -/

def passthroughSkipHeaderNamesLower : List String :=
  ["connection", "keep-alive", "proxy-authenticate", "proxy-authorization", "te", "trailer",
    "transfer-encoding", "upgrade", "cookie", "host", "content-length", "accept-encoding",
    "authorization", "x-api-key", "x-goog-api-key", "sec-websocket-key", "sec-websocket-version",
    "sec-websocket-extensions"]

def shouldSkipPassthroughHeader (name : String) : Bool :=
  trimSpace name == "" || passthroughSkipHeaderNamesLower.contains (trimSpace name).toLower

def isHeaderPassthroughRuleKey (key : String) : Bool :=
  trimSpace key == "*" || hasPrefix (trimSpace key).toLower "re:" ||
    hasPrefix (trimSpace key).toLower "regex:"

def clientHeaderPlaceholderPrefix : String := "\x7bclient_header:"

/-- `none` when the header is left out. -/
def applyHeaderOverridePlaceholders (req : ClientRequest) (template apiKey : String) :
    Except OverrideError (Option String) :=
  let trimmed := trimSpace template
  if hasPrefix trimmed clientHeaderPlaceholderPrefix then
    match (trimmed.toList.drop clientHeaderPlaceholderPrefix.toList.length).span (· ≠ '\x7d') with
    | (name, ['\x7d']) =>
      let name := trimSpace (String.ofList name)
      if name = "" then .error (.message "client_header placeholder name is empty")
      else
        let value := req.header name
        .ok (if trimSpace value = "" then none else some value)
    | _ => .error (.message "client_header placeholder must be the full value")
  else
    let text := replaceAll template "\x7bapi_key\x7d" apiKey
    .ok (if trimSpace text = "" then none else some text)

def passthroughPattern (key : String) : Option String :=
  if hasPrefix key "re:" then some (trimSpace (String.ofList (key.toList.drop 3)))
  else if hasPrefix key "regex:" then some (trimSpace (String.ofList (key.toList.drop 6)))
  else none

def addPassthroughRule (lib : JsonLib B) (rules : List (String → Bool)) (r : String × String) :
    Except OverrideError (List (String → Bool)) :=
  let key := trimSpace r.1.toLower
  if key = "*" then .ok (rules ++ [fun _ : String => true])
  else
    match passthroughPattern key with
    | none => .ok rules
    | some pattern =>
      if pattern = "" then .error (.message "header passthrough regex pattern is empty")
      else
        match lib.compile pattern with
        | none => .error (.message "invalid regex pattern")
        | some rule => .ok (rules ++ [rule])

def passthroughRules (lib : JsonLib B) (source : Headers) :
    Except OverrideError (List (String → Bool)) :=
  source.rows.foldlM (addPassthroughRule lib) []

def passthroughHeaders (req : ClientRequest) (rules : List (String → Bool)) : Headers :=
  req.headers.rows.foldl (fun sent r =>
    let value := trimSpace (req.header r.1)
    if shouldSkipPassthroughHeader r.1 ∨ value = "" ∨ ¬ rules.any (fun rule => rule r.1) then sent
    else sent.put (trimSpace r.1).toLower value) Table.empty

def overrideHeader (req : ClientRequest) (apiKey : String) (sent : Headers)
    (r : String × String) : Except OverrideError Headers :=
  let key := trimSpace r.1.toLower
  if isHeaderPassthroughRuleKey r.1 ∨ key = "" then .ok sent
  else if req.isChannelTest ∧ hasPrefix (trimSpace r.2) clientHeaderPlaceholderPrefix then .ok sent
  else
    (applyHeaderOverridePlaceholders req r.2 apiKey).map
      (fun value => value.elim sent (fun text => sent.put key text))

def processHeaderOverride (lib : JsonLib B) (req : ClientRequest) (channel : Channel)
    (info : RelayInfo) : Except OverrideError Headers := do
  let source := getEffectiveHeaderOverride info channel
  let rules ← if req.isChannelTest then pure [] else passthroughRules lib source
  source.rows.foldlM (overrideHeader req channel.apiKey) (passthroughHeaders req rules)

/-! ### Attempts -/

/-- What a handler has made of the request when it applies the parameter override; later attempts
find the names as it left them (`ModelMappedHelper`, `ConvertImageRequest`, `GeminiHelper`). -/
structure Converted (B : Type) where
  names : RequestNames
  upstreamModelName : String
  /-- `none` when the conversion fails. -/
  body : Option B

/-- One attempt: its channel, its handler, the count of the loop, and the error it ends with. -/
structure Attempt (B : Type) where
  channel : Channel
  convert : RequestNames → Converted B
  overridesBody : Bool
  retryIndex : ℕ
  failure : ApiError

/-- The headers an attempt sends (`none` when it fails first) and the state it leaves. -/
def Attempt.send (lib : JsonLib B) (req : ClientRequest) (a : Attempt B) (info : RelayInfo) :
    Option Headers × RelayInfo :=
  let converted := a.convert info.names
  let info := { info with names := converted.names }
  let overridden :=
    if a.overridesBody then
      converted.body.bind (fun body =>
        applyParamOverrideWithRelayInfo lib req a.channel converted.upstreamModelName body info)
    else some info
  match overridden with
  | none => (none, info)
  | some info' => ((processHeaderOverride lib req a.channel info').toOption, info')

/-- The state that an attempt finds. -/
def Attempt.found (a : Attempt B) (info : RelayInfo) : RelayInfo :=
  { info with retryIndex := a.retryIndex }

/-- The state that it leaves to the next one. -/
def Attempt.leaves (lib : JsonLib B) (req : ClientRequest) (a : Attempt B) (info : RelayInfo) :
    RelayInfo :=
  { (a.send lib req (a.found info)).2 with lastError := some a.failure }

/-- The retry loop: what each attempt sends. -/
def sentHeaders (lib : JsonLib B) (req : ClientRequest) :
    RelayInfo → List (Attempt B) → List (Option Headers)
  | _, [] => []
  | info, a :: rest =>
    (a.send lib req (a.found info)).1 :: sentHeaders lib req (a.leaves lib req info) rest

def Attempt.operations (a : Attempt B) : List ParamOperation :=
  if a.overridesBody then a.channel.paramOverride.operations.getD [] else []

/-- The operation finds the same under both lists of context fields. -/
def IgnoresFields (lib : JsonLib B) (fields fields' : List (String × Value))
    (op : ParamOperation) : Prop :=
  (∀ ctx, ∀ c ∈ op.conditions, lib.getContext (marshalContextJSON fields ctx) c.path =
    lib.getContext (marshalContextJSON fields' ctx) c.path) ∧
  ∀ ctx body, lib.edit op (marshalContextJSON fields ctx) body =
    lib.edit op (marshalContextJSON fields' ctx) body

/-- The context fields that an attempt applies its operations under. -/
def Attempt.fields (req : ClientRequest) (a : Attempt B) (info : RelayInfo) :
    List (String × Value) :=
  contextFields req (a.convert info.names).upstreamModelName
    { info with names := (a.convert info.names).names }

/-- The runtime map, if any, is what the channel gives, the body is converted as for a first
attempt, and no operation looks at a field that differs from a first one. -/
structure Isolated (lib : JsonLib B) (req : ClientRequest) (info : RelayInfo) (a : Attempt B) :
    Prop where
  ownHeaders : ∀ headers, info.runtimeHeaders = some headers →
    sanitizeHeaderOverrideMap (Headers.values headers) =
      sanitizeHeaderOverrideMap a.channel.headersOverride
  sameBody : a.overridesBody = true → (a.convert info.names).body = (a.convert req.names).body
  noRetryFields : ∀ op ∈ a.operations,
    IgnoresFields lib (a.fields req info) (a.fields req (fresh req)) op

/-- Every attempt of a request is isolated in the state it finds. -/
def AllIsolated (lib : JsonLib B) (req : ClientRequest) : RelayInfo → List (Attempt B) → Prop
  | _, [] => True
  | info, a :: rest =>
    Isolated lib req (a.found info) a ∧ AllIsolated lib req (a.leaves lib req info) rest

/-! ### What isolation gives -/

variable {lib : JsonLib B}

theorem checkConditions_congr {context context' : Value} {conditions : List Condition}
    (h : ∀ c ∈ conditions, lib.getContext context c.path = lib.getContext context' c.path)
    (body : B) (logic : String) :
    checkConditions lib body context conditions logic =
      checkConditions lib body context' conditions logic := by
  have hall : conditions.mapM (checkSingleCondition lib body context) =
      conditions.mapM (checkSingleCondition lib body context') := by
    induction conditions with
    | nil => rfl
    | cons c conditions ih =>
      have hone : checkSingleCondition lib body context c =
          checkSingleCondition lib body context' c := by
        simp only [checkSingleCondition, h c mem_cons_self]
      simp only [mapM_cons, hone, ih fun c' hc' => h c' (mem_cons_of_mem _ hc')]
  simp only [checkConditions, hall]

theorem performOperation_congr {context context' : Value} {op : ParamOperation} {body : B}
    (h : lib.edit op context body = lib.edit op context' body) (ctx : HeaderContext) :
    performOperation lib context op body ctx = performOperation lib context' op body ctx := by
  unfold performOperation
  cases op.mode with
  | body => simp only [h]
  | _ => rfl

/-- Operations that ignore the difference do the same. -/
theorem applyOperations_congr {fields fields' : List (String × Value)} {ops : List ParamOperation}
    (h : ∀ op ∈ ops, IgnoresFields lib fields fields' op) (body : B) (ctx : HeaderContext) :
    applyOperations lib fields ops body ctx = applyOperations lib fields' ops body ctx := by
  induction ops generalizing body ctx with
  | nil => rfl
  | cons op ops ih =>
    obtain ⟨hlook, hedit⟩ := h op mem_cons_self
    unfold applyOperations
    rw [checkConditions_congr (hlook ctx), performOperation_congr (hedit ctx body)]
    simp only [ih fun op' hop' => h op' (mem_cons_of_mem _ hop')]

variable {req : ClientRequest} {info : RelayInfo} {a : Attempt B}

/-- The effective map does not depend on the names. -/
theorem Isolated.effective (h : Isolated lib req info a) (names names' : RequestNames) :
    getEffectiveHeaderOverride { info with names := names } a.channel =
      getEffectiveHeaderOverride { fresh req with names := names' } a.channel := by
  unfold getEffectiveHeaderOverride
  cases hr : info.runtimeHeaders with
  | none => rfl
  | some headers => exact h.ownHeaders headers hr

/-- What is sent depends on the state through the effective map alone. -/
theorem processHeaderOverride_congr {channel : Channel} {info info' : RelayInfo}
    (h : getEffectiveHeaderOverride info channel = getEffectiveHeaderOverride info' channel) :
    processHeaderOverride lib req channel info = processHeaderOverride lib req channel info' := by
  unfold processHeaderOverride
  rw [h]

/-- The override of an isolated attempt comes to the same. -/
theorem Isolated.override (h : Isolated lib req info a) (hbody : a.overridesBody = true) (body : B) :
    applyParamOverride lib (a.fields req info) a.channel.paramOverride body
        (buildParamOverrideContext req a.channel
          { info with names := (a.convert info.names).names }) =
      applyParamOverride lib (a.fields req (fresh req)) a.channel.paramOverride body
        (buildParamOverrideContext req a.channel
          { fresh req with names := (a.convert (fresh req).names).names }) := by
  have hops := h.noRetryFields
  rw [Attempt.operations, if_pos hbody] at hops
  unfold applyParamOverride buildParamOverrideContext
  rw [h.effective]
  cases applyOperationsLegacy lib a.channel.paramOverride.legacy body with
  | error => rfl
  | ok body => exact applyOperations_congr hops body _

/-- **An isolated attempt sends what it would send as the first one.** -/
theorem attempt_isolated (h : Isolated lib req info a) :
    (a.send lib req info).1 = (a.send lib req (fresh req)).1 := by
  have hplain : ∀ names names',
      (processHeaderOverride lib req a.channel { info with names := names }).toOption =
        (processHeaderOverride lib req a.channel { fresh req with names := names' }).toOption := by
    intro names names'
    rw [processHeaderOverride_congr (h.effective names names')]
  unfold Attempt.send
  by_cases hbody : a.overridesBody = true
  · simp only [hbody, if_true]
    rw [show (a.convert info.names).body = (a.convert (fresh req).names).body from
      h.sameBody hbody]
    cases (a.convert (fresh req).names).body with
    | none => rfl
    | some body =>
      simp only [Option.bind_some]
      unfold applyParamOverrideWithRelayInfo
      by_cases hempty : a.channel.paramOverride.isEmpty = true
      · simp only [hempty, if_true]
        exact hplain _ _
      have hoverride := h.override hbody body
      unfold Attempt.fields at hoverride
      simp only [hempty]
      rw [hoverride]
      cases applyParamOverride lib _ a.channel.paramOverride body _ with
      | error e => rfl
      | ok result =>
        -- Both attempts go on with the same runtime map.
        exact congrArg Except.toOption (processHeaderOverride_congr rfl)
  · simp only [hbody]
    exact hplain _ _

theorem sentHeaders_isolated {attempts : List (Attempt B)} (h : AllIsolated lib req info attempts) :
    sentHeaders lib req info attempts =
      attempts.map (fun a => (a.send lib req (fresh req)).1) := by
  induction attempts generalizing info with
  | nil => rfl
  | cons a rest ih =>
    obtain ⟨hone, hrest⟩ := h
    rw [map_cons, ← attempt_isolated hone, ← ih hrest]
    rfl

def plainJson : JsonLib Unit where
  get := fun _ _ => none
  getContext := fun context path =>
    match context with
    | .obj fields => fields.lookup path
    | _ => none
  raw := fun _ => ""
  set := fun body _ _ => .ok body
  edit := fun _ _ body => .ok body
  returnedError := fun _ => .message ""
  passThroughNames := fun _ => .ok []
  compile := fun _ => none

def plainRequest : ClientRequest := ⟨Table.empty, ⟨"gpt", "/v1/images/generations"⟩, false⟩

def overloaded : ApiError := ⟨529, "overloaded", "overloaded", "upstream", false⟩

def keepNames (names : RequestNames) : Converted Unit := ⟨names, "", some ()⟩

def regionChannel (retryIndex : ℕ) : Attempt Unit :=
  ⟨{ headersOverride := [("X-Region", .str "eu")] }, keepNames, true, retryIndex, overloaded⟩

def setKey : ParamOperation where
  mode := .setHeader
  path := "X-Key"
  value := .str "secret"
  conditions := [{ path := "original_model", mode := "full", value := .str "gpt" }]

def keyChannel (retryIndex : ℕ) : Attempt Unit :=
  ⟨{ paramOverride := { operations := some [setKey] } }, keepNames, true, retryIndex, overloaded⟩

/-- A Replicate channel leaves its own path, and a later channel misses the path it waits for. -/
example :
    let replicate := { keyChannel 0 with
      channel := {}
      convert := fun names => ⟨{ names with requestURLPath := "/v1/models/flux/predictions" },
        "flux", some ()⟩ }
    let waiting := { keyChannel 1 with
      channel := { paramOverride := { operations := some [{ setKey with
        conditions := [⟨"request_path", "full", .str "/v1/images/generations", false, false⟩] }] } } }
    (sentHeaders plainJson plainRequest (fresh plainRequest) [replicate, waiting]).map
      (Option.map Table.rows) = [some [], some []] ∧
    ((waiting.send plainJson plainRequest (fresh plainRequest)).1).map Table.rows =
      some [("x-key", "secret")] := by
  decide +kernel

end UnifyConsole.Relay
