/-
  The memory service's records, grants and `memory/retrieve` (`memory_svc/schema.rs`, `store.rs`,
  `service.rs`, `sharing.rs`, `tools/retrieve.rs`).

  Model. The service reads the VFS through `list` and `read`; a `VfsView` is what they answer in
  one state. The YAML decoders, the two formats of a time and the ranking of `search.rs` are
  parameters.

  A preview is a byte slice, and a slice inside a character panics: then there is no result at
  all. `Retrieved` has ghost fields for the memory a record was read from.
-/
import Avix.Memfs.Router

namespace Avix

open Lib

/-! ## Records and grants -/

inductive MemoryRecordType where
  | episodic
  | semantic
  deriving DecidableEq, Repr

def MemoryRecordType.asStr : MemoryRecordType → String
  | .episodic => "episodic"
  | .semantic => "semantic"

/-- `memory_svc::schema::MemoryRecord`, with the fields of its metadata and spec. -/
structure MemoryRecord where
  id : String
  recordType : MemoryRecordType
  createdAt : DateTime
  tags : List String := []
  pinned : Bool := false
  content : String
  key : Option String := none
  deriving DecidableEq, Repr

/-- An agent of an owner, as grantor or grantee of a grant. -/
structure MemoryAgent where
  agentName : String
  owner : String
  deriving DecidableEq, Repr

inductive MemoryGrantScope where
  | session
  | permanent
  deriving DecidableEq, Repr

/-- `memory_svc::schema::MemoryGrant`, with the fields of its metadata and spec. -/
structure MemoryGrant where
  id : String
  grantor : MemoryAgent
  grantee : MemoryAgent
  records : List String
  scope : MemoryGrantScope
  sessionId : String
  expiresAt : Option DateTime := none
  deriving DecidableEq, Repr

/-- `memory_svc::service::CallerContext`; pid and granted tools are not read. -/
structure MemoryCaller where
  agentName : String
  owner : String
  sessionId : String
  deriving DecidableEq, Repr

def MemoryCaller.agent (c : MemoryCaller) : MemoryAgent := ⟨c.agentName, c.owner⟩

/-- The decoders and formats, and the ranking. -/
structure MemoryCodec where
  recordFromYaml : String → Except AvixError MemoryRecord
  grantFromYaml : String → Except AvixError MemoryGrant
  /-- `format("%Y-%m-%dT%H:%M:%SZ")`. -/
  pathTime : DateTime → String
  /-- The time in JSON. -/
  jsonTime : DateTime → String
  /-- `search::bm25_rank`. -/
  rank : List MemoryRecord → String → Nat → List MemoryRecord

/-! ## The VFS -/

/-- What the VFS answers in a state. -/
structure VfsView where
  list : VfsPath → Except AvixError (List String)
  read : VfsPath → Except AvixError Bytes

/-! ## The store -/

section Store

variable (codec : MemoryCodec) (vfs : VfsView)

/-- Read and decode a file. -/
def loadYaml {α : Type} (fromYaml : String → Except AvixError α) (what path : String) :
    Except AvixError α :=
  match VfsPath.parse path with
  | .error e => .error (.configParse e.display)
  | .ok p =>
    match vfs.read p with
    | .error _ => .error (.notFound (what ++ " not found: " ++ path))
    | .ok bytes =>
      match fromUtf8 bytes with
      | none => .error (.configParse "invalid utf-8 sequence")
      | some text => fromYaml text

def readRecord (path : String) : Except AvixError MemoryRecord :=
  loadYaml vfs codec.recordFromYaml "memory record" path

def loadGrant (path : String) : Except AvixError MemoryGrant :=
  loadYaml vfs codec.grantFromYaml "grant" path

def listRecords (dir : String) : Except AvixError (List MemoryRecord) :=
  match VfsPath.parse dir with
  | .error e => .error (.configParse e.display)
  | .ok p =>
    let entries := ((vfs.list p).toOption.getD []).filter fun e => endsWith e ".yaml" ∧ e ≠ ".keep"
    .ok (entries.filterMap fun e => (readRecord codec vfs (trimEnd '/' dir ++ "/" ++ e)).toOption)

def recordsDir (agent : MemoryAgent) (type : MemoryRecordType) : String :=
  "/users/" ++ agent.owner ++ "/memory/" ++ agent.agentName ++ "/" ++ type.asStr

def vfsPathEpisodic (agent : MemoryAgent) (createdAt : DateTime) (id : String) : String :=
  recordsDir agent .episodic ++ "/" ++ codec.pathTime createdAt ++ "-" ++ id ++ ".yaml"

def vfsPathSemantic (agent : MemoryAgent) (key : String) : String :=
  recordsDir agent .semantic ++ "/" ++ key ++ ".yaml"

/-- The path that the metadata of a record found by its id lead to. -/
def pathOfRecord (agent : MemoryAgent) (id : String) (record : MemoryRecord) : Option String :=
  match record.recordType with
  | .episodic => some (vfsPathEpisodic codec agent record.createdAt id)
  | .semantic => record.key.map (vfsPathSemantic agent)

/-- `find_record_by_id`: the first record of that id whose path can be made up. -/
def findRecordById (agent : MemoryAgent) (id : String) : Option String :=
  [MemoryRecordType.episodic, .semantic].findSome? fun type =>
    ((listRecords codec vfs (recordsDir agent type)).toOption.getD []).findSome? fun record =>
      if record.id = id then pathOfRecord codec agent id record else none

/-- The record that an id leads to. -/
def recordById (agent : MemoryAgent) (id : String) : Option MemoryRecord :=
  (findRecordById codec vfs agent id).bind fun path => (readRecord codec vfs path).toOption

/-! ## Grants -/

/-- Where `retrieve` and `cleanup_session_grants` look for grants, and where
    `on_memory_share_approved` puts session grants. -/
def sessionGrantsDir (agentName : String) : String :=
  "/proc/services/memory/agents/" ++ agentName ++ "/grants"

/-- Where `on_memory_share_approved` puts permanent grants. -/
def permanentGrantsDir (grantor : MemoryAgent) : String :=
  "/users/" ++ grantor.owner ++ "/memory/" ++ grantor.agentName ++ "/grants"

/-- The grants in a directory. -/
def grantsIn (dir : String) : Except AvixError (List MemoryGrant) :=
  match VfsPath.parse dir with
  | .error e => .error (.configParse e.display)
  | .ok p =>
    let entries := ((vfs.list p).toOption.getD []).filter fun e => endsWith e ".yaml"
    .ok (entries.filterMap fun e => (loadGrant codec vfs (dir ++ "/" ++ e)).toOption)

end Store

/-! ## `memory/retrieve` -/

/-- A record with the memory it comes from and its scope tag. -/
structure Retrieved where
  record : MemoryRecord
  source : MemoryAgent
  scope : String
  deriving DecidableEq, Repr

def stringsParam (params : Json) (key : String) : Option (List String) :=
  (params.index key).asArray.map fun items => items.filterMap Json.asStr

def typesParam (params : Json) : List String :=
  (stringsParam params "types").getD ["episodic", "semantic"]

def scopesParam (params : Json) : List String := (stringsParam params "scopes").getD []

def limitParam (defaultLimit : UInt32) (params : Json) : Nat :=
  min (((params.index "limit").asU64.map UInt64.toNat).getD defaultLimit.toNat) 20

section Retrieve

variable (codec : MemoryCodec) (vfs : VfsView) (defaultLimit : UInt32) (caller : MemoryCaller)

/-- The caller's records of one type, if asked for. -/
def candidatesOf (types : List String) (type : MemoryRecordType) :
    Except AvixError (List MemoryRecord) :=
  if types.contains type.asStr then listRecords codec vfs (recordsDir caller.agent type) else .ok []

def ownCandidates (types : List String) : Except AvixError (List MemoryRecord) := do
  let episodic ← candidatesOf codec vfs caller types .episodic
  let semantic ← candidatesOf codec vfs caller types .semantic
  return episodic ++ semantic

/-- The records that a grant leads to. -/
def grantRecords (grant : MemoryGrant) : List Retrieved :=
  grant.records.filterMap fun id =>
    (recordById codec vfs grant.grantor id).map fun record =>
      ⟨record, grant.grantor, "grant:" ++ grant.id⟩

def grantedRecords (scopes : List String) : Except AvixError (List Retrieved) :=
  if scopes.contains "grants" then
    (grantsIn codec vfs (sessionGrantsDir caller.agentName)).map fun grants =>
      grants.flatMap (grantRecords codec vfs)
  else .ok []

/-- `retrieve::handle` up to the JSON: the number of candidates, and the records. -/
def retrieve (params : Json) : Except AvixError (Nat × List Retrieved) :=
  match (params.index "query").asStr with
  | none => .error (.configParse "missing query")
  | some query => do
    let own ← ownCandidates codec vfs caller (typesParam params)
    let granted ← grantedRecords codec vfs caller (scopesParam params)
    let ranked := codec.rank own query (limitParam defaultLimit params)
    return (own.length, (ranked.map fun record => ⟨record, caller.agent, "own"⟩) ++ granted)

/-- `record_to_json`; none is a panic. -/
def recordToJson (item : Retrieved) : Option Json :=
  (sliceBytes item.record.content (min item.record.content.utf8ByteSize 200)).map fun summary =>
    .ofMembers [("id", .string item.record.id), ("type", .string item.record.recordType.asStr),
      ("scope", .string item.scope), ("summary", .string summary),
      ("tags", .array (item.record.tags.map .string)),
      ("createdAt", .string (codec.jsonTime item.record.createdAt)),
      ("pinned", .bool item.record.pinned)]

/-- `retrieve::handle`; none is a panic. -/
def retrieveHandle (params : Json) : Option (Except AvixError Json) :=
  match retrieve codec vfs defaultLimit caller params with
  | .error e => some (.error e)
  | .ok (total, items) =>
    (items.mapM (recordToJson codec)).map fun records => .ok (.ofMembers
      [("records", .array records), ("totalCandidates", .int total),
        ("returned", .int records.length)])

def returnedRecords (params : Json) : List Retrieved :=
  match retrieveHandle codec vfs defaultLimit caller params,
      retrieve codec vfs defaultLimit caller params with
  | some (.ok _), .ok (_, items) => items
  | _, _ => []

end Retrieve

end Avix
