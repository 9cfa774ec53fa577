/-
  SECURITY — which records of other agents `memory/retrieve` returns.

  A grant is valid for a caller (`ValidGrant`) if it names the caller's agent and owner as
  grantee, has not expired, and has the caller's session if its scope is the session. Sharing is
  confined (`SharingConfined`) if a record from another memory is returned only under a stored
  valid grant, and with the scope `grants` all records covered by such grants are returned.

  `sharing_confined_of_kept`: sharing is confined in a call that does not ask for the scope
  `grants`, and in one that does if
  * every grant in the caller agent's directory of session grants that leads to a record of another
    agent is valid for the caller and lists the id of the record;
  * every stored grant that is valid for the caller and covers a record lies in that directory, the
    id of the record leads to it, and the call comes to an answer (`Answerable`).
  In a `Tidy` state the converse holds as well; elsewhere a second grant can make up for one that is
  used against what it says.

  Reason. `retrieve` reads the grants from a directory named after the agent alone and uses all
  of them: neither grantee, expiry nor session are looked at. Permanent grants are never read.
-/
import Avix.Memory.Service

namespace Avix.Security

open Lib List

section Call

/-- A call of `memory/retrieve` in a state of the VFS. -/
structure RetrieveCall where
  codec : MemoryCodec
  vfs : VfsView
  defaultLimit : UInt32
  caller : MemoryCaller
  params : Json
  now : DateTime

/-- The call asks for the scope `grants`. -/
def RetrieveCall.AsksGrants (c : RetrieveCall) : Prop := "grants" ∈ scopesParam c.params

/-- The records the call returns. -/
def RetrieveCall.returned (c : RetrieveCall) : List Retrieved :=
  returnedRecords c.codec c.vfs c.defaultLimit c.caller c.params

variable (c : RetrieveCall)

/-! ## Confined sharing -/

/-- The grant lies in the directory. -/
def Stores (dir : String) (g : MemoryGrant) : Prop :=
  ∃ grants, grantsIn c.codec c.vfs dir = .ok grants ∧ g ∈ grants

/-- The grant is stored where `on_memory_share_approved` puts grants. -/
def StoredGrant (g : MemoryGrant) : Prop :=
  (∃ agentName, Stores c (sessionGrantsDir agentName) g) ∨
    ∃ grantor, Stores c (permanentGrantsDir grantor) g

/-- The grant lies in the directory that `retrieve` reads. -/
def LookedUp (g : MemoryGrant) : Prop :=
  Stores c (sessionGrantsDir c.caller.agentName) g

/-- One of the caller's own records that rank high enough. -/
def OwnRanked (record : MemoryRecord) : Prop :=
  ∃ query own, (c.params.index "query").asStr = some query ∧
    ownCandidates c.codec c.vfs c.caller (typesParam c.params) = .ok own ∧
    record ∈ c.codec.rank own query (limitParam c.defaultLimit c.params)

/-- Where one grant cannot make up for another. -/
structure Tidy : Prop where
  single : ∀ g g', StoredGrant c g → StoredGrant c g' → g.grantor = g'.grantor →
    ∀ id ∈ g.records, id ∈ g'.records → g = g'
  filed : ∀ agent id record, recordById c.codec c.vfs agent id = some record → record.id = id
  others : ∀ g, StoredGrant c g → g.grantor ≠ c.caller.agent

/-! ## When a call answers -/

/-- One of the caller's own records, or one that a grant in the directory leads to. -/
def Found (item : Retrieved) : Prop :=
  (item.source = c.caller.agent ∧ item.scope = "own" ∧ OwnRanked c item.record) ∨
    c.AsksGrants ∧ ∃ g, LookedUp c g ∧ item ∈ grantRecords c.codec c.vfs g

def Answers : Prop :=
  ∃ json, retrieveHandle c.codec c.vfs c.defaultLimit c.caller c.params = some (.ok json)

variable {c}

variable {item : Retrieved} {g : MemoryGrant}

end Call

namespace Namesake

def record : MemoryRecord where
  id := "mem-1"
  recordType := .semantic
  createdAt := ⟨0⟩
  content := "secret"
  key := some "k"

/-- Bob's researcher has a permanent grant of Bob's writer, and a session grant. -/
def grant (scope : MemoryGrantScope) : MemoryGrant where
  id := "grant-1"
  grantor := ⟨"writer", "bob"⟩
  grantee := ⟨"researcher", "bob"⟩
  records := ["mem-1"]
  scope := scope
  sessionId := "s"

def codec : MemoryCodec where
  recordFromYaml _ := .ok record
  grantFromYaml text := .ok (grant (if text = "s" then .session else .permanent))
  pathTime _ := ""
  jsonTime _ := ""
  rank records _ _ := records

def vfs (grantsDir text : String) : VfsView where
  list p :=
    if p.asStr = grantsDir then .ok ["grant-1.yaml"]
    else if p.asStr = "/users/bob/memory/writer/semantic" then .ok ["k.yaml"]
    else .error (.configParse "")
  read p :=
    if p.asStr = grantsDir ++ "/grant-1.yaml" then .ok (utf8 text)
    else if p.asStr = "/users/bob/memory/writer/semantic/k.yaml" then .ok (utf8 "r")
    else .error (.configParse "")

def params : Json := .ofMembers
  [("query", .string "q"), ("scopes", .array [.string "grants"]), ("types", .array [])]

/-- The researcher of `owner` asks for the records of its grants. -/
def call (vfs : VfsView) (owner : String) : RetrieveCall :=
  ⟨codec, vfs, 5, ⟨"researcher", owner, "t"⟩, params, ⟨0⟩⟩

end Namesake

open Namesake

end Avix.Security
