import ControlPlane.Interleave.Alone
import ControlPlane.Text

/-!
# Release receipts

The deploy script keeps `pending.json` while a release is rolled out, `current.json` and
`previous.json` for the last two that went live, and one receipt per release. Of a file we say which
document's text it holds and how much of it.
-/

namespace ControlPlane.Receipts

open Interleave
open Interleave.Task (ask require ensure)

abbrev Path : Type := List String

structure Phase where
  timestamp : String
  status : String
  detail : Option String := none
  reason : Option String := none
deriving DecidableEq, Repr

structure RollbackResult where
  timestamp : String
  reason : String
  status : String
deriving DecidableEq, Repr

structure Provenance where
  environment : String
  sourceSha : String
  ciRunId : String
  imageDigests : List (String × String)
  ociRevision : String
  ociArchitecture : String
  configDigests : List (String × String)
  deployColor : String
  currentColor : String
  currentContainer : String
  candidateContainer : String
  workerGeneration : String
  workerLeadership : String
  caddyActiveUpstream : String
deriving DecidableEq, Repr

/-- The document of a release. The failure receipt of a release that was never pending has no
provenance. -/
structure Receipt where
  service : String
  releaseId : String
  provenance : Option Provenance
  phases : List (String × Phase)
  rollbackResult : Option RollbackResult
  finalizedAt : Option String
deriving DecidableEq, Repr

/-- Assignment to a key of a dictionary. -/
def setKey {α : Type} (key : String) (value : α) : List (String × α) → List (String × α)
  | [] => [(key, value)]
  | entry :: rest => if entry.1 = key then (key, value) :: rest else entry :: setKey key value rest

def pendingPath (d : Path) : Path := d ++ ["pending.json"]

def currentPath (d : Path) : Path := d ++ ["current.json"]

def previousPath (d : Path) : Path := d ++ ["previous.json"]

def enter (path : Path) (component : List Char) : Path :=
  if component = [] ∨ component = ['.'] then path
  else if component = ['.', '.'] then path.dropLast
  else path ++ [String.ofList component]

/-- `d / "receipts" / f"{release_id}.json"`. The id is not checked: it can leave the directory, and an
absolute one replaces it. -/
def receiptPath (d : Path) (releaseId : String) : Path :=
  let name := (releaseId ++ ".json").toList
  (name.splitOn '/').foldl enter (if name.head? = some '/' then [] else d ++ ["receipts"])

structure File where
  receipt : Receipt
  length : Nat
deriving DecidableEq

abbrev Files : Type := Path → Option File

inductive Loaded where
  | absent
  | invalid
  | document (receipt : Receipt)
deriving DecidableEq

inductive FileOp where
  | utcNow
  | sha256File (path : String)
  | pathExists (path : Path)
  | load (path : Path)
  /-- A temporary file beside the path is written and renamed to it. -/
  | replace (path : Path) (receipt : Receipt)
  /-- A copy begins: the source is opened, the target emptied. -/
  | openCopy (source target : Path)
  | copyByte (target : Path)
  | unlink (path : Path)

abbrev FileOp.Result : FileOp → Type
  | .utcNow => String
  | .sha256File _ => Option String
  | .pathExists _ => Bool
  | .load _ => Loaded
  | .replace _ _ => Bool
  | .openCopy _ _ => Nat
  | .copyByte _ => Unit
  | .unlink _ => Unit

/-- The clock, the digest of a file that can be read, and whether the operating system refuses to write
a path (a name that is too long, a component that is a file). -/
structure Choice where
  clock : String
  digest : Option String
  refuse : Bool

section

variable (d : Path) (size : Receipt → Nat)

def whole (receipt : Receipt) : File := ⟨receipt, size receipt⟩

/-- The text of a document ends in a closing brace and a newline; without the newline it is still the
document. -/
def File.complete (file : File) : Bool := size file.receipt ≤ file.length + 1

def loaded : Option File → Loaded
  | none => .absent
  | some file => if file.complete size then .document file.receipt else .invalid

def isStateFile (path : Path) : Bool :=
  path = pendingPath d || path = currentPath d || path = previousPath d

def exec (files : Files) (choice : Choice) : (o : FileOp) → o.Result × Files
  | .utcNow => (choice.clock, files)
  | .sha256File _ => (choice.digest, files)
  | .pathExists path => ((files path).isSome, files)
  | .load path => (loaded size (files path), files)
  | .replace path receipt =>
    -- the deploy script owns the directory and can write the three files in it
    if choice.refuse && !isStateFile d path then (false, files)
    else (true, Function.update files path (some (whole size receipt)))
  | .openCopy source target =>
    match files source with
    | some file => (file.length, Function.update files target (some ⟨file.receipt, 0⟩))
    | none => (0, files)
  | .copyByte target =>
    match files target with
    | some file => ((), Function.update files target (some ⟨file.receipt, file.length + 1⟩))
    | none => ((), files)
  | .unlink path => ((), Function.update files path none)

end

/-- `sys.exit(1)` with a line on stderr, or an exception. -/
inductive Exit where
  | exited (message : String)
  | raised (exception : String)
deriving DecidableEq, Repr

abbrev Script (α : Type) : Type := Task FileOp FileOp.Result Exit α

def loadJson (path : Path) : Script (Option Receipt) := do
  match ← ask (FileOp.load path) with
  | .absent => pure none
  | .invalid => throw (.raised "JSONDecodeError")
  | .document receipt => pure (some receipt)

def atomicWriteJson (path : Path) (receipt : Receipt) : Script Unit := do
  let written ← ask (FileOp.replace path receipt)
  ensure written (.raised "OSError")

def copyBytes (target : Path) : Nat → Script Unit
  | 0 => pure ()
  | n + 1 => do
    ask (FileOp.copyByte target)
    copyBytes target n

def copy2 (source target : Path) : Script Unit := do
  let length ← ask (FileOp.openCopy source target)
  copyBytes target length

def parseKvPairs (items : List String) : Except Exit (List (String × String)) :=
  items.foldlM (fun result item =>
    match Text.splitOnce '=' item with
    | none => throw (.exited ("ERROR: expected key=value, got: " ++ item))
    | some (k, v) => pure (setKey k v result)) []

/-- A digest that was not given is taken from the file, if there is one. -/
def configDigest (key file : String) (digests : List (String × String)) :
    Script (List (String × String)) := do
  if file ≠ "" ∧ key ∉ digests.map Prod.fst then
    match ← ask (FileOp.sha256File file) with
    | some digest => pure (setKey key digest digests)
    | none => throw (.raised "OSError")
  else pure digests

structure PendingArgs where
  service : String
  environment : String := "production"
  releaseId : String
  sourceSha : String
  ciRunId : String := ""
  imageDigests : List String := []
  ociRevision : String := ""
  ociArchitecture : String := ""
  deployColor : String := ""
  currentColor : String := ""
  currentContainer : String := ""
  candidateContainer : String := ""
  workerGeneration : String := ""
  workerLeadership : String := ""
  caddyActiveUpstream : String := ""
  composeFile : String := ""
  caddyFile : String := ""
  envFile : String := ""
  configDigests : List String := []

def PendingArgs.provenance (args : PendingArgs) (imageDigests configDigests : List (String × String)) :
    Provenance where
  environment := args.environment
  sourceSha := args.sourceSha
  ciRunId := args.ciRunId
  imageDigests := imageDigests
  ociRevision := args.ociRevision
  ociArchitecture := args.ociArchitecture
  configDigests := configDigests
  deployColor := args.deployColor
  currentColor := args.currentColor
  currentContainer := args.currentContainer
  candidateContainer := args.candidateContainer
  workerGeneration := args.workerGeneration
  workerLeadership := args.workerLeadership
  caddyActiveUpstream := args.caddyActiveUpstream

def cmdPending (d : Path) (args : PendingArgs) : Script String := do
  let digests ← require (parseKvPairs args.imageDigests)
  let configDigests ← require (parseKvPairs args.configDigests)
  let configDigests ← configDigest "compose" args.composeFile configDigests
  let configDigests ← configDigest "caddy" args.caddyFile configDigests
  let configDigests ← configDigest "env" args.envFile configDigests
  let timestamp ← ask FileOp.utcNow
  atomicWriteJson (pendingPath d)
    { service := args.service
      releaseId := args.releaseId
      provenance := some (args.provenance digests configDigests)
      phases := [("pending", { timestamp, status := "started" })]
      rollbackResult := none
      finalizedAt := none }
  pure ("RECEIPT_PENDING=PASS release_id=" ++ args.releaseId)

namespace Receipt

def recordPhase (receipt : Receipt) (phase status detail timestamp : String) : Receipt :=
  { receipt with
    phases := setKey phase
      { timestamp, status, detail := if detail = "" then none else some detail } receipt.phases }

def finalize (receipt : Receipt) (status timestamp finalizedAt : String) : Receipt :=
  { receipt with
    phases := setKey "finalized" { timestamp, status } receipt.phases
    finalizedAt := some finalizedAt }

def rollBack (receipt : Receipt) (reason timestamp resultAt finalizedAt : String) : Receipt :=
  { receipt with
    phases := setKey "rollback" { timestamp, status := "rolled-back", reason := some reason }
      receipt.phases
    rollbackResult := some { timestamp := resultAt, reason, status := "rolled-back" }
    finalizedAt := some finalizedAt }

def minimal (releaseId service : String) : Receipt where
  service := if service = "" then "unknown" else service
  releaseId := releaseId
  provenance := none
  phases := []
  rollbackResult := none
  finalizedAt := none

end Receipt

-- The release id that `phase` and `finalize` are given is not looked at.

def cmdPhase (d : Path) (_releaseId phase status detail : String) : Script String := do
  match ← loadJson (pendingPath d) with
  | none => throw (.exited "ERROR: no pending.json — cannot record phase")
  | some pending =>
    let timestamp ← ask FileOp.utcNow
    atomicWriteJson (pendingPath d) (pending.recordPhase phase status detail timestamp)
    pure ("RECEIPT_PHASE=PASS phase=" ++ phase ++ " status=" ++ status)

def cmdFinalize (d : Path) (_releaseId status : String) : Script String := do
  match ← loadJson (pendingPath d) with
  | none => throw (.exited "ERROR: no pending.json — cannot finalize")
  | some pending =>
    let timestamp ← ask FileOp.utcNow
    let finalizedAt ← ask FileOp.utcNow
    let finalized := pending.finalize status timestamp finalizedAt
    atomicWriteJson (receiptPath d pending.releaseId) finalized
    let rotate ← ask (FileOp.pathExists (currentPath d))
    if rotate then copy2 (currentPath d) (previousPath d)
    atomicWriteJson (currentPath d) finalized
    ask (FileOp.unlink (pendingPath d))
    pure ("RECEIPT_FINALIZE=PASS release_id=" ++ pending.releaseId ++ " status=" ++ status ++
      " receipt=" ++ "/".intercalate (receiptPath d pending.releaseId))

def cmdRollback (d : Path) (releaseId service reason : String) : Script String := do
  let found ← loadJson (pendingPath d)
  let pending := found.getD (.minimal releaseId service)
  let timestamp ← ask FileOp.utcNow
  let resultAt ← ask FileOp.utcNow
  let finalizedAt ← ask FileOp.utcNow
  atomicWriteJson (receiptPath d pending.releaseId)
    (pending.rollBack reason timestamp resultAt finalizedAt)
  ask (FileOp.unlink (pendingPath d))
  let intact ← ask (FileOp.pathExists (currentPath d))
  pure ("RECEIPT_ROLLBACK=PASS current_intact=" ++ (if intact then "true" else "false") ++
    " receipt=" ++ "/".intercalate (receiptPath d pending.releaseId))

inductive Command where
  | pending (args : PendingArgs)
  | phase (releaseId name status detail : String)
  | finalize (releaseId status : String)
  | rollback (releaseId service reason : String)

def Command.script (d : Path) : Command → Script String
  | .pending args => cmdPending d args
  | .phase releaseId name status detail => cmdPhase d releaseId name status detail
  | .finalize releaseId status => cmdFinalize d releaseId status
  | .rollback releaseId service reason => cmdRollback d releaseId service reason

end ControlPlane.Receipts
