import DistributedNinja.Common.CommandExecutor
import DistributedNinja.Master.MasterRpc
import DistributedNinja.Ninja.Plan

namespace DistributedNinja.Master

open Lib Rpc Proto Common Ninja

structure Result (Edge : Type) where
  edge : Edge
  status : ExitStatus
  output : String

/-- What the file system and ninja's logs answer while MAIN handles one edge. `createDirectory` is asked with
    the path of the file the directory is for. -/
structure Disk where
  createDirectory : String → Bool
  writeFile : String → String → Bool
  readFile : String → Except String String
  removeFile : String → Int
  stat : String → Int
  recordCommand : Bool
  recordDeps : Bool

/-- What one task of MAIN finds outside of the program: the files of each edge, the targets the command line
    names (none when one is unknown) and what scanning a target says, `true` for outputs that are ready. -/
structure Environment (Edge : Type) where
  disk : Edge → Disk
  targets : Option (List String)
  scan : String → Except String Bool

structure Setting (Edge : Type) [DecidableEq Edge] where
  manifest : Manifest Edge
  plan : Plan Edge
  hash : String → UInt32
  parseDepfile : String → Except String (List String)
  processors : Nat
  operatingSystemName : String
  operatingSystemArchitecture : String
  maxSlaveAmount : Nat

inductive FetchPhase where
  | idle
  | deleted
  | writing
  deriving DecidableEq

/-- `FetchTargetsOnBlockingPool` under way: `targets` are those it has not got yet, each with its digest.
    `answer` is for the proofs only: the edge id of the response it was posted for. -/
structure Fetch (Edge : Type) where
  host : String
  targets : List (String × String)
  result : Result Edge
  answer : UInt32
  phase : FetchPhase

inductive MainTask (Edge : Type) where
  | startBuild
  | slave (notice : SlaveNotice)
  | onFetchTargetsDone (result : Result Edge) (answer : UInt32)
  | runCommand (command : String) (cause : Edge)
  | quit

/-- What happened to an edge: the plan gave it out, a local command was run for it, `EdgeFinished` was
    called for it. -/
inductive EdgeCall (Edge : Type) where
  | found (edge : Edge)
  | started (edge : Edge)
  | finished (edge : Edge)
  deriving DecidableEq

/-- The MAIN thread of the master, with `DNBuilder` and `MasterMainRunner`. `hasBuilder` and `commandRunner`
    say whether `builder_` and `command_runner_` are set. `rpcPosts` and `pool` are what it has posted to the
    RPC thread and to the blocking pool; `log` and `buildFinishedCalls` are for the proofs only. -/
structure MainThread {Edge : Type} [DecidableEq Edge] (S : Setting Edge) where
  hasBuilder : Bool
  commandRunner : Bool
  plan : S.plan.State
  executor : CommandExecutor Edge
  outstandingEdgeList : List Edge
  commandEdgeMap : String → Option Edge
  pendingEdgeRequest : OrderedMap Int Nat
  slaveInfoIdMap : OrderedMap Int SlaveInfo
  outstandingEdges : UInt32 → Option Edge
  isBuilding : Bool
  queue : List (MainTask Edge)
  rpcPosts : List RpcRequest
  pool : List (Fetch Edge)
  quit : Bool
  buildFinishedCalls : Nat
  log : List (EdgeCall Edge)

namespace MainThread

variable {Edge : Type} [DecidableEq Edge] {S : Setting Edge}

def new (S : Setting Edge) : MainThread S where
  hasBuilder := false
  commandRunner := false
  plan := S.plan.empty
  executor := .new S.processors
  outstandingEdgeList := []
  commandEdgeMap := fun _ => none
  pendingEdgeRequest := .empty
  slaveInfoIdMap := .empty
  outstandingEdges := fun _ => none
  isBuilding := false
  queue := []
  rpcPosts := []
  pool := []
  quit := false
  buildFinishedCalls := 0
  log := []

def moreToDo (m : MainThread S) : Bool := S.plan.moreToDo m.plan

def findWork (m : MainThread S) : Option (Edge × MainThread S) :=
  (S.plan.findWork m.plan).map fun (edge, plan) =>
    (edge, { m with plan := plan, log := m.log ++ [.found edge] })

def findRemoteWork (m : MainThread S) : Option (Edge × MainThread S) :=
  (S.plan.findRemoteWork m.plan).map fun (edge, plan) =>
    (edge, { m with plan := plan, log := m.log ++ [.found edge] })

def edgeFinished (m : MainThread S) (edge : Edge) : MainThread S :=
  { m with plan := S.plan.edgeFinished m.plan edge, log := m.log ++ [.finished edge] }

/-- `BuildFinished` of both classes, but for the task of the web user interface. -/
def buildFinished (m : MainThread S) : MainThread S :=
  { m with queue := m.queue ++ [.quit], buildFinishedCalls := m.buildFinishedCalls + 1 }

def hashEdge (S : Setting Edge) (edge : Edge) : UInt32 := S.manifest.hashEdge S.hash edge

def startEdgeRemotelly (m : MainThread S) (edge : Edge) (connectionId : Int) : MainThread S :=
  if m.slaveInfoIdMap.contains connectionId then
    { m with
      outstandingEdges := Function.update m.outstandingEdges (hashEdge S edge) (some edge)
      rpcPosts := m.rpcPosts ++ [.startCommandRemotely connectionId (S.manifest.outputs edge)
        (S.manifest.unescapedRspfile edge) (S.manifest.rspfileContent edge) (hashEdge S edge)] }
  else m

def sendRemotely (m : MainThread S) (edge : Edge) (connectionId : Int) : MainThread S :=
  let m := m.startEdgeRemotelly edge connectionId
  { m with outstandingEdgeList := m.outstandingEdgeList ++ [edge] }

def prepareLocally (S : Setting Edge) (disk : Disk) (edge : Edge) : Bool :=
  (S.manifest.outputs edge).all disk.createDirectory &&
    ((S.manifest.unescapedRspfile edge).isEmpty ||
      disk.writeFile (S.manifest.unescapedRspfile edge) (S.manifest.rspfileContent edge))

def startEdgeLocally (disk : Edge → Disk) (m : MainThread S) (edge : Edge) : Bool × MainThread S :=
  if S.manifest.isPhony edge then (true, m.edgeFinished edge)
  else if prepareLocally S (disk edge) edge then
    let command := S.manifest.evaluateCommand edge
    (true, { m with
      commandEdgeMap := Function.update m.commandEdgeMap command (some edge)
      executor := m.executor.runCommand command edge
      log := m.log ++ [.started edge] })
  else (false, m)

/-- The loop over `CanRunMore()`, with what gives it its next edge; `false` when `StartEdgeLocally` failed.
    Every pass takes an edge from the plan or from `outstanding_edge_list_`. -/
def startEdges (next : MainThread S → Option (Edge × MainThread S)) (disk : Edge → Disk) :
    Nat → MainThread S → Bool × MainThread S
  | 0, m => (true, m)
  | fuel + 1, m =>
    if m.executor.canRunMore then
      match next m with
      | none => (true, m)
      | some (edge, m) =>
        match m.startEdgeLocally disk edge with
        | (true, m) => startEdges next disk fuel m
        | (false, m) => (false, m)
    else (true, m)

def edgesLeft (m : MainThread S) : Nat :=
  (S.plan.unreturned m.plan).card + m.outstandingEdgeList.length + 1

def findLocalWork (m : MainThread S) : Option (Edge × MainThread S) :=
  match m.findWork with
  | some found => some found
  | none =>
    match m.outstandingEdgeList with
    | [] => none
    | edge :: rest => some (edge, { m with outstandingEdgeList := rest })

def buildLoop (disk : Edge → Disk) (m : MainThread S) : MainThread S :=
  if m.moreToDo then
    match m.startEdges findLocalWork disk m.edgesLeft with
    | (true, m) => if m.moreToDo then m else m.buildFinished
    | (false, m) => m
  else m.buildFinished

def startEdgesRemotely (connectionId : Int) : Nat → MainThread S → MainThread S
  | 0, m => m
  | count + 1, m =>
    match m.findWork with
    | none => m
    | some (edge, m) => startEdgesRemotely connectionId count (m.sendRemotely edge connectionId)

def startEdgesOnSlaves : List (Int × SlaveInfo) → MainThread S → MainThread S
  | [], m => m
  | (connectionId, info) :: rest, m =>
    startEdgesOnSlaves rest (m.startEdgesRemotely connectionId (info.numberOfProcessors + 1).toNat)

def initialalBuild (disk : Edge → Disk) (m : MainThread S) : MainThread S :=
  let m := (m.startEdges findWork disk m.edgesLeft).2
  if m.moreToDo then m.startEdgesOnSlaves m.slaveInfoIdMap.entries else m.buildFinished

/-- `ExtractDeps` on a system with the gcc rules only; `none` is `Fatal`. -/
def extractDeps (S : Setting Edge) (disk : Disk) (edge : Edge) : Option (Except String (List String)) :=
  if S.manifest.deps edge = "gcc" then
    let depfile := S.manifest.unescapedDepfile edge
    if depfile.isEmpty then some (.error "edge with deps=gcc but no depfile makes no sense")
    else
      match disk.readFile depfile with
      | .error err => some (.error err)
      | .ok content =>
        if content.isEmpty then some (.ok [])
        else
          match S.parseDepfile content with
          | .error err => some (.error err)
          | .ok ins => if disk.removeFile depfile < 0 then some (.error "deleting depfile: ") else some (.ok ins)
  else none

def cleanOutputs (disk : Disk) (m : MainThread S) (edge : Edge) : MainThread S :=
  if S.manifest.restat edge then
    { m with plan := (S.manifest.outputs edge).foldl (fun plan path =>
        if S.manifest.mtime path = disk.stat path then S.plan.cleanNode plan path else plan) m.plan }
  else m

/-- `FinishCommand`, with what it returns; `none` is `Fatal` in `ExtractDeps`. -/
def finishCommand (disk : Disk) (m : MainThread S) (result : Result Edge) :
    Option (Bool × MainThread S) :=
  if result.status = .success then
    let edge := result.edge
    let m := { m with outstandingEdgeList := m.outstandingEdgeList.erase edge }
    let hasDeps := !(S.manifest.deps edge).isEmpty
    match if hasDeps then extractDeps S disk edge else some (.ok []) with
    | none => none
    | some (.error _) => some (true, m)
    | some (.ok _) =>
      let m := (cleanOutputs disk m edge).edgeFinished edge
      some (disk.recordCommand && (!hasDeps || disk.recordDeps), m)
  else some (false, m.buildFinished)

def pendingRequests (m : MainThread S) (connectionId : Int) : Nat :=
  (m.pendingEdgeRequest.find? connectionId).getD 0

def setPendingRequests (m : MainThread S) (connectionId : Int) (count : Nat) : MainThread S :=
  { m with pendingEdgeRequest := m.pendingEdgeRequest.insert connectionId count }

def requestEdge (m : MainThread S) (connectionId : Int) : Bool × MainThread S :=
  if m.moreToDo then
    match m.findRemoteWork with
    | none => (false, m.setPendingRequests connectionId (m.pendingRequests connectionId + 1))
    | some (edge, m) => (true, m.sendRemotely edge connectionId)
  else (false, m)

def servePending : List Int → MainThread S → MainThread S
  | [], m => m
  | connectionId :: rest, m =>
    if 0 < m.pendingRequests connectionId then
      match m.requestEdge connectionId with
      | (true, m) =>
        servePending rest (m.setPendingRequests connectionId (m.pendingRequests connectionId - 1))
      | (false, m) => servePending rest m
    else servePending rest m

def onCommandFinished (env : Environment Edge) (m : MainThread S) (command : String)
    (status : ExitStatus) (output : String) : Option (MainThread S) :=
  (m.commandEdgeMap command).bind fun edge =>
    (finishCommand (env.disk edge) m ⟨edge, status, output⟩).map fun (_, m) =>
      buildLoop env.disk (m.servePending m.pendingEdgeRequest.keys)

/-- The targets that `RunBuild` adds to the plan; `none` when one of them fails with a message. -/
def addTargets (scan : String → Except String Bool) : List String → S.plan.State → Option S.plan.State
  | [], plan => some plan
  | path :: rest, plan =>
    match scan path with
    | .error err => if err.isEmpty then addTargets scan rest plan else none
    | .ok true => addTargets scan rest plan
    | .ok false =>
      match S.plan.addTarget plan path with
      | (added, err, plan) => if added || err.isEmpty then addTargets scan rest plan else none

/-- `StartBuild` and `RunBuild`. An unknown target fails a `CHECK`; one that cannot be added leaves a builder
    that does nothing. -/
def startBuild (env : Environment Edge) (m : MainThread S) : Option (MainThread S) :=
  if m.isBuilding then some m
  else
    env.targets.map fun targets =>
      let m := { m with isBuilding := true, hasBuilder := true }
      match addTargets env.scan targets S.plan.empty with
      | none => m
      | some plan =>
        let m := { m with plan := plan }
        if m.moreToDo then initialalBuild env.disk { m with commandRunner := true } else m.buildFinished

def hasRemoteCommandRunLocally (m : MainThread S) (edge : Edge) : Bool := decide (edge ∉ m.outstandingEdgeList)

def onFetchTargetsDone (env : Environment Edge) (m : MainThread S) (result : Result Edge) :
    Option (MainThread S) :=
  if m.hasRemoteCommandRunLocally result.edge then some m
  else (finishCommand (env.disk result.edge) m result).map Prod.snd

def kMongooseServerPort : String := "18080"

/-- The default `SlaveInfo` that `slave_info_id_map_[connection_id]` makes when there is none. -/
def noSlaveInfo : SlaveInfo := ⟨0, 0, 0, "", "", "", "", 0, 0, 0⟩

/-- `OnRemoteCommandDone`. Without a builder, for an edge id that is not outstanding or with too few digests
    it is not defined, nor for a builder that was not started and yet finds an edge. -/
def onRemoteCommandDone (m : MainThread S) (connectionId : Int) (edgeId : UInt32) (status : ExitStatus)
    (output : String) (md5s : List String) : Option (MainThread S) :=
  if !m.hasBuilder || (!m.commandRunner && m.moreToDo && m.findRemoteWork.isSome) then none
  else
    let m := (m.requestEdge connectionId).2
    if status = .success then
      (m.outstandingEdges edgeId).bind fun edge =>
        if md5s.length < (S.manifest.outputs edge).length then none
        else
          let info := (m.slaveInfoIdMap.find? connectionId).getD noSlaveInfo
          some { m with
            outstandingEdges := Function.update m.outstandingEdges edgeId none
            slaveInfoIdMap := m.slaveInfoIdMap.insert connectionId info
            pool := m.pool ++ [⟨info.ip ++ ":" ++ kMongooseServerPort,
              (S.manifest.outputs edge).zip md5s, ⟨edge, status, output⟩, edgeId, .idle⟩] }
    else some m

def rejectReason (S : Setting Edge) : String :=
  "Different system name or architecture, system info of master: \"" ++ S.operatingSystemName ++ ", " ++
    S.operatingSystemArchitecture ++ "\"."

def onSlaveSystemInfoAvailable (env : Environment Edge) (m : MainThread S) (connectionId : Int)
    (info : SlaveInfo) : Option (MainThread S) :=
  if m.slaveInfoIdMap.contains connectionId then some m
  else if info.operatingSystemName ≠ S.operatingSystemName ∨
      info.operatingSystemArchitecture ≠ S.operatingSystemArchitecture then
    some { m with rpcPosts := m.rpcPosts ++ [.quitSlave connectionId (rejectReason S)] }
  else
    let m := { m with slaveInfoIdMap := m.slaveInfoIdMap.insert connectionId info }
    if S.maxSlaveAmount ≤ m.slaveInfoIdMap.entries.length then m.startBuild env else some m

def onSlaveStatusUpdate (m : MainThread S) (connectionId : Int) (status : StatusResponse) : MainThread S :=
  match m.slaveInfoIdMap.find? connectionId with
  | none => m
  | some info =>
    { m with slaveInfoIdMap := m.slaveInfoIdMap.insert connectionId { info with
        loadAverage := status.loadAverage
        amountOfRunningCommands := status.amountOfRunningCommands
        amountOfAvailablePhysicalMemory := status.amountOfAvailablePhysicalMemory } }

def onSlaveClose (m : MainThread S) (connectionId : Int) : MainThread S :=
  { m with slaveInfoIdMap := m.slaveInfoIdMap.erase connectionId }

def runTask (env : Environment Edge) (m : MainThread S) : MainTask Edge → Option (MainThread S)
  | .startBuild => m.startBuild env
  | .slave (.onSlaveSystemInfoAvailable connectionId info) =>
    m.onSlaveSystemInfoAvailable env connectionId info
  | .slave (.onRemoteCommandDone connectionId edgeId status output md5s) =>
    m.onRemoteCommandDone connectionId edgeId status output md5s
  | .slave (.onSlaveStatusUpdate connectionId status) => some (m.onSlaveStatusUpdate connectionId status)
  | .slave (.onSlaveClose connectionId) => some (m.onSlaveClose connectionId)
  | .onFetchTargetsDone result _ => m.onFetchTargetsDone env result
  | .runCommand command cause => some { m with executor := m.executor.runCommand command cause }
  | .quit => some { m with quit := true }

def subprocessRemoved (m : MainThread S) (pid : Nat) : MainThread S :=
  { m with
    executor := (m.executor.exited pid).1
    queue := m.queue ++ (m.executor.exited pid).2.toList.map fun posted => .runCommand posted.1 posted.2 }

/-- `SubprocessExitCallback`: the observer runs while the subprocess is still counted. -/
def subprocessExitCallback (env : Environment Edge) (m : MainThread S) (pid : Nat) (status : ExitStatus)
    (output : String) : Option (MainThread S) :=
  (m.executor.find? pid).bind fun p =>
    (m.onCommandFinished env p.command status output).map fun m => m.subprocessRemoved pid

end MainThread

end DistributedNinja.Master
