import DistributedNinja.Common.CommandExecutor
import DistributedNinja.Ninja.Plan
import DistributedNinja.Proto.SlaveServices

namespace DistributedNinja.Slave

open Proto Common Ninja

def transformExitStatus : ExitStatus → RunCommandStatus
  | .success => .kExitSuccess
  | .failure => .kExitFailure
  | .interrupted => .kExitInterrupted

/-- What does not change while the slave runs. `edges` is what `GetAllEdges` gives, and the plan starts with
    what the scan of `InitForSlave` has set. -/
structure Setting (Edge : Type) [DecidableEq Edge] where
  manifest : Manifest Edge
  plan : ReadyPlan manifest
  hash : String → UInt32
  processors : Nat
  edges : List Edge

/-- What `StartEdge` finds on the file system. `createDirectory` is asked with the path of the file the
    directory is for. -/
structure Disk where
  createDirectory : String → Bool
  writeFile : String → String → Bool

/-- A request from the master, its response as far as it is filled in, and the closure that sends it. -/
structure RunCommandContext where
  request : RunCommandRequest
  response : RunCommandResponse
  done : Nat

inductive SlaveTask (Edge : Type) where
  | runRequest (request : RunCommandRequest) (done : Nat)
  | runCommand (command : String) (cause : Edge)

inductive EdgeCall (Edge : Type) where
  | found (edge : Edge)
  | exited (command : String) (status : ExitStatus)
  | finished (edge : Edge)
  | answered (edgeId : UInt32) (status : RunCommandStatus)
  deriving DecidableEq

/-- `SlaveMainRunner` on the MAIN thread of the slave. `pool` and `rpcPosts` are what it has posted to the
    blocking pool and what goes from there to the RPC thread; `log` is for the proofs only. -/
structure SlaveMainRunner {Edge : Type} [DecidableEq Edge] (S : Setting Edge) where
  hashEdgeMap : UInt32 → Option Edge
  plan : S.plan.State
  commandHashEdgeMap : UInt32 → Option Edge
  runCommandContextMap : UInt32 → Option RunCommandContext
  executor : CommandExecutor Edge
  queue : List (SlaveTask Edge)
  pool : List RunCommandContext
  rpcPosts : List RunCommandContext
  log : List (EdgeCall Edge)

namespace SlaveMainRunner

variable {Edge : Type} [DecidableEq Edge] {S : Setting Edge}

def commandOf (S : Setting Edge) (edge : Edge) : String := S.manifest.evaluateCommand edge

def hashEdge (S : Setting Edge) (edge : Edge) : UInt32 := S.manifest.hashEdge S.hash edge

/-- The loop over all edges of `PostCreateThreads`; `none` when its `CHECK` fails. -/
def hashEdges (S : Setting Edge) : List Edge → (UInt32 → Option Edge) → Option (UInt32 → Option Edge)
  | [], map => some map
  | edge :: rest, map =>
    if (map (hashEdge S edge)).isSome then none
    else hashEdges S rest (Function.update map (hashEdge S edge) (some edge))

def postCreateThreads (S : Setting Edge) : Option (SlaveMainRunner S) :=
  (hashEdges S S.edges fun _ => none).map fun map =>
    { hashEdgeMap := map
      plan := S.plan.empty
      commandHashEdgeMap := fun _ => none
      runCommandContextMap := fun _ => none
      executor := .new S.processors
      queue := []
      pool := []
      rpcPosts := []
      log := [] }

def startEdge (disk : Disk) (s : SlaveMainRunner S) (edge : Edge) : SlaveMainRunner S :=
  if S.manifest.isPhony edge then s
  else if (S.manifest.outputs edge).all disk.createDirectory &&
      ((S.manifest.unescapedRspfile edge).isEmpty ||
        disk.writeFile (S.manifest.unescapedRspfile edge) (S.manifest.rspfileContent edge)) then
    { s with executor := s.executor.runCommand (commandOf S edge) edge }
  else s

def edgesLeft (s : SlaveMainRunner S) : Nat := (S.plan.unreturned s.plan).card + 1

def registered (s : SlaveMainRunner S) (edge : Edge) (plan : S.plan.State) : SlaveMainRunner S :=
  { s with
    plan := plan
    commandHashEdgeMap := Function.update s.commandHashEdgeMap (S.hash (commandOf S edge)) (some edge)
    log := s.log ++ [.found edge] }

/-- `StartReadyEdges`. Every pass takes an edge from the plan. -/
def startReadyEdges (disk : Edge → Disk) : Nat → SlaveMainRunner S → SlaveMainRunner S
  | 0, s => s
  | fuel + 1, s =>
    match S.plan.findWork s.plan with
    | none => s
    | some (edge, plan) => startReadyEdges disk fuel ((s.registered edge plan).startEdge (disk edge) edge)

def edgeFinished (s : SlaveMainRunner S) (edge : Edge) : SlaveMainRunner S :=
  { s with plan := S.plan.edgeFinished s.plan edge, log := s.log ++ [.finished edge] }

def answer (s : SlaveMainRunner S) (command : String) (status : ExitStatus) (output : String) :
    SlaveMainRunner S :=
  match s.runCommandContextMap (S.hash command) with
  | none => s
  | some context =>
    let response := { context.response with output := output, status := transformExitStatus status }
    { s with
      runCommandContextMap := Function.update s.runCommandContextMap (S.hash command) none
      pool := s.pool ++ [{ context with response := response }]
      log := s.log ++ [.answered context.request.edgeId response.status] }

/-- `OnCommandFinished`. Where no edge is registered it calls `EdgeFinished(NULL)`. -/
def onCommandFinished (disk : Edge → Disk) (s : SlaveMainRunner S) (command : String)
    (status : ExitStatus) (output : String) : Option (SlaveMainRunner S) :=
  (s.commandHashEdgeMap (S.hash command)).map fun edge =>
    let s := s.edgeFinished edge
    (s.startReadyEdges disk s.edgesLeft).answer command status output

def awaiting (s : SlaveMainRunner S) (edge : Edge) (context : RunCommandContext) : SlaveMainRunner S :=
  { s with
    runCommandContextMap :=
      Function.update s.runCommandContextMap (S.hash (commandOf S edge)) (some context) }

def addTargets (plan : S.plan.State) (paths : List String) : S.plan.State :=
  paths.foldl (fun plan path => (S.plan.addTarget plan path).2.2) plan

def runCommand (disk : Edge → Disk) (s : SlaveMainRunner S) (request : RunCommandRequest) (done : Nat) :
    Option (SlaveMainRunner S) :=
  let response : RunCommandResponse := ⟨.kExitSuccess, "", request.edgeId, []⟩
  match s.hashEdgeMap request.edgeId with
  | none =>
    let response := { response with
      status := .kExitFailure
      output := "This command is NOT ALLOWED to run." }
    some { s with
      rpcPosts := s.rpcPosts ++ [⟨request, response, done⟩]
      log := s.log ++ [.answered request.edgeId response.status] }
  | some edge =>
    let s := s.awaiting edge ⟨request, response, done⟩
    if S.plan.outputsReady s.plan edge then s.onCommandFinished disk (commandOf S edge) .success ""
    else
      let s := { s with plan := addTargets s.plan (S.manifest.outputs edge) }
      some (s.startReadyEdges disk s.edgesLeft)

def runTask (disk : Edge → Disk) (s : SlaveMainRunner S) : SlaveTask Edge → Option (SlaveMainRunner S)
  | .runRequest request done => s.runCommand disk request done
  | .runCommand command cause => some { s with executor := s.executor.runCommand command cause }

def subprocessRemoved (s : SlaveMainRunner S) (pid : Nat) : SlaveMainRunner S :=
  { s with
    executor := (s.executor.exited pid).1
    queue := s.queue ++ (s.executor.exited pid).2.toList.map fun posted => .runCommand posted.1 posted.2 }

def subprocessExitCallback (disk : Edge → Disk) (s : SlaveMainRunner S) (pid : Nat) (status : ExitStatus)
    (output : String) : Option (SlaveMainRunner S) :=
  (s.executor.find? pid).bind fun p =>
    (onCommandFinished disk { s with log := s.log ++ [.exited p.command status] } p.command status output).map
      fun s => s.subprocessRemoved pid

/-- `MD5OutputsOnBlockingPool`; `md5` says the digest of a file, the empty one when there is none. -/
def md5Outputs (md5 : String → String) (context : RunCommandContext) : RunCommandContext :=
  if context.response.status = .kExitSuccess then
    { context with response := { context.response with
        md5 := context.response.md5 ++ context.request.outputPaths.map md5 } }
  else context

end SlaveMainRunner

inductive SlaveEvent (Edge : Type) where
  | requestPosted (request : RunCommandRequest) (done : Nat)
  | taskRun (disk : Edge → Disk)
  | exited (pid : Nat) (status : ExitStatus) (output : String) (disk : Edge → Disk)
  | digested (job : Nat) (md5 : String → String)

def SlaveMainRunner.step {Edge : Type} [DecidableEq Edge] {S : Setting Edge} (s : SlaveMainRunner S) :
    SlaveEvent Edge → Option (SlaveMainRunner S)
  | .requestPosted request done => some { s with queue := s.queue ++ [.runRequest request done] }
  | .taskRun disk =>
    match s.queue with
    | [] => none
    | task :: rest => runTask disk { s with queue := rest } task
  | .exited pid status output disk => s.subprocessExitCallback disk pid status output
  | .digested job md5 =>
    s.pool[job]?.map fun context =>
      { s with pool := s.pool.eraseIdx job, rpcPosts := s.rpcPosts ++ [md5Outputs md5 context] }

end DistributedNinja.Slave
