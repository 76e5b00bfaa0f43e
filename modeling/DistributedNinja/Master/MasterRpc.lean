import DistributedNinja.Lib.OrderedMap
import DistributedNinja.Proto.SlaveServices
import DistributedNinja.Rpc.Connection

namespace DistributedNinja.Master

open Lib Rpc Proto

def transformExitStatus : RunCommandStatus → ExitStatus
  | .kExitSuccess => .success
  | .kExitFailure => .failure
  | .kExitInterrupted => .interrupted

structure SlaveInfo where
  numberOfProcessors : Int
  amountOfPhysicalMemory : Int
  amountOfVirtualMemory : Int
  operatingSystemName : String
  operatingSystemVersion : String
  operatingSystemArchitecture : String
  ip : String
  loadAverage : UInt64
  amountOfRunningCommands : Int
  amountOfAvailablePhysicalMemory : Int
  deriving DecidableEq

inductive Done where
  | onSlaveSystemInfoAvailable (connectionId : Int)
  | onRemoteCommandDone (connectionId : Int)
  | onSlaveStatusUpdate (connectionId : Int)
  deriving DecidableEq

inductive SlaveNotice where
  | onSlaveSystemInfoAvailable (connectionId : Int) (info : SlaveInfo)
  | onRemoteCommandDone (connectionId : Int) (edgeId : UInt32) (status : ExitStatus) (output : String)
      (md5s : List String)
  | onSlaveStatusUpdate (connectionId : Int) (status : StatusResponse)
  | onSlaveClose (connectionId : Int)

def SlaveNotice.closure? : SlaveNotice → Option Done
  | .onSlaveSystemInfoAvailable connectionId _ => some (.onSlaveSystemInfoAvailable connectionId)
  | .onRemoteCommandDone connectionId _ _ _ _ => some (.onRemoteCommandDone connectionId)
  | .onSlaveStatusUpdate connectionId _ => some (.onSlaveStatusUpdate connectionId)
  | .onSlaveClose _ => none

inductive RpcRequest where
  | startCommandRemotely (connectionId : Int) (paths : List String) (rspfileName rspfileContent : String)
      (edgeId : UInt32)
  | quitSlave (connectionId : Int) (reason : String)
  deriving DecidableEq

def RpcRequest.connectionId : RpcRequest → Int
  | .startCommandRemotely connectionId _ _ _ _ => connectionId
  | .quitSlave connectionId _ => connectionId

def RpcRequest.closure? : RpcRequest → Option Done
  | .startCommandRemotely connectionId _ _ _ _ => some (.onRemoteCommandDone connectionId)
  | .quitSlave _ _ => none

inductive RpcTask where
  | request (request : RpcRequest)
  | deleteSoon (pointer : Nat)
  deriving DecidableEq

inductive ObserverCall where
  | onConnect (id : Int) (pointer : Nat)
  | onClose (id : Int) (pointer : Nat)
  deriving DecidableEq, Repr

inductive ReadResult where
  | data (chunk : List UInt8)
  | ended (rv : Int)
  deriving DecidableEq

/-- The RPC thread of the master: `RpcSocketServer`, the connections it allocated and `MasterRPC`, its one
    observer. `posted` collects what it posts to the MAIN thread and `calls` what the observer was told. -/
structure RpcThread where
  lastId : Int
  nextPointer : Nat
  heap : Nat → Option (RpcConnection Done)
  idToConnection : OrderedMap Int Nat
  connections : OrderedMap Int Nat
  queue : List RpcTask
  posted : List SlaveNotice
  calls : List ObserverCall

namespace RpcThread

def new : RpcThread := ⟨0, 0, fun _ => none, .empty, .empty, [], [], []⟩

def store (t : RpcThread) (pointer : Nat) (c : RpcConnection Done) : RpcThread :=
  { t with heap := Function.update t.heap pointer (some c) }

def post (t : RpcThread) (notice : SlaveNotice) : RpcThread :=
  { t with posted := t.posted ++ [notice] }

/-- `MasterRPC::OnClose`. -/
def observerOnClose (t : RpcThread) (id : Int) (pointer : Nat) : RpcThread :=
  { t.post (.onSlaveClose id) with
    connections := t.connections.erase id
    calls := t.calls ++ [.onClose id pointer] }

def onClose (t : RpcThread) (id : Int) (pointer : Nat) : RpcThread :=
  let t := t.observerOnClose id pointer
  { t with
    idToConnection := t.idToConnection.erase id
    queue := t.queue ++ [.deleteSoon pointer] }

variable (pb : Protobuf) (service : SlaveService)

def afterWrite (t : RpcThread) (pointer : Nat) :
    RpcConnection Done × WriteOutcome → Option RpcThread
  | (c, .returned) => some (t.store pointer c)
  | (c, .closed _) => some ((t.store pointer c).onClose c.id pointer)
  | (_, .checkFailed) => none

/-- A method of `SlaveService::Stub` on the connection at `pointer`; `none` when there is no such object any
    more or a `CHECK` fails. -/
def callStub (t : RpcThread) (pointer : Nat) (method : SlaveMethod) (request : List UInt8)
    (done : Option Done) (writes : List Int) : Option RpcThread :=
  (t.heap pointer).bind fun c =>
    t.afterWrite pointer
      (c.call pb (.callMethod service.fullName (service.methodName method) request done) writes)

def registerSlave (t : RpcThread) (id : Int) (pointer : Nat) : RpcThread :=
  { t with
    connections := t.connections.insert id pointer
    calls := t.calls ++ [ObserverCall.onConnect id pointer] }

def onConnect (t : RpcThread) (id : Int) (pointer : Nat) (writes : List Int) : Option RpcThread :=
  (t.registerSlave id pointer).callStub pb service pointer .systemInfo service.systemInfoRequest
    (some (.onSlaveSystemInfoAvailable id)) writes

def slaveInfo (response : SystemInfoResponse) (ip : String) : SlaveInfo where
  numberOfProcessors := response.numberOfProcessors
  amountOfPhysicalMemory := response.amountOfPhysicalMemory
  amountOfVirtualMemory := response.amountOfVirtualMemory
  operatingSystemName := response.operatingSystemName
  operatingSystemVersion := response.operatingSystemVersion
  operatingSystemArchitecture := response.operatingSystemArchitecture
  ip := ip
  loadAverage := 0
  amountOfRunningCommands := 0
  amountOfAvailablePhysicalMemory := 0

/-- The closures of `MasterRPC`. The first dereferences `connections_[connection_id]`. -/
def runDone (t : RpcThread) (response : List UInt8) : Done → Option RpcThread
  | .onSlaveSystemInfoAvailable connectionId =>
    ((t.connections.find? connectionId).bind t.heap).map fun c =>
      t.post (.onSlaveSystemInfoAvailable connectionId
        (slaveInfo (service.systemInfoResponse response) c.peerAddress))
  | .onRemoteCommandDone connectionId =>
    let response := service.runCommandResponse response
    some (t.post (.onRemoteCommandDone connectionId response.edgeId
      (transformExitStatus response.status) response.output response.md5))
  | .onSlaveStatusUpdate connectionId =>
    some (t.post (.onSlaveStatusUpdate connectionId (service.statusResponse response)))

def eraseRequest (t : RpcThread) (pointer : Nat) (id : UInt32) : RpcThread :=
  { t with
    heap := Function.update t.heap pointer ((t.heap pointer).map fun c =>
      { c with requestIdToResponse := Function.update c.requestIdToResponse id none }) }

/-- `OnReponseMessage`. The response object of `Quit` is gone when its answer comes. -/
def onReponseMessage (t : RpcThread) (pointer : Nat) (m : RpcMessage) : Option RpcThread :=
  let response := m.response.getD []
  match (t.heap pointer).bind fun c => c.requestIdToResponse m.id.toUInt32 with
  | none => some t
  | some none => if response.isEmpty then some (t.eraseRequest pointer m.id.toUInt32) else none
  | some (some done) =>
    (t.runDone service response done).map fun t => t.eraseRequest pointer m.id.toUInt32

/-- The master registers no service, so `OnRequestMessage` only logs. -/
def dispatch (pointer : Nat) (t : Option RpcThread) (m : RpcMessage) : Option RpcThread :=
  t.bind fun t =>
    match m.type with
    | .request => some t
    | .response => t.onReponseMessage service pointer m

def setReadBuf (t : RpcThread) (pointer : Nat) (readBuf : ReadIOBuffer) : RpcThread :=
  { t with
    heap := Function.update t.heap pointer ((t.heap pointer).map fun c => { c with readBuf := readBuf }) }

/-- `HandleReadResult` on the connection `c` at `pointer`, with whether it returned `net::OK`. Each pass of
    the frame loop that goes on takes a byte out of the buffer or is repeated for ever, so `none` stands for
    a loop that does not end as well as for a crash. -/
def handleReadResult (t : RpcThread) (pointer : Nat) (c : RpcConnection Done) :
    ReadResult → Option (RpcThread × Bool)
  | .ended _ => some (t.onClose c.id pointer, false)
  | .data chunk =>
    (completeRead c.readBuf chunk).bind fun b =>
      match frameLoop pb.parseFromArray (dispatch service pointer) (b.getSize + 1) b (some t) with
      | some (left, some t) => some (t.setReadBuf pointer left, true)
      | _ => none

/-- `DoReadLoop`, with what `Read` returns on the way; once the results run out it is pending. -/
def doReadLoop (pointer : Nat) : List ReadResult → RpcThread → Option RpcThread
  | results, t =>
    (t.heap pointer).bind fun c =>
      match makeRoom c.readBuf with
      | none => some t
      | some room =>
        if c.readCallback then none
        else
          match results with
          | [] => some (t.store pointer { c with readBuf := room, readCallback := true })
          | result :: rest =>
            match (t.setReadBuf pointer room).handleReadResult pb service pointer { c with readBuf := room }
                result with
            | some (t, true) => doReadLoop pointer rest t
            | some (t, false) => some t
            | none => none

def onReadCompleted (t : RpcThread) (pointer : Nat) (result : ReadResult) (rest : List ReadResult) :
    Option RpcThread :=
  (t.heap pointer).bind fun c =>
    if c.readCallback then
      let c := { c with readCallback := false }
      match (t.store pointer c).handleReadResult pb service pointer c result with
      | some (t, true) => t.doReadLoop pb service pointer rest
      | some (t, false) => some t
      | none => none
    else none

def onWriteCompleted (t : RpcThread) (pointer : Nat) (rv : Int) (writes : List Int) : Option RpcThread :=
  (t.heap pointer).bind fun c =>
    if c.writeCallback then t.afterWrite pointer (c.onWriteCompleted rv writes) else none

def newConnection (t : RpcThread) (peer : String) : RpcThread :=
  { t.store t.nextPointer (.new t.lastId peer) with
    lastId := t.lastId + 1
    nextPointer := t.nextPointer + 1
    idToConnection := t.idToConnection.insert t.lastId t.nextPointer }

def handleAcceptResult (t : RpcThread) (peer : String) (reads : List ReadResult) (writes : List Int) :
    Option RpcThread :=
  ((t.newConnection peer).doReadLoop pb service t.nextPointer reads).bind fun u =>
    u.onConnect pb service t.lastId t.nextPointer writes

/-- The body of `GetSlavesStatus` for the entries from the iterator on. Where a stub call closes its
    connection, the iterator is invalid when it is advanced. -/
def getSlavesStatus (writes : Int → List Int) : List (Int × Nat) → RpcThread → Option RpcThread
  | [], t => some t
  | (id, pointer) :: rest, t =>
    (t.callStub pb service pointer .getStatus service.statusRequest
      (some (.onSlaveStatusUpdate id)) (writes id)).bind fun t =>
        if t.connections.contains id then getSlavesStatus writes rest t else none

def startCommandRemotely (t : RpcThread) (connectionId : Int) (paths : List String)
    (rspfileName rspfileContent : String) (edgeId : UInt32) (writes : List Int) : Option RpcThread :=
  let request : RunCommandRequest :=
    ⟨edgeId, paths, if rspfileName.isEmpty then none else some (rspfileName, rspfileContent)⟩
  (t.connections.find? connectionId).bind fun pointer =>
    t.callStub pb service pointer .runCommand (service.runCommandRequest request)
      (some (.onRemoteCommandDone connectionId)) writes

def quitSlave (t : RpcThread) (connectionId : Int) (reason : String) (writes : List Int) :
    Option RpcThread :=
  (t.connections.find? connectionId).bind fun pointer =>
    t.callStub pb service pointer .quit (service.quitRequest reason) none writes

def runRequest (t : RpcThread) (writes : List Int) : RpcRequest → Option RpcThread
  | .startCommandRemotely connectionId paths rspfileName rspfileContent edgeId =>
    t.startCommandRemotely pb service connectionId paths rspfileName rspfileContent edgeId writes
  | .quitSlave connectionId reason => t.quitSlave pb service connectionId reason writes

def deleteConnection (t : RpcThread) (pointer : Nat) : Option RpcThread :=
  (t.heap pointer).map fun _ => { t with heap := Function.update t.heap pointer none }

def runTask (t : RpcThread) (writes : List Int) : Option RpcThread :=
  match t.queue with
  | [] => none
  | .request request :: rest => runRequest pb service { t with queue := rest } writes request
  | .deleteSoon pointer :: rest => deleteConnection { t with queue := rest } pointer

end RpcThread

inductive RpcEvent where
  | accepted (peer : String) (reads : List ReadResult) (writes : List Int)
  | readCompleted (pointer : Nat) (result : ReadResult) (rest : List ReadResult)
  | writeCompleted (pointer : Nat) (rv : Int) (writes : List Int)
  | timerFired (writes : Int → List Int)
  | taskRun (writes : List Int)
  | taskPosted (request : RpcRequest)

/-- One task of the RPC thread; `none` when it cannot happen or the process does not survive it. -/
def RpcThread.step (pb : Protobuf) (service : SlaveService) (t : RpcThread) : RpcEvent → Option RpcThread
  | .accepted peer reads writes => t.handleAcceptResult pb service peer reads writes
  | .readCompleted pointer result rest => t.onReadCompleted pb service pointer result rest
  | .writeCompleted pointer rv writes => t.onWriteCompleted pointer rv writes
  | .timerFired writes => t.getSlavesStatus pb service writes t.connections.entries
  | .taskRun writes => t.runTask pb service writes
  | .taskPosted request => some { t with queue := t.queue ++ [.request request] }

end DistributedNinja.Master
