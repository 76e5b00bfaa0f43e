import DistributedNinja.Net.TCPClientSocket

namespace DistributedNinja.Net

namespace NetError

def failed : Int := -2
def aborted : Int := -3
def invalidArgument : Int := -4
def invalidHandle : Int := -5
def fileNotFound : Int := -6
def timedOut : Int := -7
def fileTooBig : Int := -8
def accessDenied : Int := -10
def notImplemented : Int := -11
def insufficientResources : Int := -12
def outOfMemory : Int := -13
def socketNotConnected : Int := -15
def fileExists : Int := -16
def filePathTooLong : Int := -17
def fileNoSpace : Int := -18
def socketIsConnected : Int := -23
def connectionReset : Int := -101
def connectionRefused : Int := -102
def connectionAborted : Int := -103
def connectionFailed : Int := -104
def internetDisconnected : Int := -106
def addressInvalid : Int := -108
def addressUnreachable : Int := -109
def connectionTimedOut : Int := -118
def networkAccessDenied : Int := -138
def msgTooBig : Int := -142
def addressInUse : Int := -147

end NetError

/-- The values of `errno` that the source names; `success` is 0. On Linux `EWOULDBLOCK` is `EAGAIN`. -/
inductive SystemError where
  | success
  | eagain
  | eacces
  | enetdown
  | etimedout
  | econnreset
  | enetreset
  | epipe
  | econnaborted
  | econnrefused
  | ehostunreach
  | ehostdown
  | enetunreach
  | eafnosupport
  | eaddrnotavail
  | emsgsize
  | enotconn
  | eisconn
  | einval
  | eaddrinuse
  | e2big
  | ebadf
  | ebusy
  | ecanceled
  | edeadlk
  | edquot
  | eexist
  | efault
  | efbig
  | eisdir
  | enametoolong
  | enfile
  | enobufs
  | enodev
  | enoent
  | enolck
  | enomem
  | enospc
  | enosys
  | enotdir
  | enotsup
  | eperm
  | erofs
  | etxtbsy
  | eusers
  | emfile
  | einprogress
  | other
  deriving DecidableEq

def mapSystemError : SystemError → Int
  | .eagain => NetError.ioPending
  | .eacces => NetError.accessDenied
  | .enetdown => NetError.internetDisconnected
  | .etimedout => NetError.timedOut
  | .econnreset | .enetreset | .epipe => NetError.connectionReset
  | .econnaborted => NetError.connectionAborted
  | .econnrefused => NetError.connectionRefused
  | .ehostunreach | .ehostdown | .enetunreach | .eafnosupport => NetError.addressUnreachable
  | .eaddrnotavail => NetError.addressInvalid
  | .emsgsize => NetError.msgTooBig
  | .enotconn => NetError.socketNotConnected
  | .eisconn => NetError.socketIsConnected
  | .einval => NetError.invalidArgument
  | .eaddrinuse => NetError.addressInUse
  | .e2big => NetError.invalidArgument
  | .ebadf => NetError.invalidHandle
  | .ebusy => NetError.insufficientResources
  | .ecanceled => NetError.aborted
  | .edeadlk => NetError.insufficientResources
  | .edquot => NetError.fileNoSpace
  | .eexist => NetError.fileExists
  | .efault => NetError.invalidArgument
  | .efbig => NetError.fileTooBig
  | .eisdir => NetError.accessDenied
  | .enametoolong => NetError.filePathTooLong
  | .enfile => NetError.insufficientResources
  | .enobufs => NetError.outOfMemory
  | .enodev => NetError.invalidArgument
  | .enoent => NetError.fileNotFound
  | .enolck => NetError.insufficientResources
  | .enomem => NetError.outOfMemory
  | .enospc => NetError.fileNoSpace
  | .enosys => NetError.notImplemented
  | .enotdir => NetError.fileNotFound
  | .enotsup => NetError.notImplemented
  | .eperm | .erofs | .etxtbsy => NetError.accessDenied
  | .eusers | .emfile => NetError.insufficientResources
  | .success => NetError.ok
  | .einprogress | .other => NetError.failed

def mapAcceptError : SystemError → Int
  | .econnaborted => NetError.ioPending
  | error => mapSystemError error

def mapConnectError : SystemError → Int
  | .einprogress => NetError.ioPending
  | .eacces => NetError.networkAccessDenied
  | .etimedout => NetError.connectionTimedOut
  | error =>
    let netError := mapSystemError error
    if netError = NetError.failed then NetError.connectionFailed else netError

theorem mapSystemError_eq_ioPending (error : SystemError) :
    mapSystemError error = NetError.ioPending ↔ error = .eagain := by
  cases error <;> decide

theorem mapSystemError_eq_ok {error : SystemError} : mapSystemError error = NetError.ok ↔ error = .success := by
  cases error <;> decide

theorem mapSystemError_nonpos (error : SystemError) : mapSystemError error ≤ 0 := by
  cases error <;> decide

end DistributedNinja.Net
