import ExchangeSimulator.Net.TcpSocket
import ExchangeSimulator.Server.SessionManager

/-!
# The event queue

`epoll_mgr.cpp` over the kernel's side of the connections. A descriptor is
watched for input with `EPOLLET`: the kernel puts it on the ready list when it is
added with something to report and whenever something more happens to it, and
`epoll_wait` takes it off the list. A descriptor that is off the list is not
reported again until more arrives, whatever is still unread.
-/

namespace Exchange

/-- The kernel's side of a connection. -/
structure Socket where
  /-- The bytes that have arrived and have not been received. -/
  unread : List UInt8
  /-- What `recv` comes to after them; `waiting` is `EAGAIN` on a non-blocking descriptor. -/
  last : StreamEnd
  /-- It is in the interest list. -/
  watched : Bool
  /-- It is on the ready list. -/
  ready : Bool
deriving DecidableEq, Repr

namespace Socket

/-- A connection on which nothing has arrived after the login. -/
def new : Socket := ⟨[], .waiting, false, false⟩

/-- There is something to report. -/
def Readable (socket : Socket) : Prop := socket.unread ≠ [] ∨ socket.last ≠ .waiting

/-- Whether there is can be decided. -/
instance (socket : Socket) : Decidable socket.Readable :=
  inferInstanceAs (Decidable (_ ∨ _))

/-- More bytes arrive. -/
def arrive (socket : Socket) (bytes : List UInt8) : Socket :=
  { socket with unread := socket.unread ++ bytes, ready := socket.ready || socket.watched }

/-- The other side closes or resets the connection. -/
def finish (socket : Socket) (last : StreamEnd) : Socket :=
  { socket with last := last, ready := socket.ready || socket.watched }

/-- `recv` returns so many bytes. -/
def take (socket : Socket) (count : Nat) : Socket :=
  { socket with unread := socket.unread.drop count }

end Socket

/-- An entry of `events`. -/
structure EpollEvent where
  /-- `data.fd`. -/
  fd : Fd
  /-- `events & (EPOLLHUP | EPOLLERR)`; without it `EPOLLIN` is set. -/
  failed : Bool
deriving DecidableEq, Repr

/-- `EpollMgr`, with the open connections. -/
structure EpollMgr where
  /-- The connection behind each open descriptor. -/
  sockets : Fd → Option Socket

namespace EpollMgr

/-- `MAX_EVENTS`. -/
def MAX_EVENTS : Nat := 64

/-- Nothing is open. -/
def new : EpollMgr := ⟨fun _ => none⟩

/-- The kernel changes one connection. -/
def set (epoll : EpollMgr) (fd : Fd) (socket : Option Socket) : EpollMgr :=
  ⟨Function.update epoll.sockets fd socket⟩

/-- `add`: watch for input, edge-triggered. -/
def add (epoll : EpollMgr) (fd : Fd) : EpollMgr :=
  match epoll.sockets fd with
  | some socket =>
    epoll.set fd (some { socket with watched := true, ready := decide socket.Readable })
  | none => epoll

/-- `remove`. -/
def remove (epoll : EpollMgr) (fd : Fd) : EpollMgr :=
  match epoll.sockets fd with
  | some socket => epoll.set fd (some { socket with watched := false, ready := false })
  | none => epoll

/-- `::close`, which also takes the descriptor out of the interest list. -/
def close (epoll : EpollMgr) (fd : Fd) : EpollMgr := epoll.set fd none

/-- Take a descriptor off the ready list, with the event reported for it. -/
def report (epoll : EpollMgr) (fd : Fd) : Option (EpollMgr × EpollEvent) :=
  match epoll.sockets fd with
  | some socket =>
    if socket.watched ∧ socket.ready then
      some (epoll.set fd (some { socket with ready := false }), ⟨fd, socket.last = .failed⟩)
    else none
  | none => none

/-- `epoll_wait`: some ready descriptors in the kernel's order; none at the timeout. -/
def reportAll : EpollMgr → List Fd → Option (EpollMgr × List EpollEvent)
  | epoll, [] => some (epoll, [])
  | epoll, fd :: fds => do
    let (epoll, event) ← epoll.report fd
    let (epoll, events) ← reportAll epoll fds
    some (epoll, event :: events)

/-- `epoll_wait(epollFd, events, MAX_EVENTS, 100)`. -/
def wait (epoll : EpollMgr) (fds : List Fd) : Option (EpollMgr × List EpollEvent) :=
  if fds.length ≤ MAX_EVENTS then epoll.reportAll fds else none

end EpollMgr

end Exchange
