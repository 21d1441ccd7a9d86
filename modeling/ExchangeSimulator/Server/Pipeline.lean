import ExchangeSimulator.Containers.SpscQueue
import ExchangeSimulator.Net.EpollMgr
import ExchangeSimulator.Server.EpollThread

/-!
# From the network to the matching thread

The threads of `main.cpp` that move requests, step by step: the login handlers of
`thread_accept.cpp` register a session and then watch its descriptor; the epoll
thread runs `EpollMgr::run` with the callbacks of `thread_epoll.cpp`; the matching
thread pops. Bytes arrive at any time. A step is a call on the session manager or
the kernel, a pass of the framing loop, or an atomic step of the queue, and the
threads take their steps in any order. `push` spins until its `try_push` succeeds.
A callback that has removed its own session goes on to use it, and has no step
from there. What the matching thread does with a popped message concerns none of
this, so a popped message is a report.
-/

namespace Exchange

/-- A zeroed envelope, as the slots of the queue start out. -/
instance : Inhabited RawMessage :=
  ⟨{ traderId := 0
     length := 0
     data := List.replicate MAX_RAW_MSG_SIZE 0
     sized := List.length_replicate }⟩

/-- The capacity of `SPSCQueue<RawMessage, 65536>`. -/
def rawCapacity : Capacity := ⟨65536, by decide, by decide⟩

/-- Where a login handler is after it has sent its response. -/
inductive Handler where
  /-- Before `sessions.add`. -/
  | answered (traderId : TraderId)
  /-- Before `epoll.add`. -/
  | registered (traderId : TraderId)
deriving DecidableEq, Repr

/-- Where the epoll thread is. -/
inductive Point where
  /-- At the head of `for (int i = 0; i < n; ++i)`. -/
  | looping
  /-- In the `recv` loop of the data callback. -/
  | reading (fd : Fd)
  /-- At the head of the framing loop. -/
  | framing (fd : Fd)
  /-- In `rawQueue.push(raw)`, with what the buffer is about to keep. -/
  | pushing (fd : Fd) (raw : RawMessage) (rest : List UInt8)
  /-- At the head of the framing loop, with a pointer to a removed session. -/
  | dangling
deriving DecidableEq, Repr

/-- The threads and what they share. -/
structure Pipeline where
  /-- The login handlers that are running. -/
  handlers : Fd → Option Handler
  /-- The event queue and the connections. -/
  epoll : EpollMgr
  /-- The session manager. -/
  sessions : SessionManager
  /-- Where the epoll thread is. -/
  point : Point
  /-- The events of this round that it has not handled yet. -/
  events : List EpollEvent
  /-- `rawQueue` with the calls on it. -/
  queue : SPSCQueue.Threads RawMessage rawCapacity

namespace Pipeline

/-- Nothing is connected. -/
def new : Pipeline :=
  ⟨fun _ => none, EpollMgr.new, SessionManager.new, .looping, [], SPSCQueue.Threads.new⟩

/-- What happens next. -/
inductive Event where
  /-- A login has been read and answered on a new connection. -/
  | login (fd : Fd) (traderId : TraderId)
  /-- The handler calls `sessions.add`. -/
  | register (fd : Fd)
  /-- The handler calls `epoll.add` and returns. -/
  | watch (fd : Fd)
  /-- Bytes arrive. -/
  | arrive (fd : Fd) (bytes : List UInt8)
  /-- The other side closes or resets the connection. -/
  | finish (fd : Fd) (last : StreamEnd)
  /-- `epoll_wait` returns. -/
  | wait (fds : List Fd)
  /-- The epoll thread goes on; a `recv` returns at most so many bytes. -/
  | epoll (count : Nat)
  /-- The matching thread goes on. -/
  | matching
deriving DecidableEq, Repr

/-- What is seen of a step. -/
inductive Report where
  /-- Nothing. -/
  | nothing
  /-- A connection is open. -/
  | opened (fd : Fd)
  /-- Bytes have arrived. -/
  | arrived (fd : Fd) (bytes : List UInt8)
  /-- A message is in the queue. -/
  | pushed (fd : Fd) (raw : RawMessage)
  /-- A message has been taken out. -/
  | popped (raw : RawMessage)
deriving DecidableEq, Repr

/-- The next event of the round: `onDisconnect` or the head of the data callback. -/
def dispatch (state : Pipeline) : Option (Pipeline × Report) :=
  match state.events with
  | [] => none
  | event :: events =>
    if event.failed then
      some ({ state with
        sessions := onDisconnect state.sessions event.fd
        epoll := state.epoll.close event.fd
        events := events }, .nothing)
    else
      match state.sessions.getSession event.fd with
      | none => some ({ state with events := events }, .nothing)
      | some _ => some ({ state with point := .reading event.fd, events := events }, .nothing)

/-- One call of `recv` in the data callback. -/
def read (state : Pipeline) (fd : Fd) (count : Nat) : Option (Pipeline × Report) :=
  match state.epoll.sockets fd, state.sessions.getSession fd with
  | some socket, some session =>
    if socket.unread = [] then
      match socket.last with
      | .waiting => some ({ state with point := .framing fd }, .nothing)
      | .closed | .failed =>
        some ({ state with
          epoll := (state.epoll.remove fd).close fd
          sessions := state.sessions.remove fd
          point := .dangling }, .nothing)
    else if 0 < count ∧ count ≤ 4096 then
      some ({ state with
        epoll := state.epoll.set fd (some (socket.take count))
        sessions := state.sessions.setBuffer fd
          (session.recvBuffer ++ socket.unread.take count) }, .nothing)
    else none
  | _, _ => none

/-- One pass of the framing loop, up to the push. -/
def frame (state : Pipeline) (fd : Fd) : Option (Pipeline × Report) :=
  match state.sessions.getSession fd with
  | none => none
  | some session =>
    match framePass session with
    | none => some ({ state with point := .looping }, .nothing)
    | some (none, rest) =>
      some ({ state with sessions := state.sessions.setBuffer fd rest }, .nothing)
    | some (some raw, rest) => some ({ state with point := .pushing fd raw rest }, .nothing)

/-- One atomic step of `push`; the buffer gives up the frame once it is in the queue. -/
def push (state : Pipeline) (fd : Fd) (raw : RawMessage) (rest : List UInt8) :
    Option (Pipeline × Report) := do
  let turn := if state.queue.producer = .idle then .push raw else .producer
  let (queue, completed) ← state.queue.step turn
  match completed with
  | .pushed item =>
    some ({ state with
      queue := queue
      sessions := state.sessions.setBuffer fd rest
      point := .framing fd }, .pushed fd item)
  -- `while (!try_push(item))`
  | _ => some ({ state with queue := queue }, .nothing)

/-- The next step of the epoll thread. -/
def epollStep (state : Pipeline) (count : Nat) : Option (Pipeline × Report) :=
  match state.point with
  | .looping => state.dispatch
  | .reading fd => state.read fd count
  | .framing fd => state.frame fd
  | .pushing fd raw rest => state.push fd raw rest
  | .dangling => none

/-- The next step of the matching thread: `if (!rawQueue.try_pop(raw)) continue`. -/
def matchingStep (state : Pipeline) : Option (Pipeline × Report) := do
  let turn := if state.queue.consumer = .idle then .pop else .consumer
  let (queue, completed) ← state.queue.step turn
  match completed with
  | .popped item => some ({ state with queue := queue }, .popped item)
  | _ => some ({ state with queue := queue }, .nothing)

/-- One step. -/
def step (state : Pipeline) : Event → Option (Pipeline × Report)
  | .login fd traderId =>
    if 0 ≤ fd ∧ state.epoll.sockets fd = none then
      some ({ state with
        handlers := Function.update state.handlers fd (some (.answered traderId))
        epoll := state.epoll.set fd (some Socket.new) }, .opened fd)
    else none
  | .register fd =>
    match state.handlers fd with
    | some (.answered traderId) =>
      some ({ state with
        handlers := Function.update state.handlers fd (some (.registered traderId))
        sessions := state.sessions.add fd traderId }, .nothing)
    | _ => none
  | .watch fd =>
    match state.handlers fd with
    | some (.registered _) =>
      some ({ state with
        handlers := Function.update state.handlers fd none
        epoll := state.epoll.add fd }, .nothing)
    | _ => none
  | .arrive fd bytes =>
    match state.epoll.sockets fd with
    | some socket =>
      if socket.last = .waiting then
        some ({ state with epoll := state.epoll.set fd (some (socket.arrive bytes)) },
          .arrived fd bytes)
      else none
    | none => none
  | .finish fd last =>
    match state.epoll.sockets fd with
    | some socket =>
      if socket.last = .waiting ∧ last ≠ .waiting then
        some ({ state with epoll := state.epoll.set fd (some (socket.finish last)) }, .nothing)
      else none
    | none => none
  | .wait fds =>
    if state.point = .looping ∧ state.events = [] then do
      let (epoll, events) ← state.epoll.wait fds
      some ({ state with epoll := epoll, events := events }, .nothing)
    else none
  | .epoll count => state.epollStep count
  | .matching => state.matchingStep

end Pipeline

end Exchange
