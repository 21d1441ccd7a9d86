import ExchangeSimulator.Core.RawMessage
import ExchangeSimulator.Net.Protocol
import ExchangeSimulator.Server.SessionManager

/-!
# The epoll thread

The two callbacks of `thread_epoll.cpp`. What `recv` returns during a callback is
an input: some chunks of data and then the result that ends the loop. The
callback works through the pointer that `getSession` returned, so each access to
the session reads the session manager, and an access to a session that has been
removed is a fault. `rawQueue.push` returns, so a pushed message is an output.
The framing loop runs for as many passes as it is given.
-/

namespace Exchange

/-- Data returned by one `recv` into `char buf[4096]`. -/
structure Chunk where
  /-- The bytes received. -/
  bytes : List UInt8
  /-- `n > 0`. -/
  positive : 0 < bytes.length
  /-- `sizeof(buf)`. -/
  fits : bytes.length ≤ 4096
deriving DecidableEq, Repr

/-- The `recv` result that ends the loop. -/
inductive RecvEnd where
  /-- `EAGAIN` or `EWOULDBLOCK`. -/
  | again
  /-- The client has closed the connection. -/
  | closed
  /-- Another error. -/
  | failed
deriving DecidableEq, Repr

/-- What goes wrong in a callback. -/
inductive Fault where
  /-- A removed session is read or written. -/
  | removed
  /-- The framing loop has not stopped. -/
  | running
deriving DecidableEq, Repr

/-- The bytes of some chunks. -/
def received (chunks : List Chunk) : List UInt8 := chunks.flatMap Chunk.bytes

/-- The `recv` loop: append each chunk to the session's buffer, drop the session at the end. -/
def recvLoop (fd : Fd) (last : RecvEnd) :
    SessionManager → List Chunk → Except Fault SessionManager
  | sessions, chunk :: chunks =>
    match sessions.getSession fd with
    | none => .error .removed
    | some session =>
      recvLoop fd last (sessions.setBuffer fd (session.recvBuffer ++ chunk.bytes)) chunks
  | sessions, [] =>
    match last with
    | .again => .ok sessions
    | .closed | .failed => .ok (sessions.remove fd)

/-- One pass of the framing loop: nothing if it stops, else what it pushes and what it leaves. -/
def framePass (session : ClientSession) : Option (Option RawMessage × List UInt8) :=
  let buffer := session.recvBuffer
  if buffer.length < MsgHeader.layout.size then none
  else
    let header := MsgHeader.layout.read buffer
    if incomplete : buffer.length < header.length.toNat then none
    else if oversized : MAX_RAW_MSG_SIZE < header.length.toNat then
      some (none, buffer.drop header.length.toNat)
    else
      some (some (.copy session.traderId header.length buffer (Nat.le_of_not_lt incomplete)
        (Nat.le_of_not_lt oversized)), buffer.drop header.length.toNat)

/-- The framing loop: the session manager afterwards and the messages pushed. -/
def frameLoop (fd : Fd) : Nat → SessionManager → Except Fault (SessionManager × List RawMessage)
  | 0, _ => .error .running
  | passes + 1, sessions =>
    match sessions.getSession fd with
    | none => .error .removed
    | some session =>
      match framePass session with
      | none => .ok (sessions, [])
      | some (pushed, rest) => do
        let (sessions, later) ← frameLoop fd passes (sessions.setBuffer fd rest)
        .ok (sessions, pushed.toList ++ later)

/-- The on data callback. -/
def onData (sessions : SessionManager) (fd : Fd) (chunks : List Chunk) (last : RecvEnd) :
    Except Fault (SessionManager × List RawMessage) :=
  match sessions.getSession fd with
  | none => .ok (sessions, [])
  | some session => do
    let sessions ← recvLoop fd last sessions chunks
    -- a loop that has not stopped after this many passes never does
    frameLoop fd ((session.recvBuffer ++ received chunks).length + 1) sessions

/-- The on disconnect callback. -/
def onDisconnect (sessions : SessionManager) (fd : Fd) : SessionManager := sessions.remove fd

/-- A data callback in which `recv` returns only data or `EAGAIN`. -/
structure Callback where
  /-- The readable descriptor. -/
  fd : Fd
  /-- What `recv` returns. -/
  chunks : List Chunk
deriving DecidableEq, Repr

/-- One data callback, with the messages it pushes. -/
def Callback.step (sessions : SessionManager) (callback : Callback) :
    Option (SessionManager × Fd × List RawMessage) :=
  match onData sessions callback.fd callback.chunks .again with
  | .ok (sessions, messages) => some (sessions, callback.fd, messages)
  | .error _ => none

end Exchange
