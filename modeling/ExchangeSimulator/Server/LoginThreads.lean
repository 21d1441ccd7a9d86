import ExchangeSimulator.Server.Login
import ExchangeSimulator.Server.SessionManager

/-!
# Who closes a descriptor

`TcpSocket` closes its descriptor when it is destroyed, and it can be moved and
released. `TcpServer::start` constructs one for each accepted connection and moves
it into the closure of a detached thread, which moves it on into the parameter of
the login handler; the handler of `thread_accept.cpp` returns early, and then the
socket closes on destruction, or it adds the descriptor to the epoll set and
releases it, and then the epoll thread closes it, in one of two callbacks: the one for
data takes the descriptor out of the interest list before it removes the session, the
one for a disconnect does not. The accept loop, the handlers and the epoll thread take
their steps in any order, and the kernel may give the number of a closed descriptor to
the next connection. Connections are numbered as they are accepted, so that a number of
the kernel can be told from the connection it stood for. What is sent and received
after the login is the subject of the pipeline.
-/

namespace Exchange

/-- `TcpSocket`, by the descriptor it holds; a negative one stands for none. -/
structure OwnedSocket where
  /-- `mFd`. -/
  mFd : Fd
deriving DecidableEq, Repr

namespace OwnedSocket

/-- `TcpSocket(TcpSocket&& other)`: the new object and the other one afterwards. -/
def move (other : OwnedSocket) : OwnedSocket × OwnedSocket := (⟨other.mFd⟩, ⟨-1⟩)

/-- `release`. -/
def release (_ : OwnedSocket) : OwnedSocket := ⟨-1⟩

/-- `~TcpSocket`: the descriptor handed to `::close`, if any. -/
def destroy (socket : OwnedSocket) : Option Fd := if 0 ≤ socket.mFd then some socket.mFd else none

end OwnedSocket

/-- How far the login handler of a connection has come. -/
inductive LoginPoint where
  /-- The object is in the accept loop. -/
  | accepted
  /-- It has been moved into the closure of the thread. -/
  | spawned
  /-- It has been moved into the parameter, and the login is not read yet. -/
  | entered
  /-- The login was refused. -/
  | refused
  /-- The login was read. -/
  | loggedIn (traderId : TraderId)
  /-- The response has been sent. -/
  | answered (traderId : TraderId)
  /-- `sessions.add` has returned. -/
  | registered (traderId : TraderId)
  /-- `epoll.add` has returned. -/
  | watched (traderId : TraderId)
  /-- `client.release()` has returned. -/
  | released (traderId : TraderId)
  /-- The parameter has been destroyed. -/
  | left
  /-- The closure has been destroyed. -/
  | finished
deriving DecidableEq, Repr

/-- A connection with the objects that were made for it. -/
structure LoginThread where
  /-- What `accept` returned. -/
  fd : Fd
  /-- Where the handler stands. -/
  point : LoginPoint
  /-- `client` of the accept loop. -/
  client : Option OwnedSocket
  /-- `sock` of the closure. -/
  sock : Option OwnedSocket
  /-- `client` of the handler. -/
  param : Option OwnedSocket
deriving DecidableEq, Repr

/-- How far the epoll thread has come with a client that is gone, with its descriptor and its
connection. -/
inductive Ending where
  /-- `epoll.remove` of the data callback has returned. -/
  | unwatched (fd : Fd) (connection : Nat)
  /-- `sessions.remove` of either callback has returned. -/
  | removed (fd : Fd) (connection : Nat)
deriving DecidableEq, Repr

/-- The descriptor and the connection. -/
def Ending.about : Ending → Fd × Nat
  | .unwatched fd connection | .removed fd connection => (fd, connection)

/-- The threads and the descriptors they share. -/
structure LoginThreads where
  /-- The connection behind each open descriptor. -/
  kernel : Fd → Option Nat
  /-- The connections accepted so far. -/
  threads : Nat → Option LoginThread
  /-- How many there are. -/
  count : Nat
  /-- The accept loop is in the iteration of this connection. -/
  accepting : Option Nat
  /-- The session manager. -/
  sessions : SessionManager
  /-- The interest list of epoll. -/
  interest : Fd → Bool
  /-- The client that the epoll thread takes out. -/
  ending : Option Ending

namespace LoginThreads

/-- The descriptor that the epoll thread is about to close, with its connection. -/
def closing (state : LoginThreads) : Option (Fd × Nat) := state.ending.map Ending.about

/-- Nothing is open. -/
def new : LoginThreads :=
  ⟨fun _ => none, fun _ => none, 0, none, SessionManager.new, fun _ => false, none⟩

/-- A step of one of the threads. -/
inductive Event where
  /-- `accept` returns a descriptor, and `client` is constructed from it. -/
  | accept (fd : Fd)
  /-- The thread is made, with `client` moved into its closure. -/
  | spawn
  /-- The iteration ends, and `client` is destroyed. -/
  | iterate
  /-- The thread calls the handler with `sock` moved into its parameter. -/
  | enter (connection : Nat)
  /-- `recvRaw` returns these bytes, none for `n <= 0`. -/
  | login (connection : Nat) (received : List UInt8)
  /-- The response is sent. -/
  | respond (connection : Nat)
  /-- `sessions.add`. -/
  | register (connection : Nat)
  /-- `epoll.add`. -/
  | watch (connection : Nat)
  /-- `client.release()`. -/
  | release (connection : Nat)
  /-- The handler returns, and its parameter is destroyed. -/
  | leave (connection : Nat)
  /-- The thread ends, and its closure is destroyed. -/
  | finish (connection : Nat)
  /-- The data callback finds that the client is gone: `epoll.remove`. -/
  | unwatch (fd : Fd)
  /-- It goes on: `sessions.remove`. -/
  | hangup
  /-- The disconnect callback, which begins with `sessions.remove`. -/
  | disconnect (fd : Fd)
  /-- The callback closes the descriptor. -/
  | close
deriving DecidableEq, Repr

/-- A call of `::close`. -/
structure Closed where
  /-- The connection it is made for. -/
  meant : Nat
  /-- The connection that is closed, none for `EBADF`. -/
  found : Option Nat
deriving DecidableEq, Repr

/-- Change a connection. -/
def put (state : LoginThreads) (connection : Nat) (thread : LoginThread) : LoginThreads :=
  { state with threads := Function.update state.threads connection (some thread) }

/-- `::close`, which also takes the descriptor out of the interest list. -/
def closeFd (state : LoginThreads) (fd : Fd) (meant : Nat) : LoginThreads × Option Closed :=
  ({ state with
    kernel := Function.update state.kernel fd none
    interest := Function.update state.interest fd false }, some ⟨meant, state.kernel fd⟩)

/-- Destroy an object of a connection, if there is one. -/
def destroy (state : LoginThreads) (meant : Nat) (socket : Option OwnedSocket) :
    LoginThreads × Option Closed :=
  match socket.bind OwnedSocket.destroy with
  | some fd => state.closeFd fd meant
  | none => (state, none)

/-- A step of the handler of a connection that closes nothing. -/
def advance (state : LoginThreads) (connection : Nat)
    (next : LoginThread → Option (LoginThreads × LoginThread)) :
    Option (LoginThreads × Option Closed) := do
  let thread ← state.threads connection
  let (state, thread) ← next thread
  some (state.put connection thread, none)

/-- One step, with the call of `::close` that it makes. -/
def step (state : LoginThreads) : Event → Option (LoginThreads × Option Closed)
  | .accept fd =>
    if state.accepting = none ∧ 0 ≤ fd ∧ state.kernel fd = none then
      some ({ state with
        kernel := Function.update state.kernel fd (some state.count)
        threads := Function.update state.threads state.count
          (some ⟨fd, .accepted, some ⟨fd⟩, none, none⟩)
        count := state.count + 1
        accepting := some state.count }, none)
    else none
  | .spawn => do
    let connection ← state.accepting
    state.advance connection fun thread =>
      match thread.point, thread.client with
      | .accepted, some client =>
        some (state, { thread with
          point := .spawned
          client := some client.move.2
          sock := some client.move.1 })
      | _, _ => none
  | .iterate => do
    let connection ← state.accepting
    let thread ← state.threads connection
    if thread.point = .accepted then none
    else
      let (state, closed) := state.destroy connection thread.client
      some ({ state.put connection { thread with client := none } with accepting := none }, closed)
  | .enter connection => state.advance connection fun thread =>
    match thread.point, thread.sock with
    | .spawned, some sock =>
      some (state, { thread with
        point := .entered
        sock := some sock.move.2
        param := some sock.move.1 })
    | _, _ => none
  | .login connection received => state.advance connection fun thread =>
    match thread.point with
    | .entered =>
      match readLogin received with
      | none => some (state, { thread with point := .refused })
      | some traderId => some (state, { thread with point := .loggedIn traderId })
    | _ => none
  | .respond connection => state.advance connection fun thread =>
    match thread.point with
    | .loggedIn traderId => some (state, { thread with point := .answered traderId })
    | _ => none
  | .register connection => state.advance connection fun thread =>
    match thread.point, thread.param with
    | .answered traderId, some param =>
      some ({ state with sessions := state.sessions.add param.mFd traderId },
        { thread with point := .registered traderId })
    | _, _ => none
  | .watch connection => state.advance connection fun thread =>
    match thread.point, thread.param with
    | .registered traderId, some param =>
      some ({ state with interest := Function.update state.interest param.mFd true },
        { thread with point := .watched traderId })
    | _, _ => none
  | .release connection => state.advance connection fun thread =>
    match thread.point, thread.param with
    | .watched traderId, some param =>
      some (state, { thread with point := .released traderId, param := some param.release })
    | _, _ => none
  | .leave connection => do
    let thread ← state.threads connection
    match thread.point with
    | .refused | .released _ =>
      let (state, closed) := state.destroy connection thread.param
      some (state.put connection { thread with point := .left, param := none }, closed)
    | _ => none
  | .finish connection => do
    let thread ← state.threads connection
    match thread.point with
    | .left =>
      let (state, closed) := state.destroy connection thread.sock
      some (state.put connection { thread with point := .finished, sock := none }, closed)
    | _ => none
  | .unwatch fd =>
    match state.ending, state.interest fd, state.kernel fd with
    | none, true, some connection =>
      some ({ state with
        interest := Function.update state.interest fd false
        ending := some (.unwatched fd connection) }, none)
    | _, _, _ => none
  | .hangup =>
    match state.ending with
    | some (.unwatched fd connection) =>
      some ({ state with
        sessions := state.sessions.remove fd
        ending := some (.removed fd connection) }, none)
    | _ => none
  | .disconnect fd =>
    match state.ending, state.interest fd, state.kernel fd with
    | none, true, some connection =>
      some ({ state with
        sessions := state.sessions.remove fd
        ending := some (.removed fd connection) }, none)
    | _, _, _ => none
  | .close =>
    match state.ending with
    | some (.removed fd connection) =>
      let (state, closed) := state.closeFd fd connection
      some ({ state with ending := none }, closed)
    | _ => none

end LoginThreads

end Exchange
