import ExchangeSimulator.Server.SessionManager

/-!
# Descriptors between the threads

The steps of `thread_accept.cpp`, `thread_epoll.cpp` and `thread_matching.cpp`
that open, register, look up, use and close descriptors. A login handler runs in
a thread of its own for each accepted connection; the epoll thread removes a
session and then closes its descriptor; the matching thread looks a descriptor
up and later sends on it. Each call of the session manager is one step under its
mutex. The kernel may give any number that is not open to a new connection.
-/

namespace Exchange

/-- How far a connection has come, with the trader it logged in as. -/
inductive Stage where
  /-- `accept` has returned, the login is not read yet. -/
  | accepted
  /-- The login request has been read. -/
  | loggedIn (traderId : TraderId)
  /-- The login response has been sent. -/
  | answered (traderId : TraderId)
  /-- `SessionManager::add` has returned. -/
  | registered (traderId : TraderId)
  /-- `EpollMgr::add` has returned. -/
  | watched (traderId : TraderId)
deriving DecidableEq, Repr

/-- The trader a connection logged in as. -/
def Stage.login : Stage → Option TraderId
  | .accepted => none
  | .loggedIn traderId | .answered traderId | .registered traderId | .watched traderId =>
    some traderId

/-- The open descriptors, the session manager and what the two long-running threads hold. -/
structure Connections where
  /-- The connection behind each open descriptor. -/
  open_ : Fd → Option Stage
  /-- The shared session manager. -/
  sessions : SessionManager
  /-- The descriptor the epoll thread is about to close. -/
  closing : Option Fd
  /-- The trader of a confirm and the descriptor the matching thread is about to send it on. -/
  sending : Option (TraderId × Fd)

namespace Connections

/-- Nothing is open. -/
def new : Connections := ⟨fun _ => none, SessionManager.new, none, none⟩

/-- A step of one of the threads. -/
inductive Event where
  /-- `accept` returns a descriptor and a handler is spawned. -/
  | accept (fd : Fd)
  /-- The handler reads a login request. -/
  | login (fd : Fd) (traderId : TraderId)
  /-- The handler reads something else, and the socket closes on destruction. -/
  | refuse (fd : Fd)
  /-- The handler sends the login response. -/
  | respond (fd : Fd)
  /-- The handler registers the session. -/
  | register (fd : Fd)
  /-- The handler adds the descriptor to the epoll set and releases it. -/
  | watch (fd : Fd)
  /-- The epoll thread removes the session of a disconnected client. -/
  | remove (fd : Fd)
  /-- The epoll thread closes the descriptor whose session it removed. -/
  | close
  /-- The matching thread looks up where to send a confirm. -/
  | lookup (traderId : TraderId)
  /-- The matching thread sends. -/
  | send
deriving DecidableEq, Repr

/-- A confirm written to a descriptor. -/
structure Sent where
  /-- The trader the confirm is for. -/
  traderId : TraderId
  /-- The connection behind the descriptor, if it is open. -/
  receiver : Option Stage
deriving DecidableEq, Repr

/-- One step, with the confirm it sends. -/
def step (state : Connections) : Event → Option (Connections × Option Sent)
  | .accept fd =>
    if 0 ≤ fd ∧ state.open_ fd = none then
      some ({ state with open_ := Function.update state.open_ fd (some .accepted) }, none)
    else none
  | .login fd traderId =>
    match state.open_ fd with
    | some .accepted =>
      some ({ state with open_ := Function.update state.open_ fd (some (.loggedIn traderId)) },
        none)
    | _ => none
  | .refuse fd =>
    match state.open_ fd with
    | some .accepted => some ({ state with open_ := Function.update state.open_ fd none }, none)
    | _ => none
  | .respond fd =>
    match state.open_ fd with
    | some (.loggedIn traderId) =>
      some ({ state with open_ := Function.update state.open_ fd (some (.answered traderId)) },
        none)
    | _ => none
  | .register fd =>
    match state.open_ fd with
    | some (.answered traderId) =>
      some ({ state with
        open_ := Function.update state.open_ fd (some (.registered traderId))
        sessions := state.sessions.add fd traderId }, none)
    | _ => none
  | .watch fd =>
    match state.open_ fd with
    | some (.registered traderId) =>
      some ({ state with open_ := Function.update state.open_ fd (some (.watched traderId)) },
        none)
    | _ => none
  | .remove fd =>
    match state.closing, state.open_ fd with
    | none, some (.watched _) =>
      some ({ state with sessions := state.sessions.remove fd, closing := some fd }, none)
    | _, _ => none
  | .close =>
    match state.closing with
    | some fd =>
      some ({ state with open_ := Function.update state.open_ fd none, closing := none }, none)
    | none => none
  | .lookup traderId =>
    match state.sending with
    | none =>
      let fd := state.sessions.getFd traderId
      -- `if (fd < 0) continue`
      if fd < 0 then some (state, none)
      else some ({ state with sending := some (traderId, fd) }, none)
    | some _ => none
  | .send =>
    match state.sending with
    | some (traderId, fd) =>
      some ({ state with sending := none }, some ⟨traderId, state.open_ fd⟩)
    | none => none

end Connections

end Exchange
