import ExchangeSimulator.Client.Terminal
import ExchangeSimulator.Server.EpollThread
import ExchangeSimulator.Server.MatchingThread
import ExchangeSimulator.Server.Sender
import ExchangeSimulator.Server.SessionManager

/-!
# Clients and exchange together

The closed loop: traders type lines, the clients send requests, the matching
thread takes up the requests of the connections in some order, sends confirms to
the descriptor of their trader and updates to every registered descriptor, and the
clients' receive threads enter the identifiers of confirmed orders in the map from
which the next lines are served. The threads take their steps in any order, and
clients join at any time. A request counts as sent once it is in the stream of its
connection; the queue and the framing in between are the subject of the pipeline.
Here the clients stay connected and the kernel takes every message whole, so a send
appends the bytes of its struct to what the client has yet to receive. A line that
ends a client sends nothing; its disconnection is left out like every other one, so
here such a client may type on. An update goes
to all registered descriptors in one step: the calls for the single descriptors touch
different connections, so their order cannot be told.
-/

namespace Exchange

/-- A client and its connection. -/
structure Desk where
  /-- The trader that logged in. -/
  traderId : TraderId
  /-- The requests in its stream that the matching thread has not taken up. -/
  requests : List RequestMsg
  /-- The receive thread with the bytes it has yet to receive. -/
  client : Client

/-- The bytes of a message are on their way to a client. -/
def Desk.post (desk : Desk) (event : ServerEvent) : Desk :=
  { desk with client := { desk.client with
      sock := { desk.client.sock with pending := desk.client.sock.pending ++ event.bytes } } }

/-- The clients and what the exchange shares with them. -/
structure Trading where
  /-- The client behind each open descriptor. -/
  desks : Fd → Option Desk
  /-- The session manager. -/
  sessions : SessionManager
  /-- The matching thread between two requests. -/
  thread : MatchingThread
  /-- What it has yet to send for the last request. -/
  sending : List ServerEvent

namespace Trading

/-- Nobody is connected. -/
def new : Trading := ⟨fun _ => none, SessionManager.new, MatchingThread.new, []⟩

/-- What happens next. -/
inductive Event where
  /-- A client connects, logs in and reads the response. -/
  | login (fd : Fd) (traderId : TraderId)
  /-- The login handler calls `sessions.add`. -/
  | register (fd : Fd)
  /-- A line is typed. -/
  | enter (fd : Fd) (line : List Char)
  /-- The matching thread takes up the next request of a connection. -/
  | serve (fd : Fd) (now : Timestamp)
  /-- The matching thread makes its next send. -/
  | send
  /-- The receive thread of a client makes its next iteration; so many bytes have arrived at each
  call, and the array holds this. -/
  | receive (fd : Fd) (arrivals : List Nat) (body : Body)
deriving DecidableEq, Repr

/-- What is seen of a step. -/
inductive Report where
  /-- Nothing. -/
  | nothing
  /-- A session is registered. -/
  | registered (fd : Fd)
  /-- The engine has dealt with a request. -/
  | served (req : OrderRequest) (out : Outputs)
  /-- A confirm or an update has been sent, or has no addressee. -/
  | sent (event : ServerEvent)
deriving DecidableEq, Repr

/-- Change a client. -/
def seat (state : Trading) (fd : Fd) (desk : Desk) : Trading :=
  { state with desks := Function.update state.desks fd (some desk) }

/-- What the two send loops send for a request, in order. -/
def eventsOf (out : Outputs) : List ServerEvent :=
  out.confirmsOut.map ServerEvent.ofConfirm ++ out.mdOut.map ServerEvent.ofUpdate

/-- The descriptors that a message goes to: that of its trader, if there is one, or all. -/
def Goes (sessions : SessionManager) (event : ServerEvent) (fd : Fd) : Prop :=
  match event with
  | .ofConfirm confirm =>
    ¬sessions.getFd confirm.traderId < 0 ∧ fd = sessions.getFd confirm.traderId
  | .ofUpdate _ => (sessions.getSession fd).isSome

instance (sessions : SessionManager) (event : ServerEvent) (fd : Fd) :
    Decidable (Goes sessions event fd) :=
  match event with
  | .ofConfirm confirm => inferInstanceAs (Decidable (¬sessions.getFd confirm.traderId < 0 ∧
      fd = sessions.getFd confirm.traderId))
  | .ofUpdate _ => inferInstanceAs (Decidable ((sessions.getSession fd).isSome = true))

/-- One step. -/
def step (state : Trading) : Event → Option (Trading × Report)
  | .login fd traderId =>
    if 0 ≤ fd ∧ (state.desks fd).isNone then
      some (state.seat fd ⟨traderId, [], Client.new ⟨[], [], .waiting⟩⟩, .nothing)
    else none
  | .register fd =>
    match state.desks fd with
    | some desk =>
      if (state.sessions.getSession fd).isNone then
        some ({ state with sessions := state.sessions.add fd desk.traderId }, .registered fd)
      else none
    | none => none
  | .enter fd line =>
    match state.desks fd with
    | some desk =>
      match (typeLine desk.client.internalToExchange line).sent with
      | some msg =>
        some (state.seat fd { desk with requests := desk.requests ++ [msg] }, .nothing)
      | none => some (state, .nothing)
    | none => none
  | .serve fd now =>
    match state.sending, state.desks fd, state.sessions.getSession fd with
    | [], some desk, some session =>
      match desk.requests with
      | [] => none
      | msg :: later =>
        match framePass { session with recvBuffer := msg.bytes } with
        | some (some raw, _) => do
          let (thread, handled) ← state.thread.step (raw, now)
          let state := { state.seat fd { desk with requests := later } with thread := thread }
          match handled with
          | none => some (state, .nothing)
          | some (req, out) => some ({ state with sending := eventsOf out }, .served req out)
        | _ => none
    | _, _, _ => none
  | .send =>
    match state.sending with
    | [] => none
    | event :: later =>
      some ({ state with
        desks := fun fd =>
          if Goes state.sessions event fd then (state.desks fd).map (Desk.post · event)
          else state.desks fd
        sending := later }, .sent event)
  | .receive fd arrivals body =>
    match state.desks fd with
    | some desk =>
      if desk.client.sock.pending = [] then none
      else do
        let sock := { desk.client.sock with arrivals := arrivals }
        let (client, _) ← { desk.client with sock := sock }.iterate body
        some (state.seat fd { desk with client := client }, .nothing)
    | none => none

end Trading

end Exchange
