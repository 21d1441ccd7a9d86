import ExchangeSimulator.Server.Pipeline
import ExchangeSimulator.Server.Trading

/-!
# The whole program

The threads of `main.cpp`, the clients and the network between them, step by step.
What a client sends is a string of bytes that arrives in pieces; the epoll thread
frames it and pushes it through the queue; the matching thread pops a message, has
the engine deal with it and makes its sends one after the other before it pops
again; the clients' receive threads take the bytes back. The clients stay connected,
also after a line that ends them, and the kernel takes every message whole.
-/

namespace Exchange

/-- A client and its connection. -/
structure Link where
  /-- The bytes it has sent that have not arrived. -/
  outgoing : List UInt8
  /-- The receive thread with the bytes it has yet to receive. -/
  client : Client

/-- The bytes of a message are on their way to a client. -/
def Link.post (link : Link) (event : ServerEvent) : Link :=
  { link with client := { link.client with
      sock := { link.client.sock with pending := link.client.sock.pending ++ event.bytes } } }

/-- The clients and the server. -/
structure Program where
  /-- The client behind each open descriptor. -/
  links : Fd → Option Link
  /-- The login handlers, the epoll thread and the queue. -/
  pipeline : Pipeline
  /-- The matching thread between two messages. -/
  thread : MatchingThread
  /-- What it has yet to send for the last message. -/
  sending : List ServerEvent

namespace Program

/-- Nobody is connected. -/
def new : Program := ⟨fun _ => none, Pipeline.new, MatchingThread.new, []⟩

/-- What happens next. -/
inductive Event where
  /-- A client connects, logs in and reads the response. -/
  | login (fd : Fd) (traderId : TraderId)
  /-- The login handler calls `sessions.add`. -/
  | register (fd : Fd)
  /-- The login handler calls `epoll.add` and returns. -/
  | watch (fd : Fd)
  /-- A line is typed. -/
  | enter (fd : Fd) (line : List Char)
  /-- So many more bytes of a client arrive. -/
  | arrive (fd : Fd) (count : Nat)
  /-- `epoll_wait` returns. -/
  | wait (fds : List Fd)
  /-- The epoll thread goes on; a `recv` returns at most so many bytes. -/
  | epoll (count : Nat)
  /-- The matching thread goes on. -/
  | matching (now : Timestamp)
  /-- The receive thread of a client makes its next iteration; so many bytes have arrived at each
  call, and the array holds this. -/
  | receive (fd : Fd) (arrivals : List Nat) (body : Body)
deriving DecidableEq, Repr

/-- Change a client. -/
def connect (state : Program) (fd : Fd) (link : Link) : Program :=
  { state with links := Function.update state.links fd (some link) }

/-- A step of the threads up to the queue. -/
def goesOn (state : Program) (event : Pipeline.Event) (report : Trading.Report) :
    Option (Program × Trading.Report) := do
  let (pipeline, _) ← state.pipeline.step event
  some ({ state with pipeline := pipeline }, report)

/-- The next atomic step of `try_pop`; a popped message is parsed and handed to the engine. -/
def pop (state : Program) (now : Timestamp) : Option (Program × Trading.Report) := do
  let (pipeline, report) ← state.pipeline.step .matching
  match report with
  | .popped raw =>
    let (thread, handled) ← state.thread.step (raw, now)
    let state := { state with pipeline := pipeline, thread := thread }
    match handled with
    | none => some (state, .nothing)
    | some (req, out) => some ({ state with sending := Trading.eventsOf out }, .served req out)
  | _ => some ({ state with pipeline := pipeline }, .nothing)

/-- One step. -/
def step (state : Program) : Event → Option (Program × Trading.Report)
  | .login fd traderId => do
    let (pipeline, _) ← state.pipeline.step (.login fd traderId)
    some ({ state.connect fd ⟨[], Client.new ⟨[], [], .waiting⟩⟩ with pipeline := pipeline },
      .nothing)
  | .register fd => state.goesOn (.register fd) (.registered fd)
  | .watch fd => state.goesOn (.watch fd) .nothing
  | .enter fd line =>
    match state.links fd with
    | some link =>
      match (typeLine link.client.internalToExchange line).sent with
      | some msg =>
        some (state.connect fd { link with outgoing := link.outgoing ++ msg.bytes }, .nothing)
      | none => some (state, .nothing)
    | none => none
  | .arrive fd count =>
    match state.links fd with
    | some link =>
      if 0 < count ∧ count ≤ link.outgoing.length then do
        let (pipeline, _) ← state.pipeline.step (.arrive fd (link.outgoing.take count))
        some ({ state.connect fd { link with outgoing := link.outgoing.drop count } with
          pipeline := pipeline }, .nothing)
      else none
    | none => none
  | .wait fds => state.goesOn (.wait fds) .nothing
  | .epoll count => state.goesOn (.epoll count) .nothing
  | .matching now =>
    match state.sending with
    | [] => state.pop now
    | event :: later =>
      some ({ state with
        links := fun fd =>
          if Trading.Goes state.pipeline.sessions event fd then
            (state.links fd).map (Link.post · event)
          else state.links fd
        sending := later }, .sent event)
  | .receive fd arrivals body =>
    match state.links fd with
    | some link =>
      if link.client.sock.pending = [] then none
      else do
        let sock := { link.client.sock with arrivals := arrivals }
        let (client, _) ← { link.client with sock := sock }.iterate body
        some (state.connect fd { link with client := client }, .nothing)
    | none => none

end Program

end Exchange
