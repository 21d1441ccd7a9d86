import ExchangeSimulator.Verif.Pipeline
import Mathlib.Data.List.Induction

/-!
# The threads can always catch up

Whatever the clients have sent and however far each thread is, the steps of the
server alone lead to a state with nothing left to do, unless a client has closed
its connection or has sent a header with length zero. The login handlers wait for
nobody, so they return first. A push spins only while the queue is full, and then
the matching thread can pop; a data callback ends because no more arrives; the
descriptors on the ready list become fewer with every round.
-/

namespace Exchange

open Library

namespace SessionManager

/-- The same traders at the same descriptors; what is buffered may differ. -/
structure Alike (manager other : SessionManager) : Prop where
  /-- The sessions belong to the same traders. -/
  sessions : ∀ fd, (manager.sessions fd).map ClientSession.traderId =
    (other.sessions fd).map ClientSession.traderId
  /-- A trader is reached at the same descriptor. -/
  traderToFd : manager.traderToFd = other.traderToFd

/-- A write to a buffer leaves the traders as they are. -/
theorem alike_setBuffer (manager : SessionManager) (fd : Fd) (bytes : List UInt8) :
    manager.Alike (manager.setBuffer fd bytes) := by
  cases found : manager.sessions fd with
  | none =>
    simp only [setBuffer, found]
    exact ⟨fun _ => rfl, rfl⟩
  | some session =>
    refine ⟨?_, by simp only [setBuffer, found]⟩
    intro other
    rw [setBuffer_sessions found]
    split
    · rename_i same
      rw [same, found]
      rfl
    · rfl

/-- A session has its counterpart. -/
theorem Alike.session {manager other : SessionManager} {fd : Fd}
    (alike : manager.Alike other) {session : ClientSession}
    (found : manager.sessions fd = some session) :
    ∃ counterpart, other.sessions fd = some counterpart ∧
      counterpart.traderId = session.traderId := by
  have same := alike.sessions fd
  rw [found, Option.map_some] at same
  exact Option.map_eq_some_iff.mp same.symm

end SessionManager

namespace Pipeline

variable {state next : Pipeline} {past : List Report} {report : Report} {fd : Fd}

/-- A step of one of the server's running threads. -/
def Event.Internal : Event → Prop
  | .wait _ | .epoll _ | .matching => True
  | _ => False

/-- A step of a login handler. -/
def Event.LogsIn : Event → Prop
  | .register _ | .watch _ => True
  | _ => False

/-- A step of one of the server's threads, the login handlers among them. -/
def Event.Own (event : Event) : Prop := event.LogsIn ∨ event.Internal

/-- No client closes its connection. -/
def Event.Stays : Event → Prop
  | .finish _ _ => False
  | _ => True

/-- The server's threads go on by themselves. -/
abbrev Works (state : Pipeline) (more : List Report) (last : Pipeline) : Prop :=
  Leads Pipeline.step Event.Internal state more last

namespace Works

variable {more : List Report} {last : Pipeline}

/-- A step of the matching thread, then the rest. -/
theorem matching (stepped : state.step .matching = some (next, report))
    (later : Works next more last) : Works state (report :: more) last :=
  Leads.step (show Event.Internal .matching from trivial) stepped later

/-- A step of the epoll thread, then the rest. -/
theorem epoll {count : Nat} (stepped : state.step (.epoll count) = some (next, report))
    (later : Works next more last) : Works state (report :: more) last :=
  Leads.step (show Event.Internal (.epoll count) from trivial) stepped later

/-- What `epoll_wait` returns, then the rest. -/
theorem wait {fds : List Fd} (stepped : state.step (.wait fds) = some (next, report))
    (later : Works next more last) : Works state (report :: more) last :=
  Leads.step (show Event.Internal (.wait fds) from trivial) stepped later

end Works

/-- What holds between the threads stays so while they go on. -/
theorem Flows.works (flows : state.Flows past) {more : List Report} {last : Pipeline}
    (works : Works state more last) : last.Flows (past ++ more) :=
  works.kept Flows (fun _ _ _ _ _ flows _ stepped => flows.step stepped) flows

/-! ## The queue -/

/-- One turn of the matching thread at the queue. -/
theorem step_matching {queue : SPSCQueue.Threads RawMessage rawCapacity}
    {completed : SPSCQueue.Completed RawMessage}
    (turned : state.queue.step (if state.queue.consumer = .idle then .pop else .consumer) =
      some (queue, completed)) :
    state.step .matching = some ({ state with queue := queue },
      match completed with
      | .popped item => .popped item
      | _ => .nothing) := by
  simp only [Pipeline.step, matchingStep, turned, bind, Option.bind]
  cases completed <;> rfl

/-- The matching thread can go on to pop a message. -/
def Pops (state : Pipeline) : Prop :=
  ∃ queue raw more, Works state more { state with queue := queue } ∧ popped more = [raw] ∧
    pushed more = []

/-- A step of `try_pop` before its last. -/
theorem Pops.after {queue : SPSCQueue.Threads RawMessage rawCapacity}
    (turned : state.queue.step (if state.queue.consumer = .idle then .pop else .consumer) =
      some (queue, .nothing))
    (pops : Pops { state with queue := queue }) : state.Pops := by
  obtain ⟨last, raw, more, works, pops, pushes⟩ := pops
  exact ⟨last, raw, .nothing :: more, .matching (step_matching turned) works, pops, pushes⟩

/-- The slot has been read. -/
theorem pops_of_taken {tail : UInt64} {item : RawMessage}
    (consumer : state.queue.consumer = .taken tail item) : state.Pops := by
  have turned : state.queue.step (if state.queue.consumer = .idle then .pop else .consumer) =
      some ({ state.queue with
        queue := { state.queue.queue with
          tail_ := (tail + 1) &&& SPSCQueue.MASK rawCapacity }
        consumer := .idle }, .popped item) := by
    simp only [consumer, reduceCtorEq, if_false, SPSCQueue.Threads.step,
      SPSCQueue.Threads.consumerStep]
  exact ⟨_, item, [.popped item], .matching (step_matching turned) .here, rfl, rfl⟩

/-- The queue was found not to be empty. -/
theorem pops_of_checked {tail : UInt64} (consumer : state.queue.consumer = .checked tail) :
    state.Pops := by
  have turned : state.queue.step (if state.queue.consumer = .idle then .pop else .consumer) =
      some ({ state.queue with
        consumer := .taken tail (state.queue.queue.buffer_ tail) }, .nothing) := by
    simp only [consumer, reduceCtorEq, if_false, SPSCQueue.Threads.step,
      SPSCQueue.Threads.consumerStep]
  exact .after turned (pops_of_taken rfl)

/-- The tail has been loaded, and the queue is not empty. -/
theorem pops_of_loaded {tail : UInt64} (consumer : state.queue.consumer = .loaded tail)
    (apart : tail ≠ state.queue.queue.head_) : state.Pops := by
  have turned : state.queue.step (if state.queue.consumer = .idle then .pop else .consumer) =
      some ({ state.queue with consumer := .checked tail }, .nothing) := by
    simp only [consumer, reduceCtorEq, if_false, SPSCQueue.Threads.step,
      SPSCQueue.Threads.consumerStep, if_neg apart]
  exact .after turned (pops_of_checked rfl)

/-- While a message waits, the matching thread can pop one. -/
theorem Flows.pops (flows : state.Flows past)
    (waits : (popped past).length < (pushed past).length) : state.Pops := by
  have apart : state.queue.queue.tail_ ≠ state.queue.queue.head_ := by
    intro same
    have ring := flows.queue.ring
    have counts := (flows.queue.head.eq flows.queue.tail ring.le ring.room).mp same.symm
    omega
  cases consumer : state.queue.consumer with
  | idle =>
    have turned : state.queue.step (if state.queue.consumer = .idle then .pop else .consumer) =
        some ({ state.queue with consumer := .loaded state.queue.queue.tail_ }, .nothing) := by
      simp only [consumer, if_true, SPSCQueue.Threads.step]
    exact .after turned (pops_of_loaded rfl apart)
  | loaded tail =>
    have knows := flows.queue.consumer
    rw [consumer] at knows
    have own : tail = state.queue.queue.tail_ := knows
    exact pops_of_loaded consumer (own ▸ apart)
  | checked tail => exact pops_of_checked consumer
  | taken tail item => exact pops_of_taken consumer

/-- One turn of the epoll thread at the queue. -/
theorem step_push {raw : RawMessage} {rest : List UInt8}
    (pushing : state.point = .pushing fd raw rest)
    {queue : SPSCQueue.Threads RawMessage rawCapacity}
    (turned : state.queue.step (if state.queue.producer = .idle then .push raw else .producer) =
      some (queue, .nothing)) :
    state.step (.epoll 0) = some ({ state with queue := queue }, .nothing) := by
  simp only [Pipeline.step, epollStep, pushing, push, turned, bind, Option.bind]

/-- The epoll thread can go on until its message is pushed. -/
def Pushes (state : Pipeline) (fd : Fd) (rest : List UInt8) : Prop :=
  ∃ queue more, Works state more { state with
    queue := queue
    sessions := state.sessions.setBuffer fd rest
    point := .framing fd }

/-- A step of `try_push` before its last. -/
theorem Pushes.after {raw : RawMessage} {rest : List UInt8}
    (pushing : state.point = .pushing fd raw rest)
    {queue : SPSCQueue.Threads RawMessage rawCapacity}
    (turned : state.queue.step (if state.queue.producer = .idle then .push raw else .producer) =
      some (queue, .nothing))
    (pushes : Pushes { state with queue := queue } fd rest) : state.Pushes fd rest := by
  obtain ⟨last, more, works⟩ := pushes
  exact ⟨last, .nothing :: more, .epoll (step_push pushing turned) works⟩

/-- The slot has been written. -/
theorem pushes_of_written {raw item : RawMessage} {rest : List UInt8} {head : UInt64}
    (pushing : state.point = .pushing fd raw rest)
    (producer : state.queue.producer = .written item head) : state.Pushes fd rest := by
  have stepped : state.step (.epoll 0) = some ({ state with
      queue := { state.queue with
        queue := { state.queue.queue with
          head_ := (head + 1) &&& SPSCQueue.MASK rawCapacity }
        producer := .idle }
      sessions := state.sessions.setBuffer fd rest
      point := .framing fd }, .pushed fd item) := by
    simp only [Pipeline.step, epollStep, pushing, push, producer, reduceCtorEq, if_false,
      SPSCQueue.Threads.step, SPSCQueue.Threads.producerStep, bind, Option.bind]
  exact ⟨_, _, .epoll stepped .here⟩

/-- The queue was found not to be full. -/
theorem pushes_of_checked {raw item : RawMessage} {rest : List UInt8} {head : UInt64}
    (pushing : state.point = .pushing fd raw rest)
    (producer : state.queue.producer = .checked item head) : state.Pushes fd rest := by
  have turned : state.queue.step (if state.queue.producer = .idle then .push raw else .producer) =
      some ({ state.queue with
        queue := { state.queue.queue with
          buffer_ := Function.update state.queue.queue.buffer_ head item }
        producer := .written item head }, .nothing) := by
    simp only [producer, reduceCtorEq, if_false, SPSCQueue.Threads.step,
      SPSCQueue.Threads.producerStep]
  exact .after pushing turned (pushes_of_written pushing rfl)

/-- The head has been loaded, and the queue is not full. -/
theorem pushes_of_loaded {raw item : RawMessage} {rest : List UInt8} {head : UInt64}
    (pushing : state.point = .pushing fd raw rest)
    (producer : state.queue.producer = .loaded item head)
    (room : (head + 1) &&& SPSCQueue.MASK rawCapacity ≠ state.queue.queue.tail_) :
    state.Pushes fd rest := by
  have turned : state.queue.step (if state.queue.producer = .idle then .push raw else .producer) =
      some ({ state.queue with producer := .checked item head }, .nothing) := by
    simp only [producer, reduceCtorEq, if_false, SPSCQueue.Threads.step,
      SPSCQueue.Threads.producerStep, if_neg room]
  exact .after pushing turned (pushes_of_checked pushing rfl)

/-- While the queue has room, a push ends. -/
theorem Flows.pushes_of_room (flows : state.Flows past) {raw : RawMessage} {rest : List UInt8}
    (pushing : state.point = .pushing fd raw rest)
    (room : (pushed past).length + 1 ≠ (popped past).length + rawCapacity.value.toNat) :
    state.Pushes fd rest := by
  have apart : (state.queue.queue.head_ + 1) &&& SPSCQueue.MASK rawCapacity ≠
      state.queue.queue.tail_ := by
    intro full
    have ring := flows.queue.ring
    exact room ((flows.queue.head.full flows.queue.tail ring.le ring.room).mp full)
  cases producer : state.queue.producer with
  | idle =>
    have turned : state.queue.step
        (if state.queue.producer = .idle then .push raw else .producer) =
        some ({ state.queue with producer := .loaded raw state.queue.queue.head_ }, .nothing) := by
      simp only [producer, if_true, SPSCQueue.Threads.step]
    exact .after pushing turned (pushes_of_loaded pushing rfl apart)
  | loaded item head =>
    have knows := flows.queue.producer
    rw [producer] at knows
    have own : head = state.queue.queue.head_ := knows
    exact pushes_of_loaded pushing producer (own ▸ apart)
  | checked item head => exact pushes_of_checked pushing producer
  | written item head => exact pushes_of_written pushing producer

/-- A push ends: when the queue is full, the matching thread makes room. -/
theorem Flows.pushes (flows : state.Flows past) {raw : RawMessage} {rest : List UInt8}
    (pushing : state.point = .pushing fd raw rest) : state.Pushes fd rest := by
  by_cases full : (pushed past).length + 1 = (popped past).length + rawCapacity.value.toNat
  · have large : 2 ≤ rawCapacity.value.toNat := by decide
    obtain ⟨queue, taken, more, works, pops, pushes⟩ := flows.pops (by omega)
    have after := flows.works works
    have counts : (pushed (past ++ more)).length + 1 ≠
        (popped (past ++ more)).length + rawCapacity.value.toNat := by
      rw [pushed_append, popped_append, pops, pushes, List.append_nil, List.length_append,
        List.length_singleton]
      omega
    obtain ⟨last, later, ends⟩ := after.pushes_of_room pushing counts
    exact ⟨last, more ++ later, works.trans ends⟩
  · exact flows.pushes_of_room pushing full

/-! ## The data callback -/

/-- The framing loop ends on a buffer that does not stall. -/
theorem Flows.frames (flows : state.Flows past) (framing : state.point = .framing fd)
    {session : ClientSession} (found : state.sessions.sessions fd = some session)
    {frames : List (List UInt8)} {rest : List UInt8}
    (framed : Framed messageCutter session.recvBuffer frames rest) :
    ∃ queue more, Works state more { state with
      queue := queue
      sessions := state.sessions.setBuffer fd rest
      point := .looping } := by
  generalize buffered : session.recvBuffer = buffer at framed
  -- each pass leaves a session with a shorter buffer, after a push or without one
  induction framed generalizing state session past with
  | done incomplete =>
    subst buffered
    have stepped : state.step (.epoll 0) = some ({ state with point := .looping }, .nothing) := by
      simp only [Pipeline.step, epollStep, framing, Pipeline.frame, SessionManager.getSession,
        found, framePass_of_incomplete incomplete]
    refine ⟨state.queue, [.nothing], .epoll stepped ?_⟩
    rw [SessionManager.setBuffer_self found]
    exact .here
  | @frame _ length frames rest complete positive later ih =>
    subst buffered
    have passes := framePass_of_complete complete
    have left : (state.sessions.setBuffer fd (session.recvBuffer.drop length)).sessions fd =
        some { session with recvBuffer := session.recvBuffer.drop length } :=
      (SessionManager.setBuffer_sessions found _ fd).trans (if_pos rfl)
    have again := SessionManager.setBuffer_setBuffer found (session.recvBuffer.drop length) rest
    cases made : RawMessage.ofFrame session.traderId (session.recvBuffer.take length) with
    | none =>
      have stepped : state.step (.epoll 0) = some ({ state with
          sessions := state.sessions.setBuffer fd (session.recvBuffer.drop length) },
          .nothing) := by
        simp only [Pipeline.step, epollStep, framing, Pipeline.frame, SessionManager.getSession,
          found, passes, made]
      obtain ⟨queue, more, works⟩ := ih (flows.step stepped) framing left rfl
      refine ⟨queue, .nothing :: more, .epoll stepped ?_⟩
      rw [← again]
      exact works
    | some raw =>
      have stepped : state.step (.epoll 0) = some ({ state with
          point := .pushing fd raw (session.recvBuffer.drop length) }, .nothing) := by
        simp only [Pipeline.step, epollStep, framing, Pipeline.frame, SessionManager.getSession,
          found, passes, made]
      have begun := flows.step stepped
      obtain ⟨between, pushes, first⟩ := begun.pushes rfl
      obtain ⟨queue, more, works⟩ := ih (begun.works first) rfl left rfl
      refine ⟨queue, .nothing :: (pushes ++ more), .epoll stepped (first.trans ?_)⟩
      rw [← again]
      exact works

/-- The `recv` loop ends when nothing more arrives. -/
theorem reads (reading : state.point = .reading fd) {socket : Socket} {session : ClientSession}
    (opened : state.epoll.sockets fd = some socket) (waiting : socket.last = .waiting)
    (found : state.sessions.sessions fd = some session) :
    ∃ epoll more, Works state more { state with
      epoll := epoll
      sessions := state.sessions.setBuffer fd (session.recvBuffer ++ socket.unread)
      point := .framing fd } := by
  induction size : socket.unread.length using Nat.strongRecOn generalizing state socket session with
  | ind size ih =>
    subst size
    by_cases none_unread : socket.unread = []
    · have stepped : state.step (.epoll 0) =
          some ({ state with point := .framing fd }, .nothing) := by
        simp only [Pipeline.step, epollStep, reading, read, opened, SessionManager.getSession,
          found, if_pos none_unread, waiting]
      refine ⟨state.epoll, [.nothing], .epoll stepped ?_⟩
      rw [none_unread, List.append_nil, SessionManager.setBuffer_self found]
      exact .here
    · have stepped : state.step (.epoll 4096) = some ({ state with
          epoll := state.epoll.set fd (some (socket.take 4096))
          sessions := state.sessions.setBuffer fd
            (session.recvBuffer ++ socket.unread.take 4096) }, .nothing) := by
        simp only [Pipeline.step, epollStep, reading, read, opened, SessionManager.getSession,
          found, if_neg none_unread]
        rfl
      have fewer : (socket.take 4096).unread.length < socket.unread.length := by
        have positive : socket.unread.length ≠ 0 := by
          rwa [ne_eq, List.length_eq_zero_iff]
        simp only [Socket.take, List.length_drop]
        omega
      have left := SessionManager.setBuffer_sessions found
        (session.recvBuffer ++ socket.unread.take 4096) fd
      rw [if_pos rfl] at left
      have received : (state.epoll.set fd (some (socket.take 4096))).sockets fd =
          some (socket.take 4096) := (EpollMgr.set_sockets _ _ _ _).trans (if_pos rfl)
      have goesOn : ({ state with
          epoll := state.epoll.set fd (some (socket.take 4096))
          sessions := state.sessions.setBuffer fd
            (session.recvBuffer ++ socket.unread.take 4096) } : Pipeline).point = .reading fd :=
        reading
      obtain ⟨epoll, more, works⟩ := ih _ fewer goesOn received waiting left rfl
      refine ⟨epoll, .nothing :: more, .epoll stepped ?_⟩
      have joined : (state.sessions.setBuffer fd
          (session.recvBuffer ++ socket.unread.take 4096)).setBuffer fd
            (session.recvBuffer ++ socket.unread.take 4096 ++ socket.unread.drop 4096) =
          state.sessions.setBuffer fd (session.recvBuffer ++ socket.unread) := by
        rw [SessionManager.setBuffer_setBuffer found, List.append_assoc, List.take_append_drop]
      rw [← joined]
      exact works

/-! ## What the server's own steps do -/

/-- The effect of one step of the server's running threads. -/
inductive Does (state : Pipeline) : Pipeline → Report → Prop where
  /-- `epoll_wait` returns. -/
  | waits {fds : List Fd} {epoll : EpollMgr} {events : List EpollEvent}
      (reported : EpollMgr.Reported state.epoll epoll fds events) :
      Does state { state with epoll := epoll, events := events } .nothing
  /-- An event with an error closes its connection. -/
  | disconnects {event : EpollEvent} {events : List EpollEvent}
      (pending : state.events = event :: events) (failed : event.failed = true) :
      Does state { state with
        sessions := onDisconnect state.sessions event.fd
        epoll := state.epoll.close event.fd
        events := events } .nothing
  /-- An event for an unknown descriptor is passed over. -/
  | skips {event : EpollEvent} {events : List EpollEvent}
      (pending : state.events = event :: events) :
      Does state { state with events := events } .nothing
  /-- A data callback begins. -/
  | begins {event : EpollEvent} {events : List EpollEvent}
      (pending : state.events = event :: events) :
      Does state { state with point := .reading event.fd, events := events } .nothing
  /-- `recv` returns data. -/
  | receives {fd : Fd} {socket : Socket} (opened : state.epoll.sockets fd = some socket)
      (count : Nat) {sessions : SessionManager} (alike : state.sessions.Alike sessions) :
      Does state { state with
        epoll := state.epoll.set fd (some (socket.take count))
        sessions := sessions } .nothing
  /-- `recv` returns zero or an error. -/
  | ends {fd : Fd} {socket : Socket} (opened : state.epoll.sockets fd = some socket)
      (ended : socket.last ≠ .waiting) :
      Does state { state with
        epoll := (state.epoll.remove fd).close fd
        sessions := state.sessions.remove fd
        point := .dangling } .nothing
  /-- The epoll thread goes to another point of the callback, or leaves it. -/
  | moves {point : Point} (attached : point ≠ .dangling) :
      Does state { state with point := point } .nothing
  /-- The buffer gives up a frame. -/
  | drops {sessions : SessionManager} (alike : state.sessions.Alike sessions) :
      Does state { state with sessions := sessions } .nothing
  /-- A message is in the queue. -/
  | pushes (queue : SPSCQueue.Threads RawMessage rawCapacity) {sessions : SessionManager}
      (alike : state.sessions.Alike sessions) (fd : Fd) (raw : RawMessage) :
      Does state { state with queue := queue, sessions := sessions, point := .framing fd }
        (.pushed fd raw)
  /-- A message is out of the queue. -/
  | pops (queue : SPSCQueue.Threads RawMessage rawCapacity) (raw : RawMessage) :
      Does state { state with queue := queue } (.popped raw)
  /-- A call on the queue goes on. -/
  | queues (queue : SPSCQueue.Threads RawMessage rawCapacity) :
      Does state { state with queue := queue } .nothing

/-- What the next step of the epoll thread does; it takes nothing out of the queue. -/
theorem does_of_epollStep {count : Nat} (stepped : state.epollStep count = some (next, report)) :
    state.Does next report ∧ report.takes = none := by
  simp only [epollStep] at stepped
  split at stepped
  · simp only [dispatch] at stepped
    split at stepped
    · contradiction
    · rename_i event events pending
      split at stepped
      · cases stepped
        exact ⟨.disconnects pending ‹_›, rfl⟩
      · split at stepped <;> cases stepped
        · exact ⟨.skips pending, rfl⟩
        · exact ⟨.begins pending, rfl⟩
  · simp only [read] at stepped
    split at stepped
    · rename_i socket session opened found
      split at stepped
      · split at stepped <;> cases stepped
        · exact ⟨.moves (by simp), rfl⟩
        · rename_i closed
          exact ⟨.ends opened (by simp [closed]), rfl⟩
        · rename_i failed
          exact ⟨.ends opened (by simp [failed]), rfl⟩
      · split at stepped <;> cases stepped
        exact ⟨.receives opened count (state.sessions.alike_setBuffer _ _), rfl⟩
    · contradiction
  · simp only [frame] at stepped
    split at stepped
    · contradiction
    · split at stepped <;> cases stepped
      · exact ⟨.moves (by simp), rfl⟩
      · exact ⟨.drops (state.sessions.alike_setBuffer _ _), rfl⟩
      · exact ⟨.moves (by simp), rfl⟩
  · simp only [push, bind, Option.bind] at stepped
    split at stepped
    · contradiction
    · dsimp only at stepped
      split at stepped <;> cases stepped
      · exact ⟨.pushes _ (state.sessions.alike_setBuffer _ _) _ _, rfl⟩
      · exact ⟨.queues _, rfl⟩
  · contradiction

/-- What a step of the server's running threads does. -/
theorem does_of_step {event : Event} (internal : event.Internal)
    (stepped : state.step event = some (next, report)) : state.Does next report := by
  cases event with
  | login | register | watch | arrive | finish => exact internal.elim
  | wait fds =>
    simp only [Pipeline.step] at stepped
    split at stepped
    · cases waited : state.epoll.wait fds with
      | none => simp [waited] at stepped
      | some result =>
        obtain ⟨epoll, events⟩ := result
        simp only [waited, bind, Option.bind, Option.some.injEq, Prod.mk.injEq] at stepped
        obtain ⟨rfl, rfl⟩ := stepped
        simp only [EpollMgr.wait] at waited
        split at waited
        · exact .waits (EpollMgr.reportAll_spec fds state.epoll waited)
        · contradiction
    · contradiction
  | epoll count => exact (does_of_epollStep stepped).1
  | matching =>
    simp only [Pipeline.step, matchingStep, bind, Option.bind] at stepped
    split at stepped
    · contradiction
    · dsimp only at stepped
      split at stepped <;> cases stepped
      · exact .pops _ _
      · exact .queues _

/-! ## The rounds -/

/-- The threads go on well: nobody has closed a connection, nobody has sent a header with length
zero, and every open connection is known. -/
structure Live (state : Pipeline) (past : List Report) : Prop where
  /-- What holds between the threads. -/
  flows : state.Flows past
  /-- The data callback has not removed its own session. -/
  attached : state.point ≠ .dangling
  /-- Every connection is open at the other end. -/
  waiting : ∀ fd socket, state.epoll.sockets fd = some socket → socket.last = .waiting
  /-- So no event reports an error. -/
  input : ∀ event ∈ state.events, event.failed = false
  /-- An open connection has been reported. -/
  known : ∀ fd socket, state.epoll.sockets fd = some socket → Report.opened fd ∈ past

/-- Nothing is connected. -/
theorem live_new : new.Live [] where
  flows := flows_new
  attached := by simp [new]
  waiting := by simp [new, EpollMgr.new]
  input := by simp [new]
  known := by simp [new, EpollMgr.new]

/-- What the server does to the connections: it opens none and puts none on the ready list. -/
structure Quieter (state next : Pipeline) : Prop where
  /-- Each connection was there before. -/
  before : ∀ fd socket, next.epoll.sockets fd = some socket →
    ∃ old, state.epoll.sockets fd = some old ∧ socket.watched = old.watched ∧
      socket.last = old.last ∧ (socket.ready = true → old.ready = true)

/-- No change. -/
theorem Quieter.of_same (same : next.epoll = state.epoll) : state.Quieter next where
  before := by
    intro fd socket opened
    rw [same] at opened
    exact ⟨socket, opened, rfl, rfl, id⟩

/-- One change after another. -/
theorem Quieter.trans {last : Pipeline} (first : state.Quieter next) (second : next.Quieter last) :
    state.Quieter last where
  before := by
    intro fd socket opened
    obtain ⟨between, openedBetween, watched, ends, ready⟩ := second.before fd socket opened
    obtain ⟨old, openedOld, watchedOld, endsOld, readyOld⟩ :=
      first.before fd between openedBetween
    exact ⟨old, openedOld, watched.trans watchedOld, ends.trans endsOld,
      fun isReady => readyOld (ready isReady)⟩

/-- A connection is closed. -/
theorem Quieter.of_closed {epoll : EpollMgr}
    (sockets : ∀ other, epoll.sockets other =
      if other = fd then none else state.epoll.sockets other)
    (same : next.epoll = epoll) : state.Quieter next where
  before := by
    intro other socket opened
    rw [same, sockets] at opened
    split at opened
    · contradiction
    · exact ⟨socket, opened, rfl, rfl, id⟩

/-- The server's own steps open no connection and put none on the ready list. -/
theorem Does.quieter (does : state.Does next report) : state.Quieter next := by
  cases does with
  | waits reported =>
    constructor
    intro fd socket opened
    simp only [reported.sockets, Option.map_eq_some_iff] at opened
    obtain ⟨old, openedOld, rfl⟩ := opened
    refine ⟨old, openedOld, ?_⟩
    split <;> simp
  | disconnects pending => exact .of_closed (EpollMgr.close_sockets _ _) rfl
  | ends opened ended => exact .of_closed (EpollMgr.close_remove_sockets _ _) rfl
  | @receives fd socket opened count sessions alike =>
    constructor
    intro other changed openedNow
    simp only [EpollMgr.set_sockets] at openedNow
    split at openedNow
    · rename_i same
      cases openedNow
      exact ⟨socket, by rw [same]; exact opened, rfl, rfl, id⟩
    · exact ⟨changed, openedNow, rfl, rfl, id⟩
  | skips | begins | moves | drops | pushes | pops | queues => exact .of_same rfl

/-- While the server goes on by itself, no connection is opened or put on the ready list. -/
theorem quieter_of_works {more : List Report} {last : Pipeline} (works : Works state more last) :
    state.Quieter last := by
  induction works with
  | here => exact .of_same rfl
  | step internal stepped _ ih => exact (does_of_step internal stepped).quieter.trans ih

/-- While all connections are open at the other end, no event reports an error and no callback
removes its own session. -/
theorem Live.does (live : state.Live past) (does : state.Does next report) :
    next.point ≠ .dangling ∧ ∀ event ∈ next.events, event.failed = false := by
  have attached := live.attached
  have input := live.input
  have fewer {event : EpollEvent} {events : List EpollEvent}
      (pending : state.events = event :: events) : ∀ event ∈ events, event.failed = false := by
    rw [pending] at input
    exact fun other member => input other (List.mem_cons_of_mem _ member)
  cases does with
  | waits reported =>
    refine ⟨attached, ?_⟩
    intro event member
    obtain ⟨socket, opened, failed⟩ := reported.flags event member
    rw [failed, live.waiting event.fd socket opened]
    rfl
  | disconnects pending => exact ⟨attached, fewer pending⟩
  | skips pending => exact ⟨attached, fewer pending⟩
  | begins pending => exact ⟨by simp, fewer pending⟩
  | ends opened ended => exact absurd (live.waiting _ _ opened) ended
  | moves elsewhere => exact ⟨elsewhere, input⟩
  | pushes => exact ⟨by simp, input⟩
  | receives | drops | pops | queues => exact ⟨attached, input⟩

/-- The same of every step but a close. -/
theorem Live.undisturbed (live : state.Live past) {event : Event} (stays : event.Stays)
    (stepped : state.step event = some (next, report)) :
    next.point ≠ .dangling ∧ ∀ event ∈ next.events, event.failed = false := by
  have running (internal : event.Internal) := live.does (does_of_step internal stepped)
  cases event with
  | finish => exact stays.elim
  | wait | epoll | matching => exact running trivial
  | login | register | watch =>
    simp only [Pipeline.step] at stepped
    split at stepped <;> cases stepped
    exact ⟨live.attached, live.input⟩
  | arrive =>
    simp only [Pipeline.step] at stepped
    split at stepped
    · split at stepped <;> cases stepped
      exact ⟨live.attached, live.input⟩
    · contradiction

/-- A connection after a step is one from before or has just been opened. -/
theorem Live.connections (live : state.Live past) {event : Event} (stays : event.Stays)
    (stepped : state.step event = some (next, report)) (fd : Fd) (socket : Socket)
    (opened : next.epoll.sockets fd = some socket) :
    socket.last = .waiting ∧ Report.opened fd ∈ past ++ [report] := by
  have old (before : Socket) (openedBefore : state.epoll.sockets fd = some before) :
      before.last = .waiting ∧ Report.opened fd ∈ past ++ [report] :=
    ⟨live.waiting fd before openedBefore,
      List.mem_append_left _ (live.known fd before openedBefore)⟩
  have internal (isInternal : event.Internal) :
      socket.last = .waiting ∧ Report.opened fd ∈ past ++ [report] := by
    obtain ⟨before, openedBefore, -, ends, -⟩ :=
      (does_of_step isInternal stepped).quieter.before fd socket opened
    rw [ends]
    exact old before openedBefore
  cases event with
  | finish => exact stays.elim
  | wait | epoll | matching => exact internal trivial
  | login other traderId =>
    simp only [Pipeline.step] at stepped
    split at stepped <;> cases stepped
    simp only [EpollMgr.set_sockets] at opened
    split at opened
    · rename_i same
      cases opened
      exact ⟨rfl, by simp [same]⟩
    · exact old socket opened
  | register other =>
    simp only [Pipeline.step] at stepped
    split at stepped <;> cases stepped
    exact old socket opened
  | watch other =>
    simp only [Pipeline.step] at stepped
    split at stepped <;> cases stepped
    cases isOpen : state.epoll.sockets other with
    | none =>
      simp only [EpollMgr.add, isOpen] at opened
      exact old socket opened
    | some before =>
      simp only [EpollMgr.add_sockets isOpen] at opened
      split at opened
      · rename_i same
        subst same
        cases opened
        exact old before isOpen
      · exact old socket opened
  | arrive other bytes =>
    simp only [Pipeline.step] at stepped
    split at stepped
    · rename_i before isOpen
      split at stepped <;> cases stepped
      simp only [EpollMgr.set_sockets] at opened
      split at opened
      · rename_i same
        subst same
        cases opened
        exact old before isOpen
      · exact old socket opened
    · contradiction

/-- As long as nobody closes a connection, the threads go on well. -/
theorem Live.step (live : state.Live past) {event : Event} (stays : event.Stays)
    (stepped : state.step event = some (next, report)) : next.Live (past ++ [report]) where
  flows := live.flows.step stepped
  attached := (live.undisturbed stays stepped).1
  waiting := fun fd socket opened => (live.connections stays stepped fd socket opened).1
  input := (live.undisturbed stays stepped).2
  known := fun fd socket opened => (live.connections stays stepped fd socket opened).2

/-- The epoll thread and the matching thread close nothing at the other end. -/
theorem Event.Internal.stays {event : Event} (internal : event.Internal) : event.Stays := by
  cases event with
  | finish => exact internal.elim
  | _ => trivial

/-- The threads go on well by themselves. -/
theorem Live.works (live : state.Live past) {more : List Report} {last : Pipeline}
    (works : Works state more last) : last.Live (past ++ more) :=
  works.kept Live (fun _ _ _ _ _ live internal stepped => live.step internal.stays stepped) live

/-- The server's own steps leave the traders as they are, and no login handler comes back. -/
theorem Live.keepsTraders (live : state.Live past) (does : state.Does next report) :
    state.sessions.Alike next.sessions ∧ next.handlers = state.handlers := by
  have same : state.sessions.Alike state.sessions := ⟨fun _ => rfl, rfl⟩
  cases does with
  | disconnects pending failed =>
    have input := live.input _ (by rw [pending]; exact List.mem_cons_self)
    rw [failed] at input
    contradiction
  | ends opened ended => exact absurd (live.waiting _ _ opened) ended
  | receives opened count alike => exact ⟨alike, rfl⟩
  | drops alike => exact ⟨alike, rfl⟩
  | pushes queue alike => exact ⟨alike, rfl⟩
  | waits | skips | begins | moves | pops | queues => exact ⟨same, rfl⟩

/-- What a step of a login handler does: it registers its session, or it has its descriptor watched
and returns. -/
theorem logsIn_cases {event : Event} (logsIn : event.LogsIn)
    (stepped : state.step event = some (next, report)) : report = .nothing ∧
    ∃ fd traderId,
      state.handlers fd = some (.answered traderId) ∧ next = { state with
        handlers := Function.update state.handlers fd (some (.registered traderId))
        sessions := state.sessions.add fd traderId } ∨
      state.handlers fd = some (.registered traderId) ∧ next = { state with
        handlers := Function.update state.handlers fd none
        epoll := state.epoll.add fd } := by
  cases event with
  | register fd =>
    simp only [Pipeline.step] at stepped
    split at stepped
    · rename_i traderId handler
      cases stepped
      exact ⟨rfl, fd, traderId, .inl ⟨handler, rfl⟩⟩
    · contradiction
  | watch fd =>
    simp only [Pipeline.step] at stepped
    split at stepped
    · rename_i traderId handler
      cases stepped
      exact ⟨rfl, fd, traderId, .inr ⟨handler, rfl⟩⟩
    · contradiction
  | _ => exact logsIn.elim

/-- While the server goes on by itself, nothing arrives. -/
theorem stream_of_own {more : List Report} {last : Pipeline}
    (leads : Leads Pipeline.step Event.Own state more last) (past : List Report) (fd : Fd) :
    stream (past ++ more) fd = stream past fd := by
  induction leads generalizing past with
  | here => rw [List.append_nil]
  | @step state next last event report reports own stepped later ih =>
    rw [← List.singleton_append, ← List.append_assoc, ih, stream_snoc]
    rcases own with logsIn | internal
    · rw [(logsIn_cases logsIn stepped).1]
      rfl
    · cases does_of_step internal stepped <;> rfl

/-- The same of the epoll thread and the matching thread alone. -/
theorem stream_of_works {more : List Report} {last : Pipeline} (works : Works state more last)
    (past : List Report) (fd : Fd) : stream (past ++ more) fd = stream past fd :=
  stream_of_own (works.imp fun _ => .inr) past fd

/-- The descriptor that a report says was opened. -/
def Report.opens : Report → Option Fd
  | .opened fd => some fd
  | _ => none

/-- The descriptors that were ever opened. -/
def openedIn (past : List Report) : List Fd := past.filterMap Report.opens

/-- A descriptor that was reported is among them. -/
theorem mem_openedIn (known : .opened fd ∈ past) : fd ∈ openedIn past :=
  List.mem_filterMap.mpr ⟨_, known, rfl⟩

/-- No connection has sent a header with length zero. -/
def Moving (past : List Report) : Prop := ∀ fd, ¬Stalls messageCutter (stream past fd)

/-- What a connection has yet to hand over does not stall. -/
theorem Flows.moves (flows : state.Flows past) (moving : Moving past) {socket : Socket}
    {session : ClientSession} (opened : state.epoll.sockets fd = some socket)
    (found : state.sessions.sessions fd = some session) :
    ¬Stalls messageCutter (session.recvBuffer ++ socket.unread) := by
  obtain ⟨again, frames, openedAgain, -, taken, -⟩ := flows.of_session found
  rw [opened, Option.some.injEq] at openedAgain
  subst openedAgain
  exact fun stalls => moving fd (taken.stalls stalls)

/-- The framing loop ends. -/
theorem Live.frames (live : state.Live past) (moving : Moving past)
    (framing : state.point = .framing fd) :
    ∃ more last, Works state more last ∧ last.point = .looping ∧ last.events = state.events := by
  obtain ⟨⟨socket, session, opened, -, found⟩, -⟩ := live.flows.current fd (by rw [framing]; rfl)
  obtain ⟨frames, rest, framed⟩ := framed_of_not_stalls messageCutter session.recvBuffer
    (fun stalls => live.flows.moves moving opened found (stalls.append _))
  obtain ⟨queue, more, works⟩ := live.flows.frames framing found framed
  exact ⟨more, _, works, rfl, rfl⟩

/-- The callback that is running ends. -/
theorem Live.settles (live : state.Live past) (moving : Moving past) :
    ∃ more last, Works state more last ∧ last.point = .looping ∧ last.events = state.events := by
  cases point : state.point with
  | looping => exact ⟨[], state, .here, point, rfl⟩
  | dangling => exact absurd point live.attached
  | framing fd => exact live.frames moving point
  | reading fd =>
    obtain ⟨⟨socket, session, opened, -, found⟩, -⟩ := live.flows.current fd (by rw [point]; rfl)
    obtain ⟨epoll, more, works⟩ := reads point opened (live.waiting fd socket opened) found
    have same := stream_of_works works past
    obtain ⟨later, last, frames, looping, events⟩ := (live.works works).frames
      (fun other => same other ▸ moving other) rfl
    exact ⟨more ++ later, last, works.trans frames, looping, events⟩
  | pushing fd raw rest =>
    obtain ⟨queue, more, works⟩ := live.flows.pushes point
    have same := stream_of_works works past
    obtain ⟨later, last, frames, looping, events⟩ := (live.works works).frames
      (fun other => same other ▸ moving other) rfl
    exact ⟨more ++ later, last, works.trans frames, looping, events⟩

/-- A round ends. -/
theorem Live.rounds (live : state.Live past) (moving : Moving past)
    (looping : state.point = .looping) :
    ∃ more last, Works state more last ∧ last.point = .looping ∧ last.events = [] := by
  generalize pending : state.events = events
  induction events generalizing state past with
  | nil => exact ⟨[], state, .here, looping, pending⟩
  | cons event events ih =>
    have input : event.failed = false := live.input event (by simp [pending])
    obtain ⟨socket, session, -, -, found⟩ := live.flows.listed event.fd (by simp [pending])
    have stepped : state.step (.epoll 0) = some ({ state with
        point := .reading event.fd
        events := events }, .nothing) := by
      simp [Pipeline.step, epollStep, looping, dispatch, pending, input,
        SessionManager.getSession, found]
    have begun : Works state [.nothing] { state with
        point := .reading event.fd
        events := events } := .epoll stepped .here
    have onward := live.works begun
    obtain ⟨first, between, settles, looping, same⟩ := onward.settles
      (fun other => stream_of_works begun past other ▸ moving other)
    have whole := begun.trans settles
    obtain ⟨later, last, works, ends, handled⟩ := ih (live.works whole)
      (fun other => stream_of_works whole past other ▸ moving other) looping same
    exact ⟨_, last, whole.trans works, ends, handled⟩

/-- Round by round, the descriptors of a list come off the ready list. -/
theorem Live.sweeps (live : state.Live past) (moving : Moving past)
    (looping : state.point = .looping) (handled : state.events = []) (fds : List Fd) :
    ∃ more last, Works state more last ∧ last.point = .looping ∧ last.events = [] ∧
      ∀ fd ∈ fds, ∀ socket, last.epoll.sockets fd = some socket → socket.watched = true →
        socket.ready = false := by
  induction fds with
  | nil => exact ⟨[], state, .here, looping, handled, by simp⟩
  | cons fd fds ih =>
    obtain ⟨more, between, works, atHead, none_left, quiet⟩ := ih
    by_cases listed : ∃ socket, between.epoll.sockets fd = some socket ∧ socket.watched = true ∧
        socket.ready = true
    · obtain ⟨socket, opened, watched, ready⟩ := listed
      have stepped : between.step (.wait [fd]) = some ({ between with
          epoll := between.epoll.set fd (some { socket with ready := false })
          events := [⟨fd, socket.last = .failed⟩] }, .nothing) := by
        simp [Pipeline.step, atHead, none_left, EpollMgr.wait, EpollMgr.reportAll, EpollMgr.report,
          opened, watched, ready, EpollMgr.MAX_EVENTS]
      have begun := works.trans (Works.wait stepped .here)
      obtain ⟨later, last, round, looping, events⟩ := (live.works begun).rounds
        (fun other => stream_of_works begun past other ▸ moving other) atHead
      refine ⟨_, last, begun.trans round, looping, events, ?_⟩
      intro other member someSocket isOpen isWatched
      obtain ⟨before, openedBefore, sameWatched, -, wasReady⟩ :=
        (quieter_of_works round).before other someSocket isOpen
      simp only [EpollMgr.set_sockets] at openedBefore
      by_contra stillReady
      have before_ready := wasReady (by simpa using stillReady)
      split at openedBefore
      · cases openedBefore
        contradiction
      · rename_i apart
        have kept := quiet other ((List.mem_cons.mp member).resolve_left apart) before openedBefore
          (sameWatched ▸ isWatched)
        rw [kept] at before_ready
        contradiction
    · refine ⟨more, between, works, atHead, none_left, ?_⟩
      intro other member socket opened watched
      rcases List.mem_cons.mp member with rfl | member
      · by_contra ready
        exact listed ⟨socket, opened, watched, by simpa using ready⟩
      · exact quiet other member socket opened watched

/-- The matching thread empties the queue. -/
theorem Flows.empties (flows : state.Flows past) :
    ∃ queue more, Works state more { state with queue := queue } ∧
      queue.queue.empty = true := by
  induction waiting : (pushed past).length - (popped past).length generalizing state past with
  | zero => exact ⟨state.queue, [], .here, flows.queue.observers.2.2.1.mpr waiting⟩
  | succ fewer ih =>
    obtain ⟨queue, raw, more, works, pops, pushes⟩ := flows.pops (by omega)
    have fewer : (pushed (past ++ more)).length - (popped (past ++ more)).length = fewer := by
      rw [pushed_append, popped_append, pops, pushes, List.append_nil, List.length_append,
        List.length_singleton]
      omega
    obtain ⟨last, later, empties, empty⟩ := ih (flows.works works) fewer
    exact ⟨last, more ++ later, works.trans empties, empty⟩

/-- The server's own steps lead to a state in which the threads have caught up. -/
theorem Live.idles (live : state.Live past) (moving : Moving past) :
    ∃ more last, Works state more last ∧ last.Idle := by
  obtain ⟨first, settled, settles, looping, -⟩ := live.settles moving
  obtain ⟨second, ended, rounds, atHead, handled⟩ := (live.works settles).rounds
    (fun other => stream_of_works settles past other ▸ moving other) looping
  have round := settles.trans rounds
  have after := live.works round
  -- the open connections are among those that were ever opened
  obtain ⟨third, swept, sweeps, sweptHead, sweptHandled, quiet⟩ := after.sweeps
    (fun other => stream_of_works round past other ▸ moving other) atHead handled
    (openedIn (past ++ (first ++ second)))
  have clean := round.trans sweeps
  obtain ⟨queue, fourth, empties, empty⟩ := (live.flows.works clean).empties
  refine ⟨_, { swept with queue := queue }, clean.trans empties, sweptHead, sweptHandled, ?_, empty⟩
  intro fd socket opened watched
  obtain ⟨before, openedBefore, -⟩ := (quieter_of_works sweeps).before fd socket opened
  exact quiet fd (mem_openedIn (after.known fd before openedBefore)) socket opened watched

/-- What is reached while all clients stay connected goes on well. -/
theorem live_of_run {events : List Event} {reports : List Report}
    (ran : run Pipeline.step new events = some (state, reports))
    (stay : ∀ event ∈ events, event.Stays) : state.Live reports :=
  (Leads.of_run stay ran).kept Live
    (fun _ _ _ _ _ live stays stepped => live.step stays stepped) live_new

/-! ## The login handlers -/

/-- A login handler closes nothing at the other end. -/
theorem Event.LogsIn.stays {event : Event} (logsIn : event.LogsIn) : event.Stays := by
  cases event with
  | finish => exact logsIn.elim
  | _ => trivial

/-- None of the server's own threads does. -/
theorem Event.Own.stays {event : Event} (own : event.Own) : event.Stays :=
  own.elim Event.LogsIn.stays Event.Internal.stays

/-- The threads go on well by themselves, the login handlers among them. -/
theorem Live.own (live : state.Live past) {more : List Report} {last : Pipeline}
    (leads : Leads Pipeline.step Event.Own state more last) : last.Live (past ++ more) :=
  leads.kept Live (fun _ _ _ _ _ live own stepped => live.step own.stays stepped) live

/-- The connection at a descriptor belongs to a trader, whose session may have yet to be
registered. -/
def Belongs (state : Pipeline) (fd : Fd) (traderId : TraderId) : Prop :=
  state.handlers fd = some (.answered traderId) ∨
    ∃ session, state.sessions.sessions fd = some session ∧ session.traderId = traderId

/-- An open connection belongs to somebody. -/
theorem Flows.belongs (flows : state.Flows past) {socket : Socket}
    (opened : state.epoll.sockets fd = some socket) : ∃ traderId, state.Belongs fd traderId := by
  cases found : state.sessions.sessions fd with
  | none =>
    obtain ⟨traderId, handler, -⟩ := flows.of_unregistered opened found
    exact ⟨traderId, .inl handler⟩
  | some session => exact ⟨session.traderId, .inr ⟨session, found, rfl⟩⟩

/-- A connection keeps its trader. -/
theorem Live.keepsOwner (live : state.Live past) {event : Event} (own : event.Own)
    (stepped : state.step event = some (next, report)) {traderId : TraderId}
    (belongs : state.Belongs fd traderId) : next.Belongs fd traderId := by
  rcases own with logsIn | internal
  · obtain ⟨-, other, owner, ⟨handler, rfl⟩ | ⟨handler, rfl⟩⟩ := logsIn_cases logsIn stepped
    · obtain ⟨-, -, unregistered, -⟩ := live.flows.of_answered handler
      by_cases same : fd = other
      · subst same
        rcases belongs with answered | ⟨session, found, -⟩
        · rw [handler] at answered
          cases answered
          exact .inr ⟨_, (SessionManager.add_sessions _ _ _ _).trans (if_pos rfl), rfl⟩
        · rw [unregistered] at found
          contradiction
      · refine belongs.imp (fun answered => ?_) (fun registered => ?_)
        · exact (Function.update_of_ne same _ _).trans answered
        · obtain ⟨session, found, trader⟩ := registered
          exact ⟨session, (SessionManager.add_sessions _ _ _ _).trans (by rwa [if_neg same]),
            trader⟩
    · refine belongs.imp (fun answered => ?_) id
      have apart : fd ≠ other := by
        rintro rfl
        rw [handler] at answered
        cases answered
      exact (Function.update_of_ne apart _ _).trans answered
  · obtain ⟨alike, handlers⟩ := live.keepsTraders (does_of_step internal stepped)
    refine belongs.imp (fun answered => handlers ▸ answered) ?_
    rintro ⟨session, found, trader⟩
    obtain ⟨counterpart, foundNow, same⟩ := alike.session found
    exact ⟨counterpart, foundNow, same.trans trader⟩

/-- The handler of a descriptor returns. -/
theorem returns (state : Pipeline) (fd : Fd) :
    ∃ more last, Leads Pipeline.step Event.LogsIn state more last ∧ last.handlers fd = none ∧
      ∀ other, state.handlers other = none → last.handlers other = none := by
  have watches {state : Pipeline} {traderId : TraderId}
      (registered : state.handlers fd = some (.registered traderId)) :
      ∃ more last, Leads Pipeline.step Event.LogsIn state more last ∧ last.handlers fd = none ∧
        ∀ other, state.handlers other = none → last.handlers other = none := by
    have stepped : state.step (.watch fd) = some ({ state with
        handlers := Function.update state.handlers fd none
        epoll := state.epoll.add fd }, .nothing) := by
      simp only [Pipeline.step, registered]
    refine ⟨_, _, .single (show (Event.watch fd).LogsIn from trivial) stepped,
      Function.update_self _ _ _, ?_⟩
    intro other returned
    simp only [Function.update_apply, returned, ite_self]
  cases handler : state.handlers fd with
  | none => exact ⟨[], state, .here, handler, fun _ => id⟩
  | some point =>
    cases point with
    | registered traderId => exact watches handler
    | answered traderId =>
      have stepped : state.step (.register fd) = some ({ state with
          handlers := Function.update state.handlers fd (some (.registered traderId))
          sessions := state.sessions.add fd traderId }, .nothing) := by
        simp only [Pipeline.step, handler]
      obtain ⟨more, last, leads, returned, others⟩ :=
        @watches { state with
          handlers := Function.update state.handlers fd (some (.registered traderId))
          sessions := state.sessions.add fd traderId } traderId (Function.update_self _ _ _)
      refine ⟨_, last, .step (show (Event.register fd).LogsIn from trivial) stepped leads,
        returned, ?_⟩
      intro other before
      refine others other ?_
      have apart : other ≠ fd := by
        rintro rfl
        rw [handler] at before
        contradiction
      exact (Function.update_of_ne apart _ _).trans before

/-- All login handlers return. -/
theorem Live.allReturn (live : state.Live past) :
    ∃ more last, Leads Pipeline.step Event.LogsIn state more last ∧
      ∀ fd, last.handlers fd = none := by
  obtain ⟨more, last, leads, -, returned⟩ := Leads.each (fun _ => True)
    (fun (now : Pipeline) fd => now.handlers fd = none)
    (by
      intro now fd _
      obtain ⟨more, next, leads, here, kept⟩ := now.returns fd
      exact ⟨more, next, leads, trivial, here, kept⟩)
    (openedIn past) trivial
  refine ⟨more, last, leads, ?_⟩
  intro fd
  refine returned fd ?_
  cases isOpen : state.epoll.sockets fd with
  | none => exact .inr (live.flows.of_closed isOpen).1
  | some socket => exact .inl (mem_openedIn (live.known fd socket isOpen))

/-! ## Catching up -/

/-- A message that was pushed for a connection was pushed. -/
theorem mem_pushed (past : List Report) {fd : Fd} {raw : RawMessage}
    (member : raw ∈ pushedFor past fd) : raw ∈ pushed past := by
  induction past using List.reverseRecOn with
  | nil => contradiction
  | append_singleton past report ih =>
    rw [pushedFor_snoc] at member
    rw [pushed_snoc, List.mem_append]
    cases report with
    | nothing | arrived | popped => exact .inl (ih member)
    | opened other =>
      simp only [Report.pushes] at member
      split at member
      · contradiction
      · exact .inl (ih member)
    | pushed other item =>
      simp only [Report.pushes] at member
      split at member
      · exact (List.mem_append.mp member).imp ih (by simp [Report.puts])
      · exact .inl (ih member)

/-- No login handler comes back while the other threads go on. -/
theorem Live.handlers_of_works (live : state.Live past) {more : List Report} {last : Pipeline}
    (works : Works state more last) : last.handlers = state.handlers := by
  have alike := works.kept (fun now past => now.Live past ∧ now.handlers = state.handlers)
    (fun _ _ _ _ _ holds internal stepped =>
      ⟨holds.1.step internal.stays stepped,
        (holds.1.keepsTraders (does_of_step internal stepped)).2.trans holds.2⟩)
    ⟨live, rfl⟩
  exact alike.2

/-- From every state that is reached while all clients stay connected and none has sent a header
with length zero, steps of the server's own threads lead to a state in which every login handler
has returned and the threads have caught up. There every message pushed has been popped; each
connection has the session of its trader, and the complete frames of all that has arrived on it
have been pushed, but for those that are too long for an envelope. -/
theorem run_catches_up {events : List Event} {reports : List Report}
    (ran : run Pipeline.step new events = some (state, reports))
    (stay : ∀ event ∈ events, event.Stays) (moving : Moving reports) :
    ∃ later last more, (∀ event ∈ later, event.Own) ∧
      run Pipeline.step state later = some (last, more) ∧ last.Idle ∧
      (∀ fd, last.handlers fd = none) ∧
      popped (reports ++ more) = pushed (reports ++ more) ∧
      (∀ fd socket, state.epoll.sockets fd = some socket →
        ∃ traderId, state.Belongs fd traderId) ∧
      (∀ fd traderId, state.Belongs fd traderId →
        ∃ session, last.sessions.sessions fd = some session ∧ session.traderId = traderId) ∧
      ∀ fd session, last.sessions.sessions fd = some session →
        ∃ frames, Framed messageCutter (stream reports fd) frames session.recvBuffer ∧
          pushedFor (reports ++ more) fd =
            frames.filterMap (RawMessage.ofFrame session.traderId) := by
  have live := live_of_run ran stay
  obtain ⟨first, between, logins, allReturned⟩ := live.allReturn
  have liveBetween := live.own (logins.imp fun _ => .inl)
  obtain ⟨second, last, works, idle⟩ := liveBetween.idles
    (fun fd => stream_of_own (logins.imp fun _ => .inl) reports fd ▸ moving fd)
  have leads : Leads Pipeline.step Event.Own state (first ++ second) last :=
    (logins.imp fun _ => .inl).trans (works.imp fun _ => .inr)
  have returned (fd : Fd) : last.handlers fd = none := by
    rw [liveBetween.handlers_of_works works]
    exact allReturned fd
  obtain ⟨later, own, goesOn⟩ := leads.run
  obtain ⟨all, frames⟩ := (live.own leads).flows.complete idle
  refine ⟨later, last, first ++ second, own, goesOn, idle, returned, all,
    fun fd socket opened => live.flows.belongs opened, ?_, ?_⟩
  · intro fd traderId belongs
    have kept := leads.kept (fun now past => now.Live past ∧ now.Belongs fd traderId)
      (fun _ _ _ _ _ holds own stepped =>
        ⟨holds.1.step own.stays stepped, holds.1.keepsOwner own stepped holds.2⟩)
      ⟨live, belongs⟩
    refine kept.2.resolve_left ?_
    rw [returned fd]
    simp
  · intro fd session found
    have framed := frames fd session (returned fd) found
    rwa [stream_of_own leads reports fd] at framed

/-- A message and the start of another one, on a connection that has no session yet. -/
theorem run_catches_up_unregistered :
    ∃ state reports, run Pipeline.step new [.login 5 1, .arrive 5 [3, 0, 7, 4]] =
        some (state, reports) ∧ state.sessions.sessions 5 = none ∧ pushed reports = [] ∧
      ∃ later last more raw, (∀ event ∈ later, event.Own) ∧
        run Pipeline.step state later = some (last, more) ∧ last.handlers 5 = none ∧
        RawMessage.ofFrame 1 [3, 0, 7] = some raw ∧ pushedFor (reports ++ more) 5 = [raw] ∧
        raw ∈ popped (reports ++ more) := by
  refine ⟨_, _, rfl, rfl, rfl, ?_⟩
  have here : Framed messageCutter [3, 0, 7, 4] [[3, 0, 7]] [4] :=
    .frame (show messageCutter.cut [3, 0, 7, 4] = some 3 by decide) (by decide)
      (.done (by decide))
  have moving : Moving [.opened 5, .arrived 5 [3, 0, 7, 4]] := by
    intro fd
    by_cases same : 5 = fd
    · subst same
      exact here.not_stalls
    · simp only [stream, List.foldl_cons, List.foldl_nil, Report.arrives, if_neg same]
      exact Framed.not_stalls (.done (by decide))
  obtain ⟨later, last, more, own, goesOn, -, returned, all, -, owned, frames⟩ := @run_catches_up _
    [.login 5 1, .arrive 5 [3, 0, 7, 4]] _ rfl (by simp [Event.Stays]) moving
  obtain ⟨session, found, trader⟩ := owned 5 1 (.inl rfl)
  obtain ⟨cut, framed, pushes⟩ := frames 5 session found
  have same := framed.unique here
  rw [same.1, trader] at pushes
  refine ⟨later, last, more, _, own, goesOn, returned 5, rfl, pushes, ?_⟩
  rw [all]
  exact mem_pushed _ (by rw [pushes]; exact List.mem_singleton_self _)

end Pipeline

end Exchange
