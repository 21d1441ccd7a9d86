import ExchangeSimulator.Server.Pipeline
import ExchangeSimulator.Verif.Framing
import ExchangeSimulator.Verif.Spsc

/-!
# Every request passes through the threads once

What holds between the threads at every moment (`Flows`): the bytes that have
arrived on a connection are frames, what its session buffers and what the kernel
still has; of the frames those that fit into an envelope have been pushed, and the
longer ones were dropped; the queue holds what has been pushed and not popped;
only the connection that the epoll thread is working on has a complete frame in
its buffer. With edge-triggered events a wakeup could be lost. It is not: a
watched connection with something to report is on the ready list, or among the
events of the round, or its data callback is still reading. When nothing is on the
ready list and the threads have caught up, every complete frame that fits has been
popped.
-/

namespace Exchange

open Library

namespace EpollMgr

variable {epoll next : EpollMgr} {fd : Fd} {socket : Socket}

/-- What a change to one connection leaves. -/
theorem set_sockets (epoll : EpollMgr) (fd : Fd) (socket : Option Socket) (other : Fd) :
    (epoll.set fd socket).sockets other = if other = fd then socket else epoll.sockets other :=
  Function.update_apply epoll.sockets fd socket other

/-- What watching a connection leaves. -/
theorem add_sockets (found : epoll.sockets fd = some socket) (other : Fd) :
    (epoll.add fd).sockets other =
      if other = fd then some { socket with watched := true, ready := decide socket.Readable }
      else epoll.sockets other := by
  simp only [add, found, set_sockets]

/-- What closing a connection leaves. -/
theorem close_sockets (epoll : EpollMgr) (fd other : Fd) :
    (epoll.close fd).sockets other = if other = fd then none else epoll.sockets other :=
  set_sockets epoll fd none other

/-- What unwatching and closing a connection leaves. -/
theorem close_remove_sockets (epoll : EpollMgr) (fd other : Fd) :
    ((epoll.remove fd).close fd).sockets other =
      if other = fd then none else epoll.sockets other := by
  rw [close_sockets]
  split
  · rfl
  · rename_i apart
    cases found : epoll.sockets fd with
    | none => simp only [remove, found]
    | some socket => simp only [remove, found, set_sockets, if_neg apart]

/-- What reporting a descriptor leaves: it was on the ready list and is off it. -/
theorem report_spec {event : EpollEvent} (reported : epoll.report fd = some (next, event)) :
    ∃ socket, epoll.sockets fd = some socket ∧ socket.watched = true ∧ socket.ready = true ∧
      event = ⟨fd, socket.last = .failed⟩ ∧
      next = epoll.set fd (some { socket with ready := false }) := by
  cases found : epoll.sockets fd with
  | none => simp [report, found] at reported
  | some socket =>
    simp only [report, found] at reported
    split at reported
    · rename_i listed
      simp only [Option.some.injEq, Prod.mk.injEq] at reported
      exact ⟨socket, rfl, listed.1, listed.2, reported.2.symm, reported.1.symm⟩
    · contradiction

/-- What `epoll_wait` reports, and what it leaves at a descriptor. -/
structure Reported (epoll next : EpollMgr) (fds : List Fd) (events : List EpollEvent) : Prop where
  /-- One event for each descriptor. -/
  fds_eq : events.map EpollEvent.fd = fds
  /-- No descriptor is reported twice. -/
  nodup : fds.Nodup
  /-- A reported descriptor was on the ready list. -/
  listed : ∀ fd ∈ fds, ∃ socket, epoll.sockets fd = some socket ∧ socket.watched = true ∧
    socket.ready = true
  /-- Its event tells whether the connection has failed. -/
  flags : ∀ event ∈ events, ∃ socket, epoll.sockets event.fd = some socket ∧
    event.failed = decide (socket.last = .failed)
  /-- It is off the list, and nothing else has changed. -/
  sockets : ∀ fd, next.sockets fd = (epoll.sockets fd).map fun socket =>
    if fd ∈ fds then { socket with ready := false } else socket

/-- `epoll_wait` takes the reported descriptors off the ready list. -/
theorem reportAll_spec (fds : List Fd) (epoll : EpollMgr) {events : List EpollEvent}
    (reported : epoll.reportAll fds = some (next, events)) : Reported epoll next fds events := by
  induction fds generalizing epoll events with
  | nil =>
    cases reported
    exact ⟨rfl, List.nodup_nil, by simp, by simp, by simp⟩
  | cons fd fds ih =>
    cases first : epoll.report fd with
    | none => simp [reportAll, first] at reported
    | some taken =>
      obtain ⟨between, event⟩ := taken
      cases rest : between.reportAll fds with
      | none => simp [reportAll, first, rest] at reported
      | some later =>
        obtain ⟨last, others⟩ := later
        simp only [reportAll, first, rest, bind, Option.bind, Option.some.injEq,
          Prod.mk.injEq] at reported
        obtain ⟨rfl, rfl⟩ := reported
        obtain ⟨socket, found, watched, ready, rfl, rfl⟩ := report_spec first
        have tail := ih _ rest
        -- the second report of a descriptor would find it off the list
        have fresh : fd ∉ fds := by
          intro member
          obtain ⟨again, foundAgain, _, readyAgain⟩ := tail.listed fd member
          rw [set_sockets, if_pos rfl, Option.some.injEq] at foundAgain
          rw [← foundAgain] at readyAgain
          contradiction
        refine ⟨?_, List.nodup_cons.mpr ⟨fresh, tail.nodup⟩, ?_, ?_, ?_⟩
        · rw [List.map_cons, tail.fds_eq]
        · intro other member
          rcases List.mem_cons.mp member with rfl | later
          · exact ⟨socket, found, watched, ready⟩
          · obtain ⟨before, foundBefore, rest⟩ := tail.listed other later
            rw [set_sockets, if_neg (by rintro rfl; exact fresh later)] at foundBefore
            exact ⟨before, foundBefore, rest⟩
        · intro event member
          rcases List.mem_cons.mp member with rfl | later
          · exact ⟨socket, found, rfl⟩
          · obtain ⟨before, foundBefore, rest⟩ := tail.flags event later
            have listed : event.fd ∈ fds := by
              rw [← tail.fds_eq]
              exact List.mem_map_of_mem later
            rw [set_sockets, if_neg (by intro same; rw [same] at listed; exact fresh listed)]
              at foundBefore
            exact ⟨before, foundBefore, rest⟩
        · intro other
          rw [tail.sockets other, set_sockets]
          by_cases same : other = fd
          · subst same
            rw [if_pos rfl, found, Option.map_some, Option.map_some, if_neg fresh,
              if_pos List.mem_cons_self]
          · rw [if_neg same]
            simp only [List.mem_cons, same, false_or]

end EpollMgr

/-- The item a running `try_push` carries. -/
def SPSCQueue.Producer.item {T : Type} : SPSCQueue.Producer T → Option T
  | .idle => none
  | .loaded item _ | .checked item _ | .written item _ => some item

/-- The connection the epoll thread is working on. -/
def Point.fd : Point → Option Fd
  | .reading fd | .framing fd | .pushing fd _ _ => some fd
  | .looping | .dangling => none

namespace Pipeline

/-! ## What the reports tell -/

/-- The bytes that have arrived on a connection, after one more report. -/
def Report.arrives (fd : Fd) (bytes : List UInt8) : Report → List UInt8
  | .opened other => if other = fd then [] else bytes
  | .arrived other more => if other = fd then bytes ++ more else bytes
  | _ => bytes

/-- The messages pushed for a connection, after one more report. -/
def Report.pushes (fd : Fd) (messages : List RawMessage) : Report → List RawMessage
  | .opened other => if other = fd then [] else messages
  | .pushed other raw => if other = fd then messages ++ [raw] else messages
  | _ => messages

/-- The bytes that have arrived on the connection behind a descriptor since it was opened. -/
def stream (past : List Report) (fd : Fd) : List UInt8 := past.foldl (Report.arrives fd) []

/-- The messages pushed for the connection behind a descriptor since it was opened. -/
def pushedFor (past : List Report) (fd : Fd) : List RawMessage := past.foldl (Report.pushes fd) []

/-- The message that a report puts into the queue. -/
def Report.puts : Report → Option RawMessage
  | .pushed _ raw => some raw
  | _ => none

/-- The message that a report takes out of the queue. -/
def Report.takes : Report → Option RawMessage
  | .popped raw => some raw
  | _ => none

/-- The messages put into the queue. -/
def pushed (past : List Report) : List RawMessage := past.filterMap Report.puts

/-- The messages taken out of the queue. -/
def popped (past : List Report) : List RawMessage := past.filterMap Report.takes

/-- The arrived bytes grow by those that the next report says have arrived. -/
theorem stream_snoc (past : List Report) (report : Report) (fd : Fd) :
    stream (past ++ [report]) fd = report.arrives fd (stream past fd) := by
  rw [stream, List.foldl_append]
  rfl

/-- The messages pushed for a connection grow by the one that the next report says was pushed. -/
theorem pushedFor_snoc (past : List Report) (report : Report) (fd : Fd) :
    pushedFor (past ++ [report]) fd = report.pushes fd (pushedFor past fd) := by
  rw [pushedFor, List.foldl_append]
  rfl

/-- What has been pushed after more reports. -/
theorem pushed_append (past more : List Report) :
    pushed (past ++ more) = pushed past ++ pushed more :=
  List.filterMap_append

/-- What has been popped after more reports. -/
theorem popped_append (past more : List Report) :
    popped (past ++ more) = popped past ++ popped more :=
  List.filterMap_append

/-- The pushed messages grow by the one that the next report puts in. -/
theorem pushed_snoc (past : List Report) (report : Report) :
    pushed (past ++ [report]) = pushed past ++ report.puts.toList :=
  filterMap_snoc Report.puts past report

/-- The popped messages grow by the one that the next report takes out. -/
theorem popped_snoc (past : List Report) (report : Report) :
    popped (past ++ [report]) = popped past ++ report.takes.toList :=
  filterMap_snoc Report.takes past report

/-! ## What holds at every moment -/

/-- How a descriptor stands: its login handler, its connection, its session, the bytes that have
arrived and the messages that were pushed. -/
inductive Stands : Option Handler → Option Socket → Option ClientSession → List UInt8 →
    List RawMessage → Prop where
  /-- It is not open. -/
  | closed {arrived : List UInt8} {sent : List RawMessage} : Stands none none none arrived sent
  /-- Its handler has not registered it. -/
  | answered {traderId : TraderId} {socket : Socket} (unwatched : socket.watched = false) :
      Stands (some (.answered traderId)) (some socket) none socket.unread []
  /-- It has a session, and frames of what has arrived have been pushed. -/
  | registered {handler : Option Handler} {socket : Socket} {session : ClientSession}
      {arrived : List UInt8} {frames : List (List UInt8)}
      (handled : handler = none ∧ socket.watched = true ∨
        handler = some (.registered session.traderId) ∧ socket.watched = false)
      (taken : Taken messageCutter arrived frames (session.recvBuffer ++ socket.unread)) :
      Stands handler (some socket) (some session) arrived
        (frames.filterMap (RawMessage.ofFrame session.traderId))

/-- A descriptor is watched and has a session. -/
def Watched (state : Pipeline) (fd : Fd) : Prop :=
  ∃ socket session, state.epoll.sockets fd = some socket ∧ socket.watched = true ∧
    state.sessions.sessions fd = some session

/-- What holds between the threads, given what has been reported. -/
structure Flows (state : Pipeline) (past : List Report) : Prop where
  /-- Every descriptor stands well. -/
  stands : ∀ fd, Stands (state.handlers fd) (state.epoll.sockets fd)
    (state.sessions.sessions fd) (stream past fd) (pushedFor past fd)
  /-- No wakeup is lost. -/
  awake : ∀ fd socket, state.epoll.sockets fd = some socket → socket.watched = true →
    socket.Readable →
    socket.ready = true ∨ fd ∈ state.events.map EpollEvent.fd ∨ state.point = .reading fd
  /-- A buffer that is not being worked on has no complete frame. -/
  drained : ∀ fd session, state.sessions.sessions fd = some session → state.point.fd ≠ some fd →
    messageCutter.cut session.recvBuffer = none
  /-- A descriptor has one event in a round. -/
  nodup : (state.events.map EpollEvent.fd).Nodup
  /-- It has a session. -/
  listed : ∀ fd ∈ state.events.map EpollEvent.fd, state.Watched fd
  /-- So has the one that is worked on, and its event is handled. -/
  current : ∀ fd, state.point.fd = some fd →
    state.Watched fd ∧ fd ∉ state.events.map EpollEvent.fd
  /-- The message being pushed is at the front of its buffer. -/
  passed : ∀ fd raw rest, state.point = .pushing fd raw rest →
    ∃ session, state.sessions.sessions fd = some session ∧
      framePass session = some (some raw, rest)
  /-- The producer runs only during a push, with the message of that push. -/
  producer : ∀ item, state.queue.producer.item = some item →
    ∃ fd rest, state.point = .pushing fd item rest
  /-- The queue holds what has been pushed and not popped. -/
  queue : state.queue.Follows (pushed past) (popped past)

/-- Nothing has happened. -/
theorem flows_new : new.Flows [] where
  stands := fun _ => .closed
  awake := by simp [new, EpollMgr.new]
  drained := by simp [new, SessionManager.new]
  nodup := List.nodup_nil
  listed := by simp [new]
  current := by simp [new, Point.fd]
  passed := by simp [new]
  producer := by simp [new, SPSCQueue.Threads.new, SPSCQueue.Producer.item]
  queue := SPSCQueue.Threads.follows_new

variable {state next : Pipeline} {past : List Report} {report : Report} {fd : Fd}

/-- A session belongs to an open connection, whose bytes are accounted for. -/
theorem Flows.of_session (flows : state.Flows past) {session : ClientSession}
    (found : state.sessions.sessions fd = some session) :
    ∃ socket frames, state.epoll.sockets fd = some socket ∧
      (state.handlers fd = none ∧ socket.watched = true ∨
        state.handlers fd = some (.registered session.traderId) ∧ socket.watched = false) ∧
      Taken messageCutter (stream past fd) frames (session.recvBuffer ++ socket.unread) ∧
      pushedFor past fd = frames.filterMap (RawMessage.ofFrame session.traderId) := by
  have stands := flows.stands fd
  rw [found] at stands
  generalize state.handlers fd = handler, sent : pushedFor past fd = messages,
    opened : state.epoll.sockets fd = open_, stream past fd = arrived at stands ⊢
  cases stands with
  | registered handled taken => exact ⟨_, _, rfl, handled, taken, rfl⟩

/-- A connection without a session is waiting for its handler. -/
theorem Flows.of_unregistered (flows : state.Flows past) {socket : Socket}
    (opened : state.epoll.sockets fd = some socket)
    (absent : state.sessions.sessions fd = none) :
    ∃ traderId, state.handlers fd = some (.answered traderId) ∧ socket.watched = false ∧
      stream past fd = socket.unread ∧ pushedFor past fd = [] := by
  have stands := flows.stands fd
  rw [opened, absent] at stands
  generalize state.handlers fd = handler, pushedFor past fd = messages,
    stream past fd = arrived at stands ⊢
  cases stands with
  | answered unwatched => exact ⟨_, rfl, unwatched, rfl, rfl⟩

/-- A descriptor that is not open has no session and no handler. -/
theorem Flows.of_closed (flows : state.Flows past) (absent : state.epoll.sockets fd = none) :
    state.handlers fd = none ∧ state.sessions.sessions fd = none := by
  have stands := flows.stands fd
  rw [absent] at stands
  generalize state.handlers fd = handler, state.sessions.sessions fd = session,
    pushedFor past fd = messages, stream past fd = arrived at stands ⊢
  cases stands with
  | closed => exact ⟨rfl, rfl⟩

/-- A handler that has not registered its session. -/
theorem Flows.of_answered (flows : state.Flows past) {traderId : TraderId}
    (handler : state.handlers fd = some (.answered traderId)) :
    ∃ socket, state.epoll.sockets fd = some socket ∧ state.sessions.sessions fd = none ∧
      socket.watched = false ∧ stream past fd = socket.unread ∧ pushedFor past fd = [] := by
  have stands := flows.stands fd
  rw [handler] at stands
  generalize state.sessions.sessions fd = session, state.epoll.sockets fd = open_,
    pushedFor past fd = messages, stream past fd = arrived at stands ⊢
  cases stands with
  | answered unwatched => exact ⟨_, rfl, rfl, unwatched, rfl, rfl⟩
  | registered handled taken =>
    rcases handled with ⟨none, -⟩ | ⟨other, -⟩
    · contradiction
    · cases other

/-- A handler that has registered its session. -/
theorem Flows.of_registered (flows : state.Flows past) {traderId : TraderId}
    (handler : state.handlers fd = some (.registered traderId)) :
    ∃ socket session, state.epoll.sockets fd = some socket ∧
      state.sessions.sessions fd = some session ∧ socket.watched = false := by
  have stands := flows.stands fd
  rw [handler] at stands
  generalize state.sessions.sessions fd = session, state.epoll.sockets fd = open_,
    pushedFor past fd = messages, stream past fd = arrived at stands ⊢
  cases stands with
  | registered handled taken =>
    rcases handled with ⟨none, -⟩ | ⟨-, unwatched⟩
    · contradiction
    · exact ⟨_, _, rfl, rfl, unwatched⟩

/-- Nothing is reported. -/
theorem Flows.stands_quiet (flows : state.Flows past) (fd : Fd) :
    Stands (state.handlers fd) (state.epoll.sockets fd) (state.sessions.sessions fd)
      (stream (past ++ [.nothing]) fd) (pushedFor (past ++ [.nothing]) fd) := by
  rw [stream_snoc, pushedFor_snoc]
  exact flows.stands fd

/-- A report that moves no message leaves the queue as it is. -/
theorem Flows.queue_quiet (flows : state.Flows past) (puts : report.puts = none)
    (takes : report.takes = none) :
    state.queue.Follows (pushed (past ++ [report])) (popped (past ++ [report])) := by
  rw [pushed_snoc, popped_snoc, puts, takes, Option.toList_none, List.append_nil, List.append_nil]
  exact flows.queue

/-- A watched connection keeps its session and stays watched. -/
theorem Watched.of_same (watched : state.Watched fd)
    (sockets : next.epoll.sockets fd = state.epoll.sockets fd)
    (sessions : next.sessions.sessions fd = state.sessions.sessions fd) : next.Watched fd := by
  obtain ⟨socket, session, opened, rest⟩ := watched
  exact ⟨socket, session, sockets.trans opened, rest.1, sessions.trans rest.2⟩

/-- A login opens a connection. -/
theorem Flows.login (flows : state.Flows past) (absent : state.epoll.sockets fd = none)
    (traderId : TraderId) :
    Flows { state with
      handlers := Function.update state.handlers fd (some (.answered traderId))
      epoll := state.epoll.set fd (some Socket.new) } (past ++ [.opened fd]) := by
  obtain ⟨-, noSession⟩ := flows.of_closed absent
  have kept (other : Fd) (watched : state.Watched other) : Watched { state with
      handlers := Function.update state.handlers fd (some (.answered traderId))
      epoll := state.epoll.set fd (some Socket.new) } other := by
    refine watched.of_same ((EpollMgr.set_sockets _ _ _ _).trans (if_neg ?_)) rfl
    rintro rfl
    obtain ⟨socket, session, opened, -⟩ := watched
    rw [absent] at opened
    contradiction
  constructor
  · intro other
    simp only [stream_snoc, pushedFor_snoc, Report.arrives, Report.pushes, EpollMgr.set_sockets,
      Function.update_apply, @eq_comm Fd fd other]
    by_cases same : other = fd
    · subst same
      simp only [if_true, noSession]
      exact .answered rfl
    · simp only [if_neg same]
      exact flows.stands other
  · intro other socket opened watched readable
    simp only [EpollMgr.set_sockets] at opened
    split at opened
    · cases opened
      contradiction
    · exact flows.awake other socket opened watched readable
  · exact flows.drained
  · exact flows.nodup
  · exact fun other member => kept other (flows.listed other member)
  · intro other here
    obtain ⟨watched, handled⟩ := flows.current other here
    exact ⟨kept other watched, handled⟩
  · exact flows.passed
  · exact flows.producer
  · exact flows.queue_quiet rfl rfl

/-- A handler registers its session. -/
theorem Flows.register (flows : state.Flows past) {traderId : TraderId}
    (handler : state.handlers fd = some (.answered traderId)) :
    Flows { state with
      handlers := Function.update state.handlers fd (some (.registered traderId))
      sessions := state.sessions.add fd traderId } (past ++ [.nothing]) := by
  obtain ⟨socket, opened, absent, unwatched, arrived, sent⟩ := flows.of_answered handler
  have kept (other : Fd) (watched : state.Watched other) : Watched { state with
      handlers := Function.update state.handlers fd (some (.registered traderId))
      sessions := state.sessions.add fd traderId } other := by
    refine watched.of_same rfl ((SessionManager.add_sessions _ _ _ _).trans (if_neg ?_))
    rintro rfl
    obtain ⟨_, session, -, -, found⟩ := watched
    rw [absent] at found
    contradiction
  constructor
  · intro other
    simp only [stream_snoc, pushedFor_snoc, Report.arrives, Report.pushes,
      SessionManager.add_sessions, Function.update_apply]
    by_cases same : other = fd
    · subst same
      have none_taken : Taken messageCutter (stream past other) []
          ((⟨other, traderId, []⟩ : ClientSession).recvBuffer ++ socket.unread) := by
        rw [arrived]
        exact .nothing
      simp only [if_true, opened, sent]
      exact Stands.registered (.inr ⟨rfl, unwatched⟩) none_taken
    · simp only [if_neg same]
      exact flows.stands other
  · exact flows.awake
  · intro other session found apart
    simp only [SessionManager.add_sessions] at found
    split at found
    · cases found
      rfl
    · exact flows.drained other session found apart
  · exact flows.nodup
  · exact fun other member => kept other (flows.listed other member)
  · intro other here
    obtain ⟨watched, handled⟩ := flows.current other here
    exact ⟨kept other watched, handled⟩
  · intro other raw rest here
    obtain ⟨session, found, passes⟩ := flows.passed other raw rest here
    refine ⟨session, ?_, passes⟩
    simp only [SessionManager.add_sessions]
    rw [if_neg]
    · exact found
    · rintro rfl
      rw [absent] at found
      contradiction
  · exact flows.producer
  · exact flows.queue_quiet rfl rfl

/-- A handler watches its connection, and the kernel reports what has arrived already. -/
theorem Flows.watch (flows : state.Flows past) {traderId : TraderId}
    (handler : state.handlers fd = some (.registered traderId)) :
    Flows { state with
      handlers := Function.update state.handlers fd none
      epoll := state.epoll.add fd } (past ++ [.nothing]) := by
  obtain ⟨socket, session, opened, found, unwatched⟩ := flows.of_registered handler
  have kept (other : Fd) (watched : state.Watched other) : Watched { state with
      handlers := Function.update state.handlers fd none
      epoll := state.epoll.add fd } other := by
    refine watched.of_same ((EpollMgr.add_sockets opened _).trans (if_neg ?_)) rfl
    rintro rfl
    obtain ⟨again, -, openedAgain, watchedAgain, -⟩ := watched
    rw [opened, Option.some.injEq] at openedAgain
    rw [← openedAgain, unwatched] at watchedAgain
    contradiction
  constructor
  · intro other
    simp only [stream_snoc, pushedFor_snoc, Report.arrives, Report.pushes,
      EpollMgr.add_sockets opened, Function.update_apply]
    by_cases same : other = fd
    · subst same
      obtain ⟨again, frames, openedAgain, handled, taken, sent⟩ := flows.of_session found
      rw [opened, Option.some.injEq] at openedAgain
      subst openedAgain
      simp only [if_true, found, sent]
      exact .registered (.inl ⟨rfl, rfl⟩) taken
    · simp only [if_neg same]
      exact flows.stands other
  · intro other someSocket isOpen watched readable
    simp only [EpollMgr.add_sockets opened] at isOpen
    split at isOpen
    · cases isOpen
      exact .inl (decide_eq_true readable)
    · exact flows.awake other someSocket isOpen watched readable
  · exact flows.drained
  · exact flows.nodup
  · exact fun other member => kept other (flows.listed other member)
  · intro other here
    obtain ⟨watched, handled⟩ := flows.current other here
    exact ⟨kept other watched, handled⟩
  · exact flows.passed
  · exact flows.producer
  · exact flows.queue_quiet rfl rfl

/-- The kernel changes a connection and leaves it watched if it was. -/
theorem Flows.kept_watched (socket changed : Socket)
    (opened : state.epoll.sockets fd = some socket) (watched : changed.watched = socket.watched)
    {other : Fd} (isWatched : state.Watched other) :
    Watched { state with epoll := state.epoll.set fd (some changed) } other := by
  obtain ⟨before, session, openedBefore, watchedBefore, found⟩ := isWatched
  by_cases same : other = fd
  · subst same
    rw [opened, Option.some.injEq] at openedBefore
    subst openedBefore
    exact ⟨changed, session, (EpollMgr.set_sockets _ _ _ _).trans (if_pos rfl),
      watched.trans watchedBefore, found⟩
  · exact ⟨before, session, (EpollMgr.set_sockets _ _ _ _).trans
      ((if_neg same).trans openedBefore), watchedBefore, found⟩

/-- Something happens to a connection, and the kernel puts it on the ready list if it is watched. -/
theorem Flows.happens (flows : state.Flows past) {socket changed : Socket} {bytes : List UInt8}
    (opened : state.epoll.sockets fd = some socket) (watched : changed.watched = socket.watched)
    (ready : changed.ready = (socket.ready || socket.watched))
    (unread : changed.unread = socket.unread ++ bytes)
    (arrives : ∀ other, report.arrives other (stream past other) =
      if other = fd then stream past other ++ bytes else stream past other)
    (pushes : ∀ other, report.pushes other (pushedFor past other) = pushedFor past other)
    (puts : report.puts = none) (takes : report.takes = none) :
    Flows { state with epoll := state.epoll.set fd (some changed) } (past ++ [report]) := by
  constructor
  · intro other
    simp only [stream_snoc, pushedFor_snoc, arrives, pushes, EpollMgr.set_sockets]
    by_cases same : other = fd
    · subst same
      simp only [if_true]
      cases found : state.sessions.sessions other with
      | none =>
        obtain ⟨traderId, handler, unwatched, arrived, sent⟩ := flows.of_unregistered opened found
        rw [handler, sent, arrived, ← unread]
        exact .answered (watched.trans unwatched)
      | some session =>
        obtain ⟨again, frames, openedAgain, handled, taken, sent⟩ := flows.of_session found
        rw [opened, Option.some.injEq] at openedAgain
        subst openedAgain
        rw [sent]
        refine .registered (by rw [watched]; exact handled) ?_
        rw [unread, ← List.append_assoc]
        exact taken.append bytes
    · simp only [if_neg same]
      exact flows.stands other
  · intro other someSocket isOpen isWatched readable
    simp only [EpollMgr.set_sockets] at isOpen
    split at isOpen
    · cases isOpen
      rw [watched] at isWatched
      exact .inl (by rw [ready, isWatched, Bool.or_true])
    · exact flows.awake other someSocket isOpen isWatched readable
  · exact flows.drained
  · exact flows.nodup
  · exact fun other member => kept_watched socket changed opened watched (flows.listed other member)
  · intro other here
    obtain ⟨isWatched, handled⟩ := flows.current other here
    exact ⟨kept_watched socket changed opened watched isWatched, handled⟩
  · exact flows.passed
  · exact flows.producer
  · exact flows.queue_quiet puts takes

/-- `epoll_wait` moves descriptors from the ready list to the events of a round. -/
theorem Flows.wait (flows : state.Flows past) (looping : state.point = .looping)
    (handled : state.events = []) {epoll : EpollMgr} {fds : List Fd} {events : List EpollEvent}
    (reported : EpollMgr.Reported state.epoll epoll fds events) :
    Flows { state with epoll := epoll, events := events } (past ++ [.nothing]) := by
  constructor
  · intro other
    simp only [stream_snoc, pushedFor_snoc, Report.arrives, Report.pushes, reported.sockets]
    have stands := flows.stands other
    generalize state.handlers other = handler, state.epoll.sockets other = open_,
      state.sessions.sessions other = session, stream past other = arrived,
      pushedFor past other = sent at stands ⊢
    cases stands with
    | closed => exact .closed
    | @answered _ socket unwatched =>
      rw [Option.map_some]
      split
      · exact @Stands.answered _ { socket with ready := false } unwatched
      · exact .answered unwatched
    | @registered _ socket _ _ _ handled taken =>
      rw [Option.map_some]
      split
      · exact @Stands.registered _ { socket with ready := false } _ _ _ handled taken
      · exact .registered handled taken
  · intro other socket opened watched readable
    simp only [reported.sockets, Option.map_eq_some_iff] at opened
    obtain ⟨before, openedBefore, rfl⟩ := opened
    by_cases member : other ∈ fds
    · exact .inr (.inl (by rw [reported.fds_eq]; exact member))
    · rw [if_neg member] at watched readable ⊢
      rcases flows.awake other before openedBefore watched readable with ready | listed | reading
      · exact .inl ready
      · rw [handled] at listed
        contradiction
      · exact .inr (.inr reading)
  · exact flows.drained
  · rw [reported.fds_eq]
    exact reported.nodup
  · intro other member
    rw [reported.fds_eq] at member
    obtain ⟨socket, opened, watched, ready⟩ := reported.listed other member
    have found : ∃ session, state.sessions.sessions other = some session := by
      cases found : state.sessions.sessions other with
      | none =>
        obtain ⟨-, -, unwatched, -⟩ := flows.of_unregistered opened found
        rw [watched] at unwatched
        contradiction
      | some session => exact ⟨session, rfl⟩
    obtain ⟨session, found⟩ := found
    refine ⟨{ socket with ready := false }, session, ?_, watched, found⟩
    change epoll.sockets other = _
    rw [reported.sockets, opened, Option.map_some, if_pos member]
  · intro other here
    simp only [looping, Point.fd] at here
    contradiction
  · intro other raw rest here
    simp only [looping] at here
    contradiction
  · exact flows.producer
  · exact flows.queue_quiet rfl rfl

/-- The handler of a watched connection has returned. -/
theorem Flows.handler_of_watched (flows : state.Flows past) (watched : state.Watched fd) :
    state.handlers fd = none := by
  obtain ⟨socket, session, opened, isWatched, found⟩ := watched
  obtain ⟨again, -, openedAgain, handled, -⟩ := flows.of_session found
  rw [opened, Option.some.injEq] at openedAgain
  subst openedAgain
  rcases handled with ⟨none, -⟩ | ⟨-, unwatched⟩
  · exact none
  · rw [isWatched] at unwatched
    contradiction

/-- The epoll thread closes a connection and goes on without it. -/
theorem Flows.closes (flows : state.Flows past) (watched : state.Watched fd) {epoll : EpollMgr}
    (sockets : ∀ other, epoll.sockets other =
      if other = fd then none else state.epoll.sockets other)
    {point : Point} (away : point.fd = none)
    (only : ∀ other, state.point.fd = some other → other = fd)
    (unpushed : ∀ other raw rest, state.point ≠ .pushing other raw rest)
    {events : List EpollEvent} (fewer : List.Sublist (events.map EpollEvent.fd)
      (state.events.map EpollEvent.fd)) (gone : fd ∉ events.map EpollEvent.fd)
    (others : ∀ other ≠ fd, other ∈ state.events.map EpollEvent.fd →
      other ∈ events.map EpollEvent.fd) :
    Flows { state with
      epoll := epoll
      sessions := state.sessions.remove fd
      point := point
      events := events } (past ++ [.nothing]) := by
  constructor
  · intro other
    simp only [stream_snoc, pushedFor_snoc, Report.arrives, Report.pushes, sockets,
      SessionManager.remove_sessions]
    by_cases same : other = fd
    · subst same
      simp only [if_true, flows.handler_of_watched watched]
      exact .closed
    · simp only [if_neg same]
      exact flows.stands other
  · intro other socket opened isWatched readable
    simp only [sockets] at opened
    split at opened
    · contradiction
    · rename_i apart
      rcases flows.awake other socket opened isWatched readable with ready | listed | reading
      · exact .inl ready
      · exact .inr (.inl (others other apart listed))
      · exact absurd (only other (by rw [reading]; rfl)) apart
  · intro other session found _
    simp only [SessionManager.remove_sessions] at found
    split at found
    · contradiction
    · rename_i apart
      exact flows.drained other session found fun here => apart (only other here)
  · exact fewer.nodup flows.nodup
  · intro other member
    have apart : other ≠ fd := by
      rintro rfl
      exact gone member
    exact (flows.listed other (fewer.subset member)).of_same ((sockets other).trans (if_neg apart))
      ((SessionManager.remove_sessions _ _ _).trans (if_neg apart))
  · intro other here
    change point.fd = some other at here
    rw [away] at here
    contradiction
  · intro other raw rest here
    change point = _ at here
    rw [here] at away
    contradiction
  · intro item carries
    obtain ⟨other, rest, here⟩ := flows.producer item carries
    exact absurd here (unpushed other item rest)
  · exact flows.queue_quiet rfl rfl

/-- The next event of a round is handled. -/
theorem Flows.dispatch (flows : state.Flows past) (looping : state.point = .looping)
    (stepped : state.dispatch = some (next, report)) : next.Flows (past ++ [report]) := by
  cases pending : state.events with
  | nil => simp [Pipeline.dispatch, pending] at stepped
  | cons event events =>
    have member : event.fd ∈ state.events.map EpollEvent.fd := by simp [pending]
    have watched := flows.listed event.fd member
    have unique := flows.nodup
    rw [pending, List.map_cons, List.nodup_cons] at unique
    have fewer : List.Sublist (events.map EpollEvent.fd) (state.events.map EpollEvent.fd) := by
      rw [pending, List.map_cons]
      exact List.sublist_cons_self _ _
    have others (other : Fd) (apart : other ≠ event.fd)
        (listed : other ∈ state.events.map EpollEvent.fd) : other ∈ events.map EpollEvent.fd := by
      rw [pending, List.map_cons, List.mem_cons] at listed
      exact listed.resolve_left apart
    simp only [Pipeline.dispatch, pending] at stepped
    split at stepped
    · simp only [Option.some.injEq, Prod.mk.injEq] at stepped
      obtain ⟨rfl, rfl⟩ := stepped
      refine flows.closes watched (EpollMgr.close_sockets state.epoll event.fd) ?_ ?_ ?_ fewer
        unique.1 others
      · rw [looping]
        rfl
      · simp [looping, Point.fd]
      · simp [looping]
    · obtain ⟨socket, session, opened, isWatched, found⟩ := watched
      simp only [SessionManager.getSession, found, Option.some.injEq, Prod.mk.injEq] at stepped
      obtain ⟨rfl, rfl⟩ := stepped
      refine ⟨flows.stands_quiet, ?_, ?_, unique.2, ?_, ?_, by simp, ?_, flows.queue_quiet rfl rfl⟩
      · intro other someSocket isOpen someWatched readable
        rcases flows.awake other someSocket isOpen someWatched readable with
          ready | listed | reading
        · exact .inl ready
        · by_cases same : other = event.fd
          · exact .inr (.inr (by rw [same]))
          · exact .inr (.inl (others other same listed))
        · rw [looping] at reading
          contradiction
      · intro other someSession someFound _
        exact flows.drained other someSession someFound (by simp [looping, Point.fd])
      · exact fun other listed => flows.listed other (fewer.subset listed)
      · intro other here
        cases here
        exact ⟨⟨socket, session, opened, isWatched, found⟩, unique.1⟩
      · intro item carries
        obtain ⟨other, rest, here⟩ := flows.producer item carries
        rw [looping] at here
        contradiction

/-- One `recv` of the data callback. -/
theorem Flows.read (flows : state.Flows past) (reading : state.point = .reading fd) {count : Nat}
    (stepped : state.read fd count = some (next, report)) : next.Flows (past ++ [report]) := by
  have ⟨watched, handled⟩ := flows.current fd (by rw [reading]; rfl)
  obtain ⟨socket, session, opened, isWatched, found⟩ := watched
  have idle (item : RawMessage) (carries : state.queue.producer.item = some item) : False := by
    obtain ⟨other, rest, here⟩ := flows.producer item carries
    rw [reading] at here
    contradiction
  simp only [Pipeline.read, opened, SessionManager.getSession, found] at stepped
  split at stepped
  · rename_i nothingUnread
    have ends (ended : (some ({ state with
          epoll := (state.epoll.remove fd).close fd
          sessions := state.sessions.remove fd
          point := .dangling }, Report.nothing) : Option (Pipeline × Report)) =
        some (next, report)) : next.Flows (past ++ [report]) := by
      simp only [Option.some.injEq, Prod.mk.injEq] at ended
      obtain ⟨rfl, rfl⟩ := ended
      refine flows.closes ⟨socket, session, opened, isWatched, found⟩
        (EpollMgr.close_remove_sockets state.epoll fd) rfl ?_ ?_ (List.Sublist.refl _) handled
        (fun _ _ listed => listed)
      · intro other here
        rw [reading] at here
        cases here
        rfl
      · simp [reading]
    split at stepped
    · rename_i waiting
      simp only [Option.some.injEq, Prod.mk.injEq] at stepped
      obtain ⟨rfl, rfl⟩ := stepped
      refine ⟨flows.stands_quiet, ?_, ?_, flows.nodup, flows.listed, ?_, by simp, ?_,
        flows.queue_quiet rfl rfl⟩
      · intro other someSocket isOpen someWatched readable
        rcases flows.awake other someSocket isOpen someWatched readable with
          ready | listed | same
        · exact .inl ready
        · exact .inr (.inl listed)
        · -- `EAGAIN`: there is nothing to report on this connection
          rw [reading, Point.reading.injEq] at same
          subst same
          rw [opened, Option.some.injEq] at isOpen
          subst isOpen
          rcases readable with unread | last
          · exact absurd nothingUnread unread
          · exact absurd waiting last
      · intro other someSession someFound apart
        exact flows.drained other someSession someFound (by rw [reading]; exact apart)
      · intro other here
        exact flows.current other (by rw [reading]; exact here)
      · exact fun item carries => (idle item carries).elim
    · exact ends stepped
    · exact ends stepped
  · split at stepped
    · simp only [Option.some.injEq, Prod.mk.injEq] at stepped
      obtain ⟨rfl, rfl⟩ := stepped
      have buffers := SessionManager.setBuffer_sessions found
        (session.recvBuffer ++ socket.unread.take count)
      have kept (other : Fd) (someWatched : state.Watched other) : Watched { state with
          epoll := state.epoll.set fd (some (socket.take count))
          sessions := state.sessions.setBuffer fd
            (session.recvBuffer ++ socket.unread.take count) } other := by
        by_cases same : other = fd
        · subst same
          exact ⟨_, _, (EpollMgr.set_sockets _ _ _ _).trans (if_pos rfl), isWatched,
            (buffers other).trans (if_pos rfl)⟩
        · exact someWatched.of_same ((EpollMgr.set_sockets _ _ _ _).trans (if_neg same))
            ((buffers other).trans (if_neg same))
      constructor
      · intro other
        simp only [stream_snoc, pushedFor_snoc, Report.arrives, Report.pushes,
          EpollMgr.set_sockets, buffers]
        by_cases same : other = fd
        · subst same
          obtain ⟨again, frames, openedAgain, handled, taken, sent⟩ := flows.of_session found
          rw [opened, Option.some.injEq] at openedAgain
          subst openedAgain
          simp only [if_true, sent]
          refine @Stands.registered _ (socket.take count)
            { session with recvBuffer := session.recvBuffer ++ socket.unread.take count } _ frames
            handled ?_
          change Taken messageCutter (stream past other) frames
            (session.recvBuffer ++ socket.unread.take count ++ socket.unread.drop count)
          rw [List.append_assoc, List.take_append_drop]
          exact taken
        · simp only [if_neg same]
          exact flows.stands other
      · intro other someSocket isOpen someWatched readable
        simp only [EpollMgr.set_sockets] at isOpen
        split at isOpen
        · rename_i same
          exact .inr (.inr (by rw [same]; exact reading))
        · exact flows.awake other someSocket isOpen someWatched readable
      · intro other someSession someFound apart
        simp only [buffers] at someFound
        split at someFound
        · rename_i same
          exact absurd (by simp only [reading, same]; rfl) apart
        · exact flows.drained other someSession someFound apart
      · exact flows.nodup
      · exact fun other listed => kept other (flows.listed other listed)
      · intro other here
        obtain ⟨someWatched, someHandled⟩ := flows.current other here
        exact ⟨kept other someWatched, someHandled⟩
      · simp [reading]
      · exact fun item carries => (idle item carries).elim
      · exact flows.queue_quiet rfl rfl
    · contradiction

/-- The framing loop gives up the first frame of the buffer, pushed or dropped. -/
theorem Flows.erases (flows : state.Flows past) (here : state.point.fd = some fd)
    {session : ClientSession} (found : state.sessions.sessions fd = some session)
    {raw? : Option RawMessage} {rest : List UInt8} (passes : framePass session = some (raw?, rest))
    (unread : state.point ≠ .reading fd)
    (arrives : ∀ other, report.arrives other (stream past other) = stream past other)
    (pushes : ∀ other, report.pushes other (pushedFor past other) =
      if other = fd then pushedFor past other ++ raw?.toList else pushedFor past other)
    {queue : SPSCQueue.Threads RawMessage rawCapacity} (idle : queue.producer.item = none)
    (follows : queue.Follows (pushed (past ++ [report])) (popped (past ++ [report]))) :
    Flows { state with
      queue := queue
      sessions := state.sessions.setBuffer fd rest
      point := .framing fd } (past ++ [report]) := by
  have ⟨watched, handled⟩ := flows.current fd here
  have buffers := SessionManager.setBuffer_sessions found rest
  have kept (other : Fd) (someWatched : state.Watched other) : Watched { state with
      queue := queue
      sessions := state.sessions.setBuffer fd rest
      point := .framing fd } other := by
    by_cases same : other = fd
    · subst same
      obtain ⟨socket, session, opened, isWatched, -⟩ := someWatched
      exact ⟨socket, _, opened, isWatched, (buffers other).trans (if_pos rfl)⟩
    · exact someWatched.of_same rfl ((buffers other).trans (if_neg same))
  constructor
  · intro other
    simp only [stream_snoc, pushedFor_snoc, arrives, pushes, buffers]
    by_cases same : other = fd
    · subst same
      obtain ⟨socket, frames, opened, handled, taken, sent⟩ := flows.of_session found
      obtain ⟨length, complete, rfl⟩ := cut_of_framePass passes
      rw [framePass_of_complete complete, Option.some.injEq, Prod.mk.injEq] at passes
      obtain ⟨rfl, -⟩ := passes
      have received := messageCutter.received complete
      have more := taken.next (messageCutter.settled complete socket.unread)
      rw [List.take_append_of_le_length received, List.drop_append_of_le_length received] at more
      simp only [if_true, opened, sent]
      have sends : frames.filterMap (RawMessage.ofFrame session.traderId) ++
          (RawMessage.ofFrame session.traderId (session.recvBuffer.take length)).toList =
          (frames ++ [session.recvBuffer.take length]).filterMap
            (RawMessage.ofFrame session.traderId) := by
        cases made : RawMessage.ofFrame session.traderId (session.recvBuffer.take length) <;>
          simp [made]
      rw [sends]
      exact @Stands.registered _ socket
        { session with recvBuffer := session.recvBuffer.drop length } _ _ handled more
    · simp only [if_neg same]
      exact flows.stands other
  · intro other socket opened isWatched readable
    rcases flows.awake other socket opened isWatched readable with ready | listed | reading
    · exact .inl ready
    · exact .inr (.inl listed)
    · rw [reading] at here
      cases here
      exact absurd reading unread
  · intro other someSession someFound apart
    simp only [buffers] at someFound
    split at someFound
    · rename_i same
      exact absurd (by rw [same]; rfl) apart
    · refine flows.drained other someSession someFound ?_
      rw [here]
      exact apart
  · exact flows.nodup
  · exact fun other listed => kept other (flows.listed other listed)
  · intro other same
    cases same
    exact ⟨kept fd watched, handled⟩
  · simp
  · intro item carries
    rw [show queue.producer.item = some item from carries] at idle
    contradiction
  · exact follows

/-- One pass of the framing loop, up to the push. -/
theorem Flows.frame (flows : state.Flows past) (framing : state.point = .framing fd)
    (stepped : state.frame fd = some (next, report)) : next.Flows (past ++ [report]) := by
  have here : state.point.fd = some fd := by
    rw [framing]
    rfl
  have ⟨watched, handled⟩ := flows.current fd here
  obtain ⟨socket, session, opened, isWatched, found⟩ := watched
  have idle : state.queue.producer.item = none := by
    cases carries : state.queue.producer.item with
    | none => rfl
    | some item =>
      obtain ⟨other, rest, pushing⟩ := flows.producer item carries
      rw [framing] at pushing
      contradiction
  simp only [Pipeline.frame, SessionManager.getSession, found] at stepped
  cases passes : framePass session with
  | none =>
    simp only [passes, Option.some.injEq, Prod.mk.injEq] at stepped
    obtain ⟨rfl, rfl⟩ := stepped
    refine ⟨flows.stands_quiet, ?_, ?_, flows.nodup, flows.listed, ?_, by simp, ?_,
      flows.queue_quiet rfl rfl⟩
    · intro other someSocket isOpen someWatched readable
      rcases flows.awake other someSocket isOpen someWatched readable with ready | listed | reading
      · exact .inl ready
      · exact .inr (.inl listed)
      · rw [framing] at reading
        contradiction
    · intro other someSession someFound _
      by_cases same : other = fd
      · subst same
        rw [found, Option.some.injEq] at someFound
        subst someFound
        cases complete : messageCutter.cut session.recvBuffer with
        | none => rfl
        | some length =>
          rw [framePass_of_complete complete] at passes
          contradiction
      · refine flows.drained other someSession someFound ?_
        rw [here, ne_eq, Option.some.injEq]
        exact Ne.symm same
    · simp [Point.fd]
    · intro item carries
      rw [show state.queue.producer.item = some item from carries] at idle
      contradiction
  | some pass =>
    obtain ⟨raw?, rest⟩ := pass
    cases raw? with
    | none =>
      simp only [passes, Option.some.injEq, Prod.mk.injEq] at stepped
      obtain ⟨rfl, rfl⟩ := stepped
      have erased : Flows { state with
          queue := state.queue
          sessions := state.sessions.setBuffer fd rest
          point := .framing fd } (past ++ [.nothing]) :=
        flows.erases here found passes (by simp [framing]) (fun _ => rfl) (by simp [Report.pushes])
          idle (flows.queue_quiet rfl rfl)
      rw [← framing] at erased
      exact erased
    | some raw =>
      simp only [passes, Option.some.injEq, Prod.mk.injEq] at stepped
      obtain ⟨rfl, rfl⟩ := stepped
      refine ⟨flows.stands_quiet, ?_, ?_, flows.nodup, flows.listed, ?_, ?_, ?_,
        flows.queue_quiet rfl rfl⟩
      · intro other someSocket isOpen someWatched readable
        rcases flows.awake other someSocket isOpen someWatched readable with
          ready | listed | reading
        · exact .inl ready
        · exact .inr (.inl listed)
        · rw [framing] at reading
          contradiction
      · intro other someSession someFound apart
        exact flows.drained other someSession someFound (by rw [framing]; exact apart)
      · intro other same
        exact flows.current other (by rw [framing]; exact same)
      · intro other otherRaw otherRest same
        cases same
        exact ⟨session, found, passes⟩
      · intro item carries
        rw [show state.queue.producer.item = some item from carries] at idle
        contradiction

/-- What a step of the queue does to the item that its producer carries, and what it completes. -/
theorem producer_step {queue after : SPSCQueue.Threads RawMessage rawCapacity}
    {raw : RawMessage} {completed : SPSCQueue.Completed RawMessage}
    (stepped : queue.step (if queue.producer = .idle then .push raw else .producer) =
      some (after, completed))
    (carries : ∀ item, queue.producer.item = some item → item = raw) :
    after.consumer = queue.consumer ∧
    (completed = .pushed raw ∧ after.producer = .idle ∨
      completed = .pushFailed raw ∧ after.producer = .idle ∨
      completed = .nothing ∧ after.producer.item = some raw) := by
  cases producer : queue.producer with
  | idle =>
    simp only [producer, if_true, SPSCQueue.Threads.step, Option.some.injEq,
      Prod.mk.injEq] at stepped
    obtain ⟨rfl, rfl⟩ := stepped
    exact ⟨rfl, .inr (.inr ⟨rfl, rfl⟩)⟩
  | loaded item head =>
    have same : item = raw := carries item (by rw [producer]; rfl)
    subst same
    simp only [producer, reduceCtorEq, if_false, SPSCQueue.Threads.step,
      SPSCQueue.Threads.producerStep] at stepped
    split at stepped
    · cases stepped
      exact ⟨rfl, .inr (.inl ⟨rfl, rfl⟩)⟩
    · cases stepped
      exact ⟨rfl, .inr (.inr ⟨rfl, rfl⟩)⟩
  | checked item head =>
    have same : item = raw := carries item (by rw [producer]; rfl)
    subst same
    simp only [producer, reduceCtorEq, if_false, SPSCQueue.Threads.step,
      SPSCQueue.Threads.producerStep, Option.some.injEq, Prod.mk.injEq] at stepped
    obtain ⟨rfl, rfl⟩ := stepped
    exact ⟨rfl, .inr (.inr ⟨rfl, rfl⟩)⟩
  | written item head =>
    have same : item = raw := carries item (by rw [producer]; rfl)
    subst same
    simp only [producer, reduceCtorEq, if_false, SPSCQueue.Threads.step,
      SPSCQueue.Threads.producerStep, Option.some.injEq, Prod.mk.injEq] at stepped
    obtain ⟨rfl, rfl⟩ := stepped
    exact ⟨rfl, .inl ⟨rfl, rfl⟩⟩

/-- A step of the consumer leaves the producer alone. -/
theorem consumer_step {queue after : SPSCQueue.Threads RawMessage rawCapacity}
    {completed : SPSCQueue.Completed RawMessage}
    (stepped : queue.step (if queue.consumer = .idle then .pop else .consumer) =
      some (after, completed)) :
    after.producer = queue.producer ∧
    (completed = .nothing ∨ completed = .popFailed ∨ ∃ item, completed = .popped item) := by
  cases consumer : queue.consumer with
  | idle =>
    simp only [consumer, if_true, SPSCQueue.Threads.step, Option.some.injEq,
      Prod.mk.injEq] at stepped
    obtain ⟨rfl, rfl⟩ := stepped
    exact ⟨rfl, .inl rfl⟩
  | loaded tail =>
    simp only [consumer, reduceCtorEq, if_false, SPSCQueue.Threads.step,
      SPSCQueue.Threads.consumerStep] at stepped
    split at stepped
    · cases stepped
      exact ⟨rfl, .inr (.inl rfl)⟩
    · cases stepped
      exact ⟨rfl, .inl rfl⟩
  | checked tail =>
    simp only [consumer, reduceCtorEq, if_false, SPSCQueue.Threads.step,
      SPSCQueue.Threads.consumerStep, Option.some.injEq, Prod.mk.injEq] at stepped
    obtain ⟨rfl, rfl⟩ := stepped
    exact ⟨rfl, .inl rfl⟩
  | taken tail item =>
    simp only [consumer, reduceCtorEq, if_false, SPSCQueue.Threads.step,
      SPSCQueue.Threads.consumerStep, Option.some.injEq, Prod.mk.injEq] at stepped
    obtain ⟨rfl, rfl⟩ := stepped
    exact ⟨rfl, .inr (.inr ⟨item, rfl⟩)⟩

/-- The queue is at another point of the calls on it. -/
theorem Flows.queued (flows : state.Flows past)
    {queue : SPSCQueue.Threads RawMessage rawCapacity}
    (carries : ∀ item, queue.producer.item = some item →
      ∃ fd rest, state.point = .pushing fd item rest)
    (arrives : ∀ other, report.arrives other (stream past other) = stream past other)
    (pushes : ∀ other, report.pushes other (pushedFor past other) = pushedFor past other)
    (follows : queue.Follows (pushed (past ++ [report])) (popped (past ++ [report]))) :
    Flows { state with queue := queue } (past ++ [report]) where
  stands := by
    intro other
    rw [stream_snoc, pushedFor_snoc, arrives, pushes]
    exact flows.stands other
  awake := flows.awake
  drained := flows.drained
  nodup := flows.nodup
  listed := flows.listed
  current := flows.current
  passed := flows.passed
  producer := carries
  queue := follows

/-- One atomic step of `push`. -/
theorem Flows.push (flows : state.Flows past) {raw : RawMessage} {rest : List UInt8}
    (pushing : state.point = .pushing fd raw rest)
    (stepped : state.push fd raw rest = some (next, report)) : next.Flows (past ++ [report]) := by
  obtain ⟨session, found, passes⟩ := flows.passed fd raw rest pushing
  have carries (item : RawMessage) (carried : state.queue.producer.item = some item) :
      item = raw := by
    obtain ⟨other, otherRest, same⟩ := flows.producer item carried
    rw [pushing, Point.pushing.injEq] at same
    exact same.2.1.symm
  simp only [Pipeline.push] at stepped
  cases turned : state.queue.step
      (if state.queue.producer = .idle then .push raw else .producer) with
  | none => simp [turned] at stepped
  | some taken =>
    obtain ⟨queue, completed⟩ := taken
    simp only [turned, bind, Option.bind] at stepped
    have follows := flows.queue.step turned
    obtain ⟨-, ⟨rfl, idle⟩ | ⟨rfl, idle⟩ | ⟨rfl, carried⟩⟩ := producer_step turned carries
    · simp only [Option.some.injEq, Prod.mk.injEq] at stepped
      obtain ⟨rfl, rfl⟩ := stepped
      refine flows.erases (by rw [pushing]; rfl) found passes (by simp [pushing]) (fun _ => rfl) ?_
        (by rw [idle]; rfl) ?_
      · intro other
        simp only [Report.pushes, Option.toList_some, @eq_comm Fd fd other]
      · rw [pushed_snoc, popped_snoc]
        exact follows
    · simp only [Option.some.injEq, Prod.mk.injEq] at stepped
      obtain ⟨rfl, rfl⟩ := stepped
      refine flows.queued ?_ (fun _ => rfl) (fun _ => rfl) ?_
      · intro item carried
        rw [idle] at carried
        contradiction
      · rw [pushed_snoc, popped_snoc]
        exact follows
    · simp only [Option.some.injEq, Prod.mk.injEq] at stepped
      obtain ⟨rfl, rfl⟩ := stepped
      refine flows.queued ?_ (fun _ => rfl) (fun _ => rfl) ?_
      · intro item again
        rw [carried, Option.some.injEq] at again
        subst again
        exact ⟨fd, rest, pushing⟩
      · rw [pushed_snoc, popped_snoc]
        exact follows

/-- One atomic step of the matching thread. -/
theorem Flows.matching (flows : state.Flows past)
    (stepped : state.matchingStep = some (next, report)) : next.Flows (past ++ [report]) := by
  simp only [Pipeline.matchingStep] at stepped
  cases turned : state.queue.step
      (if state.queue.consumer = .idle then .pop else .consumer) with
  | none => simp [turned] at stepped
  | some taken =>
    obtain ⟨queue, completed⟩ := taken
    simp only [turned, bind, Option.bind] at stepped
    have follows := flows.queue.step turned
    obtain ⟨producer, rfl | rfl | ⟨item, rfl⟩⟩ := consumer_step turned
    all_goals
      simp only [Option.some.injEq, Prod.mk.injEq] at stepped
      obtain ⟨rfl, rfl⟩ := stepped
      refine flows.queued ?_ (fun _ => rfl) (fun _ => rfl) ?_
      · intro item carried
        rw [producer] at carried
        exact flows.producer item carried
      · rw [pushed_snoc, popped_snoc]
        exact follows

/-- Every step of every thread and of the network keeps what holds between them. -/
theorem Flows.step (flows : state.Flows past) {event : Event}
    (stepped : state.step event = some (next, report)) : next.Flows (past ++ [report]) := by
  cases event with
  | login fd traderId =>
    simp only [Pipeline.step] at stepped
    split at stepped
    · rename_i free
      cases stepped
      exact flows.login free.2 traderId
    · contradiction
  | register fd =>
    simp only [Pipeline.step] at stepped
    split at stepped
    · rename_i handler
      cases stepped
      exact flows.register handler
    · contradiction
  | watch fd =>
    simp only [Pipeline.step] at stepped
    split at stepped
    · rename_i handler
      cases stepped
      exact flows.watch handler
    · contradiction
  | arrive fd bytes =>
    cases opened : state.epoll.sockets fd with
    | none => simp [Pipeline.step, opened] at stepped
    | some socket =>
      simp only [Pipeline.step, opened] at stepped
      split at stepped
      · cases stepped
        refine flows.happens opened rfl rfl rfl ?_ (fun _ => rfl) rfl rfl
        intro other
        simp only [Report.arrives, @eq_comm Fd fd other]
      · contradiction
  | finish fd last =>
    cases opened : state.epoll.sockets fd with
    | none => simp [Pipeline.step, opened] at stepped
    | some socket =>
      simp only [Pipeline.step, opened] at stepped
      split at stepped
      · cases stepped
        refine flows.happens opened rfl rfl (List.append_nil _).symm ?_ (fun _ => rfl) rfl rfl
        intro other
        simp only [Report.arrives, List.append_nil, ite_self]
      · contradiction
  | wait fds =>
    simp only [Pipeline.step] at stepped
    split at stepped
    · rename_i at_head
      cases waited : state.epoll.wait fds with
      | none => simp [waited] at stepped
      | some result =>
        obtain ⟨epoll, events⟩ := result
        simp only [waited, bind, Option.bind, Option.some.injEq, Prod.mk.injEq] at stepped
        obtain ⟨rfl, rfl⟩ := stepped
        simp only [EpollMgr.wait] at waited
        split at waited
        · exact flows.wait at_head.1 at_head.2 (EpollMgr.reportAll_spec fds state.epoll waited)
        · contradiction
    · contradiction
  | epoll count =>
    simp only [Pipeline.step, Pipeline.epollStep] at stepped
    split at stepped
    · exact flows.dispatch ‹_› stepped
    · exact flows.read ‹_› stepped
    · exact flows.frame ‹_› stepped
    · exact flows.push ‹_› stepped
    · contradiction
  | matching => exact flows.matching stepped

/-- What holds between the threads holds in every reached state. -/
theorem flows_of_run {events : List Event} {reports : List Report}
    (ran : run Pipeline.step new events = some (state, reports)) : state.Flows reports := by
  have whole := run_history Flows (fun _ _ _ _ _ flows stepped => flows.step stepped)
    events new state [] reports flows_new ran
  rwa [List.nil_append] at whole

/-- In every order of the steps, the messages that the matching thread has popped are the first of
those pushed, at most 65535 wait, and the bytes that have arrived on a connection are its frames,
then those its session buffers, then those not yet received. Pushed for it, in order and each once,
are the frames that fit into an envelope; longer ones have been dropped. -/
theorem run_exactly_once {events : List Event} {reports : List Report}
    (ran : run Pipeline.step new events = some (state, reports)) :
    popped reports <+: pushed reports ∧
    (pushed reports).length - (popped reports).length ≤ 65535 ∧
    ∀ fd session, state.sessions.sessions fd = some session →
      ∃ socket frames, state.epoll.sockets fd = some socket ∧
        stream reports fd = frames.flatten ++ session.recvBuffer ++ socket.unread ∧
        Taken messageCutter (stream reports fd) frames (session.recvBuffer ++ socket.unread) ∧
        pushedFor reports fd = frames.filterMap (RawMessage.ofFrame session.traderId) := by
  have flows := flows_of_run ran
  refine ⟨flows.queue.ring.order, flows.queue.observers.2.1, ?_⟩
  intro fd session found
  obtain ⟨socket, frames, opened, -, taken, sent⟩ := flows.of_session found
  refine ⟨socket, frames, opened, ?_, taken, sent⟩
  rw [List.append_assoc]
  exact taken.flatten

/-- A message that arrives in two parts, the second while the data callback is reading. -/
theorem run_exactly_once_in_parts :
    ∃ state reports, run Pipeline.step new
      [.login 5 1, .arrive 5 [3, 0], .register 5, .watch 5, .wait [5], .epoll 0, .epoll 9,
        .arrive 5 [7, 4], .epoll 9, .epoll 9, .epoll 0, .epoll 0, .epoll 0, .epoll 0, .epoll 0] =
          some (state, reports) ∧
      (pushed reports).length = 1 ∧ popped reports <+: pushed reports :=
  ⟨_, _, rfl, rfl, (@run_exactly_once _ [.login 5 1, .arrive 5 [3, 0], .register 5, .watch 5,
    .wait [5], .epoll 0, .epoll 9, .arrive 5 [7, 4], .epoll 9, .epoll 9, .epoll 0, .epoll 0,
    .epoll 0, .epoll 0, .epoll 0] _ rfl).1⟩

/-- The threads have caught up: nothing is on the ready list, no event is left to handle and the
queue is empty. -/
structure Idle (state : Pipeline) : Prop where
  /-- The epoll thread is in `epoll_wait`. -/
  looping : state.point = .looping
  /-- It has no event left. -/
  handled : state.events = []
  /-- No watched descriptor is on the ready list. -/
  quiet : ∀ fd socket, state.epoll.sockets fd = some socket → socket.watched = true →
    socket.ready = false
  /-- The queue is empty. -/
  empty : state.queue.queue.empty = true

/-- When the threads have caught up, nothing waits in the queue and no complete frame is left. -/
theorem Flows.complete (flows : state.Flows past) (idle : state.Idle) :
    popped past = pushed past ∧
    ∀ fd session, state.handlers fd = none → state.sessions.sessions fd = some session →
      ∃ frames, Framed messageCutter (stream past fd) frames session.recvBuffer ∧
        pushedFor past fd = frames.filterMap (RawMessage.ofFrame session.traderId) := by
  refine ⟨?_, ?_⟩
  · have none_waits := flows.queue.observers.2.2.1.mp idle.empty
    exact flows.queue.ring.order.eq_of_length_le (by omega)
  · intro fd session returned found
    obtain ⟨socket, frames, opened, handled, taken, sent⟩ := flows.of_session found
    have watched : socket.watched = true := by
      rcases handled with ⟨-, watched⟩ | ⟨registered, -⟩
      · exact watched
      · rw [returned] at registered
        contradiction
    have unread : socket.unread = [] := by
      by_contra some_unread
      rcases flows.awake fd socket opened watched (.inl some_unread) with ready | listed | reading
      · rw [idle.quiet fd socket opened watched] at ready
        contradiction
      · rw [idle.handled] at listed
        contradiction
      · rw [idle.looping] at reading
        contradiction
    have incomplete := flows.drained fd session found (by simp [idle.looping, Point.fd])
    rw [unread, List.append_nil] at taken
    exact ⟨frames, taken.framed incomplete, sent⟩

/-- Whenever the threads have caught up, every message pushed has been popped, and for every
watched connection every complete frame of all that has arrived has been taken from the buffer and,
unless it is too long for an envelope, pushed: no wakeup is lost. -/
theorem run_idle_complete {events : List Event} {reports : List Report}
    (ran : run Pipeline.step new events = some (state, reports)) (idle : state.Idle) :
    popped reports = pushed reports ∧
    ∀ fd session, state.handlers fd = none → state.sessions.sessions fd = some session →
      ∃ frames, Framed messageCutter (stream reports fd) frames session.recvBuffer ∧
        pushedFor reports fd = frames.filterMap (RawMessage.ofFrame session.traderId) :=
  (flows_of_run ran).complete idle

/-- Bytes that arrive before the descriptor is watched are reported when it is. -/
theorem run_idle_complete_early :
    ∃ state reports, run Pipeline.step new
      [.login 5 1, .arrive 5 [3, 0, 7, 4], .register 5, .watch 5, .wait [5], .epoll 0, .epoll 9,
        .epoll 9, .epoll 0, .epoll 0, .epoll 0, .epoll 0, .epoll 0, .matching, .matching, .matching,
        .matching, .epoll 0] = some (state, reports) ∧
      (pushed reports).length = 1 ∧ popped reports = pushed reports := by
  refine ⟨_, _, rfl, rfl, ?_⟩
  refine (@run_idle_complete _ [.login 5 1, .arrive 5 [3, 0, 7, 4], .register 5, .watch 5,
    .wait [5], .epoll 0, .epoll 9, .epoll 9, .epoll 0, .epoll 0, .epoll 0, .epoll 0, .epoll 0,
    .matching, .matching, .matching, .matching, .epoll 0] _ rfl ⟨rfl, rfl, ?_, rfl⟩).1
  intro fd socket opened watched
  by_cases same : fd = 5
  · subst same
    cases opened
    rfl
  · simp [EpollMgr.set, EpollMgr.add, EpollMgr.new, new, Function.update, same] at opened

end Pipeline

end Exchange
