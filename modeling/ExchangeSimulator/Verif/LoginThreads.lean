import ExchangeSimulator.Library.Run
import ExchangeSimulator.Server.LoginThreads
import ExchangeSimulator.Verif.Sessions

/-!
# Every descriptor is closed once

Until a handler has added its descriptor to the epoll set, exactly one of the
objects made for the connection holds it, and from then on it is the epoll thread
that closes it. Between `epoll.add` and `release` the parameter still holds the
number, and the kernel may already have given it to another connection; this does no
harm, because nothing but `release` is done with it. So every call of `::close`
closes the connection it is made for, no connection is closed twice, and one that is
open belongs to its handler or to the epoll thread.
-/

namespace Exchange

open Library

namespace LoginPoint

/-- `epoll.add` has been passed, or the login was refused and the socket is closed. -/
def late : LoginPoint → Bool
  | .watched _ | .released _ | .left | .finished => true
  | _ => false

/-- `sessions.add` has been passed, or the login was refused and the socket is closed. -/
def registers : LoginPoint → Bool
  | .registered _ | .watched _ | .released _ | .left | .finished => true
  | _ => false

/-- A descriptor is added to the epoll set after its session is registered. -/
theorem registers_of_late {point : LoginPoint} (late : point.late = true) :
    point.registers = true := by
  cases point with
  | accepted | spawned | entered | refused | loggedIn | answered | registered => contradiction
  | watched | released | left | finished => rfl

end LoginPoint

namespace LoginThread

/-- No object, or one that holds nothing. -/
def Empty (socket : Option OwnedSocket) : Prop := socket = none ∨ socket = some ⟨-1⟩

/-- The objects of a connection, by where its handler stands. -/
def Objects (thread : LoginThread) : Prop :=
  match thread.point with
  | .accepted =>
    thread.client = some ⟨thread.fd⟩ ∧ thread.sock = none ∧ thread.param = none
  | .spawned =>
    Empty thread.client ∧ thread.sock = some ⟨thread.fd⟩ ∧ thread.param = none
  | .entered | .refused | .loggedIn _ | .answered _ | .registered _ | .watched _ =>
    Empty thread.client ∧ thread.sock = some ⟨-1⟩ ∧ thread.param = some ⟨thread.fd⟩
  | .released _ => Empty thread.client ∧ thread.sock = some ⟨-1⟩ ∧ thread.param = some ⟨-1⟩
  | .left => Empty thread.client ∧ thread.sock = some ⟨-1⟩ ∧ thread.param = none
  | .finished => Empty thread.client ∧ thread.sock = none ∧ thread.param = none

/-- How many of the objects hold the descriptor of the connection. -/
def holders (thread : LoginThread) : Nat :=
  [thread.client, thread.sock, thread.param].count (some ⟨thread.fd⟩)

/-- Before `epoll.add` it is one. -/
theorem Objects.holders {thread : LoginThread} (objects : thread.Objects) (nonneg : 0 ≤ thread.fd)
    (early : thread.point.late = false) : thread.holders = 1 := by
  have held : ¬some (⟨-1⟩ : OwnedSocket) = some ⟨thread.fd⟩ := by
    intro same
    rw [Option.some.injEq, OwnedSocket.mk.injEq] at same
    rw [← same] at nonneg
    exact absurd nonneg (by decide)
  have idle {socket : Option OwnedSocket} (empty : Empty socket) :
      ¬socket = some ⟨thread.fd⟩ := by
    rcases empty with rfl | rfl
    · simp
    · exact held
  cases point : thread.point with
  | accepted =>
    simp only [Objects, point] at objects
    simp [LoginThread.holders, objects]
  | spawned =>
    simp only [Objects, point] at objects
    simp [LoginThread.holders, objects.2, idle objects.1]
  | entered | refused | loggedIn | answered | registered =>
    simp only [Objects, point] at objects
    simp [LoginThread.holders, objects.2, idle objects.1, held]
  | watched | released | left | finished =>
    rw [point] at early
    contradiction

/-- Once the thread is made, the object of the accept loop holds nothing and can go. -/
theorem Objects.spawned {thread : LoginThread} (objects : thread.Objects)
    (spawned : ¬thread.point = .accepted) :
    Empty thread.client ∧ { thread with client := none }.Objects := by
  obtain ⟨fd, point, client, sock, param⟩ := thread
  cases point with
  | accepted => exact absurd rfl spawned
  | spawned | entered | refused | loggedIn | answered | registered | watched | released | left
  | finished => exact ⟨objects.1, .inl rfl, objects.2⟩

/-- What the kernel, the session manager and epoll know of a connection. -/
structure Stands (thread : LoginThread) (state : LoginThreads) (connection : Nat) : Prop where
  /-- Before `epoll.add` nobody else closes it. -/
  early : thread.point.late = false → state.kernel thread.fd = some connection
  /-- It is in the interest list from when it is added there until the epoll thread takes it out. -/
  watched : state.kernel thread.fd = some connection →
    state.closing ≠ some (thread.fd, connection) → state.interest thread.fd = thread.point.late
  /-- The epoll thread takes out only what has been added. -/
  ended : state.closing = some (thread.fd, connection) → thread.point.late = true
  /-- It has a session from its registration until the epoll thread removes it. -/
  session : state.kernel thread.fd = some connection →
    ((state.sessions.sessions thread.fd).isSome = true ↔
      thread.point.registers = true ∧ state.ending ≠ some (.removed thread.fd connection))

end LoginThread

namespace LoginThreads

/-! ## What a step does -/

/-- The steps, with their guards and what they leave. -/
inductive Does (state : LoginThreads) : Event → LoginThreads → Option Closed → Prop where
  /-- A connection is accepted. -/
  | accepts {fd : Fd} (nonneg : 0 ≤ fd) (free : state.kernel fd = none) :
      Does state (.accept fd) { state with
        kernel := Function.update state.kernel fd (some state.count)
        threads := Function.update state.threads state.count
          (some ⟨fd, .accepted, some ⟨fd⟩, none, none⟩)
        count := state.count + 1
        accepting := some state.count } none
  /-- Its thread is made. -/
  | spawns {connection : Nat} {thread : LoginThread} {client : OwnedSocket}
      (here : state.threads connection = some thread) (point : thread.point = .accepted)
      (held : thread.client = some client) :
      Does state .spawn (state.put connection { thread with
        point := .spawned
        client := some client.move.2
        sock := some client.move.1 }) none
  /-- The accept loop goes on. -/
  | iterates {connection : Nat} {thread : LoginThread}
      (here : state.threads connection = some thread) (spawned : ¬thread.point = .accepted) :
      Does state .iterate { (state.destroy connection thread.client).1.put connection
        { thread with client := none } with accepting := none }
        (state.destroy connection thread.client).2
  /-- The handler is called. -/
  | enters {connection : Nat} {thread : LoginThread} {sock : OwnedSocket}
      (here : state.threads connection = some thread) (point : thread.point = .spawned)
      (held : thread.sock = some sock) :
      Does state (.enter connection) (state.put connection { thread with
        point := .entered
        sock := some sock.move.2
        param := some sock.move.1 }) none
  /-- A login is refused. -/
  | refuses {connection : Nat} {received : List UInt8} {thread : LoginThread}
      (here : state.threads connection = some thread) (point : thread.point = .entered) :
      Does state (.login connection received)
        (state.put connection { thread with point := .refused }) none
  /-- A login is accepted. -/
  | logsIn {connection : Nat} {received : List UInt8} {thread : LoginThread}
      (here : state.threads connection = some thread) (point : thread.point = .entered)
      (traderId : TraderId) :
      Does state (.login connection received)
        (state.put connection { thread with point := .loggedIn traderId }) none
  /-- It is answered. -/
  | responds {connection : Nat} {thread : LoginThread} {traderId : TraderId}
      (here : state.threads connection = some thread) (point : thread.point = .loggedIn traderId) :
      Does state (.respond connection)
        (state.put connection { thread with point := .answered traderId }) none
  /-- The session is registered. -/
  | registers {connection : Nat} {thread : LoginThread} {param : OwnedSocket}
      {traderId : TraderId} (here : state.threads connection = some thread)
      (point : thread.point = .answered traderId) (held : thread.param = some param) :
      Does state (.register connection)
        ({ state with sessions := state.sessions.add param.mFd traderId }.put connection
          { thread with point := .registered traderId }) none
  /-- The descriptor is added to the epoll set. -/
  | watches {connection : Nat} {thread : LoginThread} {param : OwnedSocket} {traderId : TraderId}
      (here : state.threads connection = some thread)
      (point : thread.point = .registered traderId) (held : thread.param = some param) :
      Does state (.watch connection)
        ({ state with interest := Function.update state.interest param.mFd true }.put connection
          { thread with point := .watched traderId }) none
  /-- The parameter releases it. -/
  | releases {connection : Nat} {thread : LoginThread} {param : OwnedSocket} {traderId : TraderId}
      (here : state.threads connection = some thread)
      (point : thread.point = .watched traderId) (held : thread.param = some param) :
      Does state (.release connection) (state.put connection { thread with
        point := .released traderId
        param := some param.release }) none
  /-- The handler returns. -/
  | leaves {connection : Nat} {thread : LoginThread}
      (here : state.threads connection = some thread)
      (point : thread.point = .refused ∨ ∃ traderId, thread.point = .released traderId) :
      Does state (.leave connection) ((state.destroy connection thread.param).1.put connection
        { thread with point := .left, param := none }) (state.destroy connection thread.param).2
  /-- The thread ends. -/
  | finishes {connection : Nat} {thread : LoginThread}
      (here : state.threads connection = some thread) (point : thread.point = .left) :
      Does state (.finish connection) ((state.destroy connection thread.sock).1.put connection
        { thread with point := .finished, sock := none }) (state.destroy connection thread.sock).2
  /-- The data callback takes a descriptor out of the interest list. -/
  | unwatches {fd : Fd} {connection : Nat} (free : state.ending = none)
      (watched : state.interest fd = true) (open_ : state.kernel fd = some connection) :
      Does state (.unwatch fd) { state with
        interest := Function.update state.interest fd false
        ending := some (.unwatched fd connection) } none
  /-- It takes the client out of the session manager. -/
  | hangsUp {fd : Fd} {connection : Nat} (ending : state.ending = some (.unwatched fd connection)) :
      Does state .hangup { state with
        sessions := state.sessions.remove fd
        ending := some (.removed fd connection) } none
  /-- The disconnect callback takes a client out of the session manager. -/
  | disconnects {fd : Fd} {connection : Nat} (free : state.ending = none)
      (watched : state.interest fd = true) (open_ : state.kernel fd = some connection) :
      Does state (.disconnect fd) { state with
        sessions := state.sessions.remove fd
        ending := some (.removed fd connection) } none
  /-- The descriptor is closed. -/
  | closes {fd : Fd} {connection : Nat} (ending : state.ending = some (.removed fd connection)) :
      Does state .close { (state.closeFd fd connection).1 with ending := none }
        (state.closeFd fd connection).2

variable {state next : LoginThreads} {connection : Nat} {thread changed : LoginThread} {fd : Fd}

/-- The step of a handler that closes nothing. -/
theorem advance_eq_some {closed : Option Closed}
    {through : LoginThread → Option (LoginThreads × LoginThread)}
    (advanced : state.advance connection through = some (next, closed)) :
    ∃ thread shared changed, state.threads connection = some thread ∧
      through thread = some (shared, changed) ∧ next = shared.put connection changed ∧
      closed = none := by
  simp only [advance] at advanced
  cases here : state.threads connection with
  | none => simp [here] at advanced
  | some thread =>
    cases went : through thread with
    | none => simp [here, went] at advanced
    | some result =>
      simp only [here, went, bind, Option.bind, Option.some.injEq, Prod.mk.injEq] at advanced
      exact ⟨thread, result.1, result.2, rfl, went, advanced.1.symm, advanced.2.symm⟩

/-- Every step is one of these. -/
theorem does_of_step {event : Event} {closed : Option Closed}
    (stepped : state.step event = some (next, closed)) : state.Does event next closed := by
  cases event with
  | accept fd =>
    simp only [LoginThreads.step] at stepped
    split at stepped
    · rename_i guard
      cases stepped
      exact .accepts guard.2.1 guard.2.2
    · contradiction
  | spawn =>
    simp only [LoginThreads.step] at stepped
    cases accepting : state.accepting with
    | none => simp [accepting] at stepped
    | some connection =>
      simp only [accepting, bind, Option.bind] at stepped
      obtain ⟨thread, shared, changed, here, went, rfl, rfl⟩ := advance_eq_some stepped
      split at went
      · rename_i client point held
        cases went
        exact .spawns here point held
      · contradiction
  | iterate =>
    simp only [LoginThreads.step] at stepped
    cases accepting : state.accepting with
    | none => simp [accepting] at stepped
    | some connection =>
      cases here : state.threads connection with
      | none => simp [accepting, here] at stepped
      | some thread =>
        simp only [accepting, here, bind, Option.bind] at stepped
        split at stepped
        · contradiction
        · rename_i spawned
          cases stepped
          exact .iterates here spawned
  | enter connection =>
    obtain ⟨thread, shared, changed, here, went, rfl, rfl⟩ := advance_eq_some stepped
    split at went
    · rename_i sock point held
      cases went
      exact .enters here point held
    · contradiction
  | login connection received =>
    obtain ⟨thread, shared, changed, here, went, rfl, rfl⟩ := advance_eq_some stepped
    split at went
    · rename_i point
      split at went
      · cases went
        exact .refuses here point
      · rename_i traderId read
        cases went
        exact .logsIn here point traderId
    · contradiction
  | respond connection =>
    obtain ⟨thread, shared, changed, here, went, rfl, rfl⟩ := advance_eq_some stepped
    split at went
    · rename_i traderId point
      cases went
      exact .responds here point
    · contradiction
  | register connection =>
    obtain ⟨thread, shared, changed, here, went, rfl, rfl⟩ := advance_eq_some stepped
    split at went
    · rename_i traderId param point held
      cases went
      exact .registers here point held
    · contradiction
  | watch connection =>
    obtain ⟨thread, shared, changed, here, went, rfl, rfl⟩ := advance_eq_some stepped
    split at went
    · rename_i traderId param point held
      cases went
      exact .watches here point held
    · contradiction
  | release connection =>
    obtain ⟨thread, shared, changed, here, went, rfl, rfl⟩ := advance_eq_some stepped
    split at went
    · rename_i traderId param point held
      cases went
      exact .releases here point held
    · contradiction
  | leave connection =>
    simp only [LoginThreads.step] at stepped
    cases here : state.threads connection with
    | none => simp [here] at stepped
    | some thread =>
      simp only [here, bind, Option.bind] at stepped
      split at stepped
      · rename_i point
        cases stepped
        exact .leaves here (.inl point)
      · rename_i traderId point
        cases stepped
        exact .leaves here (.inr ⟨traderId, point⟩)
      · contradiction
  | finish connection =>
    simp only [LoginThreads.step] at stepped
    cases here : state.threads connection with
    | none => simp [here] at stepped
    | some thread =>
      simp only [here, bind, Option.bind] at stepped
      split at stepped
      · rename_i point
        cases stepped
        exact .finishes here point
      · contradiction
  | unwatch fd =>
    simp only [LoginThreads.step] at stepped
    split at stepped
    · rename_i connection free watched open_
      cases stepped
      exact .unwatches free watched open_
    · contradiction
  | hangup =>
    simp only [LoginThreads.step] at stepped
    split at stepped
    · rename_i fd connection ending
      cases stepped
      exact .hangsUp ending
    · contradiction
  | disconnect fd =>
    simp only [LoginThreads.step] at stepped
    split at stepped
    · rename_i connection free watched open_
      cases stepped
      exact .disconnects free watched open_
    · contradiction
  | close =>
    simp only [LoginThreads.step] at stepped
    split at stepped
    · rename_i fd connection ending
      cases stepped
      exact .closes ending
    · contradiction

/-! ## What holds in every state -/

/-- The client that the epoll thread takes out is the one it is about to close. -/
theorem closing_of_ending {ending : Ending} (held : state.ending = some ending) :
    state.closing = some ending.about := by
  rw [LoginThreads.closing, held]
  rfl

/-- What holds in every reached state. -/
structure Sound (state : LoginThreads) : Prop where
  /-- Each connection is as its handler stands. -/
  each : ∀ connection thread, state.threads connection = some thread →
    connection < state.count ∧ 0 ≤ thread.fd ∧ thread.Objects ∧ thread.Stands state connection
  /-- An open descriptor is that of its connection. -/
  kernel : ∀ fd connection, state.kernel fd = some connection →
    ∃ thread, state.threads connection = some thread ∧ thread.fd = fd
  /-- Only open descriptors are watched. -/
  interest : ∀ fd, state.interest fd = true → state.kernel fd ≠ none
  /-- Only open descriptors have a session. -/
  sessions : ∀ fd, (state.sessions.sessions fd).isSome = true → state.kernel fd ≠ none
  /-- What the epoll thread is about to close is open. -/
  closing : ∀ fd connection, state.closing = some (fd, connection) →
    state.kernel fd = some connection

/-- Nothing is open. -/
theorem sound_new : new.Sound where
  each := by simp [new]
  kernel := by simp [new]
  interest := by simp [new]
  sessions := by simp [new, SessionManager.new]
  closing := by simp [new, LoginThreads.closing]

/-- A step that changes objects of one connection and nothing that is shared. -/
theorem Sound.moves (sound : state.Sound) (here : state.threads connection = some thread)
    (sameFd : changed.fd = thread.fd) (late : changed.point.late = thread.point.late)
    (registers : changed.point.registers = thread.point.registers) (objects : changed.Objects)
    (accepting : Option Nat) :
    { state.put connection changed with accepting := accepting }.Sound := by
  obtain ⟨below, nonneg, -, stands⟩ := sound.each connection thread here
  constructor
  · intro other found there
    simp only [put, Function.update_apply] at there
    split at there
    · rename_i own
      subst own
      cases there
      refine ⟨below, sameFd ▸ nonneg, objects, ?_, ?_, ?_, ?_⟩
      · rw [sameFd, late]
        exact stands.early
      · rw [sameFd, late]
        exact stands.watched
      · rw [sameFd, late]
        exact stands.ended
      · rw [sameFd, registers]
        exact stands.session
    · obtain ⟨low, nonneg, objects, stands⟩ := sound.each other found there
      exact ⟨low, nonneg, objects, stands.early, stands.watched, stands.ended, stands.session⟩
  · intro fd other open_
    obtain ⟨found, there, own⟩ := sound.kernel fd other open_
    simp only [put, Function.update_apply]
    split
    · rename_i same
      subst same
      rw [here, Option.some.injEq] at there
      subst there
      exact ⟨changed, rfl, sameFd.trans own⟩
    · exact ⟨found, there, own⟩
  · exact sound.interest
  · exact sound.sessions
  · exact sound.closing

/-- A step after which the handler stands elsewhere. -/
theorem Sound.goesOn (sound : state.Sound) (here : state.threads connection = some thread)
    {point : LoginPoint} (late : point.late = thread.point.late)
    (registers : point.registers = thread.point.registers)
    (objects : { thread with point := point }.Objects) :
    (state.put connection { thread with point := point }).Sound := by
  refine sound.moves here ?_ late registers objects state.accepting
  rfl

/-- Nothing shared changes but at one descriptor. -/
structure AgreesOff (fd : Fd) (state next : LoginThreads) : Prop where
  /-- The open descriptors. -/
  kernel : ∀ other, other ≠ fd → next.kernel other = state.kernel other
  /-- The interest list. -/
  interest : ∀ other, other ≠ fd → next.interest other = state.interest other
  /-- The sessions. -/
  sessions : ∀ other, other ≠ fd → next.sessions.sessions other = state.sessions.sessions other
  /-- Whom the epoll thread takes out. -/
  ending : ∀ ending : Ending, ending.about.1 ≠ fd →
    (next.ending = some ending ↔ state.ending = some ending)

/-- So nothing else is about to be closed. -/
theorem AgreesOff.closing (agrees : AgreesOff fd state next) {other : Fd} (connection : Nat)
    (apart : other ≠ fd) :
    next.closing = some (other, connection) ↔ state.closing = some (other, connection) := by
  simp only [LoginThreads.closing, Option.map_eq_some_iff]
  constructor
  · rintro ⟨ending, held, about⟩
    exact ⟨ending, (agrees.ending ending (by rwa [about])).mp held, about⟩
  · rintro ⟨ending, held, about⟩
    exact ⟨ending, (agrees.ending ending (by rwa [about])).mpr held, about⟩

/-- A connection that is not the one behind the descriptor stands as before. -/
theorem AgreesOff.stands (agrees : AgreesOff fd state next)
    (stands : thread.Stands state connection) (before : state.kernel fd ≠ some connection)
    (after : next.kernel fd ≠ some connection)
    (about : ∀ other, next.closing = some (fd, other) → next.kernel fd = some other) :
    thread.Stands next connection := by
  by_cases own : thread.fd = fd
  · subst own
    refine ⟨?_, ?_, ?_, ?_⟩
    · intro early
      exact absurd (stands.early early) before
    · intro open_
      exact absurd open_ after
    · intro closing
      exact absurd (about connection closing) after
    · intro open_
      exact absurd open_ after
  · refine ⟨?_, ?_, ?_, ?_⟩
    · rw [agrees.kernel _ own]
      exact stands.early
    · rw [agrees.kernel _ own, agrees.interest _ own, ne_eq, agrees.closing _ own]
      exact stands.watched
    · rw [agrees.closing _ own]
      exact stands.ended
    · rw [agrees.kernel _ own, agrees.sessions _ own, ne_eq,
        agrees.ending (.removed thread.fd connection) own]
      exact stands.session

/-- A step changes what is shared at one descriptor only, for one connection. -/
structure Touches (fd : Fd) (connection : Nat) (thread : LoginThread)
    (state next : LoginThreads) : Prop extends AgreesOff fd state next where
  /-- The other connections are as before. -/
  elsewhere : ∀ other, other ≠ connection → next.threads other = state.threads other
  /-- None of them was or is behind the descriptor. -/
  apart : ∀ other, other ≠ connection →
    state.kernel fd ≠ some other ∧ next.kernel fd ≠ some other
  /-- The connection is not behind another descriptor. -/
  off : ∀ other, other ≠ fd → state.kernel other ≠ some connection
  /-- Connections are only added. -/
  count : state.count ≤ next.count
  /-- The connection afterwards. -/
  here : next.threads connection = some thread
  /-- It is one of those counted. -/
  below : connection < next.count
  /-- It keeps its descriptor. -/
  same : thread.fd = fd
  /-- The descriptor is one. -/
  nonneg : 0 ≤ fd
  /-- It has its objects. -/
  objects : thread.Objects
  /-- It is as its handler stands. -/
  stands : thread.Stands next connection
  /-- A watched descriptor is open. -/
  watched : next.interest fd = true → next.kernel fd ≠ none
  /-- A registered one as well. -/
  registered : (next.sessions.sessions fd).isSome = true → next.kernel fd ≠ none
  /-- So is one that is about to be closed. -/
  about : ∀ other, next.closing = some (fd, other) → next.kernel fd = some other

/-- Such a step keeps what holds. -/
theorem Sound.changes (sound : state.Sound)
    (touches : Touches fd connection thread state next) : next.Sound := by
  constructor
  · intro other found there
    by_cases own : other = connection
    · subst own
      rw [touches.here, Option.some.injEq] at there
      subst there
      exact ⟨touches.below, touches.same ▸ touches.nonneg, touches.objects, touches.stands⟩
    · rw [touches.elsewhere other own] at there
      obtain ⟨low, nonneg, objects, stands⟩ := sound.each other found there
      obtain ⟨before, after⟩ := touches.apart other own
      exact ⟨Nat.lt_of_lt_of_le low touches.count, nonneg, objects,
        touches.toAgreesOff.stands stands before after touches.about⟩
  · intro other found open_
    by_cases own : other = fd
    · subst own
      by_cases mine : found = connection
      · subst mine
        exact ⟨thread, touches.here, touches.same⟩
      · exact absurd open_ (touches.apart found mine).2
    · rw [touches.kernel other own] at open_
      obtain ⟨there, listed, its⟩ := sound.kernel other found open_
      refine ⟨there, ?_, its⟩
      rw [touches.elsewhere]
      · exact listed
      · rintro rfl
        exact touches.off other own open_
  · intro other watched
    by_cases own : other = fd
    · subst own
      exact touches.watched watched
    · rw [touches.interest other own] at watched
      rw [touches.kernel other own]
      exact sound.interest other watched
  · intro other registered
    by_cases own : other = fd
    · subst own
      exact touches.registered registered
    · rw [touches.sessions other own] at registered
      rw [touches.kernel other own]
      exact sound.sessions other registered
  · intro other found about
    by_cases own : other = fd
    · subst own
      exact touches.about found about
    · rw [touches.toAgreesOff.closing found own] at about
      rw [touches.kernel other own]
      exact sound.closing other found about

/-! ## The steps -/

/-- What a step does to the open descriptors. -/
inductive Effect (state next : LoginThreads) : Option Closed → Prop where
  /-- Nothing. -/
  | keeps (kernel : next.kernel = state.kernel) (count : next.count = state.count) :
      Effect state next none
  /-- A connection is accepted. -/
  | opens {fd : Fd} (free : state.kernel fd = none)
      (kernel : next.kernel = Function.update state.kernel fd (some state.count))
      (count : next.count = state.count + 1) : Effect state next none
  /-- The connection that is meant is closed. -/
  | closes {fd : Fd} {connection : Nat} (open_ : state.kernel fd = some connection)
      (kernel : next.kernel = Function.update state.kernel fd none)
      (count : next.count = state.count) :
      Effect state next (some ⟨connection, some connection⟩)

/-- An object that holds nothing closes nothing. -/
theorem destroy_of_empty {socket : Option OwnedSocket} (empty : LoginThread.Empty socket)
    (meant : Nat) : state.destroy meant socket = (state, none) := by
  rcases empty with rfl | rfl <;> rfl

/-- An object that holds a descriptor closes it. -/
theorem destroy_of_fd (nonneg : 0 ≤ fd) (meant : Nat) :
    state.destroy meant (some ⟨fd⟩) = state.closeFd fd meant := by
  simp only [destroy, Option.bind_some, OwnedSocket.destroy, if_pos nonneg]

/-- The call that closes an open descriptor. -/
theorem closeFd_of_open (open_ : state.kernel fd = some connection) :
    (state.closeFd fd connection).2 = some ⟨connection, some connection⟩ := by
  rw [closeFd, open_]

/-- A connection that stays as it is. -/
theorem put_self (here : state.threads connection = some thread) :
    state.put connection thread = state := by
  rw [put, Function.update_eq_self_iff.mpr here.symm]

/-- A connection is accepted. -/
theorem Sound.accept (sound : state.Sound) (nonneg : 0 ≤ fd) (free : state.kernel fd = none) :
    { state with
      kernel := Function.update state.kernel fd (some state.count)
      threads := Function.update state.threads state.count
        (some ⟨fd, .accepted, some ⟨fd⟩, none, none⟩)
      count := state.count + 1
      accepting := some state.count }.Sound := by
  have unused : state.interest fd = false := by
    cases watched : state.interest fd with
    | false => rfl
    | true => exact absurd free (sound.interest fd watched)
  have unknown : (state.sessions.sessions fd).isSome = false := by
    cases registered : (state.sessions.sessions fd).isSome with
    | false => rfl
    | true => exact absurd free (sound.sessions fd registered)
  have fresh (other : Fd) : state.kernel other ≠ some state.count := by
    intro open_
    obtain ⟨thread, there, -⟩ := sound.kernel other state.count open_
    exact absurd (sound.each _ _ there).1 (Nat.lt_irrefl _)
  have touches : Touches fd state.count ⟨fd, .accepted, some ⟨fd⟩, none, none⟩ state { state with
      kernel := Function.update state.kernel fd (some state.count)
      threads := Function.update state.threads state.count
        (some ⟨fd, .accepted, some ⟨fd⟩, none, none⟩)
      count := state.count + 1
      accepting := some state.count } := {
    kernel := fun _ apart => Function.update_of_ne apart _ _
    interest := fun _ _ => rfl
    sessions := fun _ _ => rfl
    ending := fun _ _ => Iff.rfl
    elsewhere := fun _ apart => Function.update_of_ne apart _ _
    apart := by
      intro other apart
      simp only [Function.update_self, free]
      exact ⟨by simp, by simpa using Ne.symm apart⟩
    off := fun other _ => fresh other
    count := Nat.le_succ _
    here := Function.update_self _ _ _
    below := Nat.lt_succ_self _
    same := rfl
    nonneg := nonneg
    objects := ⟨rfl, rfl, rfl⟩
    stands := {
      early := fun _ => Function.update_self _ _ _
      watched := fun _ _ => unused
      ended := fun about => by
        rw [sound.closing fd state.count about] at free
        contradiction
      session := by
        intro _
        rw [unknown]
        exact iff_of_false Bool.false_ne_true fun passed => Bool.false_ne_true passed.1 }
    watched := fun _ => by simp
    registered := fun _ => by simp
    about := by
      intro other about
      rw [sound.closing fd other about] at free
      contradiction }
  exact sound.changes touches

/-- A step that changes what is shared at the descriptor of an open connection, for the
connection. -/
theorem Sound.own (sound : state.Sound) (here : state.threads connection = some thread)
    (open_ : state.kernel thread.fd = some connection) {shared : LoginThreads}
    (agrees : AgreesOff thread.fd state shared) (threads : shared.threads = state.threads)
    (count : shared.count = state.count)
    (after : shared.kernel thread.fd = some connection ∨ shared.kernel thread.fd = none)
    (sameFd : changed.fd = thread.fd) (objects : changed.Objects)
    (stands : changed.Stands shared connection)
    (watched : shared.interest thread.fd = true → shared.kernel thread.fd ≠ none)
    (registered : (shared.sessions.sessions thread.fd).isSome = true →
      shared.kernel thread.fd ≠ none)
    (about : ∀ other, shared.closing = some (thread.fd, other) →
      shared.kernel thread.fd = some other) :
    (shared.put connection changed).Sound := by
  obtain ⟨below, nonneg, -, -⟩ := sound.each connection thread here
  have touches : Touches thread.fd connection changed state (shared.put connection changed) := {
    kernel := agrees.kernel
    interest := agrees.interest
    sessions := agrees.sessions
    ending := agrees.ending
    elsewhere := by
      intro other apart
      rw [put, threads]
      exact Function.update_of_ne apart _ _
    apart := by
      intro other apart
      refine ⟨by simpa [open_] using Ne.symm apart, ?_⟩
      change shared.kernel thread.fd ≠ some other
      rcases after with still | gone
      · simpa [still] using Ne.symm apart
      · simp [gone]
    off := by
      intro other apart elsewhere
      obtain ⟨found, there, its⟩ := sound.kernel other connection elsewhere
      rw [here, Option.some.injEq] at there
      exact apart (its.symm.trans (congrArg LoginThread.fd there.symm))
    count := Nat.le_of_eq count.symm
    here := Function.update_self _ _ _
    below := count.symm ▸ below
    same := sameFd
    nonneg := nonneg
    objects := objects
    stands := ⟨stands.early, stands.watched, stands.ended, stands.session⟩
    watched := watched
    registered := registered
    about := about }
  exact sound.changes touches

/-- The epoll thread does not take out what its handler has not added. -/
theorem Sound.unclosed (sound : state.Sound) (here : state.threads connection = some thread)
    (early : thread.point.late = false) (other : Nat) :
    state.closing ≠ some (thread.fd, other) := by
  intro about
  obtain ⟨-, -, -, stands⟩ := sound.each connection thread here
  have own := sound.closing _ _ about
  rw [stands.early early, Option.some.injEq] at own
  subst own
  rw [stands.ended about] at early
  contradiction

/-- The session is registered. -/
theorem Sound.register (sound : state.Sound) (here : state.threads connection = some thread)
    {traderId : TraderId} (point : thread.point = .answered traderId) :
    ({ state with sessions := state.sessions.add thread.fd traderId }.put connection
      { thread with point := .registered traderId }).Sound := by
  obtain ⟨-, -, objects, stands⟩ := sound.each connection thread here
  have open_ := stands.early (by rw [point]; rfl)
  have unclosed := sound.unclosed here (by rw [point]; rfl)
  have unwatched : state.interest thread.fd = false := by
    rw [stands.watched open_ (unclosed connection), point]
    rfl
  refine sound.own here open_ ?_ rfl rfl (.inl open_) rfl ?_ ?_ ?_ ?_ ?_
  · refine ⟨fun _ _ => rfl, fun _ _ => rfl, ?_, fun _ _ => Iff.rfl⟩
    intro other apart
    exact (SessionManager.add_sessions _ _ _ _).trans (if_neg apart)
  · simpa only [LoginThread.Objects, point] using objects
  · refine ⟨fun _ => open_, fun _ _ => unwatched, fun about => absurd about (unclosed _), ?_⟩
    intro _
    rw [SessionManager.add_sessions, if_pos rfl]
    exact iff_of_true rfl ⟨rfl, fun removed => unclosed connection
      (show state.closing = _ from closing_of_ending removed)⟩
  · exact fun watched => sound.interest _ watched
  · intro _ missing
    rw [open_] at missing
    contradiction
  · exact fun other about => absurd about (unclosed other)

/-- The descriptor is added to the epoll set. -/
theorem Sound.watch (sound : state.Sound) (here : state.threads connection = some thread)
    {traderId : TraderId} (point : thread.point = .registered traderId) :
    ({ state with interest := Function.update state.interest thread.fd true }.put connection
      { thread with point := .watched traderId }).Sound := by
  obtain ⟨-, -, objects, stands⟩ := sound.each connection thread here
  have open_ := stands.early (by rw [point]; rfl)
  refine sound.own here open_ ?_ rfl rfl (.inl open_) rfl ?_ ?_ ?_ ?_ ?_
  · exact ⟨fun _ _ => rfl, fun _ apart => Function.update_of_ne apart _ _, fun _ _ => rfl,
      fun _ _ => Iff.rfl⟩
  · simpa only [LoginThread.Objects, point] using objects
  · refine ⟨fun _ => open_, fun _ _ => Function.update_self _ _ _, fun _ => rfl, ?_⟩
    intro _
    have session := stands.session open_
    rw [point] at session
    exact session
  · intro _ missing
    rw [open_] at missing
    contradiction
  · exact sound.sessions _
  · exact sound.closing _

/-- An open connection is closed. -/
theorem Sound.closes (sound : state.Sound) (here : state.threads connection = some thread)
    (open_ : state.kernel thread.fd = some connection)
    (unknown : (state.sessions.sessions thread.fd).isSome = false)
    (last : changed.point.late = true) (sameFd : changed.fd = thread.fd)
    (objects : changed.Objects) (ending : Option Ending)
    (about : ∀ held, ending = some held ↔
      state.ending = some held ∧ held.about.1 ≠ thread.fd) :
    ({ (state.closeFd thread.fd connection).1 with ending := ending }.put connection
      changed).Sound := by
  have elsewhere {other : Nat} : ending.map Ending.about ≠ some (thread.fd, other) := by
    intro held
    obtain ⟨found, holds, at_⟩ := Option.map_eq_some_iff.mp held
    exact ((about found).mp holds).2 (by rw [at_])
  refine sound.own here open_ ?_ rfl rfl (.inr (Function.update_self _ _ _)) sameFd objects ?_ ?_
    ?_ ?_
  · refine ⟨fun _ apart => Function.update_of_ne apart _ _,
      fun _ apart => Function.update_of_ne apart _ _, fun _ _ => rfl, ?_⟩
    intro found apart
    exact (about found).trans (and_iff_left apart)
  · have gone : Function.update state.kernel thread.fd none changed.fd = none := by
      rw [sameFd]
      exact Function.update_self _ _ _
    refine ⟨fun early => ?_, fun open_ => ?_, fun _ => last, fun open_ => ?_⟩
    · rw [last] at early
      contradiction
    · exact absurd (gone.symm.trans open_) (by simp)
    · exact absurd (gone.symm.trans open_) (by simp)
  · intro watched
    exact absurd ((Function.update_self _ _ _).symm.trans watched) (by simp)
  · intro registered
    exact absurd (unknown.symm.trans registered) (by simp)
  · exact fun other held => absurd held elsewhere

/-- The epoll thread goes on with a client that is gone. -/
theorem Sound.ends (sound : state.Sound) (open_ : state.kernel fd = some connection)
    (here : state.threads connection = some thread) (late : thread.point.late = true)
    (free : ∀ held, state.ending = some held → held.about.1 = fd) {shared : LoginThreads}
    (kernel : shared.kernel = state.kernel) (threads : shared.threads = state.threads)
    (count : shared.count = state.count) {ending : Ending}
    (interest : ∀ other, other ≠ fd → shared.interest other = state.interest other)
    (sessions : ∀ other, other ≠ fd →
      shared.sessions.sessions other = state.sessions.sessions other)
    (held : shared.ending = some ending) (about : ending.about = (fd, connection))
    (session : (shared.sessions.sessions fd).isSome = true ↔ ending ≠ .removed fd connection) :
    shared.Sound := by
  obtain ⟨found, there, rfl⟩ := sound.kernel fd connection open_
  rw [here, Option.some.injEq] at there
  subst there
  obtain ⟨-, -, objects, stands⟩ := sound.each connection thread here
  have unchanged : shared.put connection thread = shared :=
    put_self ((congrFun threads connection).trans here)
  have closing : shared.closing = some (thread.fd, connection) :=
    (closing_of_ending held).trans (congrArg some about)
  rw [← unchanged]
  refine sound.own here open_ ?_ threads count (.inl (kernel ▸ open_)) rfl objects ?_ ?_ ?_ ?_
  · refine ⟨fun _ _ => by rw [kernel], interest, sessions, ?_⟩
    intro other apart
    rw [held, Option.some.injEq]
    refine iff_of_false ?_ fun before => apart (free other before)
    rintro rfl
    exact apart (by rw [about])
  · refine ⟨fun _ => kernel ▸ open_, fun _ away => absurd closing away, fun _ => late, ?_⟩
    intro _
    rw [session, held, ne_eq, ne_eq, Option.some.injEq,
      and_iff_right (LoginPoint.registers_of_late late)]
  · intro _ missing
    rw [kernel, open_] at missing
    contradiction
  · intro _ missing
    rw [kernel, open_] at missing
    contradiction
  · intro other again
    rw [closing, Option.some.injEq, Prod.mk.injEq] at again
    rw [kernel, open_, again.2]

/-- The destruction of the parameter of a refused login closes its descriptor. -/
theorem Sound.refused (sound : state.Sound) (here : state.threads connection = some thread)
    (point : thread.point = .refused) :
    state.kernel thread.fd = some connection ∧
      state.destroy connection thread.param = state.closeFd thread.fd connection ∧
      ((state.closeFd thread.fd connection).1.put connection
        { thread with point := .left, param := none }).Sound := by
  obtain ⟨-, nonneg, objects, stands⟩ := sound.each connection thread here
  simp only [LoginThread.Objects, point] at objects
  obtain ⟨empty, sock, param⟩ := objects
  have open_ := stands.early (by rw [point]; rfl)
  have unknown : (state.sessions.sessions thread.fd).isSome = false := by
    rw [Bool.eq_false_iff, ne_eq, stands.session open_, point]
    exact fun passed => Bool.false_ne_true passed.1
  have unclosed := sound.unclosed here (by rw [point]; rfl)
  refine ⟨open_, by rw [param, destroy_of_fd nonneg], ?_⟩
  refine sound.closes here open_ unknown ?_ ?_ ?_ state.ending ?_
  · rfl
  · rfl
  · exact ⟨empty, sock, rfl⟩
  · intro held
    refine ⟨fun ending => ⟨ending, fun same => unclosed held.about.2 ?_⟩, And.left⟩
    rw [closing_of_ending ending, ← same]

/-- A callback begins on a watched descriptor, whose handler has added it. -/
theorem Sound.begins (sound : state.Sound) (free : state.ending = none)
    (watched : state.interest fd = true) (open_ : state.kernel fd = some connection) :
    ∃ thread, state.threads connection = some thread ∧ thread.fd = fd ∧
      thread.point.late = true ∧ (state.sessions.sessions fd).isSome = true := by
  obtain ⟨thread, here, rfl⟩ := sound.kernel fd connection open_
  obtain ⟨-, -, -, stands⟩ := sound.each connection thread here
  have late : thread.point.late = true :=
    (stands.watched open_ (by simp [LoginThreads.closing, free])).symm.trans watched
  refine ⟨thread, here, rfl, late, ?_⟩
  rw [stands.session open_, free]
  exact ⟨LoginPoint.registers_of_late late, by simp⟩

/-- The data callback takes a descriptor out of the interest list. -/
theorem Sound.unwatch (sound : state.Sound) (free : state.ending = none)
    (watched : state.interest fd = true) (open_ : state.kernel fd = some connection) :
    { state with
      interest := Function.update state.interest fd false
      ending := some (.unwatched fd connection) }.Sound := by
  obtain ⟨thread, here, -, late, session⟩ := sound.begins free watched open_
  exact sound.ends open_ here late (by simp [free]) rfl rfl rfl
    (fun _ apart => Function.update_of_ne apart _ _) (fun _ _ => rfl) rfl rfl
    (iff_of_true session (by simp))

/-- Either callback takes the client out of the session manager. -/
theorem Sound.remove (sound : state.Sound) (open_ : state.kernel fd = some connection)
    (here : state.threads connection = some thread) (late : thread.point.late = true)
    (free : ∀ held, state.ending = some held → held.about.1 = fd) :
    { state with
      sessions := state.sessions.remove fd
      ending := some (.removed fd connection) }.Sound := by
  refine sound.ends open_ here late free rfl rfl rfl (fun _ _ => rfl) ?_ rfl rfl ?_
  · intro other apart
    exact (SessionManager.remove_sessions _ _ _).trans (if_neg apart)
  · rw [SessionManager.remove_sessions, if_pos rfl]
    simp

/-- The data callback has taken a descriptor out of the interest list. -/
theorem Sound.unwatched (sound : state.Sound)
    (ending : state.ending = some (.unwatched fd connection)) :
    state.kernel fd = some connection ∧ ∃ thread, state.threads connection = some thread ∧
      thread.fd = fd ∧ thread.point.late = true := by
  have closing : state.closing = some (fd, connection) := closing_of_ending ending
  have open_ := sound.closing fd connection closing
  obtain ⟨thread, here, rfl⟩ := sound.kernel fd connection open_
  obtain ⟨-, -, -, stands⟩ := sound.each connection thread here
  exact ⟨open_, thread, here, rfl, stands.ended closing⟩

/-- The epoll thread closes what it has taken out of the session manager. -/
theorem Sound.close (sound : state.Sound)
    (ending : state.ending = some (.removed fd connection)) :
    state.kernel fd = some connection ∧
      { (state.closeFd fd connection).1 with ending := none }.Sound := by
  have closing : state.closing = some (fd, connection) := closing_of_ending ending
  have open_ := sound.closing fd connection closing
  obtain ⟨thread, here, rfl⟩ := sound.kernel fd connection open_
  obtain ⟨-, -, objects, stands⟩ := sound.each connection thread here
  have unknown : (state.sessions.sessions thread.fd).isSome = false := by
    rw [Bool.eq_false_iff, ne_eq, stands.session open_]
    exact fun session => session.2 ending
  have unchanged : { (state.closeFd thread.fd connection).1 with
      ending := none }.put connection thread = { (state.closeFd thread.fd connection).1 with
      ending := none } := put_self here
  refine ⟨open_, ?_⟩
  rw [← unchanged]
  refine sound.closes here open_ unknown (stands.ended closing) rfl objects none ?_
  intro held
  rw [ending, Option.some.injEq]
  refine iff_of_false (by simp) ?_
  rintro ⟨rfl, apart⟩
  exact apart rfl

/-- Every step keeps what holds, and closes only the connection it means. -/
theorem Sound.step (sound : state.Sound) {event : Event} {closed : Option Closed}
    (does : state.Does event next closed) : next.Sound ∧ Effect state next closed := by
  cases does with
  | accepts nonneg free => exact ⟨sound.accept nonneg free, .opens free rfl rfl⟩
  | @spawns connection thread client here point held =>
    obtain ⟨-, -, objects, -⟩ := sound.each connection thread here
    simp only [LoginThread.Objects, point, held, Option.some.injEq] at objects
    obtain ⟨rfl, -, param⟩ := objects
    refine ⟨sound.moves here ?_ ?_ ?_ ?_ state.accepting, .keeps rfl rfl⟩
    · rfl
    · rw [point]
      rfl
    · rw [point]
      rfl
    · exact ⟨.inr rfl, rfl, param⟩
  | @iterates connection thread here spawned =>
    obtain ⟨-, -, objects, -⟩ := sound.each connection thread here
    obtain ⟨empty, kept⟩ := objects.spawned spawned
    rw [destroy_of_empty empty]
    refine ⟨sound.moves here ?_ ?_ ?_ kept none, .keeps rfl rfl⟩
    all_goals rfl
  | @enters connection thread sock here point held =>
    obtain ⟨-, -, objects, -⟩ := sound.each connection thread here
    simp only [LoginThread.Objects, point, held, Option.some.injEq] at objects
    obtain ⟨empty, rfl, -⟩ := objects
    refine ⟨sound.moves here ?_ ?_ ?_ ?_ state.accepting, .keeps rfl rfl⟩
    · rfl
    · rw [point]
      rfl
    · rw [point]
      rfl
    · exact ⟨empty, rfl, rfl⟩
  | refuses here point | logsIn here point | responds here point =>
    obtain ⟨-, -, objects, -⟩ := sound.each _ _ here
    simp only [LoginThread.Objects, point] at objects
    exact ⟨sound.goesOn here (by rw [point]; rfl) (by rw [point]; rfl) objects, .keeps rfl rfl⟩
  | @registers connection thread param traderId here point held =>
    obtain ⟨-, -, objects, -⟩ := sound.each connection thread here
    simp only [LoginThread.Objects, point, held, Option.some.injEq] at objects
    obtain ⟨-, -, rfl⟩ := objects
    exact ⟨sound.register here point, .keeps rfl rfl⟩
  | @watches connection thread param traderId here point held =>
    obtain ⟨-, -, objects, -⟩ := sound.each connection thread here
    simp only [LoginThread.Objects, point, held, Option.some.injEq] at objects
    obtain ⟨-, -, rfl⟩ := objects
    exact ⟨sound.watch here point, .keeps rfl rfl⟩
  | @releases connection thread param traderId here point held =>
    obtain ⟨-, -, objects, -⟩ := sound.each connection thread here
    simp only [LoginThread.Objects, point] at objects
    refine ⟨sound.moves here ?_ ?_ ?_ ?_ state.accepting, .keeps rfl rfl⟩
    · rfl
    · rw [point]
      rfl
    · rw [point]
      rfl
    · exact ⟨objects.1, objects.2.1, rfl⟩
  | @leaves connection thread here point =>
    rcases point with point | ⟨traderId, point⟩
    · obtain ⟨open_, destroyed, kept⟩ := sound.refused here point
      rw [destroyed, closeFd_of_open open_]
      exact ⟨kept, .closes open_ rfl rfl⟩
    · obtain ⟨-, -, objects, -⟩ := sound.each connection thread here
      simp only [LoginThread.Objects, point] at objects
      obtain ⟨empty, sock, param⟩ := objects
      rw [destroy_of_empty (.inr param)]
      refine ⟨sound.moves here ?_ ?_ ?_ ?_ state.accepting, .keeps rfl rfl⟩
      · rfl
      · rw [point]
        rfl
      · rw [point]
        rfl
      · exact ⟨empty, sock, rfl⟩
  | @finishes connection thread here point =>
    obtain ⟨-, -, objects, -⟩ := sound.each connection thread here
    simp only [LoginThread.Objects, point] at objects
    obtain ⟨empty, sock, param⟩ := objects
    rw [destroy_of_empty (.inr sock)]
    refine ⟨sound.moves here ?_ ?_ ?_ ?_ state.accepting, .keeps rfl rfl⟩
    · rfl
    · rw [point]
      rfl
    · rw [point]
      rfl
    · exact ⟨empty, rfl, param⟩
  | unwatches free watched open_ => exact ⟨sound.unwatch free watched open_, .keeps rfl rfl⟩
  | hangsUp ending =>
    obtain ⟨open_, thread, here, -, late⟩ := sound.unwatched ending
    refine ⟨sound.remove open_ here late ?_, .keeps rfl rfl⟩
    intro held other
    rw [ending, Option.some.injEq] at other
    rw [← other]
    rfl
  | disconnects free watched open_ =>
    obtain ⟨thread, here, -, late, -⟩ := sound.begins free watched open_
    exact ⟨sound.remove open_ here late (by simp [free]), .keeps rfl rfl⟩
  | closes ending =>
    obtain ⟨open_, kept⟩ := sound.close ending
    rw [closeFd_of_open open_]
    exact ⟨kept, .closes open_ rfl rfl⟩

/-! ## Whole runs -/

/-- The connections that calls of `::close` were made for, in order. -/
def closedIn (past : List (Option Closed)) : List Nat := (past.filterMap id).map Closed.meant

/-- The closed connections grow by the one that the next step closes. -/
theorem closedIn_snoc (past : List (Option Closed)) (closed : Option Closed) :
    closedIn (past ++ [closed]) = closedIn past ++ (closed.map Closed.meant).toList := by
  rw [closedIn, filterMap_snoc, List.map_append]
  cases closed <;> rfl

/-- What has been closed so far. -/
structure Accounts (state : LoginThreads) (past : List (Option Closed)) : Prop where
  /-- What holds in every state. -/
  sound : state.Sound
  /-- Every call closed the connection it was made for. -/
  right : ∀ closed, some closed ∈ past → closed.found = some closed.meant
  /-- No connection was closed twice. -/
  once : (closedIn past).Nodup
  /-- A connection is open or has been closed. -/
  exact : ∀ connection, connection < state.count →
    ((∃ fd, state.kernel fd = some connection) ↔ connection ∉ closedIn past)
  /-- Only accepted connections were closed. -/
  below : ∀ connection ∈ closedIn past, connection < state.count

/-- Nothing has been closed. -/
theorem accounts_new : new.Accounts [] where
  sound := sound_new
  right := by simp
  once := List.nodup_nil
  exact := by simp [new]
  below := by simp [closedIn]

/-- A connection has one descriptor. -/
theorem Sound.kernel_injective (sound : state.Sound) {other : Fd}
    (open_ : state.kernel fd = some connection) (also : state.kernel other = some connection) :
    fd = other := by
  obtain ⟨thread, here, own⟩ := sound.kernel fd connection open_
  obtain ⟨again, there, its⟩ := sound.kernel other connection also
  rw [here, Option.some.injEq] at there
  rw [← own, ← its, there]

/-- Every step keeps the account. -/
theorem Accounts.step {past : List (Option Closed)} (accounts : state.Accounts past)
    {event : Event} {closed : Option Closed}
    (stepped : state.step event = some (next, closed)) : next.Accounts (past ++ [closed]) := by
  obtain ⟨sound, effect⟩ := accounts.sound.step (does_of_step stepped)
  cases effect with
  | keeps kernel count =>
    have same : closedIn (past ++ [none]) = closedIn past := by simp [closedIn_snoc]
    refine ⟨sound, ?_, ?_, ?_, ?_⟩
    · simpa using accounts.right
    · rw [same]
      exact accounts.once
    · rw [same, kernel, count]
      exact accounts.exact
    · rw [same, count]
      exact accounts.below
  | @opens fd free kernel count =>
    have same : closedIn (past ++ [none]) = closedIn past := by simp [closedIn_snoc]
    refine ⟨sound, ?_, ?_, ?_, ?_⟩
    · simpa using accounts.right
    · rw [same]
      exact accounts.once
    · intro connection below
      rw [count] at below
      rw [same, kernel]
      by_cases latest : connection = state.count
      · subst latest
        refine iff_of_true ⟨fd, Function.update_self _ _ _⟩ ?_
        exact fun closed => absurd (accounts.below _ closed) (Nat.lt_irrefl _)
      · rw [← accounts.exact connection (by omega)]
        constructor
        · rintro ⟨other, open_⟩
          rw [Function.update_apply] at open_
          split at open_
          · cases open_
            exact absurd rfl latest
          · exact ⟨other, open_⟩
        · rintro ⟨other, open_⟩
          refine ⟨other, ?_⟩
          rw [Function.update_of_ne]
          · exact open_
          · rintro rfl
            rw [free] at open_
            contradiction
    · intro connection closed
      rw [same] at closed
      rw [count]
      exact Nat.lt_succ_of_lt (accounts.below connection closed)
  | @closes fd connection open_ kernel count =>
    have more : closedIn (past ++ [some ⟨connection, some connection⟩]) =
        closedIn past ++ [connection] := closedIn_snoc past _
    obtain ⟨thread, here, -⟩ := accounts.sound.kernel fd connection open_
    have below := (accounts.sound.each connection thread here).1
    have first := (accounts.exact connection below).mp ⟨fd, open_⟩
    refine ⟨sound, ?_, ?_, ?_, ?_⟩
    · intro other member
      rcases List.mem_append.mp member with before | now
      · exact accounts.right other before
      · rw [List.mem_singleton, Option.some.injEq] at now
        subst now
        rfl
    · rw [more, List.nodup_append]
      refine ⟨accounts.once, by simp, ?_⟩
      intro other before again member
      rw [List.mem_singleton] at member
      rintro rfl
      exact first (member ▸ before)
    · intro other low
      rw [count] at low
      rw [more, kernel, List.mem_append, List.mem_singleton, not_or,
        ← accounts.exact other low]
      constructor
      · rintro ⟨place, still⟩
        rw [Function.update_apply] at still
        split at still
        · contradiction
        · rename_i apart
          refine ⟨⟨place, still⟩, ?_⟩
          rintro rfl
          exact apart (accounts.sound.kernel_injective still open_)
      · rintro ⟨⟨place, still⟩, apart⟩
        refine ⟨place, ?_⟩
        rw [Function.update_of_ne]
        · exact still
        · rintro rfl
          rw [open_, Option.some.injEq] at still
          exact apart still.symm
    · intro other member
      rw [count]
      rw [more] at member
      rcases List.mem_append.mp member with before | now
      · exact accounts.below other before
      · rw [List.mem_singleton] at now
        rw [now]
        exact below

/-- In every interleaving of the accept loop, the login handlers and the epoll thread, with numbers
of descriptors used again in any way: every call of `::close` closes the connection it is made for,
no connection is closed twice, and an accepted connection is open or has been closed. The descriptor
of an open one is held by exactly one of the objects made for it; or its handler is past
`epoll.add`, and then it is in the interest list with a session, or the epoll thread is about to
close it. -/
theorem run_descriptors {events : List Event} {closes : List (Option Closed)}
    (ran : run LoginThreads.step new events = some (state, closes)) :
    (∀ closed, some closed ∈ closes → closed.found = some closed.meant) ∧
    (closedIn closes).Nodup ∧
    (∀ connection, connection < state.count →
      ((∃ fd, state.kernel fd = some connection) ↔ connection ∉ closedIn closes)) ∧
    ∀ fd connection, state.kernel fd = some connection →
      ∃ thread, state.threads connection = some thread ∧ thread.fd = fd ∧
        (thread.point.late = false ∧ thread.holders = 1 ∨
          thread.point.late = true ∧
            (state.interest fd = true ∧ (state.sessions.sessions fd).isSome = true ∨
              state.closing = some (fd, connection))) := by
  have accounts := run_history Accounts (fun _ _ _ _ _ accounts stepped => accounts.step stepped)
    events new state [] closes accounts_new ran
  rw [List.nil_append] at accounts
  refine ⟨accounts.right, accounts.once, accounts.exact, ?_⟩
  intro fd connection open_
  obtain ⟨thread, here, rfl⟩ := accounts.sound.kernel fd connection open_
  obtain ⟨-, nonneg, objects, stands⟩ := accounts.sound.each connection thread here
  refine ⟨thread, here, rfl, ?_⟩
  cases late : thread.point.late with
  | false => exact .inl ⟨rfl, objects.holders nonneg late⟩
  | true =>
    refine .inr ⟨rfl, ?_⟩
    by_cases about : state.closing = some (thread.fd, connection)
    · exact .inr about
    · refine .inl ⟨(stands.watched open_ about).trans late, (stands.session open_).mpr
        ⟨LoginPoint.registers_of_late late, fun removed => about (closing_of_ending removed)⟩⟩

/-- The epoll thread closes the descriptor of a handler that has not released it yet, the next
connection gets the number, and its login is refused. -/
theorem run_descriptors_reused :
    ∃ state closes, run LoginThreads.step new
        [.accept 5, .spawn, .iterate, .enter 0, .login 0 [7, 0, 4, 1, 0, 0, 0], .respond 0,
          .register 0, .watch 0, .unwatch 5, .hangup, .close, .accept 5, .release 0, .leave 0,
          .spawn, .enter 1, .iterate, .login 1 [7, 0, 4], .finish 0, .leave 1] =
            some (state, closes) ∧
      closedIn closes = [0, 1] ∧
      ∀ closed, some closed ∈ closes → closed.found = some closed.meant := by
  have facts : (run LoginThreads.step new
      [.accept 5, .spawn, .iterate, .enter 0, .login 0 [7, 0, 4, 1, 0, 0, 0], .respond 0,
        .register 0, .watch 0, .unwatch 5, .hangup, .close, .accept 5, .release 0, .leave 0, .spawn,
        .enter 1, .iterate, .login 1 [7, 0, 4], .finish 0, .leave 1]).map
          (fun result => closedIn result.2) = some [0, 1] := by
    decide +kernel
  obtain ⟨⟨state, closes⟩, ran, closed⟩ := Option.map_eq_some_iff.mp facts
  exact ⟨state, closes, ran, closed, (run_descriptors ran).1⟩

end LoginThreads

end Exchange
