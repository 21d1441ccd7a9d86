import ExchangeSimulator.Server.Connections
import ExchangeSimulator.Verif.LoginThreads

/-!
# Objects behind the connections

The model of the connections says of a descriptor only how far it has come, and
closes it in one step when a login is refused. Here this is justified: the threads
with their objects refine it. A move, a destruction of an empty object, a release
and an `epoll.remove` are no step of the connections; the destruction of the
parameter of a refused login is the refusal; both callbacks remove a client in the
same step; every other step is the one of the same name. What is proved of every run
of the connections therefore holds of the threads.
-/

namespace Exchange

open Library

/-- How far a connection has come, by where its handler stands. -/
def LoginPoint.Matches : LoginPoint → Stage → Prop
  | .accepted, stage | .spawned, stage | .entered, stage | .refused, stage => stage = .accepted
  | .loggedIn traderId, stage => stage = .loggedIn traderId
  | .answered traderId, stage => stage = .answered traderId
  | .registered traderId, stage => stage = .registered traderId
  | .watched traderId, stage | .released traderId, stage => stage = .watched traderId
  -- the handler has forgotten its trader
  | .left, stage | .finished, stage => ∃ traderId, stage = .watched traderId

/-- A handler past `epoll.add` has a watched connection. -/
theorem LoginPoint.Matches.watched {point : LoginPoint} {stage : Stage}
    (fits : point.Matches stage) (late : point.late = true) :
    ∃ traderId, stage = .watched traderId := by
  cases point with
  | accepted | spawned | entered | refused | loggedIn | answered | registered => contradiction
  | watched traderId | released traderId => exact ⟨traderId, fits⟩
  | left | finished => exact fits

/-- The descriptor whose client is out of the session manager. -/
def Ending.closes : Ending → Option Fd
  | .unwatched _ _ => none
  | .removed fd _ => some fd

namespace LoginThreads

/-- The connections are those of the threads. -/
structure Refines (state : LoginThreads) (connections : Connections) : Prop where
  /-- What holds of the threads. -/
  sound : state.Sound
  /-- A descriptor that is not open. -/
  free : ∀ fd, state.kernel fd = none → connections.open_ fd = none
  /-- A descriptor that is open. -/
  stage : ∀ fd connection thread, state.kernel fd = some connection →
    state.threads connection = some thread →
    ∃ stage, connections.open_ fd = some stage ∧ thread.point.Matches stage
  /-- The session manager is shared. -/
  sessions : connections.sessions = state.sessions
  /-- The epoll thread is about to close the same. -/
  closing : connections.closing = state.ending.bind Ending.closes
  /-- The matching thread rests. -/
  sending : connections.sending = none

/-- Nothing is open. -/
theorem refines_new : new.Refines Connections.new where
  sound := sound_new
  free := fun _ _ => rfl
  stage := by simp [new]
  sessions := rfl
  closing := rfl
  sending := rfl

variable {state next : LoginThreads} {connections : Connections} {connection : Nat}
  {thread changed : LoginThread} {fd : Fd}

/-- A step that nothing is seen of. -/
theorem Refines.unseen (refines : state.Refines connections)
    (here : state.threads connection = some thread)
    (same : ∀ stage, thread.point.Matches stage → changed.point.Matches stage)
    (sound : next.Sound) (kernel : next.kernel = state.kernel)
    (threads : next.threads = Function.update state.threads connection (some changed))
    (sessions : next.sessions = state.sessions) (ending : next.ending = state.ending) :
    next.Refines connections := by
  refine ⟨sound, ?_, ?_, ?_, ?_, refines.sending⟩
  · rw [kernel]
    exact refines.free
  · intro fd other found open_ there
    rw [kernel] at open_
    rw [threads, Function.update_apply] at there
    split at there
    · rename_i own
      subst own
      cases there
      obtain ⟨stage, known, fits⟩ := refines.stage fd other thread open_ here
      exact ⟨stage, known, same stage fits⟩
    · exact refines.stage fd other found open_ there
  · rw [sessions]
    exact refines.sessions
  · rw [ending]
    exact refines.closing

/-- A step after which a connection has come further. -/
theorem Refines.further (refines : state.Refines connections)
    (here : state.threads connection = some thread)
    (open_ : state.kernel thread.fd = some connection) {stage : Stage}
    (fits : changed.point.Matches stage) (sound : next.Sound)
    (kernel : next.kernel = state.kernel)
    (threads : next.threads = Function.update state.threads connection (some changed))
    (ending : next.ending = state.ending) {sessions : SessionManager}
    (shared : sessions = next.sessions) :
    next.Refines { connections with
      open_ := Function.update connections.open_ thread.fd (some stage)
      sessions := sessions } := by
  refine ⟨sound, ?_, ?_, shared, ?_, refines.sending⟩
  · intro fd missing
    rw [kernel] at missing
    have apart : fd ≠ thread.fd := by
      rintro rfl
      rw [open_] at missing
      contradiction
    exact (Function.update_of_ne apart _ _).trans (refines.free fd missing)
  · intro fd other found known there
    rw [kernel] at known
    rw [threads, Function.update_apply] at there
    split at there
    · rename_i own
      subst own
      cases there
      obtain rfl := refines.sound.kernel_injective open_ known
      exact ⟨stage, Function.update_self _ _ _, fits⟩
    · rename_i apart
      have elsewhere : fd ≠ thread.fd := by
        rintro rfl
        rw [open_, Option.some.injEq] at known
        exact apart known.symm
      obtain ⟨stage, known, fits⟩ := refines.stage fd other found known there
      exact ⟨stage, (Function.update_of_ne elsewhere _ _).trans known, fits⟩
  · rw [ending]
    exact refines.closing

/-- A step that closes a descriptor. -/
theorem Refines.closes (refines : state.Refines connections)
    (here : state.threads connection = some thread)
    (open_ : state.kernel thread.fd = some connection) (sound : next.Sound)
    (kernel : next.kernel = Function.update state.kernel thread.fd none)
    (threads : next.threads = Function.update state.threads connection (some changed))
    (sessions : next.sessions = state.sessions) {closing : Option Fd}
    (about : closing = next.ending.bind Ending.closes) :
    next.Refines { connections with
      open_ := Function.update connections.open_ thread.fd none
      closing := closing } := by
  refine ⟨sound, ?_, ?_, ?_, about, refines.sending⟩
  · intro fd missing
    by_cases own : fd = thread.fd
    · subst own
      exact Function.update_self _ _ _
    · rw [kernel, Function.update_of_ne own] at missing
      exact (Function.update_of_ne own _ _).trans (refines.free fd missing)
  · intro fd other found known there
    have elsewhere : fd ≠ thread.fd := by
      rintro rfl
      rw [kernel, Function.update_self] at known
      contradiction
    rw [kernel, Function.update_of_ne elsewhere] at known
    have apart : other ≠ connection := by
      rintro rfl
      exact elsewhere (refines.sound.kernel_injective known open_)
    rw [threads, Function.update_of_ne apart] at there
    obtain ⟨stage, known, fits⟩ := refines.stage fd other found known there
    exact ⟨stage, (Function.update_of_ne elsewhere _ _).trans known, fits⟩
  · rw [sessions]
    exact refines.sessions

/-- A connection is accepted. -/
theorem Refines.accepts (refines : state.Refines connections)
    (sound : Sound { state with
      kernel := Function.update state.kernel fd (some state.count)
      threads := Function.update state.threads state.count
        (some ⟨fd, .accepted, some ⟨fd⟩, none, none⟩)
      count := state.count + 1
      accepting := some state.count }) :
    Refines { state with
      kernel := Function.update state.kernel fd (some state.count)
      threads := Function.update state.threads state.count
        (some ⟨fd, .accepted, some ⟨fd⟩, none, none⟩)
      count := state.count + 1
      accepting := some state.count } { connections with
        open_ := Function.update connections.open_ fd (some .accepted) } := by
  refine ⟨sound, ?_, ?_, refines.sessions, refines.closing, refines.sending⟩
  · intro other missing
    simp only [Function.update_apply] at missing ⊢
    split at missing
    · contradiction
    · rename_i apart
      rw [if_neg apart]
      exact refines.free other missing
  · intro other connection thread open_ here
    simp only [Function.update_apply] at open_ here ⊢
    split at open_
    · rename_i own
      cases open_
      rw [if_pos rfl] at here
      cases here
      exact ⟨.accepted, if_pos own, rfl⟩
    · rename_i apart
      have old : connection ≠ state.count := by
        rintro rfl
        obtain ⟨found, there, -⟩ := refines.sound.kernel other _ open_
        exact absurd (refines.sound.each _ _ there).1 (Nat.lt_irrefl _)
      rw [if_neg old] at here
      obtain ⟨stage, known, fits⟩ := refines.stage other connection thread open_ here
      exact ⟨stage, by rw [if_neg apart]; exact known, fits⟩

/-- A connection whose handler has not added it to the epoll set is open. -/
theorem Refines.early (refines : state.Refines connections)
    (here : state.threads connection = some thread) (early : thread.point.late = false) :
    ∃ stage, state.kernel thread.fd = some connection ∧
      connections.open_ thread.fd = some stage ∧ thread.point.Matches stage := by
  have open_ := (refines.sound.each connection thread here).2.2.2.early early
  obtain ⟨stage, known, fits⟩ := refines.stage _ _ _ open_ here
  exact ⟨stage, open_, known, fits⟩

/-- A client is taken out of the session manager. -/
theorem Refines.removes (refines : state.Refines connections)
    (open_ : state.kernel fd = some connection) (here : state.threads connection = some thread)
    (late : thread.point.late = true) (idle : state.ending.bind Ending.closes = none)
    (sound : Sound { state with
      sessions := state.sessions.remove fd
      ending := some (.removed fd connection) }) :
    ∃ event after shown, connections.step event = some (after, shown) ∧
      Refines { state with
        sessions := state.sessions.remove fd
        ending := some (.removed fd connection) } after := by
  obtain ⟨stage, known, fits⟩ := refines.stage _ _ _ open_ here
  obtain ⟨traderId, rfl⟩ := fits.watched late
  have stepped : connections.step (.remove fd) = some ({ connections with
      sessions := connections.sessions.remove fd
      closing := some fd }, none) := by
    simp only [Connections.step, refines.closing, idle, known]
  exact ⟨_, _, _, stepped, sound, refines.free, refines.stage,
    congrArg (SessionManager.remove · fd) refines.sessions, rfl, refines.sending⟩

/-- A step of the threads is the step of the same name of the connections, or nothing is seen of
it. -/
theorem Refines.step (refines : state.Refines connections) {event : Event}
    {closed : Option Closed} (does : state.Does event next closed) :
    next.Refines connections ∨ ∃ event after shown,
      connections.step event = some (after, shown) ∧ next.Refines after := by
  have sound := (refines.sound.step does).1
  cases does with
  | @accepts fd nonneg free =>
    exact .inr ⟨.accept fd, _, none, if_pos ⟨nonneg, refines.free fd free⟩,
      refines.accepts sound⟩
  | spawns here point | enters here point | refuses here point | releases here point =>
    refine .inl (refines.unseen here ?_ sound rfl rfl rfl rfl)
    rw [point]
    exact fun _ fits => fits
  | @iterates connection thread here spawned =>
    obtain ⟨-, -, objects, -⟩ := refines.sound.each connection thread here
    rw [destroy_of_empty (objects.spawned spawned).1] at sound ⊢
    refine .inl (refines.unseen here ?_ sound rfl rfl rfl rfl)
    exact fun _ fits => fits
  | @logsIn connection received thread here point traderId =>
    obtain ⟨stage, open_, known, fits⟩ := refines.early here (by rw [point]; rfl)
    rw [point] at fits
    obtain rfl : stage = .accepted := fits
    have stepped : connections.step (.login thread.fd traderId) = some ({ connections with
        open_ := Function.update connections.open_ thread.fd (some (.loggedIn traderId)) },
        none) := by
      simp only [Connections.step, known]
    refine .inr ⟨_, _, _, stepped, refines.further here open_ ?_ sound rfl rfl rfl refines.sessions⟩
    rfl
  | @responds connection thread traderId here point =>
    obtain ⟨stage, open_, known, fits⟩ := refines.early here (by rw [point]; rfl)
    rw [point] at fits
    obtain rfl : stage = .loggedIn traderId := fits
    have stepped : connections.step (.respond thread.fd) = some ({ connections with
        open_ := Function.update connections.open_ thread.fd (some (.answered traderId)) },
        none) := by
      simp only [Connections.step, known]
    refine .inr ⟨_, _, _, stepped, refines.further here open_ ?_ sound rfl rfl rfl refines.sessions⟩
    rfl
  | @registers connection thread param traderId here point held =>
    obtain ⟨-, -, objects, -⟩ := refines.sound.each connection thread here
    simp only [LoginThread.Objects, point, held, Option.some.injEq] at objects
    obtain ⟨-, -, rfl⟩ := objects
    obtain ⟨stage, open_, known, fits⟩ := refines.early here (by rw [point]; rfl)
    rw [point] at fits
    obtain rfl : stage = .answered traderId := fits
    have stepped : connections.step (.register thread.fd) = some ({ connections with
        open_ := Function.update connections.open_ thread.fd (some (.registered traderId))
        sessions := connections.sessions.add thread.fd traderId }, none) := by
      simp only [Connections.step, known]
    refine .inr ⟨_, _, _, stepped, refines.further here open_ ?_ sound rfl rfl rfl ?_⟩
    · rfl
    · rw [refines.sessions]
      rfl
  | @watches connection thread param traderId here point held =>
    obtain ⟨stage, open_, known, fits⟩ := refines.early here (by rw [point]; rfl)
    rw [point] at fits
    obtain rfl : stage = .registered traderId := fits
    have stepped : connections.step (.watch thread.fd) = some ({ connections with
        open_ := Function.update connections.open_ thread.fd (some (.watched traderId)) },
        none) := by
      simp only [Connections.step, known]
    refine .inr ⟨_, _, _, stepped, refines.further here open_ ?_ sound rfl rfl rfl refines.sessions⟩
    rfl
  | @leaves connection thread here point =>
    rcases point with point | ⟨traderId, point⟩
    · obtain ⟨stage, open_, known, fits⟩ := refines.early here (by rw [point]; rfl)
      rw [point] at fits
      obtain rfl : stage = .accepted := fits
      have stepped : connections.step (.refuse thread.fd) = some ({ connections with
          open_ := Function.update connections.open_ thread.fd none }, none) := by
        simp only [Connections.step, known]
      rw [(refines.sound.refused here point).2.1] at sound ⊢
      exact .inr ⟨_, _, _, stepped, refines.closes here open_ sound rfl rfl rfl refines.closing⟩
    · obtain ⟨-, -, objects, -⟩ := refines.sound.each connection thread here
      simp only [LoginThread.Objects, point] at objects
      rw [destroy_of_empty (.inr objects.2.2)] at sound ⊢
      refine .inl (refines.unseen here ?_ sound rfl rfl rfl rfl)
      rw [point]
      exact fun _ fits => ⟨traderId, fits⟩
  | @finishes connection thread here point =>
    obtain ⟨-, -, objects, -⟩ := refines.sound.each connection thread here
    simp only [LoginThread.Objects, point] at objects
    rw [destroy_of_empty (.inr objects.2.1)] at sound ⊢
    refine .inl (refines.unseen here ?_ sound rfl rfl rfl rfl)
    rw [point]
    exact fun _ fits => fits
  | unwatches free watched open_ =>
    refine .inl ⟨sound, refines.free, refines.stage, refines.sessions, ?_, refines.sending⟩
    rw [refines.closing, free]
    rfl
  | hangsUp ending =>
    obtain ⟨open_, thread, here, -, late⟩ := refines.sound.unwatched ending
    exact .inr (refines.removes open_ here late (by simp [ending, Ending.closes]) sound)
  | disconnects free watched open_ =>
    obtain ⟨thread, here, -, late, -⟩ := refines.sound.begins free watched open_
    exact .inr (refines.removes open_ here late (by simp [free]) sound)
  | @closes fd connection ending =>
    have open_ := (refines.sound.close ending).1
    obtain ⟨thread, here, rfl⟩ := refines.sound.kernel fd connection open_
    have about : connections.closing = some thread.fd := by
      rw [refines.closing, ending]
      rfl
    have stepped : connections.step .close = some ({ connections with
        open_ := Function.update connections.open_ thread.fd none
        closing := none }, none) := by
      simp only [Connections.step, about]
    have unchanged : state.threads = Function.update state.threads connection (some thread) :=
      (Function.update_eq_self_iff.mpr here.symm).symm
    exact .inr ⟨_, _, _, stepped, refines.closes here open_ sound rfl unchanged rfl rfl⟩

/-- Every run of the accept loop, the login handlers and the epoll thread is a run of the
connections: the same descriptors are open, each has come as far as its handler has brought it, and
the sessions and the descriptor about to be closed are the same. -/
theorem run_refines {events : List Event} {closes : List (Option Closed)}
    (ran : run LoginThreads.step new events = some (state, closes)) :
    ∃ steps connections shown,
      run Connections.step Connections.new steps = some (connections, shown) ∧
      state.Refines connections :=
  run_stuttering Refines (fun _ _ _ _ _ refines stepped => refines.step (does_of_step stepped))
    events new state Connections.new closes refines_new ran

/-- A client that logs in and hangs up before its handler has released the descriptor. -/
theorem run_refines_hangup :
    ∃ state closes steps connections shown, run LoginThreads.step new
        [.accept 5, .spawn, .iterate, .enter 0, .login 0 [7, 0, 4, 1, 0, 0, 0], .respond 0,
          .register 0, .watch 0, .unwatch 5, .hangup, .close, .release 0] = some (state, closes) ∧
      run Connections.step Connections.new steps = some (connections, shown) ∧
      state.Refines connections ∧ connections.open_ 5 = none := by
  have facts : (run LoginThreads.step new
      [.accept 5, .spawn, .iterate, .enter 0, .login 0 [7, 0, 4, 1, 0, 0, 0], .respond 0,
        .register 0, .watch 0, .unwatch 5, .hangup, .close, .release 0]).map
          (fun result => result.1.kernel 5) = some none := by
    decide +kernel
  obtain ⟨⟨state, closes⟩, ran, gone⟩ := Option.map_eq_some_iff.mp facts
  obtain ⟨steps, connections, shown, matched, refines⟩ := run_refines ran
  exact ⟨state, closes, steps, connections, shown, ran, matched, refines, refines.free 5 gone⟩

end LoginThreads

end Exchange
