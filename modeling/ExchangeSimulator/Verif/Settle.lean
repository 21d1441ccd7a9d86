import ExchangeSimulator.Verif.Program
import Mathlib.Algebra.BigOperators.Group.List.Basic

/-!
# The whole program settles

Whatever has been typed and however far each thread is, the program can always
finish: with nobody typing, steps of the threads and of the network alone lead to a
state in which every login handler has returned, every request has been served and
every message has been handled by its client. No lock, full queue or half-received
message stands in the way. The engine deals with every request as long as fewer than
2⁶⁴ − 1 lines have been typed, because then its identifiers do not run out.
-/

namespace Exchange

open Library

namespace Trading

variable {state next : Trading} {past more : List Report} {report : Report} {fd : Fd}
  {desk moved : Desk} {count typed : Nat}

/-! ## How many requests there can be -/

/-- How many requests of a descriptor wait. -/
def waiting (state : Trading) (fd : Fd) : Nat :=
  ((state.desks fd).map fun desk => desk.requests.length).getD 0

/-- The requests served and those that wait are at most so many. -/
structure Weighs (state : Trading) (past : List Report) (count : Nat) (fds : List Fd) : Prop where
  /-- The descriptors are different. -/
  nodup : fds.Nodup
  /-- There are no others. -/
  only : ∀ fd ∉ fds, state.desks fd = none
  /-- The requests, served and waiting. -/
  few : (calls past).length + (fds.map state.waiting).sum ≤ count

/-- A step at one desk. -/
theorem Weighs.seat {fds : List Fd} (weighs : state.Weighs past count fds)
    (seated : state.desks fd = some desk)
    (shifts : (calls more).length + moved.requests.length ≤
      (calls past).length + desk.requests.length + typed) :
    (state.seat fd moved).Weighs more (count + typed) fds := by
  have member : fd ∈ fds := by
    by_contra absent
    rw [weighs.only fd absent] at seated
    contradiction
  refine ⟨weighs.nodup, ?_, ?_⟩
  · intro other absent
    have apart : other ≠ fd := by
      rintro rfl
      exact absent member
    rw [seat_desks, if_neg apart]
    exact weighs.only other absent
  · have before := List.sum_map_erase state.waiting member
    have after := List.sum_map_erase (state.seat fd moved).waiting member
    have same : (fds.erase fd).map (state.seat fd moved).waiting =
        (fds.erase fd).map state.waiting := by
      apply List.map_congr_left
      intro other among
      have apart := (weighs.nodup.mem_erase_iff.mp among).1
      simp only [waiting, seat_desks, if_neg apart]
    have here : state.waiting fd = desk.requests.length := by
      rw [waiting, seated]
      rfl
    have now : (state.seat fd moved).waiting fd = moved.requests.length := by
      rw [waiting, seat_desks, if_pos rfl]
      rfl
    have few := weighs.few
    rw [same] at after
    omega

/-- A step that leaves the requests as they are. -/
theorem Weighs.same {fds : List Fd} (weighs : state.Weighs past count fds)
    (missing : ∀ fd, state.desks fd = none → next.desks fd = none)
    (waiting : next.waiting = state.waiting) (none_served : calls more = calls past) :
    next.Weighs more count fds where
  nodup := weighs.nodup
  only := fun fd absent => missing fd (weighs.only fd absent)
  few := by
    rw [waiting, none_served]
    exact weighs.few

/-- Only a typed line makes the requests more. -/
theorem Weighs.step {fds : List Fd} (weighs : state.Weighs past count fds) {event : Event}
    (stepped : state.step event = some (next, report)) :
    ∃ fds, next.Weighs (past ++ [report]) (count + event.typed) fds := by
  have quiet {report : Report} (uncalled : report.call = none) :
      calls (past ++ [report]) = calls past := by
    rw [calls_snoc, uncalled, Option.toList_none, List.append_nil]
  cases does_of_step stepped with
  | @joins fd traderId nonneg free =>
    have same : (state.seat fd ⟨traderId, [], Client.new ⟨[], [], .waiting⟩⟩).waiting =
        state.waiting := by
      funext other
      by_cases own : other = fd
      · rw [waiting, waiting, seat_desks, if_pos own, own, free]
        rfl
      · rw [waiting, waiting, seat_desks, if_neg own]
    have elsewhere {other : Fd} (apart : other ≠ fd) (absent : state.desks other = none) :
        (state.seat fd ⟨traderId, [], Client.new ⟨[], [], .waiting⟩⟩).desks other = none := by
      rw [seat_desks, if_neg apart]
      exact absent
    by_cases member : fd ∈ fds
    · refine ⟨fds, weighs.nodup, ?_, ?_⟩
      · intro other absent
        exact elsewhere (by rintro rfl; exact absent member) (weighs.only other absent)
      · rw [quiet rfl, same]
        exact weighs.few
    · refine ⟨fd :: fds, List.nodup_cons.mpr ⟨member, weighs.nodup⟩, ?_, ?_⟩
      · intro other absent
        rw [List.mem_cons, not_or] at absent
        exact elsewhere absent.1 (weighs.only other absent.2)
      · have none_waits : state.waiting fd = 0 := by
          rw [waiting, free]
          rfl
        rw [quiet rfl, same, List.map_cons, List.sum_cons, none_waits, Nat.zero_add]
        exact weighs.few
  | registers seated unregistered =>
    exact ⟨fds, weighs.same (fun _ => id) rfl (quiet rfl)⟩
  | enters seated typed =>
    refine ⟨fds, weighs.seat seated ?_⟩
    rw [quiet rfl, List.length_append]
    exact Nat.le_of_eq (Nat.add_assoc _ _ _).symm
  | ignores =>
    refine ⟨fds, weighs.nodup, weighs.only, ?_⟩
    rw [quiet rfl]
    exact Nat.le_add_right_of_le weighs.few
  | skips seated waits =>
    refine ⟨fds, weighs.seat seated ?_⟩
    rw [quiet rfl, waits, List.length_cons]
    dsimp only
    omega
  | @serves fd now desk msg later thread req out idle seated waits handled =>
    have one : (calls (past ++ [.served req out])).length = (calls past).length + 1 := by
      rw [calls_snoc, List.length_append]
      rfl
    have less : (calls (past ++ [.served req out])).length +
        ({ desk with requests := later } : Desk).requests.length ≤
          (calls past).length + desk.requests.length + 0 := by
      rw [one, waits, List.length_cons]
      dsimp only
      omega
    obtain ⟨nodup, only, few⟩ := weighs.seat seated less
    exact ⟨fds, nodup, only, few⟩
  | @sends event later first =>
    have same : ({ state with
        desks := fun fd =>
          if Goes state.sessions event fd then (state.desks fd).map (Desk.post · event)
          else state.desks fd
        sending := later } : Trading).waiting = state.waiting := by
      funext other
      simp only [waiting]
      split
      · rw [Option.map_map]
        rfl
      · rfl
    refine ⟨fds, weighs.same ?_ same (quiet rfl)⟩
    intro other absent
    dsimp only
    rw [absent, Option.map_none, ite_self]
  | receives seated some_pending iterated =>
    refine ⟨fds, weighs.seat seated ?_⟩
    rw [quiet rfl]
    exact Nat.le_refl _

end Trading

namespace Program

open Pipeline (stream tagged part taken)

/-- Nobody joins and nobody types. -/
def Event.Quiet : Event → Prop
  | .login _ _ | .enter _ _ => False
  | _ => True

/-- Steps of the threads and of the network alone. -/
abbrev Settles (state : Program) (reports : List Trading.Report) (last : Program) : Prop :=
  Leads Program.step Event.Quiet state reports last

variable {state next last : Program} {fd : Fd} {link : Link} {count : Nat}
  {reports : List Trading.Report}

/-- What holds of a program in which so many lines have been typed. -/
def Keeps (state : Program) (count : Nat) : Prop :=
  ∃ past abstract told fds, state.Refines past abstract ∧ abstract.Loop told ∧
    abstract.Weighs told count fds

/-- Every step keeps it. -/
theorem Keeps.step (keeps : state.Keeps count) {event : Event} {report : Trading.Report}
    (stepped : state.step event = some (next, report)) : next.Keeps (count + event.typed) := by
  obtain ⟨past, abstract, told, fds, refines, loop, weighs⟩ := keeps
  rcases refines.step stepped with ⟨⟨more, refined⟩, -⟩ | answered
  · exact ⟨more, abstract, told, fds, refined, loop, weighs.nodup, weighs.only,
      Nat.le_add_right_of_le weighs.few⟩
  · obtain ⟨event', after, shown, taken, typed, ⟨more, refined⟩, -⟩ := answered
    obtain ⟨others, weighsNow⟩ := weighs.step taken
    exact ⟨more, after, told ++ [shown], others, refined, loop.step taken, weighsNow.nodup,
      weighsNow.only, Nat.le_trans weighsNow.few (Nat.add_le_add_left typed count)⟩

/-- Every run keeps it. -/
theorem keeps_of_run {events : List Event} (keeps : state.Keeps count)
    (ran : run Program.step state events = some (last, reports)) :
    last.Keeps (count + (events.map Event.typed).sum) := by
  induction events generalizing state count reports with
  | nil =>
    cases ran
    exact keeps
  | cons event events ih =>
    obtain ⟨next, report, later, stepped, rest, rfl⟩ := run_cons_eq_some ran
    have whole := ih (keeps.step stepped) rest
    rw [List.map_cons, List.sum_cons, ← Nat.add_assoc]
    exact whole

/-- Nothing is typed while the program settles. -/
theorem Keeps.settles (keeps : state.Keeps count) (settles : Settles state reports last) :
    last.Keeps count := by
  induction settles with
  | here => exact keeps
  | @step _ _ _ event _ _ quiet stepped _ ih =>
    have none_typed : event.typed = 0 := by
      cases event with
      | login | enter => exact quiet.elim
      | _ => rfl
    have kept := keeps.step stepped
    rw [none_typed, Nat.add_zero] at kept
    exact ih kept

/-- The connections that were ever opened. -/
theorem Keeps.opened (keeps : state.Keeps count) :
    ∃ fds : List Fd, ∀ fd link, state.links fd = some link → fd ∈ fds := by
  obtain ⟨past, abstract, told, -, refines, -⟩ := keeps
  exact ⟨Pipeline.openedIn past,
    fun fd link found => Pipeline.mem_openedIn (refines.known found)⟩

/-! ## The login handlers return -/

/-- What the login handlers do by themselves, they do in the program. -/
theorem logsIn (state : Program) {pipeline : Pipeline} {more : List Pipeline.Report}
    (leads : Leads Pipeline.step Pipeline.Event.LogsIn state.pipeline more pipeline) :
    ∃ reports, Settles state reports { state with pipeline := pipeline } := by
  generalize start : state.pipeline = first at leads
  induction leads generalizing state with
  | here => exact ⟨[], start ▸ .here⟩
  | @step _ between _ event _ _ logsIn stepped _ ih =>
    subst start
    obtain ⟨reports, settles⟩ := ih { state with pipeline := between } rfl
    cases event with
    | register fd =>
      have took : state.step (.register fd) =
          some ({ state with pipeline := between }, .registered fd) := by
        simp only [Program.step, goesOn, stepped, bind, Option.bind]
      exact ⟨_, .step (show (Event.register fd).Quiet from trivial) took settles⟩
    | watch fd =>
      have took : state.step (.watch fd) =
          some ({ state with pipeline := between }, .nothing) := by
        simp only [Program.step, goesOn, stepped, bind, Option.bind]
      exact ⟨_, .step (show (Event.watch fd).Quiet from trivial) took settles⟩
    | _ => exact logsIn.elim

/-- All login handlers return. -/
theorem Keeps.allReturn (keeps : state.Keeps count) :
    ∃ reports last, Settles state reports last ∧ ∀ fd, last.pipeline.handlers fd = none := by
  obtain ⟨past, abstract, told, -, refines, -⟩ := keeps
  obtain ⟨more, pipeline, leads, returned⟩ := refines.lasting.live.allReturn
  obtain ⟨reports, settles⟩ := state.logsIn leads
  exact ⟨reports, { state with pipeline := pipeline }, settles, returned⟩

/-! ## The bytes arrive -/

/-- All bytes of a client have arrived. -/
def Sent (state : Program) (fd : Fd) : Prop :=
  ∀ link, state.links fd = some link → link.outgoing = []

/-- The bytes of a client arrive. -/
theorem Keeps.arrives (keeps : state.Keeps count) (fd : Fd) :
    ∃ reports last, Settles state reports last ∧ last.Sent fd ∧
      (∀ other, state.Sent other → last.Sent other) ∧
      last.pipeline.handlers = state.pipeline.handlers := by
  cases found : state.links fd with
  | none => exact ⟨[], state, .here, by simp [Sent, found], fun _ => id, rfl⟩
  | some link =>
    by_cases nothing : link.outgoing = []
    · refine ⟨[], state, .here, ?_, fun _ => id, rfl⟩
      intro own foundAgain
      rw [found, Option.some.injEq] at foundAgain
      exact foundAgain ▸ nothing
    · obtain ⟨past, abstract, told, -, refines, -⟩ := keeps
      obtain ⟨socket, isOpen⟩ := refines.lasting.lasts fd (refines.known found)
      have waiting := refines.lasting.live.waiting fd socket isOpen
      have stepped : state.step (.arrive fd link.outgoing.length) =
          some ({ state.connect fd { link with outgoing := [] } with
            pipeline := { state.pipeline with
              epoll := state.pipeline.epoll.set fd (some (socket.arrive link.outgoing)) } },
            .nothing) := by
        have some_bytes : 0 < link.outgoing.length := List.length_pos_iff.mpr nothing
        simp [Program.step, Pipeline.step, found, some_bytes, isOpen, waiting]
      have here : Sent (state.connect fd { link with outgoing := [] }) fd := by
        intro own foundNow
        simp only [connect_links, if_true, Option.some.injEq] at foundNow
        rw [← foundNow]
      have allowed : (Event.arrive fd link.outgoing.length).Quiet := trivial
      refine ⟨_, _, .single allowed stepped, here, ?_, rfl⟩
      intro other sent
      by_cases same : other = fd
      · exact same ▸ here
      · intro own foundNow
        simp only [connect_links, if_neg same] at foundNow
        exact sent own foundNow

/-! ## The threads catch up -/

/-- What has yet to be sent is sent. -/
theorem drains (state : Program) :
    ∃ reports last, Settles state reports last ∧ last.sending = [] ∧
      last.pipeline = state.pipeline ∧ ∀ fd, state.Sent fd → last.Sent fd := by
  generalize pending : state.sending = events
  induction events generalizing state with
  | nil => exact ⟨[], state, .here, pending, rfl, fun _ => id⟩
  | cons event events ih =>
    have stepped : state.step (.matching 0) = some ({ state with
        links := fun fd =>
          if Trading.Goes state.pipeline.sessions event fd then
            (state.links fd).map (Link.post · event)
          else state.links fd
        sending := events }, .sent event) := by
      simp only [Program.step, pending]
    obtain ⟨reports, last, settles, sent, pipeline, kept⟩ := ih { state with
        links := fun fd =>
          if Trading.Goes state.pipeline.sessions event fd then
            (state.links fd).map (Link.post · event)
          else state.links fd
        sending := events } rfl
    refine ⟨_, last, .step (show (Event.matching 0).Quiet from trivial) stepped settles, sent,
      pipeline, ?_⟩
    intro fd empty
    refine kept fd ?_
    intro link found
    dsimp only at found
    split at found
    · obtain ⟨old, foundBefore, rfl⟩ := Option.map_eq_some_iff.mp found
      exact empty old foundBefore
    · exact empty link found

/-- The engine deals with every message. -/
theorem Keeps.handles (keeps : state.Keeps count) (few : count < 2 ^ 64 - 1) (raw : RawMessage) :
    ∃ thread handled, state.thread.step (raw, 0) = some (thread, handled) := by
  obtain ⟨past, abstract, told, fds, refines, loop, weighs⟩ := keeps
  cases parses : MatchingThread.parse raw 0 with
  | none => exact ⟨state.thread, none, by simp only [MatchingThread.step, parses]⟩
  | some req =>
    have below : orderCount (Trading.calls told) < 2 ^ 64 - 1 := by
      have atMost := MatchingThread.orderCount_le (Trading.calls told)
      have weight := weighs.few
      omega
    obtain ⟨good, -⟩ := MatchingEngine.owned_of_run below loop.engine
    obtain ⟨engine, out, ran, -⟩ := good.steps (MatchingThread.call req)
    rw [refines.thread] at ran
    refine ⟨⟨engine, engine.publish state.thread.marketState req.m_symbolId out.confirmsOut⟩,
      some (req, out), ?_⟩
    simp only [MatchingThread.step, parses, MatchingThread.handle, ran, bind, Option.bind]

/-- A pop, and all that it makes the matching thread send. -/
theorem Keeps.pops (keeps : state.Keeps count) (few : count < 2 ^ 64 - 1)
    (idle : state.sending = []) {pipeline : Pipeline} {report : Pipeline.Report}
    (stepped : state.pipeline.step .matching = some (pipeline, report)) :
    ∃ reports last, Settles state reports last ∧ last.sending = [] ∧ last.pipeline = pipeline ∧
      ∀ fd, state.Sent fd → last.Sent fd := by
  -- whatever the pop comes to, the connections are as before
  obtain ⟨next, told, took, pipelineNow, links⟩ : ∃ next told,
      state.step (.matching 0) = some (next, told) ∧ next.pipeline = pipeline ∧
        next.links = state.links := by
    simp only [Program.step, idle, pop, stepped, bind, Option.bind]
    split
    · rename_i raw
      obtain ⟨thread, handled, dealt⟩ := keeps.handles few raw
      rw [dealt]
      cases handled with
      | none => exact ⟨_, _, rfl, rfl, rfl⟩
      | some result => exact ⟨_, _, rfl, rfl, rfl⟩
    · exact ⟨_, _, rfl, rfl, rfl⟩
  obtain ⟨reports, last, settles, sent, same, kept⟩ := next.drains
  refine ⟨_, last, .step (show (Event.matching 0).Quiet from trivial) took settles, sent,
    same.trans pipelineNow, ?_⟩
  intro fd empty
  refine kept fd ?_
  rw [Sent, links]
  exact empty

/-- What the threads up to the queue do by themselves, they do in the program. -/
theorem Keeps.works (keeps : state.Keeps count) (few : count < 2 ^ 64 - 1)
    (idle : state.sending = []) {pipeline : Pipeline} {more : List Pipeline.Report}
    (works : Pipeline.Works state.pipeline more pipeline) :
    ∃ reports last, Settles state reports last ∧ last.sending = [] ∧ last.pipeline = pipeline ∧
      ∀ fd, state.Sent fd → last.Sent fd := by
  generalize start : state.pipeline = first at works
  induction works generalizing state with
  | here => exact ⟨[], state, .here, idle, start, fun _ => id⟩
  | @step _ between _ event report _ internal stepped _ ih =>
    subst start
    -- one step of the program, or a pop with its sends
    obtain ⟨reports, next, settles, sent, pipelineNow, kept⟩ : ∃ reports next,
        Settles state reports next ∧ next.sending = [] ∧ next.pipeline = between ∧
          ∀ fd, state.Sent fd → next.Sent fd := by
      cases event with
      | login | register | watch | arrive | finish => exact internal.elim
      | matching => exact keeps.pops few idle stepped
      | wait fds =>
        have took : state.step (.wait fds) =
            some ({ state with pipeline := between }, .nothing) := by
          simp only [Program.step, goesOn, stepped, bind, Option.bind]
        exact ⟨_, _, .single (show (Event.wait fds).Quiet from trivial) took, idle, rfl,
          fun _ => id⟩
      | epoll size =>
        have took : state.step (.epoll size) =
            some ({ state with pipeline := between }, .nothing) := by
          simp only [Program.step, goesOn, stepped, bind, Option.bind]
        exact ⟨_, _, .single (show (Event.epoll size).Quiet from trivial) took, idle, rfl,
          fun _ => id⟩
    obtain ⟨later, last, rest, sentLast, pipelineLast, keptLast⟩ :=
      ih (keeps.settles settles) sent pipelineNow
    exact ⟨_, last, settles.trans rest, sentLast, pipelineLast,
      fun fd empty => keptLast fd (kept fd empty)⟩

/-- No client has sent a header with length zero. -/
theorem Refines.moving {past : List Pipeline.Report} {abstract : Trading}
    (refines : state.Refines past abstract) : Pipeline.Moving past := by
  intro fd stalls
  cases found : state.links fd with
  | none =>
    rw [(refines.lasting.silent fd ((refines.unopened fd).mp found)).1] at stalls
    exact (ClientMsg.framed []).not_stalls stalls
  | some link =>
    obtain ⟨desk, -, -, served, pending, -, bytes, -⟩ := refines.linked fd link found
    have whole := stalls.append link.outgoing
    rw [bytes] at whole
    exact (ClientMsg.framed (served ++ pending)).not_stalls whole

/-- The threads up to the queue catch up. -/
theorem Keeps.idles (keeps : state.Keeps count) (few : count < 2 ^ 64 - 1) :
    ∃ reports last, Settles state reports last ∧ last.sending = [] ∧ last.pipeline.Idle ∧
      last.pipeline.handlers = state.pipeline.handlers ∧
      ∀ fd, state.Sent fd → last.Sent fd := by
  obtain ⟨first, between, drains, sent, same, kept⟩ := state.drains
  have keepsNow := keeps.settles drains
  obtain ⟨past, abstract, told, -, refines, -⟩ := keepsNow
  obtain ⟨more, pipeline, works, idle⟩ := refines.lasting.live.idles refines.moving
  obtain ⟨second, last, settles, sentLast, reached, keptLast⟩ :=
    (keeps.settles drains).works few sent works
  have handlers := refines.lasting.live.handlers_of_works works
  refine ⟨_, last, drains.trans settles, sentLast, reached ▸ idle, ?_,
    fun fd empty => keptLast fd (kept fd empty)⟩
  rw [reached, handlers, same]

/-! ## The clients receive -/

/-- A client has handled all that was sent to it. -/
def Heard (state : Program) (fd : Fd) : Prop :=
  ∀ link, state.links fd = some link → link.client.sock.pending = []

/-- What a receive thread leaves as it is. -/
structure Listens (state last : Program) : Prop where
  /-- The server. -/
  pipeline : last.pipeline = state.pipeline
  /-- What it has yet to send. -/
  sending : last.sending = state.sending
  /-- What has arrived from the clients. -/
  sent : ∀ fd, state.Sent fd → last.Sent fd
  /-- A client that has nothing to receive. -/
  heard : ∀ fd, state.Heard fd → last.Heard fd

/-- Nothing happens. -/
theorem Listens.refl (state : Program) : state.Listens state :=
  ⟨rfl, rfl, fun _ => id, fun _ => id⟩

/-- One receive after another. -/
theorem Listens.trans (first : state.Listens next) (second : next.Listens last) :
    state.Listens last where
  pipeline := second.pipeline.trans first.pipeline
  sending := second.sending.trans first.sending
  sent := fun fd before => second.sent fd (first.sent fd before)
  heard := fun fd before => second.heard fd (first.heard fd before)

/-- A client handles a message. -/
theorem Listens.connect (found : state.links fd = some link)
    (some_pending : ¬link.client.sock.pending = []) (client : Client) :
    state.Listens (state.connect fd { link with client := client }) where
  pipeline := rfl
  sending := rfl
  sent := by
    intro other sent own foundNow
    by_cases same : other = fd
    · subst same
      simp only [connect_links, if_true, Option.some.injEq] at foundNow
      rw [← foundNow]
      exact sent link found
    · simp only [connect_links, if_neg same] at foundNow
      exact sent own foundNow
  heard := by
    intro other heard own foundNow
    by_cases same : other = fd
    · subst same
      exact absurd (heard link found) some_pending
    · simp only [connect_links, if_neg same] at foundNow
      exact heard own foundNow

/-- The messages to a client are handled one after the other. -/
theorem receives {events : List ServerEvent} (found : state.links fd = some link)
    (pending : link.client.sock.pending = events.flatMap ServerEvent.bytes) :
    ∃ reports last, Settles state reports last ∧ state.Listens last ∧ last.Heard fd := by
  induction events generalizing state link with
  | nil =>
    refine ⟨[], state, .here, .refl state, ?_⟩
    intro own foundAgain
    rw [found, Option.some.injEq] at foundAgain
    exact foundAgain ▸ pending
  | cons event events ih =>
    rw [List.flatMap_cons] at pending
    have some_pending : ¬link.client.sock.pending = [] := by
      obtain ⟨body, packed⟩ := event.packed
      intro nothing
      rw [nothing, packed.bytes] at pending
      have some_body := packed.nonempty
      have length := congrArg List.length pending
      simp only [List.length_append, List.length_nil] at length
      omega
    let body : Body := ⟨List.replicate 256 0, List.length_replicate⟩
    have whole : ({ link.client with sock := { link.client.sock with
        arrivals := [] } } : Client).sock.pending =
          event.bytes ++ events.flatMap ServerEvent.bytes := pending
    obtain ⟨client, iterated, rest⟩ : ∃ client, ({ link.client with sock := { link.client.sock with
        arrivals := [] } } : Client).iterate body = some (client, .looping) ∧
          client.sock.pending = events.flatMap ServerEvent.bytes := by
      obtain ⟨arrivals, iterated⟩ := Client.iterate_message whole body
      exact ⟨_, iterated, rfl⟩
    have stepped : state.step (.receive fd [] body) =
        some (state.connect fd { link with client := client }, .nothing) := by
      simp only [Program.step, found, if_neg some_pending, iterated]
      rfl
    have foundNow : (state.connect fd { link with client := client }).links fd =
        some { link with client := client } := Function.update_self _ _ _
    obtain ⟨reports, last, settles, listens, heard⟩ := ih foundNow rest
    exact ⟨_, last, .step (show (Event.receive fd [] body).Quiet from trivial) stepped settles,
      (Listens.connect found some_pending client).trans listens, heard⟩

/-- A client receives all that was sent to it. -/
theorem Keeps.hears (keeps : state.Keeps count) (fd : Fd) :
    ∃ reports last, Settles state reports last ∧ state.Listens last ∧ last.Heard fd := by
  cases found : state.links fd with
  | none => exact ⟨[], state, .here, .refl state, by simp [Heard, found]⟩
  | some link =>
    obtain ⟨past, abstract, told, -, refines, loop, -⟩ := keeps
    obtain ⟨desk, seated, client, -⟩ := refines.linked fd link found
    obtain ⟨_, informed, -⟩ := loop.seats fd desk seated
    obtain ⟨done, waiting, arrivals, -, same⟩ := informed.heard
    have pending : link.client.sock.pending = waiting.flatMap ServerEvent.bytes := by
      rw [client, same]
      rfl
    exact receives found pending

/-- Nothing is left to do: the login handlers have returned, the threads have caught up, and all
that was sent has been received. -/
structure Settled (state : Program) : Prop where
  /-- The threads have caught up. -/
  idle : state.pipeline.Idle
  /-- The login handlers have returned. -/
  returned : ∀ fd, state.pipeline.handlers fd = none
  /-- The matching thread has made all its sends. -/
  sending : state.sending = []
  /-- All bytes of the clients have arrived. -/
  sent : ∀ fd, state.Sent fd
  /-- All bytes to the clients have been received. -/
  heard : ∀ fd, state.Heard fd

/-- All bytes of all clients arrive. -/
theorem Keeps.allArrive (keeps : state.Keeps count) :
    ∃ reports last, Settles state reports last ∧ (∀ fd, last.Sent fd) ∧
      last.pipeline.handlers = state.pipeline.handlers := by
  obtain ⟨fds, linked⟩ := keeps.opened
  obtain ⟨reports, last, settles, ⟨-, handlers⟩, sent⟩ := Leads.each
    (fun now => now.Keeps count ∧ now.pipeline.handlers = state.pipeline.handlers) Sent
    (by
      rintro now fd ⟨keepsNow, handlers⟩
      obtain ⟨reports, next, settles, here, kept, same⟩ := keepsNow.arrives fd
      exact ⟨reports, next, settles, ⟨keepsNow.settles settles, same.trans handlers⟩, here, kept⟩)
    fds ⟨keeps, rfl⟩
  refine ⟨reports, last, settles, ?_, handlers⟩
  intro fd
  cases found : state.links fd with
  | none => exact sent fd (.inr (by simp [Sent, found]))
  | some link => exact sent fd (.inl (linked fd link found))

/-- All clients receive all that was sent to them. -/
theorem Keeps.allHear (keeps : state.Keeps count) :
    ∃ reports last, Settles state reports last ∧ state.Listens last ∧ ∀ fd, last.Heard fd := by
  obtain ⟨fds, linked⟩ := keeps.opened
  obtain ⟨reports, last, settles, ⟨-, listens⟩, heard⟩ := Leads.each
    (fun now => now.Keeps count ∧ state.Listens now) Heard
    (by
      rintro now fd ⟨keepsNow, listens⟩
      obtain ⟨reports, next, settles, more, here⟩ := keepsNow.hears fd
      exact ⟨reports, next, settles, ⟨keepsNow.settles settles, listens.trans more⟩, here,
        more.heard⟩)
    fds ⟨keeps, .refl state⟩
  refine ⟨reports, last, settles, listens, ?_⟩
  intro fd
  cases found : state.links fd with
  | none => exact heard fd (.inr (by simp [Heard, found]))
  | some link => exact heard fd (.inl (linked fd link found))

/-- The program settles. -/
theorem Keeps.settled (keeps : state.Keeps count) (few : count < 2 ^ 64 - 1) :
    ∃ reports last, Settles state reports last ∧ last.Settled := by
  obtain ⟨first, logged, logins, returned⟩ := keeps.allReturn
  have keepsFirst := keeps.settles logins
  obtain ⟨second, arrived, arrivals, allSent, handlers⟩ := keepsFirst.allArrive
  have keepsSecond := keepsFirst.settles arrivals
  obtain ⟨third, quiet, catches, sending, idle, handlersQuiet, sent⟩ := keepsSecond.idles few
  have keepsThird := keepsSecond.settles catches
  obtain ⟨fourth, last, receives, listens, heard⟩ := keepsThird.allHear
  refine ⟨_, last, ((logins.trans arrivals).trans catches).trans receives, ?_, ?_, ?_, ?_, heard⟩
  · rw [listens.pipeline]
    exact idle
  · intro fd
    rw [listens.pipeline, handlersQuiet, handlers]
    exact returned fd
  · rw [listens.sending]
    exact sending
  · exact fun fd => listens.sent fd (sent fd (allSent fd))

/-- Nobody is connected, and nothing has been typed. -/
theorem keeps_new : new.Keeps 0 :=
  ⟨[], Trading.new, [], [], refines_new, Trading.loop_new, List.nodup_nil, fun _ _ => rfl,
    Nat.le_refl 0⟩

/-- From every state that the whole program reaches while fewer than 2⁶⁴ − 1 lines are typed,
steps of the threads and of the network alone lead to a state in which nothing is left to do; and
there the closed loop that the program refines has no request left. -/
theorem run_settles {events : List Event}
    (ran : run Program.step new events = some (state, reports))
    (few : (events.map Event.typed).sum < 2 ^ 64 - 1) :
    ∃ later last more, (∀ event ∈ later, event.Quiet) ∧
      run Program.step state later = some (last, more) ∧ last.Settled ∧
      ∃ past abstract, last.Refines past abstract ∧
        ∀ fd desk, abstract.desks fd = some desk → desk.requests = [] := by
  have keeps := keeps_of_run keeps_new ran
  rw [Nat.zero_add] at keeps
  obtain ⟨more, last, settles, settled⟩ := keeps.settled few
  obtain ⟨later, quiet, goesOn⟩ := settles.run
  obtain ⟨past, abstract, -, -, refines, -⟩ := keeps.settles settles
  refine ⟨later, last, more, quiet, goesOn, settled, past, abstract, refines, ?_⟩
  intro fd desk seated
  cases found : last.links fd with
  | none =>
    rw [refines.free fd found] at seated
    contradiction
  | some link =>
    exact refines.caught_up settled.idle found (settled.returned fd) (settled.sent fd link found)
      seated

/-- A client that has typed an order before its session is registered, with half of it arrived. -/
theorem run_settles_unregistered :
    ∃ state reports, run Program.step new
        [.login 5 1, .enter 5 "N,1,0,BUY,100,5".toList, .arrive 5 10] = some (state, reports) ∧
      Trading.calls reports = [] ∧
      ∃ later last more, (∀ event ∈ later, event.Quiet) ∧
        run Program.step state later = some (last, more) ∧ last.Settled := by
  have facts : (run Program.step new
      [.login 5 1, .enter 5 "N,1,0,BUY,100,5".toList, .arrive 5 10]).map
        (fun result => (Trading.calls result.2).length) = some 0 := by
    decide +kernel
  obtain ⟨⟨state, reports⟩, ran, uncalled⟩ := Option.map_eq_some_iff.mp facts
  obtain ⟨later, last, more, quiet, goesOn, settled, -⟩ := run_settles ran (by simp [Event.typed])
  exact ⟨state, reports, ran, List.eq_nil_of_length_eq_zero uncalled, later, last, more, quiet,
    goesOn, settled⟩

end Program

end Exchange
