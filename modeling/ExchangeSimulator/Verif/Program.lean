import ExchangeSimulator.Server.Program
import ExchangeSimulator.Verif.Sequential
import ExchangeSimulator.Verif.Trading

/-!
# The whole program is the closed loop

In the closed loop a request passes from a client to the matching thread in one
step, and a client's requests wait in a list. Here this is justified: the whole
program, with its bytes in pieces, its framing, its queue and its interleavings,
refines the closed loop. The request that the matching thread pops is the first one
of its client that it has not popped before; the pop is the step in which the closed
loop serves that request, and every step before it on the way of the bytes is one
that the closed loop does not see. What is proved of every run of the closed loop
therefore holds of the whole program. When the threads have caught up and no bytes
are under way, no request is left waiting.
-/

namespace Exchange

open Library

/-! ## What the pipeline hands over -/

namespace ClientMsg

/-- The messages of a client are its frames. -/
theorem framed (msgs : List ClientMsg) :
    Framed messageCutter (msgs.flatMap bytes) (msgs.map bytes) [] := by
  have whole := Frame.framed (msgs.map Frame.genuine)
  rw [List.flatMap_map, List.map_map] at whole
  exact whole

/-- Each is pushed in one envelope. -/
theorem ofFrame_isSome (msg : ClientMsg) (traderId : TraderId) :
    (RawMessage.ofFrame traderId msg.bytes).isSome = true := by
  have parses := msg.parse_bytes traderId 0
  cases pushed : RawMessage.ofFrame traderId msg.bytes with
  | none =>
    rw [pushed] at parses
    contradiction
  | some raw => rfl

end ClientMsg

namespace SessionManager

variable {manager other : SessionManager} {fd : Fd}

/-- A descriptor without a session has none there either. -/
theorem Alike.none_iff (alike : manager.Alike other) :
    manager.sessions fd = none ↔ other.sessions fd = none := by
  rw [← Option.map_eq_none_iff (f := ClientSession.traderId), alike.sessions,
    Option.map_eq_none_iff]

/-- One more session. -/
theorem Alike.add (alike : manager.Alike other) (fd : Fd) (traderId : TraderId) :
    (manager.add fd traderId).Alike (other.add fd traderId) where
  sessions := by
    intro own
    rw [add_sessions, add_sessions]
    split
    · rfl
    · exact alike.sessions own
  traderToFd := by
    change Function.update manager.traderToFd traderId (some fd) = _
    rw [alike.traderToFd]
    rfl

/-- What is like another is like what that is like. -/
theorem Alike.trans (alike : manager.Alike other) {third : SessionManager}
    (more : other.Alike third) : manager.Alike third where
  sessions := fun fd => (alike.sessions fd).trans (more.sessions fd)
  traderToFd := alike.traderToFd.trans more.traderToFd

/-- It goes both ways. -/
theorem Alike.symm (alike : manager.Alike other) : other.Alike manager where
  sessions := fun fd => (alike.sessions fd).symm
  traderToFd := alike.traderToFd.symm

/-- Messages go to the same descriptors. -/
theorem Alike.goes_iff (alike : manager.Alike other) (event : ServerEvent) :
    Trading.Goes manager event fd ↔ Trading.Goes other event fd := by
  cases event with
  | ofConfirm confirm =>
    simp only [Trading.Goes, getFd, alike.traderToFd]
  | ofUpdate md =>
    simp only [Trading.Goes, getSession, ← Option.isSome_map (f := ClientSession.traderId),
      alike.sessions]

end SessionManager

namespace Pipeline

variable {state next : Pipeline} {past : List Report} {report : Report} {fd : Fd}

/-- A report that opens no connection. -/
theorem opened_snoc (unopened : ∀ fd, report ≠ .opened fd) (fd : Fd) :
    .opened fd ∈ past ++ [report] ↔ .opened fd ∈ past := by
  rw [List.mem_append, List.mem_singleton]
  exact or_iff_left fun now => unopened fd now.symm

/-- The messages popped so far, each with the descriptor it was pushed for. -/
def taken (past : List Report) : List (Fd × RawMessage) :=
  (tagged past).take (popped past).length

/-- A report that takes nothing out of the queue. -/
theorem Flows.taken_snoc (flows : state.Flows past) (quiet : report.takes = none) :
    taken (past ++ [report]) = taken past := by
  have fewer : (popped past).length ≤ (tagged past).length := by
    rw [← List.length_map (f := Prod.snd), map_tagged]
    exact flows.queue.ring.order.length_le
  rw [taken, popped_snoc, quiet, Option.toList_none, List.append_nil, tagged_snoc,
    List.take_append_of_le_length fewer]
  rfl

/-- A report that takes a message out of the queue. -/
theorem Flows.taken_popped {raw : RawMessage} (after : next.Flows (past ++ [.popped raw])) :
    ∃ fd, taken (past ++ [.popped raw]) = taken past ++ [(fd, raw)] := by
  have order := after.queue.ring.order
  rw [popped_snoc, ← map_tagged, tagged_snoc] at order
  simp only [Report.takes, Report.pushedOn, Option.toList_some, Option.toList_none,
    List.append_nil] at order
  obtain ⟨more, whole⟩ := order
  -- the next message in the queue is the one with this index
  have next_ : ((tagged past).map Prod.snd)[(popped past).length]? = some raw := by
    rw [← whole]
    simp
  rw [List.getElem?_map, Option.map_eq_some_iff] at next_
  obtain ⟨⟨fd, item⟩, found, rfl⟩ := next_
  refine ⟨fd, ?_⟩
  rw [taken, popped_snoc, tagged_snoc]
  simp only [Report.takes, Report.pushedOn, Option.toList_some, Option.toList_none,
    List.append_nil, List.length_append, List.length_singleton]
  rw [List.take_add_one, found]
  rfl

/-- `epoll_wait` takes nothing out of the queue. -/
theorem takes_wait {fds : List Fd} (stepped : state.step (.wait fds) = some (next, report)) :
    report.takes = none := by
  simp only [Pipeline.step] at stepped
  split at stepped
  · cases waited : state.epoll.wait fds with
    | none => simp [waited] at stepped
    | some result =>
      simp only [waited, bind, Option.bind, Option.some.injEq, Prod.mk.injEq] at stepped
      rw [← stepped.2]
      rfl
  · contradiction

/-- What has been popped for a descriptor are the first messages pushed for it. -/
theorem part_taken (past : List Report) (fd : Fd) :
    part fd (taken past) <+: part fd (tagged past) :=
  (List.take_prefix (popped past).length (tagged past)).filterMap _

/-- The messages of a client that have been pushed are the first ones it has sent. -/
theorem Lasting.pushes (lasting : state.Lasting past) {msgs : List ClientMsg}
    (arrives : stream past fd <+: msgs.flatMap ClientMsg.bytes) {session : ClientSession}
    (found : state.sessions.sessions fd = some session) :
    part fd (tagged past) <+:
      msgs.filterMap fun msg => RawMessage.ofFrame session.traderId msg.bytes := by
  obtain ⟨socket, cut, -, -, taken, sent⟩ := lasting.live.flows.of_session found
  obtain ⟨later, whole⟩ := arrives
  have among := (taken.append later).among (whole ▸ ClientMsg.framed msgs)
  have all := among.filterMap (RawMessage.ofFrame session.traderId)
  rw [List.filterMap_map, ← sent, lasting.told] at all
  exact all

end Pipeline

/-! ## The refinement -/

/-- What a client has sent is what its desk has: some messages have been popped, the others wait. -/
structure Link.Carries (link : Link) (desk : Desk) (arrived : List UInt8)
    (taken : List RawMessage) : Prop where
  /-- The receive thread is the same. -/
  client : link.client = desk.client
  /-- The bytes that have arrived and those under way are the messages. -/
  sent : ∃ served pending : List ClientMsg, desk.requests = pending.map ClientMsg.struct ∧
    arrived ++ link.outgoing = (served ++ pending).flatMap ClientMsg.bytes ∧
    taken = served.filterMap fun msg => RawMessage.ofFrame desk.traderId msg.bytes

/-- How many lines are typed in a step of the closed loop. -/
def Trading.Event.typed : Trading.Event → Nat
  | .enter _ _ => 1
  | _ => 0

/-- How many lines are typed in a step of the program. -/
def Program.Event.typed : Program.Event → Nat
  | .enter _ _ => 1
  | _ => 0

/-- What is seen of a step. -/
def Trading.Report.seen : Trading.Report → Option Trading.Report
  | .nothing => none
  | report => some report

namespace Program

open Pipeline (stream tagged part taken)

/-- The closed loop is that of the program, given what the pipeline has reported. -/
structure Refines (state : Program) (past : List Pipeline.Report) (abstract : Trading) : Prop where
  /-- What holds of the pipeline. -/
  lasting : state.pipeline.Lasting past
  /-- The matching thread is shared. -/
  thread : abstract.thread = state.thread
  /-- So is what it has yet to send. -/
  sending : abstract.sending = state.sending
  /-- The session managers differ in what is buffered. -/
  sessions : state.pipeline.sessions.Alike abstract.sessions
  /-- A descriptor without a client has not been opened. -/
  unopened : ∀ fd, state.links fd = none ↔ .opened fd ∉ past
  /-- It has no desk. -/
  free : ∀ fd, state.links fd = none → abstract.desks fd = none
  /-- A descriptor that is open. -/
  linked : ∀ fd link, state.links fd = some link → ∃ desk, abstract.desks fd = some desk ∧
    link.Carries desk (stream past fd) (part fd (taken past))
  /-- The login handler has the trader of its client. -/
  answered : ∀ fd traderId desk, state.pipeline.handlers fd = some (.answered traderId) →
    abstract.desks fd = some desk → desk.traderId = traderId
  /-- So has its session. -/
  logged : ∀ fd session desk, state.pipeline.sessions.sessions fd = some session →
    abstract.desks fd = some desk → desk.traderId = session.traderId

/-- Nobody is connected. -/
theorem refines_new : new.Refines [] Trading.new where
  lasting := Pipeline.lasting_new
  thread := rfl
  sending := rfl
  sessions := ⟨fun _ => rfl, rfl⟩
  unopened := fun _ => iff_of_true rfl List.not_mem_nil
  free := fun _ _ => rfl
  linked := by simp [new]
  answered := by simp [new, Pipeline.new]
  logged := by simp [new, Pipeline.new, SessionManager.new]

variable {state next : Program} {past more : List Pipeline.Report} {report : Pipeline.Report}
  {abstract after : Trading} {pipeline : Pipeline} {fd : Fd} {link changed : Link}
  {desk moved : Desk}

/-- What a change to one client leaves. -/
theorem connect_links (state : Program) (fd : Fd) (link : Link) (other : Fd) :
    (state.connect fd link).links other = if other = fd then some link else state.links other :=
  Function.update_apply state.links fd (some link) other

/-- A client has a connection. -/
theorem Refines.known (refines : state.Refines past abstract) (found : state.links fd = some link) :
    .opened fd ∈ past := by
  by_contra absent
  rw [(refines.unopened fd).mpr absent] at found
  contradiction

/-- A step that opens no connection and registers no session. -/
theorem Refines.transfer (refines : state.Refines past abstract)
    (lasting : next.pipeline.Lasting more) (thread : after.thread = next.thread)
    (sending : after.sending = next.sending)
    (alike : state.pipeline.sessions.Alike next.pipeline.sessions)
    (sessions : after.sessions = abstract.sessions)
    (handlers : ∀ fd traderId, next.pipeline.handlers fd = some (.answered traderId) →
      state.pipeline.handlers fd = some (.answered traderId))
    (opened : ∀ fd, .opened fd ∈ more ↔ .opened fd ∈ past)
    (free : ∀ fd, next.links fd = none →
      state.links fd = none ∧ after.desks fd = abstract.desks fd)
    (linked : ∀ fd link, next.links fd = some link → ∃ desk moved, abstract.desks fd = some desk ∧
      after.desks fd = some moved ∧ moved.traderId = desk.traderId ∧
      link.Carries moved (stream more fd) (part fd (taken more))) :
    next.Refines more after := by
  -- a trader stays with its desk
  have trader {fd : Fd} {moved : Desk} (seated : after.desks fd = some moved) :
      ∃ desk, abstract.desks fd = some desk ∧ moved.traderId = desk.traderId := by
    cases found : next.links fd with
    | none => exact ⟨moved, (free fd found).2 ▸ seated, rfl⟩
    | some link =>
      obtain ⟨desk, again, before, seatedAgain, same, -⟩ := linked fd link found
      rw [seated, Option.some.injEq] at seatedAgain
      exact ⟨desk, before, seatedAgain ▸ same⟩
  refine ⟨lasting, thread, sending, ?_, ?_, ?_, ?_, ?_, ?_⟩
  · rw [sessions]
    exact alike.symm.trans refines.sessions
  · intro fd
    rw [opened, ← refines.unopened]
    refine ⟨fun missing => (free fd missing).1, fun before => ?_⟩
    cases found : next.links fd with
    | none => rfl
    | some link =>
      obtain ⟨desk, -, seated, -⟩ := linked fd link found
      rw [refines.free fd before] at seated
      contradiction
  · intro fd missing
    obtain ⟨before, same⟩ := free fd missing
    exact same.trans (refines.free fd before)
  · intro fd link found
    obtain ⟨-, moved, -, seated, -, carries⟩ := linked fd link found
    exact ⟨moved, seated, carries⟩
  · intro fd traderId moved handler seated
    obtain ⟨desk, before, same⟩ := trader seated
    exact same.trans (refines.answered fd traderId desk (handlers fd traderId handler) before)
  · intro fd session moved found seated
    obtain ⟨desk, before, same⟩ := trader seated
    obtain ⟨old, foundBefore, sameTrader⟩ := alike.symm.session found
    rw [same, refines.logged fd old desk foundBefore before, sameTrader]

/-- A step of the pipeline that the closed loop does not see. -/
theorem Refines.unseen (refines : state.Refines past abstract)
    (lasting : pipeline.Lasting (past ++ [report]))
    (alike : state.pipeline.sessions.Alike pipeline.sessions)
    (handlers : ∀ fd traderId, pipeline.handlers fd = some (.answered traderId) →
      state.pipeline.handlers fd = some (.answered traderId))
    (unopened : ∀ fd, report ≠ .opened fd) (still : ∀ fd bytes, report.arrives fd bytes = bytes)
    (quiet : report.takes = none) :
    { state with pipeline := pipeline }.Refines (past ++ [report]) abstract := by
  refine refines.transfer lasting refines.thread refines.sending alike rfl handlers
    (Pipeline.opened_snoc unopened) ?_ ?_
  · exact fun fd missing => ⟨missing, rfl⟩
  · intro fd link found
    obtain ⟨desk, seated, carries⟩ := refines.linked fd link found
    rw [Pipeline.stream_snoc, still, refines.lasting.live.flows.taken_snoc quiet]
    exact ⟨desk, desk, seated, seated, rfl, carries⟩

/-- A step at one connection. -/
theorem Refines.connects (refines : state.Refines past abstract)
    (found : state.links fd = some link) (seated : abstract.desks fd = some desk)
    (carries : changed.Carries moved (stream more fd) (part fd (taken more)))
    (trader : moved.traderId = desk.traderId) (lasting : pipeline.Lasting more)
    (alike : state.pipeline.sessions.Alike pipeline.sessions)
    (handlers : pipeline.handlers = state.pipeline.handlers)
    (opened : ∀ fd, .opened fd ∈ more ↔ .opened fd ∈ past)
    (elsewhere : ∀ other ≠ fd, stream more other = stream past other ∧
      part other (taken more) = part other (taken past))
    {thread own : MatchingThread} (shared : own = thread) {sending events : List ServerEvent}
    (sends : events = sending) :
    { state.connect fd changed with
      pipeline := pipeline
      thread := thread
      sending := sending }.Refines more { abstract.seat fd moved with
        thread := own
        sending := events } := by
  refine refines.transfer lasting shared sends alike rfl ?_ opened ?_ ?_
  · intro other traderId handler
    rw [← handlers]
    exact handler
  · intro other missing
    have apart : other ≠ fd := by
      rintro rfl
      simp [connect_links] at missing
    simp only [connect_links, if_neg apart] at missing
    exact ⟨missing, Function.update_of_ne apart _ _⟩
  · intro other link' foundNow
    by_cases same : other = fd
    · subst same
      simp only [connect_links, if_true, Option.some.injEq] at foundNow
      subst foundNow
      exact ⟨desk, moved, seated, Function.update_self _ _ _, trader, carries⟩
    · simp only [connect_links, if_neg same] at foundNow
      obtain ⟨own, seatedOwn, carriesOwn⟩ := refines.linked other link' foundNow
      rw [(elsewhere other same).1, (elsewhere other same).2]
      exact ⟨own, own, seatedOwn, (Function.update_of_ne same _ _).trans seatedOwn, rfl,
        carriesOwn⟩

/-- A client joins. -/
theorem Refines.login (refines : state.Refines past abstract) {traderId : TraderId}
    (stepped : state.pipeline.step (.login fd traderId) = some (pipeline, report)) :
    ∃ after, abstract.step (.login fd traderId) = some (after, .nothing) ∧
      { state.connect fd ⟨[], Client.new ⟨[], [], .waiting⟩⟩ with pipeline := pipeline }.Refines
        (past ++ [report]) after := by
  have lasting := refines.lasting.step
    (show (Pipeline.Event.login fd traderId).Stays from trivial) stepped
  simp only [Pipeline.step] at stepped
  split at stepped
  · rename_i guard
    obtain ⟨nonneg, closed⟩ := guard
    cases stepped
    have unopened : .opened fd ∉ past := by
      intro member
      obtain ⟨socket, opened⟩ := refines.lasting.lasts fd member
      rw [closed] at opened
      contradiction
    have free := refines.free fd ((refines.unopened fd).mpr unopened)
    have unused : part fd (taken past) = [] := by
      have first := Pipeline.part_taken past fd
      rw [(refines.lasting.silent fd unopened).2] at first
      exact List.prefix_nil.mp first
    have quiet : taken (past ++ [.opened fd]) = taken past :=
      refines.lasting.live.flows.taken_snoc rfl
    refine ⟨abstract.seat fd ⟨traderId, [], Client.new ⟨[], [], .waiting⟩⟩, ?_, lasting,
      refines.thread, refines.sending, refines.sessions, ?_, ?_, ?_, ?_, ?_⟩
    · simp only [Trading.step, free, Option.isNone_none, and_true, if_pos nonneg]
    · intro other
      rw [List.mem_append, List.mem_singleton, Pipeline.Report.opened.injEq]
      by_cases same : other = fd
      · subst same
        simp [connect_links]
      · simp only [connect_links, same, or_false]
        exact refines.unopened other
    · intro other missing
      have apart : other ≠ fd := by
        rintro rfl
        simp [connect_links] at missing
      simp only [connect_links, if_neg apart] at missing
      exact (Function.update_of_ne apart _ _).trans (refines.free other missing)
    · intro other link found
      rw [Pipeline.stream_snoc, quiet]
      by_cases same : other = fd
      · subst same
        simp only [connect_links, if_true, Option.some.injEq] at found
        subst found
        refine ⟨_, Function.update_self _ _ _, rfl, [], [], rfl, ?_, unused⟩
        simp [Pipeline.Report.arrives]
      · simp only [connect_links, if_neg same] at found
        simp only [Pipeline.Report.arrives, if_neg (Ne.symm same)]
        obtain ⟨desk, seated, carries⟩ := refines.linked other link found
        exact ⟨desk, (Function.update_of_ne same _ _).trans seated, carries⟩
    · intro other own desk handler seated
      by_cases same : other = fd
      · subst same
        simp only [Function.update_self, Option.some.injEq, Handler.answered.injEq] at handler
        simp only [Trading.seat, Function.update_self, Option.some.injEq] at seated
        rw [← seated]
        exact handler
      · simp only [Function.update_of_ne same] at handler
        simp only [Trading.seat, Function.update_of_ne same] at seated
        exact refines.answered other own desk handler seated
    · intro other session desk found seated
      have apart : other ≠ fd := by
        rintro rfl
        rw [(refines.lasting.live.flows.of_closed closed).2] at found
        contradiction
      simp only [Trading.seat, Function.update_of_ne apart] at seated
      exact refines.logged other session desk found seated
  · contradiction

/-- A session is registered. -/
theorem Refines.register (refines : state.Refines past abstract)
    (stepped : state.pipeline.step (.register fd) = some (pipeline, report)) :
    ∃ after, abstract.step (.register fd) = some (after, .registered fd) ∧
      { state with pipeline := pipeline }.Refines (past ++ [report]) after := by
  have lasting := refines.lasting.step
    (show (Pipeline.Event.register fd).Stays from trivial) stepped
  simp only [Pipeline.step] at stepped
  split at stepped
  · rename_i traderId handler
    cases stepped
    obtain ⟨socket, opened, absent, -⟩ := refines.lasting.live.flows.of_answered handler
    have known := refines.lasting.live.known fd socket opened
    obtain ⟨link, found⟩ : ∃ link, state.links fd = some link := by
      apply Option.ne_none_iff_exists'.mp
      intro missing
      exact (refines.unopened fd).mp missing known
    obtain ⟨desk, seated, -⟩ := refines.linked fd link found
    have trader := refines.answered fd traderId desk handler seated
    refine ⟨{ abstract with sessions := abstract.sessions.add fd traderId }, ?_, lasting,
      refines.thread, refines.sending, refines.sessions.add fd traderId, ?_, refines.free, ?_, ?_,
      ?_⟩
    · have missing := refines.sessions.none_iff.mp absent
      simp only [Trading.step, seated, SessionManager.getSession, missing, Option.isNone_none,
        if_true, trader]
    · intro other
      rw [Pipeline.opened_snoc (by simp)]
      exact refines.unopened other
    · intro other link found
      rw [Pipeline.stream_snoc, refines.lasting.live.flows.taken_snoc rfl]
      exact refines.linked other link found
    · intro other own desk handler seated
      by_cases same : other = fd
      · subst same
        simp [Function.update_self] at handler
      · simp only [Function.update_of_ne same] at handler
        exact refines.answered other own desk handler seated
    · intro other session own found seatedOwn
      rw [SessionManager.add_sessions] at found
      split at found
      · rename_i same
        subst same
        rw [seated, Option.some.injEq] at seatedOwn
        cases found
        rw [← seatedOwn]
        exact trader
      · exact refines.logged other session own found seatedOwn
  · contradiction

/-- A client that stays as it is. -/
theorem connect_self (found : state.links fd = some link) : state.connect fd link = state := by
  rw [connect, Function.update_eq_self_iff.mpr found.symm]

/-- A line is typed. -/
theorem Refines.enter (refines : state.Refines past abstract) (found : state.links fd = some link)
    {line : List Char} {msg : RequestMsg}
    (typed : (typeLine link.client.internalToExchange line).sent = some msg) :
    ∃ after, abstract.step (.enter fd line) = some (after, .nothing) ∧
      (state.connect fd { link with outgoing := link.outgoing ++ msg.bytes }).Refines past
        after := by
  obtain ⟨desk, seated, client, served, pending, requests, bytes, popped⟩ :=
    refines.linked fd link found
  obtain ⟨sent, rfl, -⟩ := typeLine_names typed
  have carries : Link.Carries { link with outgoing := link.outgoing ++ sent.struct.bytes }
      { desk with requests := desk.requests ++ [sent.struct] } (stream past fd)
      (part fd (taken past)) := by
    refine ⟨client, served, pending ++ [sent], ?_, ?_, popped⟩
    · rw [requests, List.map_append]
      rfl
    · rw [← List.append_assoc, bytes, sent.bytes_struct]
      simp only [List.flatMap_append, List.flatMap_singleton, List.append_assoc]
  refine ⟨abstract.seat fd { desk with requests := desk.requests ++ [sent.struct] }, ?_, ?_⟩
  · rw [client] at typed
    simp only [Trading.step, seated, typed]
  · exact refines.connects found seated carries rfl refines.lasting ⟨fun _ => rfl, rfl⟩ rfl
      (fun _ => Iff.rfl) (fun _ _ => ⟨rfl, rfl⟩) refines.thread refines.sending

/-- Bytes of a client arrive. -/
theorem Refines.arrive (refines : state.Refines past abstract) (found : state.links fd = some link)
    {count : Nat}
    (stepped : state.pipeline.step (.arrive fd (link.outgoing.take count)) =
      some (pipeline, report)) :
    { state.connect fd { link with outgoing := link.outgoing.drop count } with
      pipeline := pipeline }.Refines (past ++ [report]) abstract := by
  have lasting := refines.lasting.step
    (show (Pipeline.Event.arrive fd (link.outgoing.take count)).Stays from trivial) stepped
  obtain ⟨desk, seated, client, served, pending, requests, bytes, popped⟩ :=
    refines.linked fd link found
  have same : abstract.seat fd desk = abstract := by
    rw [Trading.seat, Function.update_eq_self_iff.mpr seated.symm]
  simp only [Pipeline.step] at stepped
  split at stepped
  · split at stepped
    · cases stepped
      have quiet : taken (past ++ [.arrived fd (link.outgoing.take count)]) = taken past :=
        refines.lasting.live.flows.taken_snoc rfl
      have carries : Link.Carries { link with outgoing := link.outgoing.drop count } desk
          (stream (past ++ [.arrived fd (link.outgoing.take count)]) fd)
          (part fd (taken (past ++ [.arrived fd (link.outgoing.take count)]))) := by
        refine ⟨client, served, pending, requests, ?_, quiet ▸ popped⟩
        rw [Pipeline.stream_snoc, Pipeline.Report.arrives, if_pos rfl, List.append_assoc,
          List.take_append_drop]
        exact bytes
      rw [← same]
      refine refines.connects found seated carries rfl lasting ⟨fun _ => rfl, rfl⟩ rfl
        (Pipeline.opened_snoc (by simp)) ?_ refines.thread refines.sending
      intro other apart
      rw [Pipeline.stream_snoc, Pipeline.Report.arrives, if_neg (Ne.symm apart), quiet]
      exact ⟨rfl, rfl⟩
    · contradiction
  · contradiction

/-- The message that is popped is the first of its client that has not been popped before. -/
theorem Refines.popped (refines : state.Refines past abstract) {raw : RawMessage}
    (first : part fd (taken past) ++ [raw] <+: part fd (tagged past)) :
    ∃ link desk session, state.links fd = some link ∧ abstract.desks fd = some desk ∧
      link.client = desk.client ∧ abstract.sessions.sessions fd = some session ∧
      session.traderId = desk.traderId ∧
      ∃ served later, ∃ sent : ClientMsg, desk.requests = (sent :: later).map ClientMsg.struct ∧
        stream past fd ++ link.outgoing = (served ++ sent :: later).flatMap ClientMsg.bytes ∧
        part fd (taken past) = served.filterMap
          (fun msg => RawMessage.ofFrame desk.traderId msg.bytes) ∧
        RawMessage.ofFrame desk.traderId sent.bytes = some raw := by
  have some_pushed : part fd (tagged past) ≠ [] := by
    intro none_pushed
    rw [none_pushed] at first
    simpa using List.prefix_nil.mp first
  obtain ⟨link, found⟩ : ∃ link, state.links fd = some link := by
    apply Option.ne_none_iff_exists'.mp
    intro missing
    exact some_pushed (refines.lasting.silent fd ((refines.unopened fd).mp missing)).2
  obtain ⟨session, logged⟩ : ∃ session, state.pipeline.sessions.sessions fd = some session := by
    apply Option.ne_none_iff_exists'.mp
    intro missing
    exact some_pushed (refines.lasting.unregistered missing)
  obtain ⟨desk, seated, client, served, pending, requests, bytes, popped⟩ :=
    refines.linked fd link found
  have trader := refines.logged fd session desk logged seated
  obtain ⟨counterpart, there, sameTrader⟩ := refines.sessions.session logged
  -- the messages that wait begin with the one that is popped
  have pushes := refines.lasting.pushes ⟨link.outgoing, bytes⟩ logged
  rw [← trader, List.filterMap_append, ← popped] at pushes
  have next_ := (List.prefix_append_right_inj _).mp (first.trans pushes)
  cases pending with
  | nil => simpa using List.prefix_nil.mp next_
  | cons sent later =>
    obtain ⟨item, fits⟩ := Option.isSome_iff_exists.mp (sent.ofFrame_isSome desk.traderId)
    simp only [List.filterMap_cons, fits, List.cons_prefix_cons] at next_
    exact ⟨link, desk, counterpart, found, seated, client, there, sameTrader.trans trader.symm,
      served, later, sent, requests, bytes, popped, next_.1 ▸ fits⟩

/-- A message is popped and handed to the engine. -/
theorem Refines.pop (refines : state.Refines past abstract) (idle : state.sending = [])
    {raw : RawMessage} {now : Timestamp} {thread : MatchingThread}
    {handled : Option (OrderRequest × Outputs)}
    (stepped : state.pipeline.step .matching = some (pipeline, .popped raw))
    (handles : state.thread.step (raw, now) = some (thread, handled)) :
    ∃ fd req out after, handled = some (req, out) ∧
      abstract.step (.serve fd now) = some (after, .served req out) ∧
      { state with
        pipeline := pipeline
        thread := thread
        sending := Trading.eventsOf out }.Refines (past ++ [Pipeline.Report.popped raw]) after := by
  have lasting := refines.lasting.step (show Pipeline.Event.matching.Stays from trivial) stepped
  have internal : Pipeline.Event.matching.Internal := trivial
  obtain ⟨alike, handlers⟩ :=
    refines.lasting.live.keepsTraders (Pipeline.does_of_step internal stepped)
  obtain ⟨fd, popped⟩ := lasting.live.flows.taken_popped
  have own : part fd (taken (past ++ [.popped raw])) = part fd (taken past) ++ [raw] := by
    rw [popped, Pipeline.part_append]
    simp [part]
  have others (other : Fd) (apart : other ≠ fd) :
      part other (taken (past ++ [.popped raw])) = part other (taken past) := by
    rw [popped, Pipeline.part_append]
    simp [part, Ne.symm apart]
  have unpushed : tagged (past ++ [.popped raw]) = tagged past :=
    (Pipeline.tagged_snoc _ _).trans (List.append_nil _)
  have first := Pipeline.part_taken (past ++ [Pipeline.Report.popped raw]) fd
  rw [own, unpushed] at first
  obtain ⟨link, desk, session, found, seated, client, there, trader, served, later, sent, requests,
    bytes, before, fits⟩ := refines.popped first
  -- the engine is handed the request that the message asks for
  have parses := sent.parse_bytes desk.traderId now
  rw [fits, Option.bind_some] at parses
  have serves := Trading.step_serve (refines.sending.trans idle) seated there trader requests now
  rw [MatchingThread.step, parses, ← refines.thread] at handles
  cases dealt : abstract.thread.handle (sent.request desk.traderId now) with
  | none => simp [dealt] at handles
  | some result =>
    obtain ⟨reached, req, out⟩ := result
    simp only [dealt, bind, Option.bind, Option.some.injEq, Prod.mk.injEq] at handles
    obtain ⟨rfl, rfl⟩ := handles
    rw [dealt, Option.map_some] at serves
    have carries : Link.Carries link { desk with requests := later.map ClientMsg.struct }
        (stream (past ++ [.popped raw]) fd) (part fd (taken (past ++ [.popped raw]))) := by
      refine ⟨client, served ++ [sent], later, rfl, ?_, ?_⟩
      · rw [Pipeline.stream_snoc, List.append_assoc served]
        exact bytes
      · rw [own, before, List.filterMap_append]
        simp only [List.filterMap_cons, fits, List.filterMap_nil]
    refine ⟨fd, req, out, _, rfl, serves, ?_⟩
    rw [← connect_self found]
    exact refines.connects found seated carries rfl lasting alike handlers
      (Pipeline.opened_snoc (by simp))
      (fun other apart => ⟨Pipeline.stream_snoc _ _ _, others other apart⟩) rfl rfl

/-- A message is sent. -/
theorem Refines.send (refines : state.Refines past abstract) {event : ServerEvent}
    {later : List ServerEvent} (first : state.sending = event :: later) :
    ∃ after, abstract.step .send = some (after, .sent event) ∧
      { state with
        links := fun fd =>
          if Trading.Goes state.pipeline.sessions event fd then
            (state.links fd).map (Link.post · event)
          else state.links fd
        sending := later }.Refines past after := by
  refine ⟨{ abstract with
      desks := fun fd =>
        if Trading.Goes abstract.sessions event fd then
          (abstract.desks fd).map (Desk.post · event)
        else abstract.desks fd
      sending := later }, ?_, ?_⟩
  · simp only [Trading.step, refines.sending, first]
  · refine refines.transfer refines.lasting refines.thread rfl ⟨fun _ => rfl, rfl⟩ rfl
      (fun _ _ => id) (fun _ => Iff.rfl) ?_ ?_
    · intro fd missing
      have before : state.links fd = none := by
        dsimp only at missing
        split at missing
        · exact Option.map_eq_none_iff.mp missing
        · exact missing
      refine ⟨before, ?_⟩
      dsimp only
      rw [refines.free fd before, Option.map_none, ite_self]
    · intro fd link foundNow
      dsimp only at foundNow ⊢
      simp only [refines.sessions.goes_iff] at foundNow
      split at foundNow
      · rename_i goes
        obtain ⟨old, found, rfl⟩ := Option.map_eq_some_iff.mp foundNow
        obtain ⟨desk, seated, client, sent⟩ := refines.linked fd old found
        refine ⟨desk, desk.post event, seated, ?_, rfl, ?_, sent⟩
        · rw [if_pos goes, seated, Option.map_some]
        · simp only [Link.post, Desk.post, client]
      · rename_i stays
        obtain ⟨desk, seated, carries⟩ := refines.linked fd link foundNow
        exact ⟨desk, desk, seated, (if_neg stays).trans seated, rfl, carries⟩

/-- A client receives. -/
theorem Refines.receive (refines : state.Refines past abstract) (found : state.links fd = some link)
    {arrivals : List Nat} {body : Body} {client : Client} {standing : Standing}
    (some_pending : ¬link.client.sock.pending = [])
    (iterated : { link.client with
      sock := { link.client.sock with arrivals := arrivals } }.iterate body =
        some (client, standing)) :
    ∃ after, abstract.step (.receive fd arrivals body) = some (after, .nothing) ∧
      (state.connect fd { link with client := client }).Refines past after := by
  obtain ⟨desk, seated, same, sent⟩ := refines.linked fd link found
  refine ⟨abstract.seat fd { desk with client := client }, ?_, ?_⟩
  · rw [same] at some_pending iterated
    simp only [Trading.step, seated, if_neg some_pending, iterated]
    rfl
  · have carries : Link.Carries { link with client := client } { desk with client := client }
        (stream past fd) (part fd (taken past)) := ⟨rfl, sent⟩
    exact refines.connects found seated carries rfl refines.lasting ⟨fun _ => rfl, rfl⟩ rfl
      (fun _ => Iff.rfl) (fun _ _ => ⟨rfl, rfl⟩) refines.thread refines.sending

/-- A step of the threads up to the queue that is not a pop. -/
theorem Refines.goesOn (refines : state.Refines past abstract) {event : Pipeline.Event}
    (internal : event.Internal) (stepped : state.pipeline.step event = some (pipeline, report))
    (quiet : report.takes = none) :
    { state with pipeline := pipeline }.Refines (past ++ [report]) abstract := by
  have does := Pipeline.does_of_step internal stepped
  obtain ⟨alike, handlers⟩ := refines.lasting.live.keepsTraders does
  refine refines.unseen (refines.lasting.step internal.stays stepped) alike ?_ ?_ ?_ quiet
  · intro fd traderId handler
    rw [← handlers]
    exact handler
  · rintro fd rfl
    cases does
  · intro fd bytes
    cases does <;> rfl

/-- The descriptor is watched, and the handler returns. -/
theorem Refines.watch (refines : state.Refines past abstract)
    (stepped : state.pipeline.step (.watch fd) = some (pipeline, report)) :
    { state with pipeline := pipeline }.Refines (past ++ [report]) abstract := by
  have lasting := refines.lasting.step (show (Pipeline.Event.watch fd).Stays from trivial) stepped
  simp only [Pipeline.step] at stepped
  split at stepped
  · cases stepped
    refine refines.unseen lasting ⟨fun _ => rfl, rfl⟩ ?_ (fun _ => by simp) (fun _ _ => rfl) rfl
    intro other traderId handler
    by_cases same : other = fd
    · subst same
      simp at handler
    · simpa only [Function.update_of_ne same] using handler
  · contradiction

/-- The closed loop makes the step of the program, or does not see it. -/
def Answered (next : Program) (abstract : Trading) (typed : Nat) (report : Trading.Report) : Prop :=
  ((∃ more, next.Refines more abstract) ∧ report.seen = none) ∨
  ∃ event after told, abstract.step event = some (after, told) ∧ event.typed ≤ typed ∧
    (∃ more, next.Refines more after) ∧ told.seen = report.seen

/-- What a step of the threads up to the queue leaves. -/
theorem goesOn_eq_some {event : Pipeline.Event} {told shown : Trading.Report}
    (stepped : state.goesOn event told = some (next, shown)) :
    ∃ pipeline report, state.pipeline.step event = some (pipeline, report) ∧ shown = told ∧
      next = { state with pipeline := pipeline } := by
  cases went : state.pipeline.step event with
  | none => simp [Program.goesOn, went] at stepped
  | some result =>
    obtain ⟨pipeline, report⟩ := result
    simp only [Program.goesOn, went, bind, Option.bind, Option.some.injEq,
      Prod.mk.injEq] at stepped
    exact ⟨pipeline, report, rfl, stepped.2.symm, stepped.1.symm⟩

/-- Every step of the matching thread is answered. -/
theorem Refines.matching (refines : state.Refines past abstract) {now : Timestamp}
    {told : Trading.Report} (stepped : state.step (.matching now) = some (next, told)) :
    next.Answered abstract 0 told := by
  simp only [Program.step] at stepped
  split at stepped
  · rename_i idle
    cases went : state.pipeline.step .matching with
    | none => simp [Program.pop, went] at stepped
    | some result =>
      obtain ⟨pipeline, report⟩ := result
      simp only [Program.pop, went, bind, Option.bind] at stepped
      split at stepped
      · rename_i raw
        cases handles : state.thread.step (raw, now) with
        | none => simp [handles] at stepped
        | some result =>
          obtain ⟨thread, handled⟩ := result
          obtain ⟨fd, req, out, after, rfl, serves, refined⟩ := refines.pop idle went handles
          simp only [handles, Option.some.injEq, Prod.mk.injEq] at stepped
          obtain ⟨rfl, rfl⟩ := stepped
          exact .inr ⟨_, after, _, serves, Nat.le_refl _, ⟨_, refined⟩, rfl⟩
      · rename_i not_popped
        cases stepped
        have quiet : report.takes = none := by
          cases report with
          | popped raw => exact absurd rfl (not_popped raw)
          | _ => rfl
        have internal : Pipeline.Event.matching.Internal := trivial
        exact .inl ⟨⟨_, refines.goesOn internal went quiet⟩, rfl⟩
  · rename_i event later first
    cases stepped
    obtain ⟨after, sends, refined⟩ := refines.send first
    exact .inr ⟨_, after, _, sends, Nat.le_refl _, ⟨past, refined⟩, rfl⟩

/-- Every step is answered. -/
theorem Refines.step (refines : state.Refines past abstract) {event : Event}
    {told : Trading.Report} (stepped : state.step event = some (next, told)) :
    next.Answered abstract event.typed told := by
  cases event with
  | login fd traderId =>
    cases went : state.pipeline.step (.login fd traderId) with
    | none => simp [Program.step, went] at stepped
    | some result =>
      simp only [Program.step, went, bind, Option.bind, Option.some.injEq,
        Prod.mk.injEq] at stepped
      obtain ⟨rfl, rfl⟩ := stepped
      obtain ⟨after, joins, refined⟩ := refines.login went
      exact .inr ⟨_, after, _, joins, Nat.le_refl _, ⟨_, refined⟩, rfl⟩
  | register fd =>
    obtain ⟨pipeline, report, went, rfl, rfl⟩ := goesOn_eq_some stepped
    obtain ⟨after, registers, refined⟩ := refines.register went
    exact .inr ⟨_, after, _, registers, Nat.le_refl _, ⟨_, refined⟩, rfl⟩
  | watch fd =>
    obtain ⟨pipeline, report, went, rfl, rfl⟩ := goesOn_eq_some stepped
    exact .inl ⟨⟨_, refines.watch went⟩, rfl⟩
  | enter fd line =>
    simp only [Program.step] at stepped
    split at stepped
    · rename_i link found
      split at stepped
      · rename_i msg typed
        cases stepped
        obtain ⟨after, enters, refined⟩ := refines.enter found typed
        exact .inr ⟨_, after, _, enters, Nat.le_refl _, ⟨past, refined⟩, rfl⟩
      · cases stepped
        exact .inl ⟨⟨past, refines⟩, rfl⟩
    · contradiction
  | arrive fd count =>
    simp only [Program.step] at stepped
    split at stepped
    · rename_i link found
      split at stepped
      · cases went : state.pipeline.step (.arrive fd (link.outgoing.take count)) with
        | none => simp [went] at stepped
        | some result =>
          simp only [went, bind, Option.bind, Option.some.injEq, Prod.mk.injEq] at stepped
          obtain ⟨rfl, rfl⟩ := stepped
          exact .inl ⟨⟨_, refines.arrive found went⟩, rfl⟩
      · contradiction
    · contradiction
  | wait fds =>
    obtain ⟨pipeline, report, went, rfl, rfl⟩ := goesOn_eq_some stepped
    have internal : (Pipeline.Event.wait fds).Internal := trivial
    exact .inl ⟨⟨_, refines.goesOn internal went (Pipeline.takes_wait went)⟩, rfl⟩
  | epoll count =>
    obtain ⟨pipeline, report, went, rfl, rfl⟩ := goesOn_eq_some stepped
    have internal : (Pipeline.Event.epoll count).Internal := trivial
    exact .inl ⟨⟨_, refines.goesOn internal went (Pipeline.does_of_epollStep went).2⟩, rfl⟩
  | matching now => exact refines.matching stepped
  | receive fd arrivals body =>
    simp only [Program.step] at stepped
    split at stepped
    · rename_i link found
      split at stepped
      · contradiction
      · rename_i some_pending
        cases iterated : { link.client with
            sock := { link.client.sock with arrivals := arrivals } }.iterate body with
        | none => simp [iterated] at stepped
        | some result =>
          obtain ⟨client, standing⟩ := result
          simp only [iterated, bind, Option.bind, Option.some.injEq, Prod.mk.injEq] at stepped
          obtain ⟨rfl, rfl⟩ := stepped
          obtain ⟨after, receives, refined⟩ := refines.receive found some_pending iterated
          exact .inr ⟨_, after, _, receives, Nat.le_refl _, ⟨past, refined⟩, rfl⟩
    · contradiction

/-- When the threads have caught up and all bytes of a client have arrived, its requests have been
served. -/
theorem Refines.caught_up (refines : state.Refines past abstract) (idle : state.pipeline.Idle)
    (found : state.links fd = some link) (returned : state.pipeline.handlers fd = none)
    (arrived : link.outgoing = []) (seated : abstract.desks fd = some desk) :
    desk.requests = [] := by
  obtain ⟨again, seatedAgain, -, served, pending, requests, bytes, popped⟩ :=
    refines.linked fd link found
  rw [seated, Option.some.injEq] at seatedAgain
  subst seatedAgain
  rw [arrived, List.append_nil] at bytes
  obtain ⟨allPopped, allPushed⟩ := refines.lasting.live.flows.complete idle
  obtain ⟨socket, opened⟩ := refines.lasting.lasts fd (refines.known found)
  cases logged : state.pipeline.sessions.sessions fd with
  | none =>
    obtain ⟨traderId, handler, -⟩ := refines.lasting.live.flows.of_unregistered opened logged
    rw [returned] at handler
    contradiction
  | some session =>
    obtain ⟨cut, framed, sent⟩ := allPushed fd session returned logged
    rw [bytes] at framed
    have whole := (framed.unique (ClientMsg.framed _)).1
    have all : taken past = tagged past := by
      rw [taken, allPopped, ← Pipeline.map_tagged, List.length_map, List.take_length]
    rw [refines.lasting.told, whole, List.filterMap_map,
      ← refines.logged fd session desk logged seated, ← all, popped] at sent
    have none_waits : pending.filterMap
        (fun msg => RawMessage.ofFrame desk.traderId msg.bytes) = [] := by
      have split : served.filterMap (fun msg => RawMessage.ofFrame desk.traderId msg.bytes) =
          (served ++ pending).filterMap
            (fun msg => RawMessage.ofFrame desk.traderId msg.bytes) := sent
      rw [List.filterMap_append] at split
      exact List.self_eq_append_right.mp split
    cases pending with
    | nil => exact requests
    | cons msg later =>
      obtain ⟨item, fits⟩ := Option.isSome_iff_exists.mp (msg.ofFrame_isSome desk.traderId)
      simp [fits] at none_waits

/-- Every run of the whole program, with the bytes of the clients arriving in any pieces and the
threads taking their steps in any order, is a run of the closed loop in which the same sessions are
registered, the same requests are served with the same results and the same messages are sent, in
the same order; the engine, what is yet to be sent and the receive threads of all clients are the
same. When the threads have caught up, a client whose bytes have all arrived has no request left. -/
theorem run_closed_loop {events : List Event} {reports : List Trading.Report}
    (ran : run Program.step new events = some (state, reports)) :
    ∃ steps abstract told, run Trading.step Trading.new steps = some (abstract, told) ∧
      told.filterMap Trading.Report.seen = reports.filterMap Trading.Report.seen ∧
      abstract.thread = state.thread ∧ abstract.sending = state.sending ∧
      state.pipeline.sessions.Alike abstract.sessions ∧
      (∀ fd, (abstract.desks fd).map Desk.client = (state.links fd).map Link.client) ∧
      (state.pipeline.Idle → ∀ fd link desk, state.links fd = some link →
        abstract.desks fd = some desk → state.pipeline.handlers fd = none → link.outgoing = [] →
        desk.requests = []) := by
  obtain ⟨steps, abstract, told, matched, ⟨past, refines⟩, observed⟩ :=
    run_observed_stuttering Trading.Report.seen Trading.Report.seen
      (fun state abstract => ∃ past, Refines state past abstract)
      (by
        rintro _ _ _ _ _ ⟨_, refines⟩ stepped
        rcases refines.step stepped with unseen | ⟨event, after, told, taken, -, refined⟩
        · exact .inl unseen
        · exact .inr ⟨event, after, told, taken, refined⟩)
      events new state Trading.new reports ⟨[], refines_new⟩ ran
  refine ⟨steps, abstract, told, matched, observed, refines.thread, refines.sending,
    refines.sessions, ?_, ?_⟩
  · intro fd
    cases found : state.links fd with
    | none =>
      rw [refines.free fd found]
      rfl
    | some link =>
      obtain ⟨desk, seated, carries⟩ := refines.linked fd link found
      rw [seated, Option.map_some, Option.map_some, carries.client]
  · intro idle fd link desk found seated returned arrived
    exact refines.caught_up idle found returned arrived seated

/-- An order whose bytes arrive in two pieces, with a round of the epoll thread between them. -/
theorem run_closed_loop_in_parts :
    ∃ state reports steps abstract told, run Program.step new
        [.login 5 1, .register 5, .watch 5, .enter 5 "N,1,0,BUY,100,5".toList, .arrive 5 10,
          .wait [5], .epoll 0, .epoll 10, .epoll 0, .epoll 0, .arrive 5 14, .wait [5], .epoll 0,
          .epoll 14, .epoll 0, .epoll 0, .epoll 0, .epoll 0, .epoll 0, .epoll 0, .epoll 0,
          .matching 0, .matching 0, .matching 0, .matching 0, .matching 0, .matching 0] =
          some (state, reports) ∧
      run Trading.step Trading.new steps = some (abstract, told) ∧
      (Trading.calls reports).length = 1 ∧
      told.filterMap Trading.Report.seen = reports.filterMap Trading.Report.seen ∧
      abstract.sending = [] := by
  have facts : (run Program.step new
      [.login 5 1, .register 5, .watch 5, .enter 5 "N,1,0,BUY,100,5".toList, .arrive 5 10,
        .wait [5], .epoll 0, .epoll 10, .epoll 0, .epoll 0, .arrive 5 14, .wait [5], .epoll 0,
        .epoll 14, .epoll 0, .epoll 0, .epoll 0, .epoll 0, .epoll 0, .epoll 0, .epoll 0,
        .matching 0, .matching 0, .matching 0, .matching 0, .matching 0, .matching 0]).map
          (fun result => ((Trading.calls result.2).length, result.1.sending.length)) =
        some (1, 0) := by
    decide +kernel
  obtain ⟨⟨state, reports⟩, ran, counted⟩ := Option.map_eq_some_iff.mp facts
  simp only [Prod.mk.injEq, List.length_eq_zero_iff] at counted
  obtain ⟨steps, abstract, told, matched, observed, -, sending, -⟩ := run_closed_loop ran
  exact ⟨state, reports, steps, abstract, told, ran, matched, counted.1, observed,
    sending.trans counted.2⟩

end Program

end Exchange
