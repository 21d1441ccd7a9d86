import ExchangeSimulator.Verif.Drain
import ExchangeSimulator.Verif.Wire

/-!
# The engine sees one sequence

Each client sends its requests on its own connection, the bytes arrive in pieces
and the threads take their steps in any order. At every moment the engine has been
handed one sequence of requests in which the requests of each client stand in the
order in which that client sent them, with none left out, none twice and none made
up; once the threads have caught up it is all of them. So the server is a single
engine to which the clients take turns.
-/

namespace Exchange

open Library

namespace Pipeline

variable {state next : Pipeline} {past : List Report} {report : Report} {fd : Fd}

/-- The part of a list that belongs to a descriptor. -/
def part {α : Type} (fd : Fd) (pairs : List (Fd × α)) : List α :=
  pairs.filterMap fun (other, item) => if other = fd then some item else none

/-- The part of a longer list. -/
theorem part_append {α : Type} (fd : Fd) (first second : List (Fd × α)) :
    part fd (first ++ second) = part fd first ++ part fd second :=
  List.filterMap_append

/-- The part of what some items become. -/
theorem part_filterMap {α β : Type} (fd : Fd) (becomes : α → Option β) (pairs : List (Fd × α)) :
    part fd (pairs.filterMap fun (other, item) => (becomes item).map (Prod.mk other)) =
      (part fd pairs).filterMap becomes := by
  rw [part, part, List.filterMap_filterMap, List.filterMap_filterMap]
  congr 1
  funext ⟨other, item⟩
  by_cases same : other = fd <;> cases become : becomes item <;> simp [same, become]

/-- The descriptor and the message of a push. -/
def Report.pushedOn : Report → Option (Fd × RawMessage)
  | .pushed fd raw => some (fd, raw)
  | _ => none

/-- The messages pushed so far, each with its descriptor. -/
def tagged (past : List Report) : List (Fd × RawMessage) := past.filterMap Report.pushedOn

/-- The messages without their descriptors. -/
theorem map_tagged (past : List Report) : (tagged past).map Prod.snd = pushed past := by
  rw [tagged, pushed, List.map_filterMap]
  congr 1
  funext report
  cases report <;> rfl

/-- The tagged messages grow by the one that the next report pushes. -/
theorem tagged_snoc (past : List Report) (report : Report) :
    tagged (past ++ [report]) = tagged past ++ report.pushedOn.toList :=
  filterMap_snoc Report.pushedOn past report

/-! ## A descriptor is used for one connection -/

/-- While all clients stay connected, a descriptor is opened once and stays open. -/
structure Lasting (state : Pipeline) (past : List Report) : Prop where
  /-- The threads go on well. -/
  live : state.Live past
  /-- What has been opened is open. -/
  lasts : ∀ fd, Report.opened fd ∈ past → ∃ socket, state.epoll.sockets fd = some socket
  /-- Nothing has come from a descriptor that has not been opened. -/
  silent : ∀ fd, Report.opened fd ∉ past → stream past fd = [] ∧ part fd (tagged past) = []
  /-- All that was pushed for a descriptor was pushed for its one connection. -/
  told : ∀ fd, pushedFor past fd = part fd (tagged past)

/-- Nothing has happened. -/
theorem lasting_new : new.Lasting [] where
  live := live_new
  lasts := by simp
  silent := fun _ _ => ⟨rfl, rfl⟩
  told := fun _ => rfl

/-- The server closes no connection that is open at the other end. -/
theorem Live.does_keeps (live : state.Live past) (does : state.Does next report) {socket : Socket}
    (opened : state.epoll.sockets fd = some socket) :
    ∃ kept, next.epoll.sockets fd = some kept := by
  cases does with
  | waits reported => exact ⟨_, by rw [reported.sockets, opened]; rfl⟩
  | disconnects pending failed =>
    have input := live.input _ (by rw [pending]; exact List.mem_cons_self)
    rw [failed] at input
    contradiction
  | ends opened ended => exact absurd (live.waiting _ _ opened) ended
  | @receives other before openedBefore count sessions alike =>
    simp only [EpollMgr.set_sockets]
    split
    · exact ⟨_, rfl⟩
    · exact ⟨socket, opened⟩
  | skips | begins | moves | drops | pushes | pops | queues => exact ⟨socket, opened⟩

/-- Nor does any step but a close. -/
theorem Live.keeps (live : state.Live past) {event : Event} (stays : event.Stays)
    (stepped : state.step event = some (next, report)) {socket : Socket}
    (opened : state.epoll.sockets fd = some socket) :
    ∃ kept, next.epoll.sockets fd = some kept := by
  have running (internal : event.Internal) :=
    live.does_keeps (does_of_step internal stepped) opened
  have set (other : Fd) (changed : Socket) :
      ∃ kept, (state.epoll.set other (some changed)).sockets fd = some kept := by
    rw [EpollMgr.set_sockets]
    split
    · exact ⟨_, rfl⟩
    · exact ⟨socket, opened⟩
  cases event with
  | finish => exact stays.elim
  | wait | epoll | matching => exact running trivial
  | login other traderId =>
    simp only [Pipeline.step] at stepped
    split at stepped <;> cases stepped
    exact set other _
  | register other =>
    simp only [Pipeline.step] at stepped
    split at stepped <;> cases stepped
    exact ⟨socket, opened⟩
  | watch other =>
    simp only [Pipeline.step] at stepped
    split at stepped <;> cases stepped
    simp only [EpollMgr.add]
    split
    · exact set other _
    · exact ⟨socket, opened⟩
  | arrive other bytes =>
    simp only [Pipeline.step] at stepped
    split at stepped
    · split at stepped <;> cases stepped
      exact set other _
    · contradiction

/-- What a report says of the connection it is about: it has just been opened, or it is open. -/
def Report.Tells (state next : Pipeline) : Report → Prop
  | .opened fd => state.epoll.sockets fd = none ∧ ∃ socket, next.epoll.sockets fd = some socket
  | .arrived fd _ | .pushed fd _ => ∃ socket, next.epoll.sockets fd = some socket
  | .nothing | .popped _ => True

/-- Every report tells this. -/
theorem Flows.tells (flows : state.Flows past) {event : Event}
    (stepped : state.step event = some (next, report)) : report.Tells state next := by
  have after := flows.step stepped
  have running (internal : event.Internal) : report.Tells state next := by
    cases does_of_step internal stepped with
    | pushes queue alike fd raw =>
      obtain ⟨⟨socket, _, opened, -, -⟩, -⟩ := after.current fd rfl
      exact ⟨socket, opened⟩
    | _ => trivial
  cases event with
  | wait | epoll | matching => exact running trivial
  | login fd traderId =>
    simp only [Pipeline.step] at stepped
    split at stepped
    · rename_i free
      cases stepped
      exact ⟨free.2, Socket.new, by rw [EpollMgr.set_sockets, if_pos rfl]⟩
    · contradiction
  | register fd | watch fd =>
    simp only [Pipeline.step] at stepped
    split at stepped <;> cases stepped
    trivial
  | arrive fd bytes =>
    simp only [Pipeline.step] at stepped
    split at stepped
    · split at stepped <;> cases stepped
      exact ⟨_, by rw [EpollMgr.set_sockets, if_pos rfl]⟩
    · contradiction
  | finish fd last =>
    simp only [Pipeline.step] at stepped
    split at stepped
    · split at stepped <;> cases stepped
      trivial
    · contradiction

/-- A descriptor is opened once and stays open, whatever happens but a close. -/
theorem Lasting.step (lasting : state.Lasting past) {event : Event} (stays : event.Stays)
    (stepped : state.step event = some (next, report)) : next.Lasting (past ++ [report]) := by
  have live := lasting.live.step stays stepped
  have tells := lasting.live.flows.tells stepped
  have unopened {fd : Fd} (closed : state.epoll.sockets fd = none) : Report.opened fd ∉ past := by
    intro member
    obtain ⟨socket, opened⟩ := lasting.lasts fd member
    rw [closed] at opened
    contradiction
  refine ⟨live, ?_, ?_, ?_⟩
  · intro fd member
    rcases List.mem_append.mp member with before | now
    · obtain ⟨socket, opened⟩ := lasting.lasts fd before
      exact lasting.live.keeps stays stepped opened
    · rw [← List.mem_singleton.mp now] at tells
      exact tells.2
  · intro fd absent
    obtain ⟨quiet, unused⟩ := lasting.silent fd
      (fun member => absent (List.mem_append_left _ member))
    -- a report about an open connection is about another one
    have apart {other : Fd} (open_ : ∃ socket, next.epoll.sockets other = some socket) :
        other ≠ fd := by
      rintro rfl
      obtain ⟨socket, opened⟩ := open_
      exact absent (live.known other socket opened)
    rw [stream_snoc, tagged_snoc, part_append, quiet, unused]
    cases report with
    | nothing | popped => exact ⟨rfl, rfl⟩
    | opened other => exact ⟨ite_self [], rfl⟩
    | arrived other bytes =>
      simp only [Report.arrives, if_neg (apart tells)]
      exact ⟨trivial, rfl⟩
    | pushed other raw =>
      have elsewhere := apart tells
      simp [Report.arrives, Report.pushedOn, part, elsewhere]
  · intro fd
    rw [pushedFor_snoc, tagged_snoc, part_append, lasting.told]
    cases report with
    | nothing | popped | arrived => exact (List.append_nil _).symm
    | opened other =>
      by_cases same : other = fd
      · subst same
        obtain ⟨-, unused⟩ := lasting.silent other (unopened tells.1)
        rw [unused]
        exact if_pos rfl
      · exact (if_neg same).trans (List.append_nil _).symm
    | pushed other raw =>
      by_cases same : other = fd <;> simp [Report.pushes, Report.pushedOn, part, same]

/-- So it is in every state that is reached while all clients stay connected. -/
theorem lasting_of_run {events : List Event} {reports : List Report}
    (ran : run Pipeline.step new events = some (state, reports))
    (stay : ∀ event ∈ events, event.Stays) : state.Lasting reports :=
  (Leads.of_run stay ran).kept Lasting
    (fun _ _ _ _ _ lasting stays stepped => lasting.step stays stepped) lasting_new

/-! ## The requests -/

/-- The request that a message is parsed into, with the descriptor it was pushed for. -/
def requestOn : Fd × RawMessage → Option (Fd × OrderRequest)
  | (fd, raw) => (MatchingThread.parse raw 0).map (Prod.mk fd)

/-- The requests of the messages popped so far, each with its descriptor. -/
def handedOn (past : List Report) : List (Fd × OrderRequest) :=
  ((tagged past).take (popped past).length).filterMap requestOn

/-- They are the requests handed to the engine. -/
theorem Flows.handedOn (flows : state.Flows past) {taken : List (RawMessage × Timestamp)}
    (fromQueue : taken.map Prod.fst = popped past) :
    MatchingThread.handed taken = (Pipeline.handedOn past).map Prod.snd := by
  have first : ((tagged past).take (popped past).length).map Prod.snd = popped past := by
    rw [List.map_take, map_tagged]
    exact (List.prefix_iff_eq_take.mp flows.queue.ring.order).symm
  have parses : (fun pair => (requestOn pair).map Prod.snd) =
      (fun raw => MatchingThread.parse raw 0) ∘ Prod.snd := by
    funext ⟨fd, raw⟩
    simp only [Function.comp_apply, requestOn, Option.map_map]
    cases MatchingThread.parse raw 0 <;> rfl
  rw [MatchingThread.handed_eq, fromQueue, Pipeline.handedOn, List.map_filterMap, parses,
    ← List.filterMap_map, first]

/-- The requests of a descriptor among them. -/
theorem part_handedOn (past : List Report) (fd : Fd) :
    part fd (Pipeline.handedOn past) =
      (part fd ((tagged past).take (popped past).length)).filterMap (MatchingThread.parse · 0) :=
  part_filterMap fd (MatchingThread.parse · 0) ((tagged past).take (popped past).length)

/-- Nothing has been pushed for a descriptor without a session. -/
theorem Lasting.unregistered (lasting : state.Lasting past)
    (missing : state.sessions.sessions fd = none) : part fd (tagged past) = [] := by
  rw [← lasting.told]
  have stands := lasting.live.flows.stands fd
  rw [missing] at stands
  by_cases known : Report.opened fd ∈ past
  · obtain ⟨socket, opened⟩ := lasting.lasts fd known
    rw [opened] at stands
    generalize state.handlers fd = handler, stream past fd = arrived, pushedFor past fd = sent
      at stands
    cases stands
    rfl
  · rw [lasting.told]
    exact (lasting.silent fd known).2

/-- The requests of some frames. -/
theorem filterMap_frames (traderId : TraderId) (frames : List Frame) :
    ((frames.map Frame.bytes).filterMap (RawMessage.ofFrame traderId)).filterMap
        (MatchingThread.parse · 0) =
      (frames.filterMap Frame.msg?).map (ClientMsg.request traderId 0) := by
  rw [List.filterMap_filterMap, List.filterMap_map, List.map_filterMap]
  congr 1
  funext frame
  exact frame.parse_bytes traderId 0

/-- What a client has been sending, as far as it has been pushed. -/
theorem Lasting.sends (lasting : state.Lasting past) {frames : List Frame}
    (arrives : stream past fd <+: frames.flatMap Frame.bytes) :
    (part fd (tagged past)).filterMap (MatchingThread.parse · 0) <+:
      (frames.filterMap Frame.msg?).map
        (ClientMsg.request (state.sessions.getTraderId fd) 0) := by
  cases found : state.sessions.sessions fd with
  | none =>
    rw [lasting.unregistered found]
    exact List.nil_prefix
  | some session =>
    have trader : state.sessions.getTraderId fd = session.traderId := by
      simp only [SessionManager.getTraderId, found]
    obtain ⟨socket, cut, -, -, taken, sent⟩ := lasting.live.flows.of_session found
    obtain ⟨later, whole⟩ := arrives
    have among := (taken.append later).among (whole ▸ Frame.framed frames)
    rw [← lasting.told, sent, trader, ← filterMap_frames]
    exact (among.filterMap _).filterMap _

/-- What a client has sent has been pushed when the threads have caught up. -/
theorem Lasting.sent (lasting : state.Lasting past) (idle : state.Idle) {frames : List Frame}
    (returned : state.handlers fd = none) (arrived : stream past fd = frames.flatMap Frame.bytes) :
    (part fd (tagged past)).filterMap (MatchingThread.parse · 0) =
      (frames.filterMap Frame.msg?).map
        (ClientMsg.request (state.sessions.getTraderId fd) 0) := by
  cases found : state.sessions.sessions fd with
  | none =>
    -- without a session the descriptor has not been opened, and nothing has arrived
    have stands := lasting.live.flows.stands fd
    rw [found, returned] at stands
    have silent : stream past fd = [] := by
      refine (lasting.silent fd fun known => ?_).1
      obtain ⟨socket, opened⟩ := lasting.lasts fd known
      rw [opened] at stands
      generalize stream past fd = arrived, pushedFor past fd = sent at stands
      cases stands
    rw [silent] at arrived
    have none_sent : frames = [] := by
      cases frames with
      | nil => rfl
      | cons frame frames =>
        have headed := frame.headed
        rw [List.flatMap_cons] at arrived
        rw [(List.append_eq_nil_iff.mp arrived.symm).1] at headed
        contradiction
    rw [lasting.unregistered found, none_sent]
    rfl
  | some session =>
    have trader : state.sessions.getTraderId fd = session.traderId := by
      simp only [SessionManager.getTraderId, found]
    obtain ⟨cut, framed, sent⟩ := (lasting.live.flows.complete idle).2 fd session returned found
    rw [arrived] at framed
    rw [← lasting.told, sent, (framed.unique (Frame.framed frames)).1, filterMap_frames, trader]

/-- While all clients stay connected, and however the steps of the threads and the arrivals of
bytes are ordered, what the matching thread computes is what the engine makes of one sequence of
requests in which the requests of each client stand as it sent them; once the threads have caught
up and all bytes of a client have arrived, all its requests are in it. -/
theorem run_sequential {events : List Event} {reports : List Report}
    (ran : run Pipeline.step new events = some (state, reports))
    (stay : ∀ event ∈ events, event.Stays) (sent : Fd → List Frame)
    (arrives : ∀ fd, stream reports fd <+: (sent fd).flatMap Frame.bytes) :
    ∃ requests : List (Fd × OrderRequest),
      (∀ taken : List (RawMessage × Timestamp), taken.map Prod.fst = popped reports →
        ∀ thread, (run MatchingThread.step thread taken).map MatchingThread.shown =
          run MatchingThread.handle thread (requests.map Prod.snd)) ∧
      ∀ fd,
        part fd requests <+: ((sent fd).filterMap Frame.msg?).map
          (ClientMsg.request (state.sessions.getTraderId fd) 0) ∧
        (state.Idle → state.handlers fd = none →
          stream reports fd = (sent fd).flatMap Frame.bytes →
          part fd requests = ((sent fd).filterMap Frame.msg?).map
            (ClientMsg.request (state.sessions.getTraderId fd) 0)) := by
  have lasting := lasting_of_run ran stay
  refine ⟨handedOn reports, ?_, ?_⟩
  · intro taken fromQueue thread
    rw [MatchingThread.run_shown, lasting.live.flows.handedOn fromQueue]
  · intro fd
    rw [part_handedOn]
    constructor
    · have early := (List.take_prefix (popped reports).length (tagged reports)).filterMap
        fun pair : Fd × RawMessage => if pair.1 = fd then some pair.2 else none
      exact (early.filterMap _).trans (lasting.sends (arrives fd))
    · intro idle returned arrived
      have all : (popped reports).length = (tagged reports).length := by
        rw [(lasting.live.flows.complete idle).1, ← map_tagged, List.length_map]
      rw [all, List.take_length]
      exact lasting.sent idle returned arrived

/-- Two clients, the second with its first byte only; the cancel of the first is handed over. -/
theorem run_sequential_two :
    ∃ state reports, run Pipeline.step new
      [.login 5 1, .login 6 2, .arrive 5 (ClientMsg.cancel 7 2).bytes, .arrive 6 [15], .register 5,
        .watch 5, .register 6, .watch 6, .wait [5], .epoll 0, .epoll 15, .epoll 0, .epoll 0,
        .epoll 0, .epoll 0, .epoll 0, .epoll 0, .matching, .matching, .matching, .matching] =
          some (state, reports) ∧
      (popped reports).length = 1 ∧
      ∃ requests : List (Fd × OrderRequest),
        (∀ taken : List (RawMessage × Timestamp), taken.map Prod.fst = popped reports →
          ∀ thread, (run MatchingThread.step thread taken).map MatchingThread.shown =
            run MatchingThread.handle thread (requests.map Prod.snd)) ∧
        part 5 requests <+: [ClientMsg.request 1 0 (.cancel 7 2)] := by
  have bytes : (ClientMsg.cancel 7 2).bytes = [15, 0, 3, 7, 0, 0, 0, 0, 0, 0, 0, 2, 0, 0, 0] := by
    decide
  have whole : (ClientMsg.cancel 8 2).bytes =
      15 :: [0, 3, 8, 0, 0, 0, 0, 0, 0, 0, 2, 0, 0, 0] := by
    decide
  obtain ⟨state, reports, ran, pops, trader, streams⟩ : ∃ state reports, run Pipeline.step new
      [.login 5 1, .login 6 2, .arrive 5 [15, 0, 3, 7, 0, 0, 0, 0, 0, 0, 0, 2, 0, 0, 0],
        .arrive 6 [15], .register 5, .watch 5, .register 6, .watch 6, .wait [5], .epoll 0,
        .epoll 15, .epoll 0, .epoll 0, .epoll 0, .epoll 0, .epoll 0, .epoll 0, .matching,
        .matching, .matching, .matching] = some (state, reports) ∧ (popped reports).length = 1 ∧
      state.sessions.getTraderId 5 = 1 ∧
      ∀ fd, stream reports fd = if 6 = fd then [15] else if 5 = fd then
        [15, 0, 3, 7, 0, 0, 0, 0, 0, 0, 0, 2, 0, 0, 0] else [] := by
    refine ⟨_, _, rfl, rfl, rfl, ?_⟩
    intro fd
    simp only [stream, List.foldl_cons, List.foldl_nil, Report.arrives, ite_self, List.nil_append]
    by_cases second : 6 = fd
    · subst second
      rfl
    · rw [if_neg second, if_neg second]
  rw [← bytes] at ran
  refine ⟨state, reports, ran, pops, ?_⟩
  obtain ⟨requests, computes, parts⟩ := run_sequential ran (by simp [Event.Stays])
    (fun fd => if fd = 5 then [.genuine (.cancel 7 2)]
      else if fd = 6 then [.genuine (.cancel 8 2)] else []) (by
      intro fd
      rw [streams]
      split
      · rename_i second
        subst second
        simp [Frame.bytes, whole]
      · split
        · rename_i first
          subst first
          simp [Frame.bytes, bytes]
        · exact List.nil_prefix)
  have own := (parts 5).1
  rw [trader] at own
  exact ⟨requests, computes, own⟩

end Pipeline

end Exchange
