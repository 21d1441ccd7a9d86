import ExchangeSimulator.Server.Trading
import ExchangeSimulator.Verif.Feed
import ExchangeSimulator.Verif.Owners
import ExchangeSimulator.Verif.Receiver
import ExchangeSimulator.Verif.Terminal
import Mathlib.Data.List.Pairwise

/-!
# The closed loop

However the steps of the clients and of the exchange are ordered, a client knows
only identifiers that were told to its own trader, so a modification or a cancel
that it sends is about an order of its own. The exchange therefore rejects it for
one reason only: the order does not rest in the book it is looked for in. A client
that joined before the first message went out, and whose trader has no other
client, handles every confirm of its trader and every update, in the order in which
the exchange made them. When nothing is under way, its map has the last identifier
of each of its orders, and the updates it has seen rebuild the books of the engine.
-/

namespace Exchange

open Library

namespace Trading

/-! ## What the reports tell -/

/-- The call on the engine behind a report. -/
def Report.call : Report → Option Request
  | .served req _ => some (MatchingThread.call req)
  | _ => none

/-- What the engine emitted. -/
def Report.out : Report → Option Outputs
  | .served _ out => some out
  | _ => none

/-- The message sent. -/
def Report.event : Report → Option ServerEvent
  | .sent event => some event
  | _ => none

/-- The calls on the engine so far. -/
def calls (past : List Report) : List Request := past.filterMap Report.call

/-- What the engine has emitted so far. -/
def outs (past : List Report) : List Outputs := past.filterMap Report.out

/-- The messages sent so far. -/
def sent (past : List Report) : List ServerEvent := past.filterMap Report.event

/-- The messages sent since a descriptor was registered, after one more report. -/
def Report.since (fd : Fd) (told : Option (List ServerEvent)) : Report → Option (List ServerEvent)
  | .registered other => if other = fd then some [] else told
  | .sent event => told.map (· ++ [event])
  | _ => told

/-- The messages sent since a descriptor was registered. -/
def since (fd : Fd) (past : List Report) : Option (List ServerEvent) :=
  past.foldl (Report.since fd) none

/-- The calls on the engine grow by the one that the next report makes. -/
theorem calls_snoc (past : List Report) (report : Report) :
    calls (past ++ [report]) = calls past ++ report.call.toList :=
  filterMap_snoc Report.call past report

/-- What the engine gave grows by what the next report says it gave. -/
theorem outs_snoc (past : List Report) (report : Report) :
    outs (past ++ [report]) = outs past ++ report.out.toList :=
  filterMap_snoc Report.out past report

/-- What has been sent grows by the message that the next report sends. -/
theorem sent_snoc (past : List Report) (report : Report) :
    sent (past ++ [report]) = sent past ++ report.event.toList :=
  filterMap_snoc Report.event past report

/-- What has been sent since a registration starts anew with the registration that the next report
tells of, and grows by the message that it sends. -/
theorem since_snoc (fd : Fd) (past : List Report) (report : Report) :
    since fd (past ++ [report]) = report.since fd (since fd past) := by
  rw [since, List.foldl_append]
  rfl

/-! ## What a step does -/

/-- The steps, with their guards and what they leave. -/
inductive Does (state : Trading) : Event → Trading → Report → Prop where
  /-- A client joins. -/
  | joins {fd : Fd} (traderId : TraderId) (nonneg : 0 ≤ fd) (free : state.desks fd = none) :
      Does state (.login fd traderId)
        (state.seat fd ⟨traderId, [], Client.new ⟨[], [], .waiting⟩⟩) .nothing
  /-- Its session is registered. -/
  | registers {fd : Fd} {desk : Desk} (seated : state.desks fd = some desk)
      (unregistered : state.sessions.sessions fd = none) :
      Does state (.register fd) { state with sessions := state.sessions.add fd desk.traderId }
        (.registered fd)
  /-- A line makes a client send. -/
  | enters {fd : Fd} {desk : Desk} {line : List Char} {msg : RequestMsg}
      (seated : state.desks fd = some desk)
      (typed : (typeLine desk.client.internalToExchange line).sent = some msg) :
      Does state (.enter fd line) (state.seat fd { desk with requests := desk.requests ++ [msg] })
        .nothing
  /-- A line does not. -/
  | ignores {fd : Fd} {line : List Char} : Does state (.enter fd line) state .nothing
  /-- A message is taken up and no request is parsed from it. -/
  | skips {fd : Fd} {now : Timestamp} {desk : Desk} {msg : RequestMsg} {later : List RequestMsg}
      (seated : state.desks fd = some desk) (waits : desk.requests = msg :: later) :
      Does state (.serve fd now) (state.seat fd { desk with requests := later }) .nothing
  /-- A request is served. -/
  | serves {fd : Fd} {now : Timestamp} {desk : Desk} {msg : RequestMsg} {later : List RequestMsg}
      {thread : MatchingThread} {req : OrderRequest} {out : Outputs} (idle : state.sending = [])
      (seated : state.desks fd = some desk) (waits : desk.requests = msg :: later)
      (handled : state.thread.handle req = some (thread, req, out)) :
      Does state (.serve fd now) { state.seat fd { desk with requests := later } with
        thread := thread
        sending := eventsOf out } (.served req out)
  /-- A message is sent. -/
  | sends {event : ServerEvent} {later : List ServerEvent}
      (first : state.sending = event :: later) :
      Does state .send { state with
        desks := fun fd =>
          if Goes state.sessions event fd then (state.desks fd).map (Desk.post · event)
          else state.desks fd
        sending := later } (.sent event)
  /-- A message is received. -/
  | receives {fd : Fd} {desk : Desk} {arrivals : List Nat} {body : Body} {client : Client}
      {standing : Standing} (seated : state.desks fd = some desk)
      (some_pending : desk.client.sock.pending ≠ [])
      (iterated : (desk.client.onSocket { desk.client.sock with arrivals := arrivals }).iterate
        body = some (client, standing)) :
      Does state (.receive fd arrivals body) (state.seat fd { desk with client := client }) .nothing

/-- Every step is one of these. -/
theorem does_of_step {state next : Trading} {event : Event} {report : Report}
    (stepped : state.step event = some (next, report)) : state.Does event next report := by
  cases event with
  | login fd traderId =>
    simp only [step] at stepped
    split at stepped
    · rename_i free
      cases stepped
      exact .joins traderId free.1 (Option.isNone_iff_eq_none.mp free.2)
    · contradiction
  | register fd =>
    simp only [step] at stepped
    split at stepped
    · rename_i desk seated
      split at stepped
      · rename_i unregistered
        cases stepped
        exact .registers seated (Option.isNone_iff_eq_none.mp unregistered)
      · contradiction
    · contradiction
  | enter fd line =>
    simp only [step] at stepped
    split at stepped
    · rename_i desk seated
      split at stepped
      · rename_i msg typed
        cases stepped
        exact .enters seated typed
      · cases stepped
        exact .ignores
    · contradiction
  | serve fd now =>
    simp only [step] at stepped
    split at stepped
    · rename_i desk session idle seated registered
      split at stepped
      · contradiction
      · rename_i msg later waits
        split at stepped
        · rename_i raw rest framed
          simp only [MatchingThread.step] at stepped
          cases parsed : MatchingThread.parse raw now with
          | none =>
            simp only [parsed, bind, Option.bind, Option.some.injEq, Prod.mk.injEq] at stepped
            obtain ⟨rfl, rfl⟩ := stepped
            exact .skips seated waits
          | some req =>
            cases handled : state.thread.handle req with
            | none => simp [parsed, handled] at stepped
            | some result =>
              obtain ⟨thread, again, out⟩ := result
              obtain rfl := MatchingThread.request_of_handle handled
              simp only [parsed, handled, bind, Option.bind, Option.some.injEq,
                Prod.mk.injEq] at stepped
              obtain ⟨rfl, rfl⟩ := stepped
              exact .serves idle seated waits handled
        · contradiction
    · contradiction
  | send =>
    simp only [step] at stepped
    split at stepped
    · contradiction
    · rename_i event later first
      cases stepped
      exact .sends first
  | receive fd arrivals body =>
    simp only [step] at stepped
    split at stepped
    · rename_i desk seated
      split at stepped
      · contradiction
      · rename_i some_pending
        cases iterated : (desk.client.onSocket { desk.client.sock with
            arrivals := arrivals }).iterate body with
        | none => simp [Client.onSocket] at iterated; simp [iterated] at stepped
        | some result =>
          obtain ⟨client, standing⟩ := result
          have same := iterated
          simp only [Client.onSocket] at iterated
          simp only [iterated, bind, Option.bind, Option.some.injEq, Prod.mk.injEq] at stepped
          obtain ⟨rfl, rfl⟩ := stepped
          exact .receives seated some_pending same
    · contradiction

/-! ## What a client knows -/

end Trading

/-- The order that a message is about, and the instrument it is looked for in. -/
def ClientMsg.names : ClientMsg → Option (OrderId × SymbolId)
  | .new _ _ _ _ _ => none
  | .modify orderId symbolId _ _ => some (orderId, symbolId)
  | .cancel orderId symbolId => some (orderId, symbolId)

/-- What a client sends for a line is well formed, and names orders that it knows. -/
theorem typeLine_names {internalToExchange : OrderId → Option OrderId} {line : List Char}
    {msg : RequestMsg} (typed : (typeLine internalToExchange line).sent = some msg) :
    ∃ sent : ClientMsg, msg = sent.struct ∧
      ∀ orderId symbolId, sent.names = some (orderId, symbolId) →
        ∃ internalId, internalToExchange internalId = some orderId := by
  have found {internalId : OrderId} (given : ¬exchId internalToExchange internalId = 0) :
      internalToExchange internalId = some (exchId internalToExchange internalId) := by
    simp only [exchId] at given ⊢
    cases known : internalToExchange internalId with
    | none => simp [known] at given
    | some orderId => rfl
  simp only [typeLine] at typed
  cases command : Command.ofLine line with
  | skipped | quit | invalid | unknown =>
    rw [command] at typed
    contradiction
  | new internalId symId sideStr price qty =>
    rw [command, Command.sent, Option.some.injEq] at typed
    exact ⟨.new internalId symId (sideOf sideStr) price qty, typed.symm, by simp [ClientMsg.names]⟩
  | modify internalId symId price qty =>
    rw [command, Command.sent] at typed
    split at typed
    · contradiction
    · rename_i given
      rw [Option.some.injEq] at typed
      refine ⟨.modify (exchId internalToExchange internalId) symId price qty, typed.symm, ?_⟩
      intro orderId symbolId named
      cases named
      exact ⟨internalId, found given⟩
  | cancel internalId symId =>
    rw [command, Command.sent] at typed
    split at typed
    · contradiction
    · rename_i given
      rw [Option.some.injEq] at typed
      refine ⟨.cancel (exchId internalToExchange internalId) symId, typed.symm, ?_⟩
      intro orderId symbolId named
      cases named
      exact ⟨internalId, found given⟩

/-- An acknowledgement on its way to a trader was made for it. -/
def ServerEvent.Own (outs : List Outputs) (traderId : TraderId) : ServerEvent → Prop
  | .ofConfirm confirm => confirm.type = .NewAck →
      Acked outs traderId confirm.clientOrderId confirm.orderId
  | .ofUpdate _ => True

/-- The message of a known identifier is among those handled. -/
theorem ServerEvent.lastAck_own {outs : List Outputs} {traderId : TraderId}
    {events : List ServerEvent} (own : ∀ event ∈ events, event.Own outs traderId)
    {internalId orderId : OrderId} (known : lastAck events internalId = some orderId) :
    Acked outs traderId internalId orderId := by
  obtain ⟨event, member, acks⟩ := List.mem_filterMap.mp (List.mem_of_getLast? known)
  have owned := own event member
  cases event with
  | ofUpdate => contradiction
  | ofConfirm confirm =>
    simp only [ack] at acks
    split at acks
    · rename_i told
      cases acks
      rw [← told.2]
      exact owned told.1
    · contradiction

namespace Desk

/-- A client has been sent some messages and has handled the first of them; the requests it has
sent are about orders that were told to its trader. -/
structure Informed (desk : Desk) (outs : List Outputs) (told : List ServerEvent) : Prop where
  /-- It is what handling the first messages makes of it, and the others are under way. -/
  heard : ∃ done waiting arrivals, told = done ++ waiting ∧
    desk.client = ((Client.new ⟨[], [], .waiting⟩).after done).onSocket
      ⟨waiting.flatMap ServerEvent.bytes, arrivals, .waiting⟩
  /-- What it has been sent was made for its trader. -/
  own : ∀ event ∈ told, event.Own outs desk.traderId
  /-- What it asks is well formed and about its own orders. -/
  asks : ∀ msg ∈ desk.requests, ∃ sent : ClientMsg, msg = sent.struct ∧
    ∀ orderId symbolId, sent.names = some (orderId, symbolId) →
      ∃ internalId, Acked outs desk.traderId internalId orderId

variable {desk : Desk} {outs : List Outputs} {told : List ServerEvent}

/-- More has been emitted. -/
theorem Informed.mono (informed : desk.Informed outs told) (more : List Outputs) :
    desk.Informed (outs ++ more) told where
  heard := informed.heard
  own := by
    intro event member
    have own := informed.own event member
    cases event with
    | ofUpdate => trivial
    | ofConfirm confirm => exact fun acks => (own acks).append more
  asks := by
    intro msg member
    obtain ⟨sent, same, names⟩ := informed.asks msg member
    refine ⟨sent, same, ?_⟩
    intro orderId symbolId named
    obtain ⟨internalId, acked⟩ := names orderId symbolId named
    exact ⟨internalId, acked.append more⟩

/-- What a client knows was told to its trader. -/
theorem Informed.knows (informed : desk.Informed outs told) {internalId orderId : OrderId}
    (known : desk.client.internalToExchange internalId = some orderId) :
    Acked outs desk.traderId internalId orderId := by
  obtain ⟨done, waiting, arrivals, rfl, client⟩ := informed.heard
  rw [client] at known
  change ((Client.new _).after done).internalToExchange internalId = _ at known
  rw [Client.after_internalToExchange] at known
  refine ServerEvent.lastAck_own
    (fun event member => informed.own event (List.mem_append_left waiting member)) ?_
  cases acked : ServerEvent.lastAck done internalId with
  | none =>
    rw [acked] at known
    contradiction
  | some found => rwa [acked] at known

/-- Fewer requests. -/
theorem Informed.served (informed : desk.Informed outs told) {msg : RequestMsg}
    {later : List RequestMsg} (waits : desk.requests = msg :: later) :
    { desk with requests := later }.Informed outs told where
  heard := informed.heard
  own := informed.own
  asks := fun other member => informed.asks other (waits ▸ List.mem_cons_of_mem msg member)

/-- One more request. -/
theorem Informed.enters (informed : desk.Informed outs told) {line : List Char} {msg : RequestMsg}
    (typed : (typeLine desk.client.internalToExchange line).sent = some msg) :
    { desk with requests := desk.requests ++ [msg] }.Informed outs told where
  heard := informed.heard
  own := informed.own
  asks := by
    intro other member
    rcases List.mem_append.mp member with before | now
    · exact informed.asks other before
    · rw [List.mem_singleton] at now
      subst now
      obtain ⟨sent, same, names⟩ := typeLine_names typed
      refine ⟨sent, same, ?_⟩
      intro orderId symbolId named
      obtain ⟨internalId, known⟩ := names orderId symbolId named
      exact ⟨internalId, informed.knows known⟩

/-- One more message is under way. -/
theorem Informed.post (informed : desk.Informed outs told) {event : ServerEvent}
    (own : event.Own outs desk.traderId) : (desk.post event).Informed outs (told ++ [event]) where
  heard := by
    obtain ⟨done, waiting, arrivals, rfl, client⟩ := informed.heard
    refine ⟨done, waiting ++ [event], arrivals, List.append_assoc _ _ _, ?_⟩
    rw [Desk.post, client, List.flatMap_append, List.flatMap_singleton]
    rfl
  own := by
    intro other member
    rcases List.mem_append.mp member with before | now
    · exact informed.own other before
    · rw [List.mem_singleton] at now
      exact now ▸ own
  asks := informed.asks

/-- A message is handled. -/
theorem Informed.receives (informed : desk.Informed outs told) {arrivals : List Nat} {body : Body}
    {client : Client} {standing : Standing} (some_pending : desk.client.sock.pending ≠ [])
    (iterated : (desk.client.onSocket { desk.client.sock with arrivals := arrivals }).iterate body =
      some (client, standing)) : { desk with client := client }.Informed outs told where
  heard := by
    obtain ⟨done, waiting, others, rfl, same⟩ := informed.heard
    cases waiting with
    | nil =>
      rw [same] at some_pending
      exact absurd rfl some_pending
    | cons event waiting =>
      have pending : (desk.client.onSocket { desk.client.sock with
          arrivals := arrivals }).sock.pending =
          event.bytes ++ waiting.flatMap ServerEvent.bytes := by
        rw [same]
        rfl
      obtain ⟨later, handles⟩ := Client.iterate_message pending body
      rw [iterated, Option.some.injEq, Prod.mk.injEq] at handles
      refine ⟨done ++ [event], waiting, later, by simp, ?_⟩
      rw [show ({ desk with client := client } : Desk).client = client from rfl, handles.1, same,
        Client.after, Client.after, List.foldl_append]
      rfl
  own := informed.own
  asks := informed.asks

end Desk

/-! ## What holds at every moment -/

/-- A message concerns a trader: a confirm for it, or an update. -/
def ServerEvent.Concerns (traderId : TraderId) : ServerEvent → Prop
  | .ofConfirm confirm => confirm.traderId = traderId
  | .ofUpdate _ => True

/-- The update that a message carries. -/
def ServerEvent.update : ServerEvent → Option MdUpdate
  | .ofConfirm _ => none
  | .ofUpdate md => some md

instance (traderId : TraderId) : DecidablePred (ServerEvent.Concerns traderId) := fun event =>
  match event with
  | .ofConfirm confirm => inferInstanceAs (Decidable (confirm.traderId = traderId))
  | .ofUpdate _ => inferInstanceAs (Decidable True)

namespace Trading

/-- No trader has two clients. -/
def OneSeat (state : Trading) : Prop :=
  ∀ fd other desk otherDesk, state.desks fd = some desk → state.desks other = some otherDesk →
    desk.traderId = otherDesk.traderId → fd = other

/-- What holds between clients and exchange, given what has been reported. -/
structure Loop (state : Trading) (past : List Report) : Prop where
  /-- The engine is what the requests served have made of it. -/
  engine : run MatchingEngine.step (MatchingEngine.initializeBooks [0, 1, 2, 3, 4]) (calls past) =
    some (state.thread.engine, outs past)
  /-- What has been sent and what has yet to be sent is what it emitted. -/
  emitted : sent past ++ state.sending = (outs past).flatMap eventsOf
  /-- A descriptor in use is not negative. -/
  nonneg : ∀ fd desk, state.desks fd = some desk → 0 ≤ fd
  /-- A client knows of its own orders only. It is sent all updates once it is registered, and
  alone for its trader all that concerns the trader. -/
  seats : ∀ fd desk, state.desks fd = some desk → ∃ told, desk.Informed (outs past) told ∧
    told.filterMap ServerEvent.update = ((since fd past).getD []).filterMap ServerEvent.update ∧
    (state.OneSeat → told = ((since fd past).getD []).filter (ServerEvent.Concerns desk.traderId))
  /-- A session belongs to a client with the same trader. -/
  sessions : ∀ fd session, state.sessions.sessions fd = some session →
    ∃ desk, state.desks fd = some desk ∧ session.traderId = desk.traderId
  /-- A trader is reached at one of its sessions. -/
  routes : ∀ traderId fd, state.sessions.traderToFd traderId = some fd →
    ∃ session, state.sessions.sessions fd = some session ∧ session.traderId = traderId
  /-- The trader of a session is reached. -/
  reached : ∀ fd session, state.sessions.sessions fd = some session →
    ∃ other, state.sessions.traderToFd session.traderId = some other
  /-- Messages are counted for the registered descriptors. -/
  counted : ∀ fd, since fd past = none ↔ state.sessions.sessions fd = none

variable {state next : Trading} {past : List Report} {report : Report} {fd : Fd} {desk : Desk}

/-- Nothing has happened. -/
theorem loop_new : new.Loop [] where
  engine := rfl
  emitted := rfl
  nonneg := by simp [new]
  seats := by simp [new]
  sessions := by simp [new, SessionManager.new]
  routes := by simp [new, SessionManager.new]
  reached := by simp [new, SessionManager.new]
  counted := by simp [new, SessionManager.new, since]

/-- The client at a descriptor after one has changed. -/
theorem seat_desks (state : Trading) (fd : Fd) (desk : Desk) (other : Fd) :
    (state.seat fd desk).desks other = if other = fd then some desk else state.desks other :=
  Function.update_apply state.desks fd (some desk) other

/-- The trader that an event logs in. -/
def Event.trader : Event → Option TraderId
  | .login _ traderId => some traderId
  | _ => none

/-- A client was there before the step, or it has just logged in. -/
theorem Does.seated {event : Event} (does : state.Does event next report)
    (here : next.desks fd = some desk) :
    (∃ old, state.desks fd = some old ∧ old.traderId = desk.traderId) ∨
      event = .login fd desk.traderId := by
  have changed {other : Fd} {old now : Desk} (there : state.desks other = some old)
      (same : now.traderId = old.traderId) (after : (state.seat other now).desks fd = some desk) :
      ∃ old, state.desks fd = some old ∧ old.traderId = desk.traderId := by
    rw [seat_desks] at after
    split at after
    · rename_i own
      cases after
      exact ⟨old, own ▸ there, same.symm⟩
    · exact ⟨desk, after, rfl⟩
  cases does with
  | @joins other traderId nonneg free =>
    rw [seat_desks] at here
    split at here
    · rename_i own
      cases here
      exact .inr (by rw [own])
    · exact .inl ⟨desk, here, rfl⟩
  | registers | ignores => exact .inl ⟨desk, here, rfl⟩
  | enters there => exact .inl (changed there (by rfl) here)
  | skips there => exact .inl (changed there (by rfl) here)
  | serves _ there => exact .inl (changed there (by rfl) here)
  | receives there => exact .inl (changed there (by rfl) here)
  | sends =>
    simp only at here
    split at here
    · obtain ⟨old, there, rfl⟩ := Option.map_eq_some_iff.mp here
      exact .inl ⟨old, there, rfl⟩
    · exact .inl ⟨desk, here, rfl⟩

/-- The client at a descriptor keeps its trader. -/
theorem oneSeat_of_seat {changed : Desk} (seated : state.desks fd = some desk)
    (same : changed.traderId = desk.traderId) (oneSeat : (state.seat fd changed).OneSeat) :
    state.OneSeat := by
  have moved (other : Fd) (someDesk : Desk) (here : state.desks other = some someDesk) :
      ∃ now, (state.seat fd changed).desks other = some now ∧ now.traderId = someDesk.traderId := by
    rw [seat_desks]
    by_cases own : other = fd
    · subst own
      rw [seated, Option.some.injEq] at here
      exact ⟨changed, if_pos rfl, here ▸ same⟩
    · exact ⟨someDesk, by rw [if_neg own]; exact here, rfl⟩
  intro first second firstDesk secondDesk firstHere secondHere trader
  obtain ⟨firstNow, firstSeat, firstSame⟩ := moved first firstDesk firstHere
  obtain ⟨secondNow, secondSeat, secondSame⟩ := moved second secondDesk secondHere
  exact oneSeat first second firstNow secondNow firstSeat secondSeat
    (firstSame.trans (trader.trans secondSame.symm))

/-- A descriptor without a session has been sent nothing. -/
theorem Loop.unregistered (loop : state.Loop past)
    (missing : state.sessions.sessions fd = none) : (since fd past).getD [] = [] := by
  rw [(loop.counted fd).mpr missing]
  rfl

/-- Where the confirms of a trader go is a session of the trader. -/
theorem Loop.getFd (loop : state.Loop past) {traderId : TraderId}
    (found : ¬state.sessions.getFd traderId < 0) (here : fd = state.sessions.getFd traderId) :
    ∃ session, state.sessions.sessions fd = some session ∧ session.traderId = traderId := by
  cases route : state.sessions.traderToFd traderId with
  | none =>
    simp only [SessionManager.getFd, route] at found
    exact absurd (by decide) found
  | some other =>
    simp only [SessionManager.getFd, route] at here
    subst here
    exact loop.routes traderId fd route

/-- A message goes to registered descriptors. -/
theorem Loop.registered_of_goes (loop : state.Loop past) {event : ServerEvent}
    (goes : Goes state.sessions event fd) : state.sessions.sessions fd ≠ none := by
  cases event with
  | ofUpdate => exact Option.isSome_iff_ne_none.mp goes
  | ofConfirm confirm =>
    obtain ⟨session, registered, -⟩ := loop.getFd goes.1 goes.2
    simp [registered]

/-- A message goes to the registered client that it concerns, if no other has its trader. -/
theorem Loop.goes_iff (loop : state.Loop past) (oneSeat : state.OneSeat)
    (seated : state.desks fd = some desk) (event : ServerEvent) :
    Goes state.sessions event fd ↔
      state.sessions.sessions fd ≠ none ∧ event.Concerns desk.traderId := by
  cases event with
  | ofUpdate md =>
    simp only [Goes, SessionManager.getSession, ServerEvent.Concerns, and_true,
      Option.isSome_iff_ne_none]
  | ofConfirm confirm =>
    constructor
    · rintro ⟨found, here⟩
      obtain ⟨session, registered, trader⟩ := loop.getFd found here
      obtain ⟨again, seatedAgain, same⟩ := loop.sessions fd session registered
      rw [seated, Option.some.injEq] at seatedAgain
      subst seatedAgain
      exact ⟨by simp [registered], trader.symm.trans same⟩
    · rintro ⟨registered, concerns⟩
      obtain ⟨session, found⟩ := Option.ne_none_iff_exists'.mp registered
      obtain ⟨again, seatedAgain, same⟩ := loop.sessions fd session found
      rw [seated, Option.some.injEq] at seatedAgain
      subst seatedAgain
      -- the session that the trader is reached at is at the same descriptor
      obtain ⟨other, route⟩ := loop.reached fd session found
      obtain ⟨otherSession, otherFound, trader⟩ := loop.routes _ _ route
      obtain ⟨otherDesk, otherSeated, otherSame⟩ := loop.sessions other otherSession otherFound
      obtain rfl := oneSeat fd other desk otherDesk seated otherSeated
        (same.symm.trans (trader.symm.trans otherSame))
      have getFd : state.sessions.getFd confirm.traderId = fd := by
        rw [show confirm.traderId = session.traderId from concerns.trans same.symm]
        simp only [SessionManager.getFd, route]
      refine ⟨?_, getFd.symm⟩
      rw [getFd]
      exact Int32.not_lt.mpr (loop.nonneg fd desk seated)

/-! ## Every step keeps it -/

/-- A step that is not seen. -/
theorem Loop.unseen (loop : state.Loop past) : state.Loop (past ++ [.nothing]) := by
  have sameCalls : calls (past ++ [.nothing]) = calls past := by simp [calls_snoc, Report.call]
  have sameOuts : outs (past ++ [.nothing]) = outs past := by simp [outs_snoc, Report.out]
  have sameSent : sent (past ++ [.nothing]) = sent past := by simp [sent_snoc, Report.event]
  have sameSince (fd : Fd) : since fd (past ++ [.nothing]) = since fd past := since_snoc fd past _
  obtain ⟨engine, emitted, nonneg, seats, sessions, routes, reached, counted⟩ := loop
  constructor
  · rw [sameCalls, sameOuts]
    exact engine
  · rw [sameSent, sameOuts]
    exact emitted
  · exact nonneg
  · simp only [sameOuts, sameSince]
    exact seats
  · exact sessions
  · exact routes
  · exact reached
  · simp only [sameSince]
    exact counted

/-- A client changes and knows what it knew. -/
theorem Loop.seat (loop : state.Loop past) (seated : state.desks fd = some desk) {changed : Desk}
    (same : changed.traderId = desk.traderId)
    (informs : ∀ told, desk.Informed (outs past) told → changed.Informed (outs past) told) :
    (state.seat fd changed).Loop past where
  engine := loop.engine
  emitted := loop.emitted
  nonneg := by
    intro other someDesk here
    rw [seat_desks] at here
    split at here
    · rename_i own
      exact own ▸ loop.nonneg fd desk seated
    · exact loop.nonneg other someDesk here
  seats := by
    intro other someDesk here
    rw [seat_desks] at here
    split at here
    · rename_i own
      cases here
      subst own
      obtain ⟨told, informed, updates, all⟩ := loop.seats other desk seated
      refine ⟨told, informs told informed, updates, ?_⟩
      intro oneSeat
      rw [same]
      exact all (oneSeat_of_seat seated same oneSeat)
    · obtain ⟨told, informed, updates, all⟩ := loop.seats other someDesk here
      exact ⟨told, informed, updates, fun oneSeat => all (oneSeat_of_seat seated same oneSeat)⟩
  sessions := by
    intro other session registered
    obtain ⟨someDesk, here, trader⟩ := loop.sessions other session registered
    rw [seat_desks]
    by_cases own : other = fd
    · subst own
      rw [seated, Option.some.injEq] at here
      subst here
      exact ⟨changed, if_pos rfl, trader.trans same.symm⟩
    · rw [if_neg own]
      exact ⟨someDesk, here, trader⟩
  routes := loop.routes
  reached := loop.reached
  counted := loop.counted

/-- A client joins. -/
theorem Loop.joins (loop : state.Loop past) (nonneg : 0 ≤ fd) (free : state.desks fd = none)
    (traderId : TraderId) :
    (state.seat fd ⟨traderId, [], Client.new ⟨[], [], .waiting⟩⟩).Loop past := by
  have missing : state.sessions.sessions fd = none := by
    cases registered : state.sessions.sessions fd with
    | none => rfl
    | some session =>
      obtain ⟨desk, seated, -⟩ := loop.sessions fd session registered
      rw [free] at seated
      contradiction
  -- the clients of before are among those of now
  have fewer (oneSeat : (state.seat fd ⟨traderId, [], Client.new ⟨[], [], .waiting⟩⟩).OneSeat) :
      state.OneSeat := by
    have kept {other : Fd} {desk : Desk} (here : state.desks other = some desk) :
        (state.seat fd ⟨traderId, [], Client.new ⟨[], [], .waiting⟩⟩).desks other = some desk := by
      rw [seat_desks, if_neg]
      · exact here
      · rintro rfl
        rw [free] at here
        contradiction
    intro first second firstDesk secondDesk firstHere secondHere
    exact oneSeat first second firstDesk secondDesk (kept firstHere) (kept secondHere)
  refine ⟨loop.engine, loop.emitted, ?_, ?_, ?_, loop.routes, loop.reached, loop.counted⟩
  · intro other someDesk here
    rw [seat_desks] at here
    split at here
    · rename_i own
      exact own ▸ nonneg
    · exact loop.nonneg other someDesk here
  · intro other someDesk here
    rw [seat_desks] at here
    split at here
    · rename_i own
      cases here
      subst own
      refine ⟨[], ⟨⟨[], [], [], rfl, rfl⟩, by simp, by simp⟩, ?_, ?_⟩
      · rw [loop.unregistered missing]
      · intro _
        rw [loop.unregistered missing]
        rfl
    · obtain ⟨told, informed, updates, all⟩ := loop.seats other someDesk here
      exact ⟨told, informed, updates, fun oneSeat => all (fewer oneSeat)⟩
  · intro other session registered
    obtain ⟨someDesk, here, trader⟩ := loop.sessions other session registered
    refine ⟨someDesk, ?_, trader⟩
    rw [seat_desks, if_neg]
    · exact here
    · rintro rfl
      rw [free] at here
      contradiction

/-- A session is registered. -/
theorem Loop.registers (loop : state.Loop past) (seated : state.desks fd = some desk)
    (unregistered : state.sessions.sessions fd = none) :
    { state with sessions := state.sessions.add fd desk.traderId }.Loop
      (past ++ [Report.registered fd]) := by
  have sameOuts : outs (past ++ [.registered fd]) = outs past := by simp [outs_snoc, Report.out]
  have told (other : Fd) : since other (past ++ [.registered fd]) =
      if fd = other then some [] else since other past := since_snoc other past _
  have found (other : Fd) : (state.sessions.add fd desk.traderId).sessions other =
      if other = fd then some ⟨fd, desk.traderId, []⟩ else state.sessions.sessions other :=
    Function.update_apply _ _ _ _
  have route (traderId : TraderId) : (state.sessions.add fd desk.traderId).traderToFd traderId =
      if traderId = desk.traderId then some fd else state.sessions.traderToFd traderId :=
    Function.update_apply _ _ _ _
  constructor
  · rw [sameOuts, calls_snoc]
    simpa [Report.call] using loop.engine
  · rw [sameOuts, sent_snoc]
    simpa [Report.event] using loop.emitted
  · exact loop.nonneg
  · intro other someDesk here
    obtain ⟨heard, informed, updates, all⟩ := loop.seats other someDesk here
    have same : (since other (past ++ [.registered fd])).getD [] = (since other past).getD [] := by
      rw [told]
      by_cases own : fd = other
      · subst own
        rw [if_pos rfl, loop.unregistered unregistered]
        rfl
      · rw [if_neg own]
    rw [sameOuts, same]
    exact ⟨heard, informed, updates, all⟩
  · intro other session registered
    simp only [found] at registered
    split at registered
    · rename_i own
      cases registered
      exact ⟨desk, own ▸ seated, rfl⟩
    · exact loop.sessions other session registered
  · intro traderId other reaches
    simp only [route] at reaches
    simp only [found]
    split at reaches
    · rename_i own
      cases reaches
      exact ⟨_, if_pos rfl, own.symm⟩
    · obtain ⟨session, registered, trader⟩ := loop.routes traderId other reaches
      refine ⟨session, ?_, trader⟩
      rw [if_neg]
      · exact registered
      · rintro rfl
        rw [unregistered] at registered
        contradiction
  · intro other session registered
    simp only [found] at registered
    simp only [route]
    split at registered
    · cases registered
      exact ⟨fd, if_pos rfl⟩
    · split
      · exact ⟨fd, rfl⟩
      · exact loop.reached other session registered
  · intro other
    simp only [told, found]
    by_cases own : other = fd
    · subst own
      simp
    · rw [if_neg own, if_neg (Ne.symm own)]
      exact loop.counted other

/-- A request is served. -/
theorem Loop.serves (loop : state.Loop past) (idle : state.sending = []) {thread : MatchingThread}
    {req : OrderRequest} {out : Outputs}
    (handled : state.thread.handle req = some (thread, req, out)) :
    { state with thread := thread, sending := eventsOf out }.Loop
      (past ++ [Report.served req out]) := by
  have sameOuts : outs (past ++ [.served req out]) = outs past ++ [out] := by
    simp [outs_snoc, Report.out]
  have sameSince (fd : Fd) : since fd (past ++ [.served req out]) = since fd past :=
    since_snoc fd past _
  have stepped : state.thread.engine.step (MatchingThread.call req) =
      some (thread.engine, out) := by
    simp only [MatchingThread.handle] at handled
    cases ran : state.thread.engine.step (MatchingThread.call req) with
    | none => simp [ran] at handled
    | some result =>
      simp only [ran, bind, Option.bind, Option.some.injEq, Prod.mk.injEq] at handled
      rw [← handled.1, ← handled.2.2]
  constructor
  · rw [sameOuts, calls_snoc]
    exact run_snoc loop.engine stepped
  · have emitted := loop.emitted
    rw [idle, List.append_nil] at emitted
    rw [sameOuts, sent_snoc, List.flatMap_append, ← emitted]
    simp [Report.event]
  · exact loop.nonneg
  · intro other someDesk here
    obtain ⟨told, informed, updates, all⟩ := loop.seats other someDesk here
    rw [sameOuts, sameSince]
    exact ⟨told, informed.mono [out], updates, all⟩
  · exact loop.sessions
  · exact loop.routes
  · exact loop.reached
  · simp only [sameSince]
    exact loop.counted

/-- A message that is sent was emitted. -/
theorem Loop.own (loop : state.Loop past) {event : ServerEvent} (member : event ∈ state.sending)
    {traderId : TraderId} (concerns : event.Concerns traderId) :
    event.Own (outs past) traderId := by
  cases event with
  | ofUpdate => trivial
  | ofConfirm confirm =>
    intro acks
    have listed : ServerEvent.ofConfirm confirm ∈ (outs past).flatMap eventsOf := by
      rw [← loop.emitted]
      exact List.mem_append_right _ member
    obtain ⟨out, emitted, among⟩ := List.mem_flatMap.mp listed
    have made : confirm ∈ out.confirmsOut := by simpa [eventsOf] using among
    exact ⟨out, emitted, confirm, made, acks, concerns, rfl, rfl⟩

/-- A message is sent. -/
theorem Loop.sends (loop : state.Loop past) {event : ServerEvent} {later : List ServerEvent}
    (first : state.sending = event :: later) :
    { state with
      desks := fun fd =>
        if Goes state.sessions event fd then (state.desks fd).map (Desk.post · event)
        else state.desks fd
      sending := later }.Loop (past ++ [Report.sent event]) := by
  have sameOuts : outs (past ++ [.sent event]) = outs past := by simp [outs_snoc, Report.out]
  have told (fd : Fd) : since fd (past ++ [.sent event]) = (since fd past).map (· ++ [event]) :=
    since_snoc fd past _
  -- every client is the one from before, perhaps with one more message
  have before {fd : Fd} {desk : Desk} (here : (if Goes state.sessions event fd
      then (state.desks fd).map (Desk.post · event) else state.desks fd) = some desk) :
      ∃ old, state.desks fd = some old ∧ desk.traderId = old.traderId ∧
        desk = if Goes state.sessions event fd then old.post event else old := by
    split at here
    · rename_i goes
      obtain ⟨old, seated, rfl⟩ := Option.map_eq_some_iff.mp here
      exact ⟨old, seated, rfl, (if_pos goes).symm⟩
    · rename_i stays
      exact ⟨desk, here, rfl, (if_neg stays).symm⟩
  have after {fd : Fd} {desk : Desk} (seated : state.desks fd = some desk) :
      ∃ now, (if Goes state.sessions event fd then (state.desks fd).map (Desk.post · event)
        else state.desks fd) = some now ∧ now.traderId = desk.traderId := by
    rw [seated]
    split
    · exact ⟨_, rfl, rfl⟩
    · exact ⟨_, rfl, rfl⟩
  constructor
  · rw [sameOuts, calls_snoc]
    simpa [Report.call] using loop.engine
  · rw [sameOuts, ← loop.emitted, sent_snoc, first]
    simp [Report.event]
  · intro fd desk here
    obtain ⟨old, seated, -⟩ := before here
    exact loop.nonneg fd old seated
  · intro fd desk here
    obtain ⟨old, seated, sameTrader, same⟩ := before here
    obtain ⟨heard, informed, updates, all⟩ := loop.seats fd old seated
    rw [sameOuts, told]
    have oneSeatBefore (oneSeat : OneSeat { state with
        desks := fun fd => if Goes state.sessions event fd
          then (state.desks fd).map (Desk.post · event) else state.desks fd
        sending := later }) : state.OneSeat := by
      intro one two oneDesk twoDesk oneHere twoHere trader
      obtain ⟨oneNow, oneSeated, oneSame⟩ := after oneHere
      obtain ⟨twoNow, twoSeated, twoSame⟩ := after twoHere
      exact oneSeat one two oneNow twoNow oneSeated twoSeated
        (oneSame.trans (trader.trans twoSame.symm))
    by_cases goes : Goes state.sessions event fd
    · rw [if_pos goes] at same
      subst same
      have concerns : event.Concerns old.traderId := by
        cases event with
        | ofUpdate => trivial
        | ofConfirm confirm =>
          obtain ⟨session, registered, trader⟩ := loop.getFd goes.1 goes.2
          obtain ⟨again, seatedAgain, sameAgain⟩ := loop.sessions fd session registered
          rw [seated, Option.some.injEq] at seatedAgain
          subst seatedAgain
          exact trader.symm.trans sameAgain
      obtain ⟨messages, counted⟩ := Option.ne_none_iff_exists'.mp
        (fun none => loop.registered_of_goes goes ((loop.counted fd).mp none))
      rw [counted] at updates all ⊢
      refine ⟨heard ++ [event], informed.post (loop.own (by simp [first]) concerns), ?_, ?_⟩
      · simpa [List.filterMap_append] using updates
      · intro oneSeat
        rw [sameTrader, all (oneSeatBefore oneSeat)]
        simp [concerns]
    · rw [if_neg goes] at same
      subst same
      refine ⟨heard, informed, ?_⟩
      cases counted : since fd past with
      | none =>
        rw [counted] at updates all
        exact ⟨updates, fun oneSeat => all (oneSeatBefore oneSeat)⟩
      | some messages =>
        rw [counted] at updates all
        have registered : state.sessions.sessions fd ≠ none := by
          intro missing
          rw [(loop.counted fd).mpr missing] at counted
          contradiction
        constructor
        · -- an update would go to every registered descriptor
          cases event with
          | ofConfirm confirm => simpa [List.filterMap_cons, ServerEvent.update] using updates
          | ofUpdate md => exact absurd (Option.isSome_iff_ne_none.mpr registered) goes
        · intro oneSeat
          have foreign : ¬event.Concerns desk.traderId := fun concerns =>
            goes ((loop.goes_iff (oneSeatBefore oneSeat) seated event).mpr ⟨registered, concerns⟩)
          rw [all (oneSeatBefore oneSeat)]
          simp [foreign]
  · intro fd session registered
    obtain ⟨old, seated, trader⟩ := loop.sessions fd session registered
    obtain ⟨now, seatedNow, sameTrader⟩ := after seated
    exact ⟨now, seatedNow, trader.trans sameTrader.symm⟩
  · exact loop.routes
  · exact loop.reached
  · intro fd
    rw [told, Option.map_eq_none_iff]
    exact loop.counted fd

/-- Every step keeps what holds between clients and exchange. -/
theorem Loop.step (loop : state.Loop past) {event : Event}
    (stepped : state.step event = some (next, report)) : next.Loop (past ++ [report]) := by
  cases does_of_step stepped with
  | joins traderId nonneg free => exact (loop.joins nonneg free traderId).unseen
  | registers seated unregistered => exact loop.registers seated unregistered
  | enters seated typed =>
    refine (loop.seat seated ?_ fun _ informed => informed.enters typed).unseen
    rfl
  | ignores => exact loop.unseen
  | skips seated waits =>
    refine (loop.seat seated ?_ fun _ informed => informed.served waits).unseen
    rfl
  | serves idle seated waits handled =>
    refine (loop.seat seated ?_ fun _ informed => informed.served waits).serves idle handled
    rfl
  | sends first => exact loop.sends first
  | receives seated some_pending iterated =>
    refine (loop.seat seated ?_ fun _ informed => informed.receives some_pending iterated).unseen
    rfl

/-- A client has logged in. -/
theorem login_of_run {events : List Event} {reports : List Report}
    (ran : run Trading.step state events = some (next, reports))
    (here : next.desks fd = some desk) :
    (∃ old, state.desks fd = some old ∧ old.traderId = desk.traderId) ∨
      .login fd desk.traderId ∈ events := by
  induction events generalizing state reports with
  | nil =>
    cases ran
    exact .inl ⟨desk, here, rfl⟩
  | cons event events ih =>
    obtain ⟨between, report, later, stepped, rest, rfl⟩ := run_cons_eq_some ran
    rcases ih rest with ⟨old, there, same⟩ | logged
    · rcases (does_of_step stepped).seated there with ⟨first, before, trader⟩ | rfl
      · exact .inl ⟨first, before, trader.trans same⟩
      · rw [same]
        exact .inr List.mem_cons_self
    · exact .inr (List.mem_cons_of_mem event logged)

/-- If no trader logs in twice, none has two clients. -/
theorem oneSeat_of_run {events : List Event} {reports : List Report}
    (ran : run Trading.step new events = some (state, reports))
    (once : (events.filterMap Event.trader).Nodup) : state.OneSeat := by
  have logged {fd : Fd} {desk : Desk} (here : state.desks fd = some desk) :
      .login fd desk.traderId ∈ events := by
    rcases login_of_run ran here with ⟨old, nobody, -⟩ | logged
    · contradiction
    · exact logged
  have apart := List.pairwise_filterMap.mp once
  intro fd other desk otherDesk here there same
  by_contra distinct
  have symmetric : Std.Symm fun (event other : Event) =>
      ∀ trader, event.trader = some trader → ∀ again, other.trader = some again → trader ≠ again :=
    ⟨fun _ _ separate trader one again two => (separate again two trader one).symm⟩
  refine apart.forall (logged here) (logged there) ?_ desk.traderId rfl otherDesk.traderId rfl same
  intro equal
  exact distinct (Event.login.inj equal).1

/-- It holds in every reached state. -/
theorem loop_of_run {events : List Event} {reports : List Report}
    (ran : run Trading.step new events = some (state, reports)) : state.Loop reports := by
  have whole := run_history Loop (fun _ _ _ _ _ loop stepped => loop.step stepped)
    events new state [] reports loop_new ran
  rwa [List.nil_append] at whole

/-! ## What is served -/

/-- Serving a well-formed request hands it to the engine. -/
theorem step_serve {session : ClientSession} {sent : ClientMsg} {later : List RequestMsg}
    (idle : state.sending = []) (seated : state.desks fd = some desk)
    (registered : state.sessions.getSession fd = some session)
    (trader : session.traderId = desk.traderId) (waits : desk.requests = sent.struct :: later)
    (now : Timestamp) :
    state.step (.serve fd now) =
      (state.thread.handle (sent.request desk.traderId now)).map fun (thread, req, out) =>
        ({ state.seat fd { desk with requests := later } with
            thread := thread
            sending := eventsOf out }, .served req out) := by
  have bytes : sent.struct.bytes = (Frame.genuine sent).bytes ++ [] := by
    rw [sent.bytes_struct, List.append_nil]
    rfl
  have framed : framePass { session with recvBuffer := sent.struct.bytes } =
      some (RawMessage.ofFrame desk.traderId sent.bytes, []) := by
    have complete := (Frame.genuine sent).cut_bytes []
    rw [← bytes] at complete
    rw [framePass_of_complete complete]
    simp only [bytes, List.append_nil, List.take_length, List.drop_length, trader]
    rfl
  have parses := sent.parse_bytes desk.traderId now
  cases pushed : RawMessage.ofFrame desk.traderId sent.bytes with
  | none => simp [pushed] at parses
  | some raw =>
    rw [pushed, Option.bind_some] at parses
    rw [pushed] at framed
    simp only [Trading.step, idle, seated, registered, waits, framed, MatchingThread.step, parses]
    cases state.thread.handle (sent.request desk.traderId now) <;> rfl

/-- The first request of a client, as the matching thread takes it up. -/
theorem Loop.serve (loop : state.Loop past) {now : Timestamp}
    (stepped : state.step (.serve fd now) = some (next, report)) :
    ∃ desk told, ∃ sent : ClientMsg, ∃ out, state.desks fd = some desk ∧
      desk.Informed (outs past) told ∧ sent.struct ∈ desk.requests ∧
      report = .served (sent.request desk.traderId now) out ∧
      state.thread.engine.step (MatchingThread.call (sent.request desk.traderId now)) =
        some (next.thread.engine, out) := by
  have guarded := stepped
  simp only [Trading.step] at guarded
  split at guarded
  · rename_i desk session idle seated registered
    split at guarded
    · contradiction
    · rename_i msg later waits
      obtain ⟨again, seatedAgain, trader⟩ := loop.sessions fd session registered
      rw [seated, Option.some.injEq] at seatedAgain
      subst seatedAgain
      obtain ⟨told, informed, -⟩ := loop.seats fd desk seated
      obtain ⟨sent, rfl, -⟩ := informed.asks msg (by simp [waits])
      rw [step_serve idle seated registered trader waits, MatchingThread.handle] at stepped
      cases ran : state.thread.engine.step
          (MatchingThread.call (sent.request desk.traderId now)) with
      | none => simp [ran] at stepped
      | some result =>
        obtain ⟨engine, out⟩ := result
        simp only [ran, bind, Option.bind, Option.map_some, Option.some.injEq,
          Prod.mk.injEq] at stepped
        obtain ⟨rfl, rfl⟩ := stepped
        exact ⟨desk, told, sent, out, seated, informed, by simp [waits], rfl, ran⟩
  · contradiction

/-- A request about an order is rejected only if the order is not its trader's or does not rest in
the book it is looked for in. -/
theorem rejected_of_names {engine next : MatchingEngine} (good : engine.Good) {sent : ClientMsg}
    {traderId : TraderId} {now : Timestamp} {out : Outputs} {orderId : OrderId}
    {symbolId : SymbolId} (names : sent.names = some (orderId, symbolId))
    (stepped : engine.step (MatchingThread.call (sent.request traderId now)) = some (next, out))
    {confirm : OrderConfirm} (member : confirm ∈ out.confirmsOut)
    (rejects : confirm.type = .Reject) : engine.owner symbolId orderId ≠ some traderId := by
  obtain ⟨reached, emitted, ran, engineStep⟩ := good.steps
    (MatchingThread.call (sent.request traderId now))
  rw [stepped] at ran
  cases ran
  intro owned
  cases engineStep with
  | dropped => exact absurd member List.not_mem_nil
  | routed present _ _ _ _ _ ledgerStep =>
    rw [← MatchingEngine.ledger_of_books present] at ledgerStep
    have answered := MatchingEngine.answered_of_ledgerStep ledgerStep
    cases sent with
    | new => contradiction
    | modify id sym price qty =>
      cases names
      obtain ⟨reply, alone, -, -, type⟩ := answered
      have accepted : reply.type = .ModifyAck := type.trans (if_pos owned)
      rw [alone, List.mem_singleton] at member
      rw [member, accepted] at rejects
      contradiction
    | cancel id sym =>
      cases names
      obtain ⟨reply, alone, -, -, type⟩ := answered
      have accepted : reply.type = .CancelAck := type.trans (if_pos owned)
      rw [alone, List.mem_singleton] at member
      rw [member, accepted] at rejects
      contradiction

/-- In every run of the closed loop with fewer than 2⁶⁴ − 1 new orders, a client knows only
identifiers that were told to its trader for its own orders; and whenever the exchange serves a
modification or a cancel of a client, it is about such an order, and it is rejected only if the
order does not rest in the book it is looked for in. -/
theorem run_own_orders {events : List Event} {reports : List Report}
    (ran : run Trading.step new events = some (state, reports))
    (few : orderCount (calls reports) < 2 ^ 64 - 1) :
    (∀ fd desk, state.desks fd = some desk → ∀ internalId orderId,
      desk.client.internalToExchange internalId = some orderId →
        orderId ≠ 0 ∧ Acked (outs reports) desk.traderId internalId orderId) ∧
    ∀ fd now next report, state.step (.serve fd now) = some (next, report) →
      ∃ desk, ∃ sent : ClientMsg, ∃ out, state.desks fd = some desk ∧
        report = .served (sent.request desk.traderId now) out ∧
        ∀ orderId symbolId, sent.names = some (orderId, symbolId) →
          (∃ internalId, Acked (outs reports) desk.traderId internalId orderId) ∧
          ∀ confirm ∈ out.confirmsOut, confirm.type = .Reject →
            (state.thread.engine.ledger symbolId).record orderId = none := by
  have loop := loop_of_run ran
  obtain ⟨good, owned⟩ := MatchingEngine.owned_of_run few loop.engine
  constructor
  · intro fd desk seated internalId orderId known
    obtain ⟨told, informed, -⟩ := loop.seats fd desk seated
    have acked := informed.knows known
    exact ⟨(owned.given _ _ _ acked).1, acked⟩
  · intro fd now next report stepped
    obtain ⟨desk, told, sent, out, seated, informed, member, served, engineStep⟩ :=
      loop.serve stepped
    refine ⟨desk, sent, out, seated, served, ?_⟩
    intro orderId symbolId names
    obtain ⟨again, same, asks⟩ := informed.asks _ member
    obtain ⟨internalId, acked⟩ := asks orderId symbolId (by
      rw [← names]
      cases sent <;> cases again <;> cases same <;> rfl)
    refine ⟨⟨internalId, acked⟩, ?_⟩
    intro confirm emitted rejects
    have foreign := rejected_of_names good names engineStep emitted rejects
    cases recorded : (state.thread.engine.ledger symbolId).record orderId with
    | none => rfl
    | some order =>
      have own := owned.owner _ _ _ acked symbolId order recorded
      exact absurd (own ▸ MatchingEngine.owner_of_record recorded) foreign

/-- A trader enters an order, is told its identifier and types a cancel, which is then served. -/
theorem run_own_orders_cancel :
    ∃ state reports next report, ∃ sent : ClientMsg, ∃ out, run Trading.step new
        [.login 5 1, .register 5, .enter 5 "N,7,0,BUY,100,5".toList, .serve 5 0, .send, .send,
          .receive 5 [] ⟨List.replicate 256 0, List.length_replicate⟩,
          .receive 5 [2] ⟨List.replicate 256 0, List.length_replicate⟩,
          .enter 5 "C,7,0".toList] = some (state, reports) ∧
      Acked (outs reports) 1 7 1 ∧
      state.step (.serve 5 9) = some (next, report) ∧ report.call = some (.onCancel 1 0 1) ∧
      report = .served (sent.request 1 9) out := by
  have facts : (run Trading.step new
      [.login 5 1, .register 5, .enter 5 "N,7,0,BUY,100,5".toList, .serve 5 0, .send, .send,
        .receive 5 [] ⟨List.replicate 256 0, List.length_replicate⟩,
        .receive 5 [2] ⟨List.replicate 256 0, List.length_replicate⟩,
        .enter 5 "C,7,0".toList]).map (fun result =>
          ((result.1.desks 5).map fun desk =>
            (desk.traderId, desk.client.internalToExchange 7), orderCount (calls result.2),
            (result.1.step (.serve 5 9)).map fun result => result.2.call)) =
      some (some (1, some 1), 1, some (some (.onCancel 1 0 1))) := by
    decide +kernel
  obtain ⟨⟨state, reports⟩, ran, facts⟩ := Option.map_eq_some_iff.mp facts
  simp only [Prod.mk.injEq, Option.map_eq_some_iff, Prod.exists] at facts
  obtain ⟨⟨desk, seated, trader, known⟩, count, next, report, stepped, call⟩ := facts
  obtain ⟨knows, serves⟩ := run_own_orders ran (by rw [count]; decide)
  obtain ⟨again, sent, out, seatedAgain, served, -⟩ := serves 5 9 next report stepped
  rw [seated, Option.some.injEq] at seatedAgain
  subst seatedAgain
  have acked := (knows 5 desk seated 7 1 known).2
  rw [trader] at acked served
  exact ⟨state, reports, next, report, sent, out, ran, acked, stepped, call, served⟩

end Trading

end Exchange
