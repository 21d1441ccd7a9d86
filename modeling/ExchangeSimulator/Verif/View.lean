import ExchangeSimulator.Verif.Trading
import Mathlib.Data.List.Induction

/-!
# What a client has seen

A client has handled, at every moment, the first of the updates that were sent
since it was registered. When nothing is on its way any more, applying them gives
every resting order that the exchange first told of after that; a client that was
there from the start has the resting orders of every book. The confirms of its
trader reach it as well if the trader has no other client. It then knows every order
of the trader that rests, unless the trader has used one identifier for two orders,
and a line can be typed that cancels it.
-/

namespace Exchange

open Library

/-- The kind of update that a byte stands for. -/
def MdUpdateType.ofByte (byte : UInt8) : Option MdUpdateType :=
  if byte = MdUpdateType.New.byte then some .New
  else if byte = MdUpdateType.Modify.byte then some .Modify
  else if byte = MdUpdateType.Cancel.byte then some .Cancel
  else if byte = MdUpdateType.Trade.byte then some .Trade
  else none

/-- The update that a printed message tells. -/
def Handled.update : Handled → Option MdUpdate
  | .decoded (.marketUpdate msg) => (MdUpdateType.ofByte msg.updateType).map
      (⟨msg.symbolId, msg.orderId, msg.side, msg.price, msg.qty, ·⟩)
  | _ => none

/-- It is the update that was sent. -/
theorem Handled.update_msg (event : ServerEvent) :
    (Handled.decoded event.msg).update = event.update := by
  cases event with
  | ofUpdate md =>
    obtain ⟨symbolId, orderId, side, price, qty, updateType⟩ := md
    cases updateType <;> rfl
  | ofConfirm confirm =>
    obtain ⟨type, orderId, clientOrderId, traderId, symbolId, price, qty, reason⟩ := confirm
    cases type <;> rfl

/-- Messages that take no bytes are none. -/
theorem ServerEvent.eq_nil_of_bytes {events : List ServerEvent}
    (nothing : events.flatMap ServerEvent.bytes = []) : events = [] := by
  have few := ServerEvent.length_le_flatMap events
  rw [nothing, List.length_nil] at few
  exact List.eq_nil_of_length_eq_zero (Nat.le_zero.mp few)

/-- Applying all updates of a run gives the resting orders of all books. -/
theorem MatchingEngine.feed_of_run {symbols : List SymbolId} {requests : List Request}
    {engine : MatchingEngine} {outs : List Outputs} (few : orderCount requests < 2 ^ 64 - 1)
    (ran : run step (initializeBooks symbols) requests = some (engine, outs)) (sym : SymbolId)
    (id : OrderId) :
    ((outs.flatMap Outputs.mdOut).foldl Feed.apply Feed.empty) (sym, id) =
      ((engine.ledger sym).record id).map Resting.feedEntry := by
  obtain ⟨last, emitted, again, good, agrees⟩ := run_guarded_history
    (fun engine outs => engine.Good ∧
      Feed.Shows ((outs.flatMap Outputs.mdOut).foldl Feed.apply Feed.empty) engine.live)
    (fun engine request outs kept room => by
      obtain ⟨good, agrees⟩ := kept
      obtain ⟨next, out, ran, engineStep⟩ := good.steps request
      refine ⟨next, out, ran, good.next room engineStep, ?_⟩
      rw [List.flatMap_append, List.flatMap_singleton, List.foldl_append]
      rcases engineStep.entry with ⟨silent, same⟩ | entry
      · subst silent
        exact same ▸ agrees
      · exact (agrees.entry entry).2)
    requests (initializeBooks symbols) []
    ⟨good_initializeBooks symbols, fun sym id => by rw [live_initializeBooks]; rfl⟩
    (guarded_initializeBooks symbols requests few)
  rw [ran] at again
  cases again
  refine (agrees sym id).trans ?_
  change ((((engine.ledger sym).record id).map Resting.live).map LiveOrder.feedEntry) = _
  rw [Option.map_map]
  rfl

namespace Feed

/-- Updates about other orders leave an entry as it is. -/
theorem foldl_apply_of_untouched {updates : List MdUpdate} {key : SymbolId × OrderId}
    (untouched : ∀ md ∈ updates, (md.symbolId, md.orderId) ≠ key) (feed : Feed) :
    updates.foldl apply feed key = feed key := by
  induction updates generalizing feed with
  | nil => rfl
  | cons md updates ih =>
    have first := untouched md List.mem_cons_self
    rw [List.foldl_cons, ih fun other member => untouched other (List.mem_cons_of_mem md member)]
    exact Function.update_of_ne (Ne.symm first) _ _

/-- What updates make of an entry depends on this entry only. -/
theorem foldl_apply_congr (updates : List MdUpdate) {feed other : Feed} {key : SymbolId × OrderId}
    (same : feed key = other key) :
    updates.foldl apply feed key = updates.foldl apply other key := by
  induction updates generalizing feed other with
  | nil => exact same
  | cons md updates ih =>
    refine ih ?_
    simp only [apply, Function.update_apply]
    split
    · rename_i own
      rw [own] at same
      rw [same]
    · exact same

end Feed

namespace Trading

variable {state : Trading} {past : List Report} {fd : Fd} {desk : Desk}

/-- What was sent since a registration is the last of what was sent. -/
theorem since_suffix {told : List ServerEvent} (registered : since fd past = some told) :
    ∃ before, sent past = before ++ told := by
  induction past using List.reverseRecOn generalizing told with
  | nil => contradiction
  | append_singleton past report ih =>
    rw [since_snoc] at registered
    rw [sent_snoc]
    cases report with
    | nothing | served =>
      obtain ⟨before, all⟩ := ih registered
      exact ⟨before, by rw [all]; simp [Report.event]⟩
    | registered other =>
      simp only [Report.since] at registered
      split at registered
      · cases registered
        exact ⟨sent past, by simp [Report.event]⟩
      · obtain ⟨before, all⟩ := ih registered
        exact ⟨before, by rw [all]; simp [Report.event]⟩
    | sent event =>
      obtain ⟨earlier, counted, rfl⟩ := Option.map_eq_some_iff.mp registered
      obtain ⟨before, all⟩ := ih counted
      exact ⟨before, by rw [all]; simp [Report.event]⟩

/-- The updates among what is sent for a request. -/
theorem updates_eventsOf (out : Outputs) :
    (eventsOf out).filterMap ServerEvent.update = out.mdOut := by
  have none : (out.confirmsOut.map ServerEvent.ofConfirm).filterMap ServerEvent.update = [] := by
    simp [List.filterMap_map, ServerEvent.update, Function.comp_def]
  have all : (out.mdOut.map ServerEvent.ofUpdate).filterMap ServerEvent.update = out.mdOut := by
    simp [List.filterMap_map, ServerEvent.update, Function.comp_def]
  rw [eventsOf, List.filterMap_append, none, all, List.nil_append]

/-- The updates sent and those that have yet to be sent are the updates emitted. -/
theorem Loop.updates (loop : state.Loop past) :
    (sent past).filterMap ServerEvent.update ++ state.sending.filterMap ServerEvent.update =
      (outs past).flatMap Outputs.mdOut := by
  rw [← List.filterMap_append, loop.emitted, List.filterMap_flatMap]
  simp only [updates_eventsOf]

end Trading

namespace Desk

variable {desk : Desk} {outs : List Outputs} {told : List ServerEvent}

/-- What a client has printed is what it was sent first. -/
theorem Informed.handled (informed : desk.Informed outs told) :
    ∃ waiting, desk.client.handled ++ waiting = told.map (fun event => .decoded event.msg) ∧
      (desk.client.sock.pending = [] → waiting = []) := by
  obtain ⟨done, waiting, arrivals, rfl, client⟩ := informed.heard
  refine ⟨waiting.map (fun event => .decoded event.msg), ?_, ?_⟩
  · rw [client]
    change ((Client.new _).after done).handled ++ _ = _
    rw [Client.after_handled, List.map_append]
    rfl
  · rw [client]
    intro nothing
    rw [ServerEvent.eq_nil_of_bytes nothing, List.map_nil]

/-- The updates it has printed. -/
theorem Informed.seen (informed : desk.Informed outs told) :
    ∃ waiting, desk.client.handled.filterMap Handled.update ++ waiting =
        told.filterMap ServerEvent.update ∧
      (desk.client.sock.pending = [] → waiting = []) := by
  obtain ⟨waiting, all, quiet⟩ := informed.handled
  refine ⟨waiting.filterMap Handled.update, ?_, fun nothing => by rw [quiet nothing]; rfl⟩
  rw [← List.filterMap_append, all, List.filterMap_map]
  simp only [Function.comp_def, Handled.update_msg]

end Desk

namespace Trading

variable {state : Trading} {reports : List Report} {fd : Fd} {desk : Desk}

/-- In every run of the closed loop with fewer than 2⁶⁴ − 1 new orders, a registered client has
printed the first of the updates sent since its registration, in their order; and when nothing is on
its way to it, applying what it has printed to an empty map gives exactly the resting orders of all
books, among those that no update was about before it was registered. -/
theorem run_books_seen {events : List Event}
    (ran : run Trading.step new events = some (state, reports))
    (few : orderCount (calls reports) < 2 ^ 64 - 1) (seated : state.desks fd = some desk)
    {told : List ServerEvent} (registered : since fd reports = some told) :
    desk.client.handled.filterMap Handled.update <+: told.filterMap ServerEvent.update ∧
    ∃ before, sent reports = before ++ told ∧
      (state.sending = [] → desk.client.sock.pending = [] → ∀ sym id,
        (∀ md ∈ before.filterMap ServerEvent.update, (md.symbolId, md.orderId) ≠ (sym, id)) →
        (desk.client.handled.filterMap Handled.update).foldl Feed.apply Feed.empty (sym, id) =
          ((state.thread.engine.ledger sym).record id).map Resting.feedEntry) := by
  have loop := loop_of_run ran
  obtain ⟨heard, informed, updates, -⟩ := loop.seats fd desk seated
  obtain ⟨waiting, seen, quiet⟩ := informed.seen
  rw [updates, registered, Option.getD_some] at seen
  obtain ⟨before, all⟩ := since_suffix registered
  refine ⟨⟨waiting, seen⟩, before, all, ?_⟩
  intro idle nothing sym id untouched
  rw [quiet nothing, List.append_nil] at seen
  have emitted := loop.updates
  rw [idle, List.filterMap_nil, List.append_nil, all, List.filterMap_append, ← seen] at emitted
  rw [← MatchingEngine.feed_of_run few loop.engine sym id, ← emitted, List.foldl_append]
  refine Feed.foldl_apply_congr _ ?_
  exact (Feed.foldl_apply_of_untouched untouched Feed.empty).symm

/-- The client of a trader whose order has come to rest, with both messages received. -/
theorem run_books_seen_resting :
    ∃ state reports desk, run Trading.step new
        [.login 5 1, .register 5, .enter 5 "N,7,0,BUY,100,5".toList, .serve 5 0, .send, .send,
          .receive 5 [] ⟨List.replicate 256 0, List.length_replicate⟩,
          .receive 5 [2] ⟨List.replicate 256 0, List.length_replicate⟩] = some (state, reports) ∧
      state.desks 5 = some desk ∧ ∀ sym id,
        (desk.client.handled.filterMap Handled.update).foldl Feed.apply Feed.empty (sym, id) =
          ((state.thread.engine.ledger sym).record id).map Resting.feedEntry := by
  have facts : (run Trading.step new
      [.login 5 1, .register 5, .enter 5 "N,7,0,BUY,100,5".toList, .serve 5 0, .send, .send,
        .receive 5 [] ⟨List.replicate 256 0, List.length_replicate⟩,
        .receive 5 [2] ⟨List.replicate 256 0, List.length_replicate⟩]).map (fun result =>
          ((result.1.desks 5).map (·.client.sock.pending), result.1.sending,
            orderCount (calls result.2), decide (since 5 result.2 = some (sent result.2)))) =
      some (some [], [], 1, true) := by
    decide +kernel
  obtain ⟨⟨state, reports⟩, ran, facts⟩ := Option.map_eq_some_iff.mp facts
  simp only [Prod.mk.injEq, Option.map_eq_some_iff, decide_eq_true_eq] at facts
  obtain ⟨⟨desk, seated, quiet⟩, idle, count, early⟩ := facts
  obtain ⟨-, before, all, books⟩ := run_books_seen ran (by rw [count]; decide) seated early
  obtain rfl : before = [] := List.append_left_eq_self.mp all.symm
  exact ⟨state, reports, desk, ran, seated, fun sym id => books idle quiet sym id (by simp)⟩

end Trading

/-! ## Cancelling what rests -/

namespace Command

/-- `C,internal_orderid,symbol_id`. -/
def cancelLine (internalId : OrderId) (symId : SymbolId) : List Char :=
  [] ++ (['C'] ++ ([','] ++ (writeNat internalId.toNat ++ ([','] ++ (writeNat symId.toNat ++ [])))))

/-- A number has no separators. -/
theorem solid_writeNat (value : Nat) : ∀ char ∈ writeNat value, isSeparator char = false := by
  intro char member
  have digit := isDigit_writeNat member
  rw [isSeparator, (not_blank_of_isDigit digit).1, Bool.false_or, decide_eq_false_iff_not]
  rintro rfl
  contradiction

/-- The line is in the announced format. -/
theorem holds_cancelLine (internalId : OrderId) (symId : SymbolId) :
    Holds [['C'], writeNat internalId.toNat, writeNat symId.toNat]
      (cancelLine internalId symId) := by
  have comma : ∀ char ∈ [','], isSeparator char = true := by simp [isSeparator]
  have last : Holds [] [] := .rest (by simp)
  have symbol := Holds.word comma (writeNat_ne_nil symId.toNat) (solid_writeNat _) (by simp) last
  have order := Holds.word comma (writeNat_ne_nil internalId.toNat) (solid_writeNat _)
    (by simpa using comma) symbol
  have cancel : ∀ char ∈ ['C'], isSeparator char = false := by simp [isSeparator, isBlank]
  exact .word (by simp) (List.cons_ne_nil _ _) cancel (by simpa using comma) order

end Command

/-- The owner of a resting order can cancel it. -/
theorem MatchingEngine.Good.cancels {engine : MatchingEngine} (good : engine.Good)
    {sym : SymbolId} {id : OrderId} {order : Resting}
    (rests : (engine.ledger sym).record id = some order) :
    ∃ next out, engine.step (.onCancel id sym order.traderId) = some (next, out) ∧
      (next.ledger sym).record id = none := by
  obtain ⟨next, out, ran, engineStep⟩ := good.steps (.onCancel id sym order.traderId)
  refine ⟨next, out, ran, ?_⟩
  cases engineStep with
  | dropped missing =>
    rw [ledger, show engine.books sym = none from missing] at rests
    contradiction
  | @routed book nextBook _ present _ _ _ _ _ ledgerStep =>
    have before : engine.ledger sym = book.ledger := ledger_of_books present
    have after : MatchingEngine.ledger { engine.advance (.onCancel id sym order.traderId) with
        books := Function.update engine.books sym (some nextBook) } sym = nextBook.ledger :=
      ledger_of_books (Function.update_self _ _ _)
    rw [before] at rests
    refine (congrArg (fun ledger => ledger.record id) after).trans ?_
    generalize nextBook.ledger = emptied at ledgerStep
    cases ledgerStep with
    | cancelled => rw [Ledger.record_drop, if_pos rfl]
    | cancelRejected foreign => exact absurd rfl (foreign order rests)

namespace Trading

variable {state : Trading} {reports : List Report} {fd : Fd} {desk : Desk}

/-- A client that is alone for its trader has been told of every acknowledgement of the trader. -/
theorem Loop.knows (loop : state.Loop reports) (oneSeat : state.OneSeat)
    (seated : state.desks fd = some desk) (early : since fd reports = some (sent reports))
    (idle : state.sending = []) (quiet : desk.client.sock.pending = [])
    {clientOrderId orderId : OrderId}
    (acked : Acked (outs reports) desk.traderId clientOrderId orderId) :
    ∃ latest, desk.client.internalToExchange clientOrderId = some latest ∧
      Acked (outs reports) desk.traderId clientOrderId latest := by
  obtain ⟨told, informed, -, all⟩ := loop.seats fd desk seated
  have emitted := loop.emitted
  rw [idle, List.append_nil] at emitted
  obtain ⟨out, member, confirm, made, acks, trader, own, -⟩ := acked
  have listed : ServerEvent.ofConfirm confirm ∈ told := by
    rw [all oneSeat, early, Option.getD_some, emitted, List.mem_filter]
    refine ⟨List.mem_flatMap.mpr ⟨out, member, ?_⟩, decide_eq_true trader⟩
    exact List.mem_append_left _ (List.mem_map_of_mem made)
  have found : ∃ latest, desk.client.internalToExchange clientOrderId = some latest := by
    obtain ⟨done, waiting, arrivals, rfl, client⟩ := informed.heard
    rw [client] at quiet
    obtain rfl := ServerEvent.eq_nil_of_bytes quiet
    rw [List.append_nil] at listed
    have among : confirm.orderId ∈ done.filterMap (ServerEvent.ack clientOrderId) :=
      List.mem_filterMap.mpr ⟨_, listed, if_pos ⟨acks, own⟩⟩
    obtain ⟨latest, last⟩ := Option.isSome_iff_exists.mp
      (List.getLast?_isSome.mpr (List.ne_nil_of_mem among))
    refine ⟨latest, ?_⟩
    rw [client]
    change ((Client.new _).after done).internalToExchange clientOrderId = _
    rw [Client.after_internalToExchange, ServerEvent.lastAck, last]
    rfl
  obtain ⟨latest, known⟩ := found
  exact ⟨latest, known, informed.knows known⟩

/-- A line of a registered client that has nothing waiting, entered and served. -/
theorem Loop.enter_serve (loop : state.Loop reports) (idle : state.sending = [])
    (seated : state.desks fd = some desk) (registered : since fd reports ≠ none)
    (served : desk.requests = []) {line : List Char} {msg : ClientMsg}
    (typed : (typeLine desk.client.internalToExchange line).sent = some msg.struct)
    (now : Timestamp) {engine : MatchingEngine} {out : Outputs}
    (stepped : state.thread.engine.step (MatchingThread.call (msg.request desk.traderId now)) =
      some (engine, out)) :
    ∃ next later, run Trading.step state [.enter fd line, .serve fd now] = some (next, later) ∧
      next.thread.engine = engine := by
  obtain ⟨session, found⟩ : ∃ session, state.sessions.sessions fd = some session :=
    Option.ne_none_iff_exists'.mp fun missing => registered ((loop.counted fd).mpr missing)
  obtain ⟨again, seatedAgain, trader⟩ := loop.sessions fd session found
  rw [seated, Option.some.injEq] at seatedAgain
  subst seatedAgain
  let waiting : Desk := { desk with requests := [msg.struct] }
  have entered : state.step (.enter fd line) = some (state.seat fd waiting, .nothing) := by
    simp only [Trading.step, seated, typed, served, List.nil_append, waiting]
  have idleNow : (state.seat fd waiting).sending = [] := idle
  have seatedNow : (state.seat fd waiting).desks fd = some waiting :=
    (seat_desks _ _ _ _).trans (if_pos rfl)
  have serves := step_serve idleNow seatedNow found trader rfl now
  have handled : (state.seat fd waiting).thread.handle (msg.request waiting.traderId now) =
      some (⟨engine, engine.publish state.thread.marketState
        (msg.request desk.traderId now).m_symbolId out.confirmsOut⟩,
        msg.request desk.traderId now, out) := by
    change (state.thread.engine.step (MatchingThread.call _) >>= _) = _
    rw [stepped]
    rfl
  rw [handled, Option.map_some] at serves
  have both := (run_cons_of_step entered [.serve fd now]).trans
    (congrArg _ (run_cons_of_step serves []))
  exact ⟨_, _, both, rfl⟩

/-- In every run of the closed loop with fewer than 2⁶⁴ − 1 new orders in which no trader logs in
twice, take a client that was registered before the first message went out and has nothing under
way. If no two orders of its trader were acknowledged under one of its own identifiers, then for
every resting order of the trader a line can be typed that makes the exchange cancel the order. -/
theorem run_own_cancellable {events : List Event}
    (ran : run Trading.step new events = some (state, reports))
    (few : orderCount (calls reports) < 2 ^ 64 - 1)
    (once : (events.filterMap Event.trader).Nodup) (seated : state.desks fd = some desk)
    (early : since fd reports = some (sent reports)) (idle : state.sending = [])
    (quiet : desk.client.sock.pending = []) (served : desk.requests = [])
    (distinct : ∀ clientOrderId orderId other,
      Acked (outs reports) desk.traderId clientOrderId orderId →
      Acked (outs reports) desk.traderId clientOrderId other → orderId = other)
    {sym : SymbolId} {id : OrderId} {order : Resting}
    (rests : (state.thread.engine.ledger sym).record id = some order)
    (own : order.traderId = desk.traderId) (now : Timestamp) :
    ∃ line next later, run Trading.step state [.enter fd line, .serve fd now] =
        some (next, later) ∧
      (next.thread.engine.ledger sym).record id = none := by
  have loop := loop_of_run ran
  obtain ⟨good, owned⟩ := MatchingEngine.owned_of_run few loop.engine
  obtain ⟨clientOrderId, acked⟩ := owned.told sym id order rests
  rw [own] at acked
  obtain ⟨latest, known, ackedLatest⟩ := loop.knows (oneSeat_of_run ran once) seated
    early idle quiet acked
  obtain rfl := distinct clientOrderId latest id ackedLatest acked
  have given := (owned.given _ _ _ acked).1
  -- the line is read as a cancel of the order
  have typed : (typeLine desk.client.internalToExchange
      (Command.cancelLine clientOrderId sym)).sent = some (ClientMsg.cancel latest sym).struct := by
    simp only [typeLine, Command.ofLine_cancel (Command.holds_cancelLine clientOrderId sym),
      Command.sent, exchId, known, if_neg given, ClientMsg.struct]
  obtain ⟨engine, out, cancels, gone⟩ := good.cancels rests
  rw [own] at cancels
  obtain ⟨next, later, steps, rfl⟩ := loop.enter_serve idle seated (by simp [early]) served typed
    now cancels
  exact ⟨_, next, later, steps, gone⟩

/-- The order of the only trader is cancelled. -/
theorem run_own_cancellable_resting :
    ∃ state reports line next later, run Trading.step new
        [.login 5 1, .register 5, .enter 5 "N,7,0,BUY,100,5".toList, .serve 5 0, .send, .send,
          .receive 5 [] ⟨List.replicate 256 0, List.length_replicate⟩,
          .receive 5 [2] ⟨List.replicate 256 0, List.length_replicate⟩] = some (state, reports) ∧
      ((state.thread.engine.ledger 0).record 1).isSome ∧
      run Trading.step state [.enter 5 line, .serve 5 9] = some (next, later) ∧
      (next.thread.engine.ledger 0).record 1 = none := by
  have facts : (run Trading.step new
      [.login 5 1, .register 5, .enter 5 "N,7,0,BUY,100,5".toList, .serve 5 0, .send, .send,
        .receive 5 [] ⟨List.replicate 256 0, List.length_replicate⟩,
        .receive 5 [2] ⟨List.replicate 256 0, List.length_replicate⟩]).any (fun (state, reports) =>
          (state.desks 5).any (fun desk =>
            desk.client.sock.pending = [] ∧ desk.requests.length = 0 ∧ desk.traderId = 1) ∧
          ((state.thread.engine.ledger 0).record 1).any (fun order => order.traderId = 1) ∧
          state.sending = [] ∧ orderCount (calls reports) = 1 ∧
          since 5 reports = some (sent reports) ∧
          ∀ out ∈ outs reports, ∀ confirm ∈ out.confirmsOut, confirm.orderId = 1) = true := by
    decide +kernel
  obtain ⟨⟨state, reports⟩, ran, facts⟩ := (Option.any_eq_true _ _).mp facts
  simp only [Option.any_eq_true, decide_eq_true_eq] at facts
  obtain ⟨⟨desk, seated, quiet, served, trader⟩, ⟨order, rests, own⟩, idle, count, early, acks⟩ :=
    facts
  have distinct (clientOrderId orderId other : OrderId)
      (first : Acked (outs reports) desk.traderId clientOrderId orderId)
      (second : Acked (outs reports) desk.traderId clientOrderId other) : orderId = other := by
    have only {orderId : OrderId}
        (acked : Acked (outs reports) desk.traderId clientOrderId orderId) : orderId = 1 := by
      obtain ⟨out, member, confirm, made, -, -, -, rfl⟩ := acked
      exact acks out member confirm made
    rw [only first, only second]
  obtain ⟨line, next, later, steps, gone⟩ := run_own_cancellable ran (by rw [count]; decide)
    (by decide) seated early idle quiet (List.eq_nil_of_length_eq_zero served) distinct rests
    (own.trans trader.symm) 9
  exact ⟨state, reports, line, next, later, ran, by rw [rests]; rfl, steps, gone⟩

end Trading

end Exchange
