import ExchangeSimulator.Verif.Engine

/-!
# What a request leaves alone

A confirmation of a trade, a cancel or a modification names an order. A resting
order that no confirmation of a request names stays as it is, and such orders
keep their places relative to each other. The order of another trader changes
only by a trade reported to its owner, never by a cancel or a modification. A
rejected request changes nothing.
-/

namespace Exchange

open Library

/-- A trade, a cancel or a modification of an order is confirmed. -/
def Outputs.Names (out : Outputs) (id : OrderId) : Prop :=
  ∃ confirm ∈ out.confirmsOut, confirm.orderId = id ∧
    (confirm.type = .Trade ∨ confirm.type = .CancelAck ∨ confirm.type = .ModifyAck)

/-- The trade confirmations of an order. -/
def Outputs.tradesOf (out : Outputs) (id : OrderId) : List OrderConfirm :=
  out.confirmsOut.filter fun confirm => confirm.type = .Trade ∧ confirm.orderId = id

/-- The trade confirmations of emissions in order. -/
theorem Outputs.tradesOf_append (first second : Outputs) (id : OrderId) :
    (first.append second).tradesOf id = first.tradesOf id ++ second.tradesOf id := by
  simp only [tradesOf, append, List.filter_append]

/-- An order is named by emissions in order exactly when one of them names it. -/
theorem Outputs.names_append {first second : Outputs} {id : OrderId} :
    (first.append second).Names id ↔ first.Names id ∨ second.Names id := by
  simp only [Names, append, List.mem_append, or_and_right, exists_or]

/-- The acknowledgement of a cancel names its order. -/
theorem Outputs.names_cancelOutputs (symbol : SymbolId) (id : OrderId) (traderId : TraderId)
    (side : Side) (price : Price) (qty : Quantity) :
    (OrderBook.cancelOutputs symbol id traderId side price qty).Names id :=
  ⟨_, List.mem_singleton_self _, rfl, by simp⟩

/-- The acknowledgement of a modification names its order. -/
theorem Outputs.names_modifyOutputs (symbol : SymbolId) (id : OrderId) (traderId : TraderId)
    (side : Side) (newPrice : Price) (newQty : Quantity) :
    (OrderBook.modifyOutputs symbol id traderId side newPrice newQty).Names id :=
  ⟨_, List.mem_singleton_self _, rfl, by simp⟩

namespace Ledger

/-- The passive order of an iteration. -/
def MatchEvent.passive : MatchEvent → BookElement
  | .selfTrade _ passive => passive
  | .fill _ passive _ => passive

/-- An iteration names its passive order. -/
theorem MatchEvent.names_passive (symbol : SymbolId) (side : BookSide) (incoming : OrderRequest)
    (event : MatchEvent) : (event.outputs symbol side incoming).Names event.passive.m_id := by
  cases event with
  | selfTrade price passive => exact ⟨_, List.mem_singleton_self _, rfl, by simp⟩
  | fill price passive qty => exact ⟨_, List.mem_cons_self, rfl, by simp⟩

/-- The passive order of an iteration rests before it. -/
theorem MatchStep.passive_recorded {side : BookSide} {incoming : OrderRequest}
    {ledger next : Ledger} {remaining after : Quantity} {event : MatchEvent}
    (step : MatchStep side incoming ledger remaining event next after) :
    ∃ order, ledger.record event.passive.m_id = some order := by
  cases step with
  | selfTrade _ front _ _ => exact ⟨_, front.recorded⟩
  | full _ front _ _ _ => exact ⟨_, front.recorded⟩
  | partly _ front _ _ _ => exact ⟨_, front.recorded⟩

/-- An iteration keeps the records of all orders but its passive one. -/
theorem MatchStep.record_of_ne {side : BookSide} {incoming : OrderRequest} {ledger next : Ledger}
    {remaining after : Quantity} {event : MatchEvent}
    (step : MatchStep side incoming ledger remaining event next after) {id : OrderId}
    (apart : id ≠ event.passive.m_id) : next.record id = ledger.record id := by
  cases step with
  | selfTrade =>
    rw [record_drop]
    exact if_neg apart
  | full =>
    rw [record_drop]
    exact if_neg apart
  | partly =>
    rw [record_reduce]
    exact if_neg apart

/-- An order that leaves does not change the order of others. -/
theorem sublist_drop {ledger : Ledger} {slot other : Slot} {id : OrderId} {amount : Quantity}
    {ids : List OrderId} (before : ids.Sublist (ledger.queue other)) (absent : id ∉ ids) :
    ids.Sublist ((ledger.drop slot id amount).queue other) := by
  rw [queue_drop]
  split
  · rename_i here
    subst here
    rw [← List.erase_of_not_mem absent]
    exact before.erase id
  · exact before

/-- An order that comes to rest does not change the order of others. -/
theorem sublist_rest {ledger : Ledger} {slot : Slot} {id : OrderId} {order : Resting}
    {ids : List OrderId} (before : ids.Sublist (ledger.queue slot)) :
    ids.Sublist ((ledger.rest id order).queue slot) := by
  rw [queue_rest]
  split
  · rename_i here
    subst here
    exact before.trans (List.sublist_append_left _ _)
  · exact before

/-- An iteration keeps the order of all orders but its passive one. -/
theorem MatchStep.sublist {side : BookSide} {incoming : OrderRequest} {ledger next : Ledger}
    {remaining after : Quantity} {event : MatchEvent}
    (step : MatchStep side incoming ledger remaining event next after) {slot : Slot}
    {ids : List OrderId} (before : ids.Sublist (ledger.queue slot))
    (absent : event.passive.m_id ∉ ids) : ids.Sublist (next.queue slot) := by
  cases step with
  | selfTrade => exact sublist_drop before absent
  | full => exact sublist_drop before absent
  | partly => exact before

/-- A trace keeps the records and the order of the orders it does not name. -/
theorem Sweep.frame {side : BookSide} {incoming : OrderRequest} {ledger last : Ledger}
    {remaining final : Quantity} {events : List MatchEvent}
    (sweep : Sweep side incoming ledger remaining events last final) (symbol : SymbolId) :
    (∀ id, ¬(outputsOf symbol side incoming events).Names id →
      last.record id = ledger.record id) ∧
    ∀ (slot : Slot) (ids : List OrderId), ids.Sublist (ledger.queue slot) →
      (∀ id ∈ ids, ¬(outputsOf symbol side incoming events).Names id) →
        ids.Sublist (last.queue slot) := by
  induction sweep with
  | done => exact ⟨fun _ _ => rfl, fun _ _ before _ => before⟩
  | @step ledger next last remaining after final event events first later ih =>
    have split (id : OrderId) :
        (outputsOf symbol side incoming (event :: events)).Names id ↔
          (event.outputs symbol side incoming).Names id ∨
            (outputsOf symbol side incoming events).Names id := Outputs.names_append
    have apart {id : OrderId}
        (unnamed : ¬(outputsOf symbol side incoming (event :: events)).Names id) :
        id ≠ event.passive.m_id := by
      rintro rfl
      exact unnamed ((split _).mpr (Or.inl (event.names_passive symbol side incoming)))
    constructor
    · intro id unnamed
      rw [ih.1 id fun named => unnamed ((split id).mpr (Or.inr named)),
        first.record_of_ne (apart unnamed)]
    · intro slot ids before unnamed
      apply ih.2 slot ids (first.sublist before fun member => apart (unnamed _ member) rfl)
      exact fun id member named => unnamed id member ((split id).mpr (Or.inr named))

/-- A call keeps the record of an order it does not name. -/
theorem LedgerStep.kept {symbol : SymbolId} {ledger next : Ledger} {request : BookRequest}
    {out : Outputs} (step : LedgerStep symbol ledger request out next)
    (fresh : ledger.Fresh request) {id : OrderId} {order : Resting}
    (recorded : ledger.record id = some order) (unnamed : ¬out.Names id) :
    next.record id = some order := by
  cases step with
  | filled sweep =>
    rw [Outputs.names_append, not_or] at unnamed
    rw [(sweep.frame symbol).1 id unnamed.2]
    exact recorded
  | @rested incoming _ _ _ sweep _ _ =>
    rw [Outputs.names_append, not_or] at unnamed
    have apart : id ≠ incoming.m_orderId := by
      rintro rfl
      rw [show ledger.record incoming.m_orderId = none from fresh] at recorded
      contradiction
    rw [record_rest, if_neg apart, (sweep.frame symbol).1 id unnamed.2]
    exact recorded
  | @cancelled other _ _ _ _ =>
    have apart : id ≠ other := by
      rintro rfl
      exact unnamed (Outputs.names_cancelOutputs _ _ _ _ _ _)
    rw [record_drop, if_neg apart]
    exact recorded
  | cancelRejected => exact recorded
  | @rewritten other _ _ _ _ _ _ _ _ =>
    have apart : id ≠ other := by
      rintro rfl
      exact unnamed (Outputs.names_modifyOutputs _ _ _ _ _ _)
    rw [record_rewrite, if_neg apart]
    exact recorded
  | @requeued other _ _ _ _ _ _ _ =>
    have apart : id ≠ other := by
      rintro rfl
      exact unnamed (Outputs.names_modifyOutputs _ _ _ _ _ _)
    rw [requeue, record_rest, if_neg apart, record_drop, if_neg apart]
    exact recorded
  | modifyRejected => exact recorded

/-- A call keeps the order of the orders it does not name. -/
theorem LedgerStep.ordered {symbol : SymbolId} {ledger next : Ledger} {request : BookRequest}
    {out : Outputs} (step : LedgerStep symbol ledger request out next) {slot : Slot}
    {ids : List OrderId} (before : ids.Sublist (ledger.queue slot))
    (unnamed : ∀ id ∈ ids, ¬out.Names id) : ids.Sublist (next.queue slot) := by
  have later {first second : Outputs} (unnamed : ∀ id ∈ ids, ¬(first.append second).Names id) :
      ∀ id ∈ ids, ¬second.Names id :=
    fun id member named => unnamed id member (Outputs.names_append.mpr (Or.inr named))
  cases step with
  | filled sweep => exact (sweep.frame symbol).2 slot ids before (later unnamed)
  | rested sweep _ _ => exact sublist_rest ((sweep.frame symbol).2 slot ids before (later unnamed))
  | @cancelled other _ _ _ _ =>
    have absent : other ∉ ids := fun member =>
      unnamed other member (Outputs.names_cancelOutputs _ _ _ _ _ _)
    exact sublist_drop before absent
  | cancelRejected => exact before
  | rewritten => exact before
  | @requeued other _ _ _ _ _ _ _ =>
    have absent : other ∉ ids := fun member =>
      unnamed other member (Outputs.names_modifyOutputs _ _ _ _ _ _)
    exact sublist_rest (sublist_drop before absent)
  | modifyRejected => exact before

/-! ## Orders of other traders -/

/-- What became of an order, `after`, is explained by its trade confirmations: it is as before,
or one trade reported to its owner took shares from it, and all of them if it is gone. -/
def ChangedByTrade (order : Resting) (after : Option Resting) (trades : List OrderConfirm) : Prop :=
  after = some order ∨ ∃ confirm, trades = [confirm] ∧ confirm.traderId = order.traderId ∧
    confirm.qty ≤ order.quantity ∧
    after = if confirm.qty = order.quantity then none else some (order.fill confirm.qty)

/-- An iteration reports trades of its two orders only. -/
theorem MatchEvent.tradesOf_of_ne {symbol : SymbolId} {side : BookSide} {incoming : OrderRequest}
    {event : MatchEvent} {id : OrderId} (apart : event.passive.m_id ≠ id)
    (old : incoming.m_orderId ≠ id) : (event.outputs symbol side incoming).tradesOf id = [] := by
  cases event with
  | selfTrade => simp [outputs, OrderBook.selfTradeOutputs, Outputs.tradesOf]
  | fill price passive qty =>
    change passive.m_id ≠ id at apart
    simp [outputs, OrderBook.tradeOutputs, Outputs.tradesOf, apart, old]

/-- The trades of a trace are those of its first iteration and those of the rest. -/
theorem tradesOf_cons (symbol : SymbolId) (side : BookSide) (incoming : OrderRequest)
    (event : MatchEvent) (events : List MatchEvent) (id : OrderId) :
    (outputsOf symbol side incoming (event :: events)).tradesOf id =
      (event.outputs symbol side incoming).tradesOf id ++
        (outputsOf symbol side incoming events).tradesOf id :=
  Outputs.tradesOf_append _ _ id

/-- A trace reports no trade of an order that does not rest. -/
theorem Sweep.tradesOf_of_none {side : BookSide} {incoming : OrderRequest} {ledger last : Ledger}
    {remaining final : Quantity} {events : List MatchEvent}
    (sweep : Sweep side incoming ledger remaining events last final) (symbol : SymbolId)
    {id : OrderId} (missing : ledger.record id = none) (old : incoming.m_orderId ≠ id) :
    (outputsOf symbol side incoming events).tradesOf id = [] := by
  induction sweep with
  | done => rfl
  | step first later ih =>
    obtain ⟨order, recorded⟩ := first.passive_recorded
    rw [tradesOf_cons, MatchEvent.tradesOf_of_ne _ old, ih (first.record_none missing)]
    · rfl
    · rintro rfl
      rw [missing] at recorded
      contradiction

/-- A trace changes the order of another trader only by one trade reported to its owner. -/
theorem Sweep.foreign {side : BookSide} {incoming : OrderRequest} {ledger last : Ledger}
    {remaining final : Quantity} {events : List MatchEvent}
    (sweep : Sweep side incoming ledger remaining events last final) (symbol : SymbolId)
    {id : OrderId} {order : Resting} (recorded : ledger.record id = some order)
    (stranger : order.traderId ≠ incoming.m_traderId) (old : incoming.m_orderId ≠ id) :
    ChangedByTrade order (last.record id)
      ((outputsOf symbol side incoming events).tradesOf id) := by
  induction sweep with
  | done => exact Or.inl recorded
  | @step ledger next last remaining after final event events first later ih =>
    rw [tradesOf_cons]
    by_cases here : event.passive.m_id = id
    · cases first with
      | @selfTrade price other found _ front _ own =>
        change other = id at here
        subst here
        rw [front.recorded] at recorded
        cases recorded
        exact absurd own stranger
      | @full price other found positive front _ _ covers =>
        change other = id at here
        subst here
        rw [front.recorded] at recorded
        cases recorded
        have gone : (ledger.drop (side, price) other 0).record other = none := by
          rw [record_drop, if_pos rfl]
        right
        refine ⟨⟨.Trade, other, 0, order.traderId, symbol, price, order.quantity, .UnknownOrder⟩,
          ?_, rfl, UInt32.le_refl _, ?_⟩
        · rw [later.tradesOf_of_none symbol gone old]
          simp [MatchEvent.outputs, OrderBook.tradeOutputs, Outputs.tradesOf, Resting.element, old]
        · rw [if_pos rfl]
          exact later.record_none gone
      | @partly price other found positive front _ _ short =>
        change other = id at here
        subst here
        rw [front.recorded] at recorded
        cases recorded
        obtain ⟨rfl, rfl⟩ := later.of_zero rfl
        right
        refine ⟨⟨.Trade, other, 0, order.traderId, symbol, price, remaining, .UnknownOrder⟩,
          ?_, rfl, UInt32.le_of_lt short, ?_⟩
        · simp [MatchEvent.outputs, OrderBook.tradeOutputs, Outputs.tradesOf, Resting.element, old,
            outputsOf, Outputs.none]
        · rw [if_neg (UInt32.ne_of_lt short), record_reduce, if_pos rfl]
    · rw [MatchEvent.tradesOf_of_ne here old, List.nil_append]
      apply ih
      rw [first.record_of_ne (Ne.symm here)]
      exact recorded

end Ledger

/-- The trader a call comes from. -/
def BookRequest.traderId : BookRequest → TraderId
  | .add incoming => incoming.m_traderId
  | .cancel _ traderId => traderId
  | .modify _ traderId _ _ => traderId

namespace Ledger

/-- A cancel or a modification does not touch the orders of other traders. -/
theorem LedgerStep.authority {symbol : SymbolId} {ledger next : Ledger} {request : BookRequest}
    {out : Outputs} (step : LedgerStep symbol ledger request out next)
    (places : ∀ incoming, request ≠ .add incoming) {id : OrderId} {order : Resting}
    (recorded : ledger.record id = some order) (stranger : order.traderId ≠ request.traderId) :
    next.record id = some order := by
  have apart {other : OrderId} {found : Resting} (present : ledger.record other = some found)
      (own : found.traderId = request.traderId) : id ≠ other := by
    rintro rfl
    rw [recorded] at present
    cases present
    exact stranger own
  cases step with
  | filled => exact absurd rfl (places _)
  | rested => exact absurd rfl (places _)
  | cancelled present own =>
    rw [record_drop, if_neg (apart present own)]
    exact recorded
  | cancelRejected => exact recorded
  | rewritten present own _ _ =>
    rw [record_rewrite, if_neg (apart present own)]
    exact recorded
  | requeued present own _ =>
    rw [requeue, record_rest, if_neg (apart present own), record_drop, if_neg (apart present own)]
    exact recorded
  | modifyRejected => exact recorded

/-- A call changes the order of another trader only by one trade reported to its owner. -/
theorem LedgerStep.foreign {symbol : SymbolId} {ledger next : Ledger} {request : BookRequest}
    {out : Outputs} (step : LedgerStep symbol ledger request out next)
    (fresh : ledger.Fresh request) {id : OrderId} {order : Resting}
    (recorded : ledger.record id = some order) (stranger : order.traderId ≠ request.traderId) :
    ChangedByTrade order (next.record id) (out.tradesOf id) := by
  cases request with
  | cancel => exact Or.inl (step.authority (by simp) recorded stranger)
  | modify => exact Or.inl (step.authority (by simp) recorded stranger)
  | add incoming =>
    have old : incoming.m_orderId ≠ id := by
      rintro rfl
      rw [show ledger.record incoming.m_orderId = none from fresh] at recorded
      contradiction
    have accepted : (OrderBook.acceptedOutputs symbol incoming).tradesOf id = [] := by
      simp [OrderBook.acceptedOutputs, Outputs.tradesOf]
    cases step with
    | filled sweep =>
      rw [Outputs.tradesOf_append, accepted]
      exact sweep.foreign symbol recorded stranger old
    | rested sweep _ _ =>
      rw [Outputs.tradesOf_append, accepted, record_rest, if_neg (Ne.symm old)]
      exact sweep.foreign symbol recorded stranger old

/-- A new order is not rejected. -/
theorem LedgerStep.not_rejected {symbol : SymbolId} {ledger next : Ledger}
    {incoming : OrderRequest} {out : Outputs}
    (step : LedgerStep symbol ledger (.add incoming) out next) {confirm : OrderConfirm}
    (member : confirm ∈ out.confirmsOut) : confirm.type ≠ .Reject := by
  have early (first : confirm ∈ (OrderBook.acceptedOutputs symbol incoming).confirmsOut) :
      confirm.type ≠ .Reject := by
    simp only [OrderBook.acceptedOutputs, List.mem_singleton] at first
    rw [first]
    simp
  have late {events : List MatchEvent} (second : confirm ∈ (outputsOf symbol
      incoming.m_side.book.opposite incoming events).confirmsOut) : confirm.type ≠ .Reject := by
    rcases type_of_mem_outputsOf second with trade | cancel
    · simp [trade]
    · simp [cancel]
  cases step with
  | filled => exact (List.mem_append.mp member).elim early late
  | rested => exact (List.mem_append.mp member).elim early late

end Ledger

namespace OrderBook

/-- A rejected call returns the book as it was and publishes nothing. -/
theorem Good.rejected {book next : OrderBook} (good : book.Good) {request : BookRequest}
    (fresh : book.Fresh request) {out : Outputs} (ran : book.step request = some (next, out))
    {confirm : OrderConfirm} (member : confirm ∈ out.confirmsOut)
    (reject : confirm.type = .Reject) : next = book ∧ out.mdOut = [] := by
  obtain ⟨_, _, step⟩ := good.of_step fresh ran
  generalize next.ledger = nextLedger at step
  -- the branch that rejects: no pointer, or an element of another trader
  have unchanged {id : OrderId} {traderId : TraderId}
      (foreign : ∀ order, book.ledger.record id = some order → order.traderId ≠ traderId)
      (ran : book.step (.cancel id traderId) = some (next, out) ∨
        ∃ newPrice newQty, book.step (.modify id traderId newPrice newQty) = some (next, out)) :
      next = book ∧ out.mdOut = [] := by
    cases mapped : book.orderMap id with
    | none =>
      simp only [OrderBook.step, OrderBook.cancelOrder, OrderBook.modifyOrder, mapped] at ran
      rcases ran with same | ⟨_, _, same⟩ <;> cases same <;> exact ⟨rfl, rfl⟩
    | some elem =>
      obtain ⟨element, detail, read, rfl, details, resting⟩ := good.sound.parts mapped
      have stranger : element.m_traderId ≠ traderId := foreign _ resting
      simp only [OrderBook.step, OrderBook.cancelOrder, OrderBook.modifyOrder, mapped, read, bind,
        Option.bind, if_neg stranger] at ran
      rcases ran with same | ⟨_, _, same⟩ <;> cases same <;> exact ⟨rfl, rfl⟩
  cases request with
  | add incoming => exact absurd reject (step.not_rejected member)
  | cancel id traderId =>
    cases step with
    | cancelled =>
      simp only [cancelOutputs, List.mem_singleton] at member
      rw [member] at reject
      contradiction
    | cancelRejected foreign => exact unchanged foreign (Or.inl ran)
  | modify id traderId newPrice newQty =>
    have accepted {side : Side} (acknowledged : confirm ∈
        (modifyOutputs book.symbol id traderId side newPrice newQty).confirmsOut) : False := by
      simp only [modifyOutputs, List.mem_singleton] at acknowledged
      rw [acknowledged] at reject
      contradiction
    cases step with
    | rewritten => exact (accepted member).elim
    | requeued => exact (accepted member).elim
    | modifyRejected foreign => exact unchanged foreign (Or.inr ⟨newPrice, newQty, ran⟩)

end OrderBook

namespace MatchingEngine

/-- A rejected request leaves every book as it was and publishes nothing. -/
theorem Good.rejected {engine next : MatchingEngine} (good : engine.Good) {request : Request}
    {out : Outputs} (ran : engine.step request = some (next, out)) {confirm : OrderConfirm}
    (member : confirm ∈ out.confirmsOut) (reject : confirm.type = .Reject) :
    next.books = engine.books ∧ out.mdOut = [] := by
  rw [step_eq, onBook, books_advance] at ran
  cases present : engine.books request.symbolId with
  | none =>
    rw [present] at ran
    cases ran
    contradiction
  | some book =>
    have fresh := good.fresh present request
    obtain ⟨nextBook, emitted, stepped, _⟩ := (good.books _ book present).1.step fresh
    simp only [present, stepped, bind, Option.bind, Option.some.injEq, Prod.mk.injEq] at ran
    obtain ⟨rfl, rfl⟩ := ran
    obtain ⟨rfl, silent⟩ :=
      (good.books _ book present).1.rejected fresh stepped member reject
    refine ⟨?_, silent⟩
    rw [← present]
    exact Function.update_eq_self _ _

/-- What a request leaves alone. -/
structure Framed (engine next : MatchingEngine) (request : Request) (out : Outputs) : Prop where
  /-- An order that is not named rests on as it was. -/
  kept : ∀ sym id order, (engine.ledger sym).record id = some order → ¬out.Names id →
    (next.ledger sym).record id = some order
  /-- Two orders of one queue that are not named keep their relative order. -/
  ordered : ∀ sym slot first second, [first, second].Sublist ((engine.ledger sym).queue slot) →
    ¬out.Names first → ¬out.Names second →
      [first, second].Sublist ((next.ledger sym).queue slot)
  /-- An order of another trader changes only by a trade reported to that trader. -/
  foreign : ∀ sym id order, (engine.ledger sym).record id = some order →
    order.traderId ≠ request.traderId →
      Ledger.ChangedByTrade order ((next.ledger sym).record id) (out.tradesOf id)
  /-- A cancel or a modification does not touch the orders of other traders. -/
  authority : (∀ order, request ≠ .onOrder order) → ∀ sym id order,
    (engine.ledger sym).record id = some order → order.traderId ≠ request.traderId →
      (next.ledger sym).record id = some order
  /-- A rejected request leaves every book as it was and publishes nothing. -/
  rejected : ∀ confirm ∈ out.confirmsOut, confirm.type = .Reject →
    next.books = engine.books ∧ out.mdOut = []

/-- Every request to a reachable engine returns and leaves alone what it should. -/
theorem framed_of_reachable (engine : MatchingEngine) (reachable : engine.Reachable)
    (request : Request) :
    ∃ next out, engine.step request = some (next, out) ∧ engine.Framed next request out := by
  have good := reachable.good
  obtain ⟨next, out, ran, step⟩ := good.steps request
  have trader : (request.onBook engine.nextOrderId).traderId = request.traderId := by
    cases request <;> rfl
  refine ⟨next, out, ran, ?_, ?_, ?_, ?_, ?_⟩
  · intro sym id order recorded unnamed
    rcases step.ledger sym with same | ⟨_, _, fresh, ledgerStep⟩
    · rw [same]
      exact recorded
    · exact ledgerStep.kept fresh recorded unnamed
  · intro sym slot first second before firstUnnamed secondUnnamed
    rcases step.ledger sym with same | ⟨_, _, _, ledgerStep⟩
    · rw [same]
      exact before
    · apply ledgerStep.ordered before
      simp [firstUnnamed, secondUnnamed]
  · intro sym id order recorded stranger
    rcases step.ledger sym with same | ⟨_, _, fresh, ledgerStep⟩
    · rw [same]
      exact Or.inl recorded
    · exact ledgerStep.foreign fresh recorded (by rwa [trader])
  · intro places sym id order recorded stranger
    rcases step.ledger sym with same | ⟨_, _, _, ledgerStep⟩
    · rw [same]
      exact recorded
    · refine ledgerStep.authority ?_ recorded (by rwa [trader])
      intro incoming added
      cases request with
      | onOrder order => exact places order rfl
      | onCancel => contradiction
      | onModify => contradiction
  · intro confirm member reject
    exact good.rejected ran member reject

/-- After the sample day, an order that trades with the best bid leaves alone what it should. -/
theorem framed_of_reachable_sample : ∃ engine outs,
    run step (initializeBooks [0, 1]) sampleRequests = some (engine, outs) ∧
    ∃ next out, engine.step (.onOrder (newOrder 5 0 Side.Sell 90 1)) = some (next, out) ∧
      engine.Framed next (.onOrder (newOrder 5 0 Side.Sell 90 1)) out := by
  have few : orderCount sampleRequests < 2 ^ 64 - 1 := by decide
  obtain ⟨engine, outs, ran, _⟩ := run_good [0, 1] sampleRequests few
  have reachable : engine.Reachable := ⟨[0, 1], sampleRequests, outs, few, ran⟩
  exact ⟨engine, outs, ran, framed_of_reachable engine reachable _⟩

end MatchingEngine

end Exchange
