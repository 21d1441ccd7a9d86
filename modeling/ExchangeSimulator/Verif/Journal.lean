import ExchangeSimulator.Verif.Engine

/-!
# The journal of live orders

What an outsider can know of the books: for every instrument and order id, the
owner, side, price and remaining quantity of a live order. The incoming order is
live from its acknowledgement on, while it still trades. `Fill` is one iteration
of the matcher in these terms, `Entry` a whole call, and both carry what is
emitted. Every request to the engine is an entry or finds no book, so an
observer of the emissions has to be checked against the few rules of `Entry`
only.
-/

namespace Exchange

open Library

/-- A live order as its confirmations describe it. -/
structure LiveOrder where
  /-- Owner. -/
  traderId : TraderId
  /-- Side as requested. -/
  side : Side
  /-- Last accepted limit price. -/
  price : Price
  /-- Shares left. -/
  remaining : Quantity
deriving DecidableEq, Repr

namespace LiveOrder

/-- The incoming order with a number of shares left. -/
def ofRequest (incoming : OrderRequest) (remaining : Quantity) : LiveOrder :=
  ⟨incoming.m_traderId, incoming.m_side, incoming.m_price, remaining⟩

/-- The incoming order, live as long as it has shares left. -/
def arriving (incoming : OrderRequest) (remaining : Quantity) : Option LiveOrder :=
  if remaining = 0 then none else some (ofRequest incoming remaining)

/-- The order after a trade, dead when nothing is left. -/
def trade (order : LiveOrder) (qty : Quantity) : Option LiveOrder :=
  if order.remaining - qty = 0 then none
  else some { order with remaining := order.remaining - qty }

/-- The order after an accepted modification. -/
def modify (order : LiveOrder) (newPrice : Price) (newQty : Quantity) : LiveOrder :=
  { order with price := newPrice, remaining := newQty }

/-- The element a passive order is matched through. -/
def element (order : LiveOrder) (id : OrderId) : BookElement :=
  ⟨id, order.traderId, order.remaining⟩

/-- A trade of the incoming order leaves it arriving with fewer shares. -/
theorem trade_ofRequest (incoming : OrderRequest) (remaining qty : Quantity) :
    (ofRequest incoming remaining).trade qty = arriving incoming (remaining - qty) := rfl

/-- A trade of all shares leaves nothing. -/
theorem trade_remaining (order : LiveOrder) : order.trade order.remaining = none :=
  if_pos (UInt32.sub_self _)

end LiveOrder

/-- What the journal keeps of a resting order. -/
def Resting.live (order : Resting) : LiveOrder :=
  ⟨order.traderId, order.side, order.price, order.quantity⟩

/-- The live orders of every instrument. -/
abbrev Live := SymbolId → OrderId → Option LiveOrder

/-- Write or erase a live order. -/
def Live.set (live : Live) (symbol : SymbolId) (id : OrderId) (order : Option LiveOrder) : Live :=
  Function.update live symbol (Function.update (live symbol) id order)

/-- Reading a live order after one was written. -/
theorem Live.set_apply (live : Live) (symbol other : SymbolId) (id someId : OrderId)
    (order : Option LiveOrder) : live.set symbol id order other someId =
      if other = symbol ∧ someId = id then order else live other someId := by
  simp only [set, Function.update_apply]
  by_cases here : other = symbol
  · subst here
    simp only [if_true, true_and, Function.update_apply]
  · simp only [here, false_and, if_false]

/-- Another order of the same instrument. -/
theorem Live.set_of_ne (live : Live) (symbol : SymbolId) {id other : OrderId}
    (order : Option LiveOrder) (apart : other ≠ id) :
    live.set symbol id order symbol other = live symbol other := by
  rw [set_apply, if_neg]
  rintro ⟨_, same⟩
  exact apart same

/-- Writing an order of the instrument whose orders were just given. -/
theorem Live.set_update (live : Live) (symbol : SymbolId) (orders : OrderId → Option LiveOrder)
    (id : OrderId) (order : Option LiveOrder) :
    Live.set (Function.update live symbol orders) symbol id order =
      Function.update live symbol (Function.update orders id order) := by
  simp only [set, Function.update_self, Function.update_idem]

/-- One iteration of the matcher on the live orders. -/
inductive Fill (symbol : SymbolId) (incoming : OrderRequest) (live : Live) :
    Outputs → Live → Prop where
  | traded {id : OrderId} {passive : LiveOrder} {remaining qty : Quantity}
      (resting : live symbol id = some passive)
      (arriving : live symbol incoming.m_orderId = some (.ofRequest incoming remaining))
      (apart : id ≠ incoming.m_orderId) (foreign : passive.traderId ≠ incoming.m_traderId)
      (opposite : passive.side.book = incoming.m_side.book.opposite)
      (crosses : OrderBook.canTrade incoming.m_side.book.opposite passive.price
        incoming.m_price = true)
      (covered : qty ≤ passive.remaining) (within : qty ≤ remaining) :
      Fill symbol incoming live
        (OrderBook.tradeOutputs symbol incoming.m_side.book.opposite passive.price incoming
          (passive.element id) qty)
        ((live.set symbol id (passive.trade qty)).set symbol incoming.m_orderId
          ((LiveOrder.ofRequest incoming remaining).trade qty))
  | selfTraded {id : OrderId} {passive : LiveOrder} (resting : live symbol id = some passive)
      (apart : id ≠ incoming.m_orderId) (own : passive.traderId = incoming.m_traderId) :
      Fill symbol incoming live
        (OrderBook.selfTradeOutputs symbol incoming.m_side.book.opposite passive.price
          (passive.element id))
        (live.set symbol id none)

/-- The matcher on the live orders. -/
inductive Fills (symbol : SymbolId) (incoming : OrderRequest) : Live → Outputs → Live → Prop where
  | done (live : Live) : Fills symbol incoming live Outputs.none live
  | step {live next last : Live} {out later : Outputs} (first : Fill symbol incoming live out next)
      (rest : Fills symbol incoming next later last) :
      Fills symbol incoming live (out.append later) last

/-- One call on the live orders. -/
inductive Entry (symbol : SymbolId) (live : Live) : BookRequest → Outputs → Live → Prop where
  | placed {incoming : OrderRequest} {out : Outputs} {next : Live}
      (missing : live symbol incoming.m_orderId = none)
      (fills : Fills symbol incoming (live.set symbol incoming.m_orderId
        (LiveOrder.arriving incoming incoming.m_quantity)) out next) :
      Entry symbol live (.add incoming)
        ((OrderBook.acceptedOutputs symbol incoming).append out) next
  | cancelled {id : OrderId} {traderId : TraderId} {order : LiveOrder}
      (resting : live symbol id = some order) (own : order.traderId = traderId) :
      Entry symbol live (.cancel id traderId)
        (OrderBook.cancelOutputs symbol id traderId order.side order.price order.remaining)
        (live.set symbol id none)
  | modified {id : OrderId} {traderId : TraderId} {newPrice : Price} {newQty : Quantity}
      {order : LiveOrder} (resting : live symbol id = some order)
      (own : order.traderId = traderId) :
      Entry symbol live (.modify id traderId newPrice newQty)
        (OrderBook.modifyOutputs symbol id traderId order.side newPrice newQty)
        (live.set symbol id (some (order.modify newPrice newQty)))
  | rejected {request : BookRequest} {id : OrderId} {traderId : TraderId} :
      Entry symbol live request (OrderBook.rejectOutputs symbol id traderId) live

namespace Ledger

/-- The live orders of a ledger. -/
def live (ledger : Ledger) (id : OrderId) : Option LiveOrder := (ledger.record id).map Resting.live

/-- The live orders of a ledger and the incoming order. -/
def liveWith (ledger : Ledger) (incoming : OrderRequest) (remaining : Quantity) :
    OrderId → Option LiveOrder :=
  Function.update ledger.live incoming.m_orderId (LiveOrder.arriving incoming remaining)

/-- The live order of a record. -/
theorem live_of_record {ledger : Ledger} {id : OrderId} {order : Resting}
    (recorded : ledger.record id = some order) : ledger.live id = some order.live := by
  rw [live, recorded]
  rfl

/-- Live orders after a record was written or erased. -/
theorem live_of_records {ledger next : Ledger} {id : OrderId} {order : Option Resting}
    (records : ∀ other, next.record other = if other = id then order else ledger.record other) :
    next.live = Function.update ledger.live id (order.map Resting.live) := by
  funext other
  rw [live, records, Function.update_apply]
  split <;> rfl

/-- Live orders after an order left. -/
theorem live_drop (ledger : Ledger) (slot : Slot) (id : OrderId) (amount : Quantity) :
    (ledger.drop slot id amount).live = Function.update ledger.live id none :=
  live_of_records fun other => record_drop ledger slot id other amount

/-- Live orders after an order came to rest. -/
theorem live_rest (ledger : Ledger) (id : OrderId) (order : Resting) :
    (ledger.rest id order).live = Function.update ledger.live id (some order.live) :=
  live_of_records fun other => record_rest ledger id other order

/-- Live orders after a partial fill. -/
theorem live_reduce (ledger : Ledger) (id : OrderId) (order : Resting) (qty : Quantity) :
    (ledger.reduce id order qty).live =
      Function.update ledger.live id (some (order.fill qty).live) :=
  live_of_records fun other => record_reduce ledger id other qty order

/-- Live orders after a modification in place. -/
theorem live_rewrite (ledger : Ledger) (id : OrderId) (order : Resting) :
    (ledger.rewrite id order).live = Function.update ledger.live id (some order.live) :=
  live_of_records fun other => record_rewrite ledger id other order

/-- A resting order other than the incoming one. -/
theorem liveWith_of_record {ledger : Ledger} {incoming : OrderRequest} {remaining : Quantity}
    {id : OrderId} {order : Resting} (recorded : ledger.record id = some order)
    (apart : id ≠ incoming.m_orderId) :
    ledger.liveWith incoming remaining id = some order.live := by
  rw [liveWith, Function.update_of_ne apart]
  exact live_of_record recorded

/-- The incoming order while it has shares left. -/
theorem liveWith_incoming {ledger : Ledger} {incoming : OrderRequest} {remaining : Quantity}
    (positive : 0 < remaining) : ledger.liveWith incoming remaining incoming.m_orderId =
      some (LiveOrder.ofRequest incoming remaining) := by
  rw [liveWith, Function.update_self, LiveOrder.arriving,
    if_neg (UInt32.pos_iff_ne_zero.mp positive)]

/-- A trade of the incoming order with a resting one is a fill of the live orders. -/
theorem fill_traded {ledger : Ledger} {incoming : OrderRequest} {remaining qty : Quantity}
    {id : OrderId} {order : Resting} (symbol : SymbolId) (base : Live)
    (recorded : ledger.record id = some order) (apart : id ≠ incoming.m_orderId)
    (positive : 0 < remaining) (foreign : order.traderId ≠ incoming.m_traderId)
    (waits : order.slot = (incoming.m_side.book.opposite, order.price))
    (crosses : OrderBook.canTrade incoming.m_side.book.opposite order.price incoming.m_price = true)
    (covered : qty ≤ order.quantity) (within : qty ≤ remaining) :
    Fill symbol incoming (Function.update base symbol (ledger.liveWith incoming remaining))
      (OrderBook.tradeOutputs symbol incoming.m_side.book.opposite order.price incoming
        (order.element id) qty)
      (Function.update base symbol (Function.update
        (Function.update ledger.live id (order.live.trade qty)) incoming.m_orderId
          (LiveOrder.arriving incoming (remaining - qty)))) := by
  have resting : Function.update base symbol (ledger.liveWith incoming remaining) symbol id =
      some order.live := by
    rw [Function.update_self]
    exact liveWith_of_record recorded apart
  have arriving : Function.update base symbol (ledger.liveWith incoming remaining) symbol
      incoming.m_orderId = some (LiveOrder.ofRequest incoming remaining) := by
    rw [Function.update_self]
    exact liveWith_incoming positive
  have fill := Fill.traded resting arriving apart foreign (congrArg Prod.fst waits) crosses
    covered within
  rw [Live.set_update, Live.set_update, LiveOrder.trade_ofRequest, liveWith,
    Function.update_comm apart.symm, Function.update_idem] at fill
  exact fill

/-- An iteration of the matcher is a fill of the live orders. -/
theorem MatchStep.fill {incoming : OrderRequest} {ledger next : Ledger}
    {remaining after : Quantity} {event : MatchEvent}
    (step : MatchStep incoming.m_side.book.opposite incoming ledger remaining event next after)
    (filed : ledger.Filed) (missing : ledger.record incoming.m_orderId = none)
    (symbol : SymbolId) (base : Live) :
    Fill symbol incoming (Function.update base symbol (ledger.liveWith incoming remaining))
      (event.outputs symbol incoming.m_side.book.opposite incoming)
      (Function.update base symbol (next.liveWith incoming after)) := by
  have distinct {id : OrderId} {order : Resting} (recorded : ledger.record id = some order) :
      id ≠ incoming.m_orderId := by
    rintro rfl
    rw [missing] at recorded
    contradiction
  cases step with
  | @selfTrade price id order _ front _ own =>
    have apart := distinct front.recorded
    have waits : order.price = price := congrArg Prod.snd (front.slot_eq filed)
    subst waits
    have resting : Function.update base symbol (ledger.liveWith incoming remaining) symbol id =
        some order.live := by
      rw [Function.update_self]
      exact liveWith_of_record front.recorded apart
    have fill := Fill.selfTraded resting apart own
    rw [Live.set_update, liveWith, Function.update_comm apart.symm, ← live_drop] at fill
    exact fill
  | @full price id order positive front crosses foreign covers =>
    have waits : order.price = price := congrArg Prod.snd (front.slot_eq filed)
    subst waits
    have fill := fill_traded symbol base front.recorded (distinct front.recorded) positive foreign
      (front.slot_eq filed) crosses (UInt32.le_refl _) covers
    rw [show order.live.trade order.quantity = none from LiveOrder.trade_remaining _,
      ← live_drop] at fill
    exact fill
  | @partly price id order positive front crosses foreign short =>
    have waits : order.price = price := congrArg Prod.snd (front.slot_eq filed)
    subst waits
    have fill := fill_traded symbol base front.recorded (distinct front.recorded) positive foreign
      (front.slot_eq filed) crosses (UInt32.le_of_lt short) (UInt32.le_refl _)
    have left : order.live.trade remaining = some (order.fill remaining).live :=
      if_neg (sub_ne_zero_of_lt short)
    rw [left, ← live_reduce, UInt32.sub_self] at fill
    exact fill

/-- The matcher fills the live orders. -/
theorem Sweep.fills {incoming : OrderRequest} {ledger last : Ledger} {remaining final : Quantity}
    {events : List MatchEvent}
    (sweep : Sweep incoming.m_side.book.opposite incoming ledger remaining events last final)
    (filed : ledger.Filed) (missing : ledger.record incoming.m_orderId = none)
    (symbol : SymbolId) (base : Live) :
    Fills symbol incoming (Function.update base symbol (ledger.liveWith incoming remaining))
      (outputsOf symbol incoming.m_side.book.opposite incoming events)
      (Function.update base symbol (last.liveWith incoming final)) := by
  induction sweep with
  | done => exact Fills.done _
  | step first _ ih =>
    exact Fills.step (first.fill filed missing symbol base)
      (ih (first.filed filed) (first.record_none missing))

/-- A call is an entry of the live orders. -/
theorem LedgerStep.entry {symbol : SymbolId} {ledger next : Ledger} {request : BookRequest}
    {out : Outputs} (step : LedgerStep symbol ledger request out next) (filed : ledger.Filed)
    (fresh : ledger.Fresh request) {live : Live} (here : live symbol = ledger.live) :
    Entry symbol live request out (Function.update live symbol next.live) := by
  have placed {incoming : OrderRequest} {events : List MatchEvent} {last : Ledger}
      {final : Quantity} (missing : ledger.record incoming.m_orderId = none)
      (sweep : Sweep incoming.m_side.book.opposite incoming ledger incoming.m_quantity events
        last final) :
      Entry symbol live (.add incoming) ((OrderBook.acceptedOutputs symbol incoming).append
        (outputsOf symbol incoming.m_side.book.opposite incoming events))
        (Function.update live symbol (last.liveWith incoming final)) := by
    refine Entry.placed ?_ ?_
    · rw [here, Ledger.live, missing]
      rfl
    · have fills := sweep.fills filed missing symbol live
      rw [liveWith, ← here] at fills
      exact fills
  have rest {id : OrderId} {order : Resting} (recorded : ledger.record id = some order) :
      live symbol id = some order.live := by
    rw [here]
    exact live_of_record recorded
  have unchanged : Function.update live symbol ledger.live = live := by
    rw [← here, Function.update_eq_self]
  cases step with
  | @filled incoming _ _ sweep =>
    have entry := placed fresh sweep
    have gone : next.live incoming.m_orderId = none := by
      rw [Ledger.live, sweep.record_none fresh]
      rfl
    rw [liveWith, show LiveOrder.arriving incoming 0 = none from rfl, ← gone,
      Function.update_eq_self] at entry
    exact entry
  | @rested incoming _ last remaining sweep positive _ =>
    have entry := placed fresh sweep
    rw [liveWith, LiveOrder.arriving,
    if_neg (UInt32.pos_iff_ne_zero.mp positive)] at entry
    rw [live_rest]
    exact entry
  | @cancelled id traderId order recorded own =>
    have entry : Entry symbol live (.cancel id traderId) _ _ :=
      Entry.cancelled (rest recorded) own
    rw [Live.set, here, ← live_drop] at entry
    exact entry
  | cancelRejected =>
    rw [unchanged]
    exact Entry.rejected
  | @rewritten id traderId newPrice newQty order recorded own _ _ =>
    have entry : Entry symbol live (.modify id traderId newPrice newQty) _ _ :=
      Entry.modified (rest recorded) own
    rw [Live.set, here] at entry
    rw [live_rewrite]
    exact entry
  | @requeued id traderId newPrice newQty order recorded own _ =>
    have entry : Entry symbol live (.modify id traderId newPrice newQty) _ _ :=
      Entry.modified (rest recorded) own
    rw [Live.set, here] at entry
    rw [requeue, live_rest, live_drop, Function.update_idem]
    exact entry
  | modifyRejected =>
    rw [unchanged]
    exact Entry.rejected

end Ledger

namespace MatchingEngine

/-- The live orders of an engine. -/
def live (engine : MatchingEngine) : Live := fun sym => (engine.ledger sym).live

/-- No order is live in a fresh engine. -/
theorem live_initializeBooks (symbols : List SymbolId) (sym : SymbolId) (id : OrderId) :
    (initializeBooks symbols).live sym id = none := by
  rw [live, ledger]
  cases present : (initializeBooks symbols).books sym with
  | none => rfl
  | some book =>
    rw [books_initializeBooks symbols sym book present]
    rfl

/-- A request without a book does nothing, and every other is an entry of the live orders. -/
theorem EngineStep.entry {engine next : MatchingEngine} {request : Request} {out : Outputs}
    (step : EngineStep engine request out next) :
    (out = Outputs.none ∧ next.live = engine.live) ∨
      Entry request.symbolId engine.live (request.onBook engine.nextOrderId) out next.live := by
  cases step with
  | dropped =>
    left
    refine ⟨rfl, ?_⟩
    funext sym
    simp only [MatchingEngine.live, MatchingEngine.ledger, books_advance]
  | @routed book nextBook _ present good _ _ _ fresh ledgerStep =>
    right
    have here : engine.live request.symbolId = book.ledger.live := by
      rw [MatchingEngine.live, ledger_of_books present]
    have entry := ledgerStep.entry good.filed fresh here
    have after : MatchingEngine.live { engine.advance request with
        books := Function.update engine.books request.symbolId (some nextBook) } =
          Function.update engine.live request.symbolId nextBook.ledger.live := by
      funext sym
      by_cases same : sym = request.symbolId
      · subst same
        simp only [MatchingEngine.live, MatchingEngine.ledger, Function.update_self]
      · simp only [MatchingEngine.live, MatchingEngine.ledger, Function.update_of_ne same]
    rw [after]
    exact entry

end MatchingEngine

end Exchange
