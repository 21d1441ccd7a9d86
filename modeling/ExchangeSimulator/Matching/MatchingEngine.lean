import ExchangeSimulator.Matching.OrderBook

/-!
# The matching engine

`matching_engine.hpp` and `matching_engine.cpp`: one book for each initialised
instrument and one counter of order ids for all of them. A request for an
instrument without a book is dropped; for a new order the counter moves on.
-/

namespace Exchange

/-- `MatchingEngine`. -/
structure MatchingEngine where
  /-- The book of each initialised instrument. -/
  books : SymbolId → Option OrderBook
  /-- The id of the next new order. -/
  nextOrderId : OrderId

namespace MatchingEngine

/-- `MatchingEngine()` followed by `initialize(symbols)`, each symbol replacing its book. -/
def initializeBooks (symbols : List SymbolId) : MatchingEngine where
  books := symbols.foldl (fun books sym => Function.update books sym (some (OrderBook.new sym)))
    (fun _ => none)
  nextOrderId := 1

/-- `it->second->operation(...)` on the book of an instrument, if there is one. -/
def onBook (engine : MatchingEngine) (symbolId : SymbolId)
    (operation : OrderBook → Option (OrderBook × Outputs)) :
    Option (MatchingEngine × Outputs) :=
  match engine.books symbolId with
  | none => some (engine, Outputs.none)
  | some book => do
    let (book, out) ← operation book
    some ({ engine with books := Function.update engine.books symbolId (some book) }, out)

/-- `onOrder`. -/
def onOrder (engine : MatchingEngine) (order : OrderRequest) :
    Option (MatchingEngine × Outputs) :=
  let order := { order with m_orderId := engine.nextOrderId }
  let engine := { engine with nextOrderId := engine.nextOrderId + 1 }
  engine.onBook order.m_symbolId (fun book => book.addOrder order)

/-- `onCancel`. -/
def onCancel (engine : MatchingEngine) (orderId : OrderId) (symbolId : SymbolId)
    (traderId : TraderId) : Option (MatchingEngine × Outputs) :=
  engine.onBook symbolId (fun book => book.cancelOrder orderId traderId)

/-- `onModify`. -/
def onModify (engine : MatchingEngine) (orderId : OrderId) (symbolId : SymbolId)
    (traderId : TraderId) (newPrice : Price) (newQty : Quantity) :
    Option (MatchingEngine × Outputs) :=
  engine.onBook symbolId (fun book => book.modifyOrder orderId traderId newPrice newQty)

/-- `getBestBidPrice`. -/
def getBestBidPrice (engine : MatchingEngine) (symbolId : SymbolId) : Price :=
  match engine.books symbolId with
  | none => 0
  | some book => book.getBestBidPrice

/-- `getBestBidQty`. -/
def getBestBidQty (engine : MatchingEngine) (symbolId : SymbolId) : Quantity :=
  match engine.books symbolId with
  | none => 0
  | some book => book.getBestBidQty

/-- `getBestAskPrice`. -/
def getBestAskPrice (engine : MatchingEngine) (symbolId : SymbolId) : Price :=
  match engine.books symbolId with
  | none => 0
  | some book => book.getBestAskPrice

/-- `getBestAskQty`. -/
def getBestAskQty (engine : MatchingEngine) (symbolId : SymbolId) : Quantity :=
  match engine.books symbolId with
  | none => 0
  | some book => book.getBestAskQty

end MatchingEngine

/-- A call on the public interface of the engine. -/
inductive Request where
  /-- `onOrder(order)`. -/
  | onOrder (order : OrderRequest)
  /-- `onCancel(orderId, symbolId, traderId)`. -/
  | onCancel (orderId : OrderId) (symbolId : SymbolId) (traderId : TraderId)
  /-- `onModify(orderId, symbolId, traderId, newPrice, newQty)`. -/
  | onModify (orderId : OrderId) (symbolId : SymbolId) (traderId : TraderId) (newPrice : Price)
      (newQty : Quantity)
deriving DecidableEq, Repr

/-- One call on the engine. -/
def MatchingEngine.step (engine : MatchingEngine) : Request → Option (MatchingEngine × Outputs)
  | .onOrder order => engine.onOrder order
  | .onCancel orderId symbolId traderId => engine.onCancel orderId symbolId traderId
  | .onModify orderId symbolId traderId newPrice newQty =>
    engine.onModify orderId symbolId traderId newPrice newQty

end Exchange
