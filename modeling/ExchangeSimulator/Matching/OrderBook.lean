import ExchangeSimulator.Core.Order
import ExchangeSimulator.Library.Heap
import ExchangeSimulator.Library.OrderedMap

/-!
# Price levels and the order book of one instrument

`price_level.hpp`, `order_book.hpp` and `order_book.cpp`. Levels queue pointers
to book elements, and the two unordered maps lead from an order id to the
pointer and to the cached details. An operation returns `none` where the source
would follow a pointer to no element or an iterator past the end; the refinement
proofs show that no reachable book gets there. The two loops of the matcher run
on a count of iterations that the same proofs show to be enough.
-/

namespace Exchange

open Library

/-- A `BookElement*`. -/
abbrev Addr := Nat

/-- One price with its queue of resting orders. -/
structure PriceLevel where
  /-- The price of the level. -/
  mPrice : Price
  /-- Cached sum of the queued quantities. -/
  mTotalQty : Quantity
  /-- Pointers in time priority. -/
  mOrders : List Addr
deriving DecidableEq, Repr

namespace PriceLevel

/-- `PriceLevel(price)`. -/
def new (price : Price) : PriceLevel := ⟨price, 0, []⟩

/-- `isEmpty`. -/
def isEmpty (level : PriceLevel) : Bool := level.mOrders.isEmpty

/-- `addOrder`: to the back of the queue. -/
def addOrder (level : PriceLevel) (heap : Heap BookElement) (order : Addr) :
    Option PriceLevel := do
  let elem ← heap.read order
  some { level with
    mOrders := level.mOrders ++ [order]
    mTotalQty := level.mTotalQty + elem.m_quantity }

/-- `removeOrder`: the first occurrence of the pointer, if there is one. -/
def removeOrder (level : PriceLevel) (heap : Heap BookElement) (order : Addr) :
    Option PriceLevel :=
  if order ∈ level.mOrders then do
    let elem ← heap.read order
    some { level with
      mTotalQty := level.mTotalQty - elem.m_quantity
      mOrders := level.mOrders.erase order }
  else some level

/-- `reduceQty`. -/
def reduceQty (level : PriceLevel) (amt : Quantity) : PriceLevel :=
  { level with mTotalQty := level.mTotalQty - amt }

/-- `peekFirst`; following the null pointer of an empty level has no result. -/
def peekFirst (level : PriceLevel) : Option Addr := level.mOrders.head?

end PriceLevel

/-- `OrderBook::OrderDetails`. -/
structure OrderDetails where
  /-- Side as requested. -/
  side : Side
  /-- Price of the level the order queues in. -/
  price : Price
  /-- Quantity when the order was last placed or modified. -/
  quantity : Quantity
deriving DecidableEq, Repr

/-- The levels of one side in iteration order. -/
abbrev Levels (side : BookSide) := OrderedMap Price PriceLevel side.before

/-- `OrderBook`, with the heap cells of its elements. -/
structure OrderBook where
  /-- Instrument. -/
  symbol : SymbolId
  /-- Buy levels, highest price first. -/
  bids : Levels .Buy
  /-- Sell levels, lowest price first. -/
  asks : Levels .Sell
  /-- Pointer of each resting order. -/
  orderMap : OrderId → Option Addr
  /-- Details of each resting order. -/
  orderDetails : OrderId → Option OrderDetails
  /-- The elements the book has allocated. -/
  heap : Heap BookElement

namespace OrderBook

/-- `OrderBook(sym)`. -/
def new (sym : SymbolId) : OrderBook where
  symbol := sym
  bids := OrderedMap.empty
  asks := OrderedMap.empty
  orderMap := fun _ => none
  orderDetails := fun _ => none
  heap := Heap.empty

/-- `getBestBidPrice`. -/
def getBestBidPrice (book : OrderBook) : Price :=
  match book.bids.begin? with
  | none => 0
  | some (price, _) => price

/-- `getBestBidQty`. -/
def getBestBidQty (book : OrderBook) : Quantity :=
  match book.bids.begin? with
  | none => 0
  | some (_, level) => level.mTotalQty

/-- `getBestAskPrice`. -/
def getBestAskPrice (book : OrderBook) : Price :=
  match book.asks.begin? with
  | none => 0
  | some (price, _) => price

/-- `getBestAskQty`. -/
def getBestAskQty (book : OrderBook) : Quantity :=
  match book.asks.begin? with
  | none => 0
  | some (_, level) => level.mTotalQty

/-- `getBook<S>`. -/
def getBook (book : OrderBook) : (side : BookSide) → Levels side
  | .Buy => book.bids
  | .Sell => book.asks

/-- Writing through the reference `getBook<S>` returns. -/
def setBook (book : OrderBook) : (side : BookSide) → Levels side → OrderBook
  | .Buy, levels => { book with bids := levels }
  | .Sell, levels => { book with asks := levels }

/-- `levels.find(price)` in one side. -/
def level (book : OrderBook) (side : BookSide) (price : Price) : Option PriceLevel :=
  (book.getBook side).find? price

/-- Writing a level through a reference into one side. -/
def setLevel (book : OrderBook) (side : BookSide) (price : Price) (level : PriceLevel) :
    OrderBook :=
  book.setBook side ((book.getBook side).insert price level)

/-- `levels.erase(it)` in one side. -/
def eraseLevel (book : OrderBook) (side : BookSide) (price : Price) : OrderBook :=
  book.setBook side ((book.getBook side).erase price)

/-- `getOrCreateLevel<S>`: the book with the level present, and the level. -/
def getOrCreateLevel (book : OrderBook) (side : BookSide) (price : Price) :
    OrderBook × PriceLevel :=
  match book.level side price with
  | some level => (book, level)
  | none => (book.setLevel side price (PriceLevel.new price), PriceLevel.new price)

/-- `removeFromLevel<S>`: an emptied level is erased. -/
def removeFromLevel (book : OrderBook) (side : BookSide) (elem : Addr) (price : Price) :
    Option OrderBook :=
  match book.level side price with
  | none => some book
  | some level => do
    let level ← level.removeOrder book.heap elem
    if level.isEmpty then some (book.eraseLevel side price)
    else some (book.setLevel side price level)

/-- `insertIntoLevel<S>`. -/
def insertIntoLevel (book : OrderBook) (side : BookSide) (elem : Addr) (price : Price) :
    Option OrderBook := do
  let (book, level) := book.getOrCreateLevel side price
  let level ← level.addOrder book.heap elem
  some (book.setLevel side price level)

/-- `orderMap.erase(id); orderDetails.erase(id); delete elem`. -/
def deleteOrder (book : OrderBook) (id : OrderId) (elem : Addr) : OrderBook :=
  { book with
    orderMap := Function.update book.orderMap id none
    orderDetails := Function.update book.orderDetails id none
    heap := book.heap.free elem }

/-- Whether a level at `levelPrice` trades with an incoming limit. -/
def canTrade (passiveSide : BookSide) (levelPrice limit : Price) : Bool :=
  match passiveSide with
  | .Sell => decide (levelPrice ≤ limit)
  | .Buy => decide (limit ≤ levelPrice)

/-- `std::min` on quantities. -/
def minQty (first second : Quantity) : Quantity := if second < first then second else first

/-- State and emissions of the matcher. -/
structure Matched where
  /-- The book so far. -/
  book : OrderBook
  /-- Shares of the incoming order still unfilled. -/
  remainingQty : Quantity
  /-- What has been emitted. -/
  out : Outputs

/-- The self-trade confirmation and update of the matcher. -/
def selfTradeOutputs (symbol : SymbolId) (passiveSide : BookSide) (levelPrice : Price)
    (passiveOrder : BookElement) : Outputs where
  confirmsOut := [⟨.CancelAck, passiveOrder.m_id, 0, passiveOrder.m_traderId, symbol, 0,
    passiveOrder.m_quantity, .SelfTrade⟩]
  mdOut := [⟨symbol, passiveOrder.m_id, passiveSide.side, levelPrice, passiveOrder.m_quantity,
    .Cancel⟩]

/-- The two trade confirmations and two updates of one fill. -/
def tradeOutputs (symbol : SymbolId) (passiveSide : BookSide) (levelPrice : Price)
    (incoming : OrderRequest) (passiveOrder : BookElement) (tradeQty : Quantity) : Outputs where
  confirmsOut :=
    [⟨.Trade, passiveOrder.m_id, 0, passiveOrder.m_traderId, symbol, levelPrice, tradeQty,
        .UnknownOrder⟩,
      ⟨.Trade, incoming.m_orderId, incoming.m_clientOrderId, incoming.m_traderId, symbol,
        levelPrice, tradeQty, .UnknownOrder⟩]
  mdOut :=
    [⟨symbol, passiveOrder.m_id, passiveSide.side, levelPrice, tradeQty, .Trade⟩,
      ⟨symbol, incoming.m_orderId, incoming.m_side, incoming.m_price, tradeQty, .Trade⟩]

/-- One iteration of the inner loop of `matchAgainst`: the first order of a level. -/
def matchFirst (passiveSide : BookSide) (incoming : OrderRequest) (levelPrice : Price)
    (level : PriceLevel) (book : OrderBook) (remainingQty : Quantity) : Option Matched := do
  let passive ← level.peekFirst
  let passiveOrder ← book.heap.read passive
  if passiveOrder.m_traderId = incoming.m_traderId then
    let level ← level.removeOrder book.heap passive
    some {
      book := (book.setLevel passiveSide levelPrice level).deleteOrder passiveOrder.m_id passive
      remainingQty := remainingQty
      out := selfTradeOutputs book.symbol passiveSide levelPrice passiveOrder }
  else
    let tradeQty := minQty remainingQty passiveOrder.m_quantity
    let left := passiveOrder.m_quantity - tradeQty
    let filled := { book with
      heap := book.heap.write passive { passiveOrder with m_quantity := left } }
    let out := tradeOutputs book.symbol passiveSide levelPrice incoming passiveOrder tradeQty
    if left = 0 then
      -- the element is already at zero when the level subtracts its quantity
      let level ← level.removeOrder filled.heap passive
      some {
        book := (filled.setLevel passiveSide levelPrice level).deleteOrder passiveOrder.m_id passive
        remainingQty := remainingQty - tradeQty
        out := out }
    else
      some {
        book := filled.setLevel passiveSide levelPrice (level.reduceQty tradeQty)
        remainingQty := remainingQty - tradeQty
        out := out }

/-- The inner loop of `matchAgainst`, over the queue of one level. -/
def matchLevel (passiveSide : BookSide) (incoming : OrderRequest) (levelPrice : Price) :
    Nat → OrderBook → Quantity → Option Matched
  | 0, _, _ => none
  | iterations + 1, book, remainingQty => do
    let level ← book.level passiveSide levelPrice
    if 0 < remainingQty ∧ level.isEmpty = false then
      let first ← matchFirst passiveSide incoming levelPrice level book remainingQty
      let rest ← matchLevel passiveSide incoming levelPrice iterations first.book first.remainingQty
      some { rest with out := first.out.append rest.out }
    else some ⟨book, remainingQty, Outputs.none⟩

/-- `if (level.isEmpty()) levels.erase(bestIt)`. -/
def eraseIfEmpty (book : OrderBook) (side : BookSide) (price : Price) : OrderBook :=
  match book.level side price with
  | none => book
  | some level => if level.isEmpty then book.eraseLevel side price else book

/-- The outer loop of `matchAgainst`, over the levels of the passive side. -/
def matchLevels (passiveSide : BookSide) (incoming : OrderRequest) :
    Nat → OrderBook → Quantity → Option Matched
  | 0, _, _ => none
  | iterations + 1, book, remainingQty =>
    if 0 < remainingQty then
      match (book.getBook passiveSide).begin? with
      | none => some ⟨book, remainingQty, Outputs.none⟩
      | some (levelPrice, level) =>
        if canTrade passiveSide levelPrice incoming.m_price then do
          let first ← matchLevel passiveSide incoming levelPrice (level.mOrders.length + 1) book
            remainingQty
          let rest ← matchLevels passiveSide incoming iterations
            (first.book.eraseIfEmpty passiveSide levelPrice) first.remainingQty
          some { rest with out := first.out.append rest.out }
        else some ⟨book, remainingQty, Outputs.none⟩
    else some ⟨book, remainingQty, Outputs.none⟩

/-- `matchAgainst<PassiveSide>`. -/
def matchAgainst (book : OrderBook) (passiveSide : BookSide) (incoming : OrderRequest)
    (remainingQty : Quantity) : Option Matched :=
  matchLevels passiveSide incoming ((book.getBook passiveSide).size + 1) book remainingQty

/-- The acknowledgement of a new order and its `New` update. -/
def acceptedOutputs (symbol : SymbolId) (incoming : OrderRequest) : Outputs where
  confirmsOut := [⟨.NewAck, incoming.m_orderId, incoming.m_clientOrderId, incoming.m_traderId,
    symbol, 0, 0, .UnknownOrder⟩]
  mdOut := [⟨symbol, incoming.m_orderId, incoming.m_side, incoming.m_price, incoming.m_quantity,
    .New⟩]

/-- `addOrder`. The acknowledgement and the `New` update come before any trade. -/
def addOrder (book : OrderBook) (incoming : OrderRequest) : Option (OrderBook × Outputs) := do
  let matched ← book.matchAgainst incoming.m_side.book.opposite incoming incoming.m_quantity
  let out := (acceptedOutputs book.symbol incoming).append matched.out
  let remainingQty := matched.remainingQty
  if remainingQty = 0 then some (matched.book, out)
  else
    let book := matched.book
    let elem := book.heap.next
    let book := { book with
      heap := book.heap.alloc ⟨incoming.m_orderId, incoming.m_traderId, remainingQty⟩
      orderMap := Function.update book.orderMap incoming.m_orderId (some elem)
      orderDetails := Function.update book.orderDetails incoming.m_orderId
        (some ⟨incoming.m_side, incoming.m_price, remainingQty⟩) }
    let book ← book.insertIntoLevel incoming.m_side.book elem incoming.m_price
    some (book, out)

/-- The reject of `cancelOrder` and `modifyOrder`. -/
def rejectOutputs (symbol : SymbolId) (id : OrderId) (traderId : TraderId) : Outputs :=
  ⟨[⟨.Reject, id, 0, traderId, symbol, 0, 0, .UnknownOrder⟩], []⟩

/-- The acknowledgement of a cancel and its update. -/
def cancelOutputs (symbol : SymbolId) (id : OrderId) (traderId : TraderId) (side : Side)
    (price : Price) (qty : Quantity) : Outputs where
  confirmsOut := [⟨.CancelAck, id, 0, traderId, symbol, 0, 0, .UnknownOrder⟩]
  mdOut := [⟨symbol, id, side, price, qty, .Cancel⟩]

/-- `cancelOrder`. -/
def cancelOrder (book : OrderBook) (id : OrderId) (traderId : TraderId) :
    Option (OrderBook × Outputs) :=
  match book.orderMap id with
  | none => some (book, rejectOutputs book.symbol id traderId)
  | some elem => do
    let element ← book.heap.read elem
    if element.m_traderId = traderId then
      let detail ← book.orderDetails id
      let removed ← book.removeFromLevel detail.side.book elem detail.price
      some (removed.deleteOrder id elem,
        cancelOutputs book.symbol id traderId detail.side detail.price element.m_quantity)
    else some (book, rejectOutputs book.symbol id traderId)

/-- The acknowledgement of a modification and its update. -/
def modifyOutputs (symbol : SymbolId) (id : OrderId) (traderId : TraderId) (side : Side)
    (newPrice : Price) (newQty : Quantity) : Outputs where
  confirmsOut := [⟨.ModifyAck, id, 0, traderId, symbol, 0, 0, .UnknownOrder⟩]
  mdOut := [⟨symbol, id, side, newPrice, newQty, .Modify⟩]

/-- `modifyOrder`. The order keeps its place when the price stays and the new
quantity is below the cached one. -/
def modifyOrder (book : OrderBook) (id : OrderId) (traderId : TraderId) (newPrice : Price)
    (newQty : Quantity) : Option (OrderBook × Outputs) :=
  match book.orderMap id with
  | none => some (book, rejectOutputs book.symbol id traderId)
  | some elem => do
    let element ← book.heap.read elem
    if element.m_traderId = traderId then
      let detail ← book.orderDetails id
      let out := modifyOutputs book.symbol id traderId detail.side newPrice newQty
      if detail.price = newPrice ∧ newQty < detail.quantity then
        some ({ book with
          heap := book.heap.write elem { element with m_quantity := newQty }
          orderDetails := Function.update book.orderDetails id
            (some { detail with quantity := newQty }) }, out)
      else
        let removed ← book.removeFromLevel detail.side.book elem detail.price
        let updated := { removed with
          heap := removed.heap.write elem { element with m_quantity := newQty }
          orderDetails := Function.update removed.orderDetails id
            (some { detail with price := newPrice, quantity := newQty }) }
        let inserted ← updated.insertIntoLevel detail.side.book elem newPrice
        some (inserted, out)
    else some (book, rejectOutputs book.symbol id traderId)

end OrderBook

/-- A call on the public interface of a book. -/
inductive BookRequest where
  /-- `addOrder(incoming)`. -/
  | add (incoming : OrderRequest)
  /-- `cancelOrder(id, traderId)`. -/
  | cancel (id : OrderId) (traderId : TraderId)
  /-- `modifyOrder(id, traderId, newPrice, newQty)`. -/
  | modify (id : OrderId) (traderId : TraderId) (newPrice : Price) (newQty : Quantity)
deriving DecidableEq, Repr

/-- One call on a book. -/
def OrderBook.step (book : OrderBook) : BookRequest → Option (OrderBook × Outputs)
  | .add incoming => book.addOrder incoming
  | .cancel id traderId => book.cancelOrder id traderId
  | .modify id traderId newPrice newQty => book.modifyOrder id traderId newPrice newQty

end Exchange
