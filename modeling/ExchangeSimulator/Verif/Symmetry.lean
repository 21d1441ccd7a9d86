import ExchangeSimulator.Verif.Operations
import Mathlib.Algebra.Group.End

/-!
# Symmetries of the book

A book does not care which side is which, what the order ids are, or what time
it is. `Symmetry` turns the book over (bids and asks change places, prices are
counted from the top and recorded sides change), renames order ids and rewrites
timestamps. Each operation commutes with each symmetry: what it does to the
image of a book and of a request is the image of what it does to the book and
the request, outputs included. This is proved from the primitives up, through
the two loops of the matcher, without assuming anything of the book.
-/

namespace Exchange

open Library

/-- `oppositeSide`. -/
def oppositeSide (side : Side) : Side := if side = Side.Buy then Side.Sell else Side.Buy

/-- Write an element and its cached details, as `modifyOrder` does. -/
def OrderBook.rewriteOrder (book : OrderBook) (elem : Addr) (id : OrderId) (element : BookElement)
    (detail : OrderDetails) : OrderBook :=
  { book with
    heap := book.heap.write elem element
    orderDetails := Function.update book.orderDetails id (some detail) }

/-- Whether the sides change places, the new id of each order, the new time of each request. -/
structure Symmetry where
  /-- Bids become asks. -/
  turned : Bool
  /-- Order ids are renamed. -/
  ids : Equiv.Perm OrderId
  /-- Timestamps are rewritten. -/
  clock : Timestamp → Timestamp

/-- Bids and asks change places. -/
def Symmetry.mirror : Symmetry := ⟨true, 1, id⟩

/-- Order ids are renamed. -/
def Symmetry.rename (ids : Equiv.Perm OrderId) : Symmetry := ⟨false, ids, id⟩

/-- Timestamps are rewritten. -/
def Symmetry.retime (clock : Timestamp → Timestamp) : Symmetry := ⟨false, 1, clock⟩

/-- A price counted from the top, `2^32 - 1 - p`. -/
def reflect (price : Price) : Price := 4294967295 - price

/-- The reflected price as a number. -/
theorem toNat_reflect (price : Price) : (reflect price).toNat = 4294967295 - price.toNat := by
  rw [reflect, UInt32.toNat_sub_of_le]
  · rfl
  · rw [UInt32.le_iff_toNat_le]
    exact Nat.le_of_lt_succ price.toNat_lt

/-- Counting from the top twice. -/
theorem reflect_reflect (price : Price) : reflect (reflect price) = price := by
  have small := price.toNat_lt
  rw [← UInt32.toNat_inj, toNat_reflect, toNat_reflect]
  omega

/-- Counting from the top turns the order over. -/
theorem reflect_lt_iff (first second : Price) :
    reflect first < reflect second ↔ second < first := by
  have firstSmall := first.toNat_lt
  have secondSmall := second.toNat_lt
  rw [UInt32.lt_iff_toNat_lt, UInt32.lt_iff_toNat_lt, toNat_reflect, toNat_reflect]
  omega

namespace Symmetry

variable (sym : Symmetry)

/-- The image of a side of the book. -/
def bookSide (side : BookSide) : BookSide := if sym.turned then side.opposite else side

/-- The image of a recorded side. -/
def side (side : Side) : Side := if sym.turned then oppositeSide side else side

/-- The image of a price. -/
def price : Equiv.Perm Price where
  toFun price := if sym.turned then reflect price else price
  invFun price := if sym.turned then reflect price else price
  left_inv price := by
    split
    · exact reflect_reflect price
    · rfl
  right_inv price := by
    split
    · exact reflect_reflect price
    · rfl

/-- A better price stays better on the image of its side. -/
def prices (side : BookSide) : side.before ≃r (sym.bookSide side).before where
  toEquiv := sym.price
  map_rel_iff' := by
    intro first second
    obtain ⟨turned, ids, clock⟩ := sym
    cases turned with
    | false => cases side <;> exact Iff.rfl
    | true =>
      cases side with
      | Buy => exact reflect_lt_iff first second
      | Sell => exact reflect_lt_iff second first

/-- The image of a resting order. -/
def element (element : BookElement) : BookElement :=
  { element with m_id := sym.ids element.m_id }

/-- The image of a level, with the same queue of pointers. -/
def level (level : PriceLevel) : PriceLevel := { level with mPrice := sym.price level.mPrice }

/-- The image of cached details. -/
def details (details : OrderDetails) : OrderDetails :=
  { details with side := sym.side details.side, price := sym.price details.price }

/-- The image of a book. -/
def book (book : OrderBook) : OrderBook where
  symbol := book.symbol
  bids :=
    match sym with
    | ⟨false, ids, clock⟩ =>
      book.bids.image (prices ⟨false, ids, clock⟩ .Buy) (level ⟨false, ids, clock⟩)
    | ⟨true, ids, clock⟩ =>
      book.asks.image (prices ⟨true, ids, clock⟩ .Sell) (level ⟨true, ids, clock⟩)
  asks :=
    match sym with
    | ⟨false, ids, clock⟩ =>
      book.asks.image (prices ⟨false, ids, clock⟩ .Sell) (level ⟨false, ids, clock⟩)
    | ⟨true, ids, clock⟩ =>
      book.bids.image (prices ⟨true, ids, clock⟩ .Buy) (level ⟨true, ids, clock⟩)
  orderMap id := book.orderMap (sym.ids.symm id)
  orderDetails id := (book.orderDetails (sym.ids.symm id)).map sym.details
  heap := book.heap.map sym.element

/-- The image of a request as the engine hands it to a book. -/
def order (order : OrderRequest) : OrderRequest :=
  { order with
    m_orderId := sym.ids order.m_orderId
    m_price := sym.price order.m_price
    m_timestamp := sym.clock order.m_timestamp
    m_side := sym.side order.m_side }

/-- The image of a call. -/
def request : BookRequest → BookRequest
  | .add incoming => .add (sym.order incoming)
  | .cancel id traderId => .cancel (sym.ids id) traderId
  | .modify id traderId newPrice newQty =>
    .modify (sym.ids id) traderId (sym.price newPrice) newQty

/-- The image of a confirmation: only a trade carries a price. -/
def confirm (confirm : OrderConfirm) : OrderConfirm :=
  { confirm with
    orderId := sym.ids confirm.orderId
    price := if confirm.type = .Trade then sym.price confirm.price else confirm.price }

/-- The image of a market data update. -/
def update (update : MdUpdate) : MdUpdate :=
  { update with
    orderId := sym.ids update.orderId
    side := sym.side update.side
    price := sym.price update.price }

/-- The image of what a call emits. -/
def outputs (out : Outputs) : Outputs :=
  ⟨out.confirmsOut.map sym.confirm, out.mdOut.map sym.update⟩

/-- The image of the state of the matcher. -/
def matched (matched : OrderBook.Matched) : OrderBook.Matched :=
  ⟨sym.book matched.book, matched.remainingQty, sym.outputs matched.out⟩

/-- The image of the result of a call. -/
def result (result : OrderBook × Outputs) : OrderBook × Outputs :=
  (sym.book result.1, sym.outputs result.2)

/-! ## Primitives -/

/-- The side of the book an image selects. -/
theorem side_book (side : Side) : (sym.side side).book = sym.bookSide side.book := by
  obtain ⟨turned, ids, clock⟩ := sym
  cases turned with
  | false => rfl
  | true =>
    by_cases buy : side = Side.Buy
    · subst buy
      rfl
    · simp only [Symmetry.side, bookSide, oppositeSide, Side.book, if_neg buy, if_true]
      rfl

/-- The opposite side of an image. -/
theorem bookSide_opposite (side : BookSide) :
    sym.bookSide side.opposite = (sym.bookSide side).opposite := by
  obtain ⟨turned, ids, clock⟩ := sym
  cases turned <;> cases side <;> rfl

/-- The recorded side of an image. -/
theorem bookSide_side (side : BookSide) : (sym.bookSide side).side = sym.side side.side := by
  obtain ⟨turned, ids, clock⟩ := sym
  cases turned <;> cases side <;> rfl

/-- The levels of one side of an image. -/
theorem getBook_book (book : OrderBook) (side : BookSide) :
    (sym.book book).getBook (sym.bookSide side) =
      (book.getBook side).image (sym.prices side) sym.level := by
  obtain ⟨turned, ids, clock⟩ := sym
  cases turned <;> cases side <;> rfl

/-- Replacing the levels of one side of an image. -/
theorem setBook_book (book : OrderBook) (side : BookSide) (levels : Levels side) :
    (sym.book book).setBook (sym.bookSide side) (levels.image (sym.prices side) sym.level) =
      sym.book (book.setBook side levels) := by
  obtain ⟨turned, ids, clock⟩ := sym
  cases turned <;> cases side <;> rfl

/-- A level of an image. -/
theorem level_book (book : OrderBook) (side : BookSide) (price : Price) :
    (sym.book book).level (sym.bookSide side) (sym.price price) =
      (book.level side price).map sym.level := by
  rw [OrderBook.level, getBook_book]
  exact OrderedMap.find?_image (sym.prices side) sym.level (book.getBook side) price

/-- Writing a level of an image. -/
theorem setLevel_book (book : OrderBook) (side : BookSide) (price : Price) (level : PriceLevel) :
    (sym.book book).setLevel (sym.bookSide side) (sym.price price) (sym.level level) =
      sym.book (book.setLevel side price level) := by
  rw [OrderBook.setLevel, OrderBook.setLevel, ← setBook_book, getBook_book, OrderedMap.image_insert]
  rfl

/-- Erasing a level of an image. -/
theorem eraseLevel_book (book : OrderBook) (side : BookSide) (price : Price) :
    (sym.book book).eraseLevel (sym.bookSide side) (sym.price price) =
      sym.book (book.eraseLevel side price) := by
  rw [OrderBook.eraseLevel, OrderBook.eraseLevel, ← setBook_book, getBook_book,
    OrderedMap.image_erase]
  rfl

/-- A pointer in the image of a book. -/
theorem orderMap_book (book : OrderBook) (id : OrderId) :
    (sym.book book).orderMap (sym.ids id) = book.orderMap id := by
  change book.orderMap (sym.ids.symm (sym.ids id)) = _
  rw [Equiv.symm_apply_apply]

/-- Cached details in the image of a book. -/
theorem orderDetails_book (book : OrderBook) (id : OrderId) :
    (sym.book book).orderDetails (sym.ids id) = (book.orderDetails id).map sym.details := by
  change (book.orderDetails (sym.ids.symm (sym.ids id))).map sym.details = _
  rw [Equiv.symm_apply_apply]

/-- Following a pointer in the image of a book. -/
theorem read_book (book : OrderBook) (elem : Addr) :
    (sym.book book).heap.read elem = (book.heap.read elem).map sym.element := rfl

/-- A new entry under a renamed id, in either unordered map. -/
theorem update_symm {α : Type} (entries : OrderId → α) (id : OrderId) (value : α) :
    (fun other => Function.update entries id value (sym.ids.symm other)) =
      Function.update (fun other => entries (sym.ids.symm other)) (sym.ids id) value := by
  funext other
  simp only [Function.update_apply, Equiv.symm_apply_eq]

/-- New details under a renamed id. -/
theorem map_update_symm (entries : OrderId → Option OrderDetails) (id : OrderId)
    (value : Option OrderDetails) :
    (fun other => (Function.update entries id value (sym.ids.symm other)).map sym.details) =
      Function.update (fun other => (entries (sym.ids.symm other)).map sym.details) (sym.ids id)
        (value.map sym.details) := by
  funext other
  simp only [Function.update_apply, Equiv.symm_apply_eq]
  split <;> rfl

/-- Removing a pointer from a level of an image. -/
theorem removeOrder_level (level : PriceLevel) (heap : Heap BookElement) (order : Addr) :
    (sym.level level).removeOrder (heap.map sym.element) order =
      (level.removeOrder heap order).map sym.level := by
  by_cases member : order ∈ level.mOrders
  · have memberToo : order ∈ (sym.level level).mOrders := member
    simp only [PriceLevel.removeOrder, if_pos member, if_pos memberToo, Heap.read_map]
    cases heap.read order <;> rfl
  · have absentToo : order ∉ (sym.level level).mOrders := member
    simp only [PriceLevel.removeOrder, if_neg member, if_neg absentToo, Option.map_some]

/-- Queueing a pointer in a level of an image. -/
theorem addOrder_level (level : PriceLevel) (heap : Heap BookElement) (order : Addr) :
    (sym.level level).addOrder (heap.map sym.element) order =
      (level.addOrder heap order).map sym.level := by
  simp only [PriceLevel.addOrder, Heap.read_map]
  cases heap.read order <;> rfl

/-- Deleting an order from an image. -/
theorem deleteOrder_book (book : OrderBook) (id : OrderId) (elem : Addr) :
    (sym.book book).deleteOrder (sym.ids id) elem = sym.book (book.deleteOrder id elem) := by
  simp only [OrderBook.deleteOrder, Symmetry.book, update_symm, map_update_symm, Heap.map_free,
    Option.map_none]

/-- Getting or creating a level of an image. -/
theorem getOrCreateLevel_book (book : OrderBook) (side : BookSide) (price : Price) :
    (sym.book book).getOrCreateLevel (sym.bookSide side) (sym.price price) =
      ((book.getOrCreateLevel side price).map sym.book sym.level) := by
  simp only [OrderBook.getOrCreateLevel, level_book]
  cases book.level side price with
  | none =>
    simp only [Option.map_none, Prod.map_apply, ← setLevel_book]
    rfl
  | some level => rfl

/-- Removing a pointer from a level of an image, which erases an emptied level. -/
theorem removeFromLevel_book (book : OrderBook) (side : BookSide) (elem : Addr) (price : Price) :
    (sym.book book).removeFromLevel (sym.bookSide side) elem (sym.price price) =
      (book.removeFromLevel side elem price).map sym.book := by
  simp only [OrderBook.removeFromLevel, level_book]
  cases book.level side price with
  | none => rfl
  | some level =>
    have removes := sym.removeOrder_level level book.heap elem
    simp only [Option.map_some]
    change ((sym.level level).removeOrder (book.heap.map sym.element) elem).bind _ = _
    rw [removes]
    cases level.removeOrder book.heap elem with
    | none => rfl
    | some shorter =>
      simp only [Option.map_some, bind, Option.bind]
      change (if shorter.isEmpty = true then _ else _) = _
      split
      · rw [eraseLevel_book]
        rfl
      · rw [setLevel_book]
        rfl

/-- Queueing a pointer at a price of an image. -/
theorem insertIntoLevel_book (book : OrderBook) (side : BookSide) (elem : Addr) (price : Price) :
    (sym.book book).insertIntoLevel (sym.bookSide side) elem (sym.price price) =
      (book.insertIntoLevel side elem price).map sym.book := by
  simp only [OrderBook.insertIntoLevel, getOrCreateLevel_book]
  obtain ⟨created, level⟩ := book.getOrCreateLevel side price
  have adds := sym.addOrder_level level created.heap elem
  simp only [Prod.map_apply]
  change ((sym.level level).addOrder (created.heap.map sym.element) elem).bind _ = _
  rw [adds]
  cases level.addOrder created.heap elem with
  | none => rfl
  | some longer =>
    simp only [Option.map_some, bind, Option.bind, setLevel_book]

/-! ## Emissions -/

/-- The image of two stretches of emissions. -/
theorem outputs_append (first second : Outputs) :
    sym.outputs (first.append second) = (sym.outputs first).append (sym.outputs second) := by
  simp only [outputs, Outputs.append, List.map_append]

/-- A self-trade cancellation on an image. -/
theorem outputs_selfTrade (symbol : SymbolId) (side : BookSide) (price : Price)
    (passiveOrder : BookElement) :
    sym.outputs (OrderBook.selfTradeOutputs symbol side price passiveOrder) =
      OrderBook.selfTradeOutputs symbol (sym.bookSide side) (sym.price price)
        (sym.element passiveOrder) := by
  simp [outputs, confirm, update, element, OrderBook.selfTradeOutputs, bookSide_side]

/-- A fill on an image. -/
theorem outputs_trade (symbol : SymbolId) (side : BookSide) (price : Price)
    (incoming : OrderRequest) (passiveOrder : BookElement) (tradeQty : Quantity) :
    sym.outputs (OrderBook.tradeOutputs symbol side price incoming passiveOrder tradeQty) =
      OrderBook.tradeOutputs symbol (sym.bookSide side) (sym.price price) (sym.order incoming)
        (sym.element passiveOrder) tradeQty := by
  simp [outputs, confirm, update, element, order, OrderBook.tradeOutputs, bookSide_side]

/-! ## The matcher -/

/-- A level trades with a limit when its image trades with the image of the limit. -/
theorem canTrade_image (side : BookSide) (price limit : Price) :
    OrderBook.canTrade (sym.bookSide side) (sym.price price) (sym.price limit) =
      OrderBook.canTrade side price limit := by
  obtain ⟨turned, ids, clock⟩ := sym
  cases turned with
  | false => cases side <;> rfl
  | true =>
    have turned (first second : Price) :
        reflect first ≤ reflect second ↔ second ≤ first := by
      rw [← UInt32.not_lt, ← UInt32.not_lt, reflect_lt_iff]
    cases side with
    | Buy =>
      change OrderBook.canTrade .Sell (reflect price) (reflect limit) = _
      simp only [OrderBook.canTrade, turned]
    | Sell =>
      change OrderBook.canTrade .Buy (reflect price) (reflect limit) = _
      simp only [OrderBook.canTrade, turned]

/-- Writing the quantity of an element of an image. -/
theorem setQty_book (book : OrderBook) (elem : Addr) (element : BookElement) (qty : Quantity) :
    (sym.book book).setQty elem (sym.element element) qty =
      sym.book (book.setQty elem element qty) := by
  simp only [OrderBook.setQty, Symmetry.book, Heap.map_write]
  rfl

/-- The first order of a level of an image. -/
theorem matchFirst_book (side : BookSide) (incoming : OrderRequest) (price : Price)
    (level : PriceLevel) (book : OrderBook) (remainingQty : Quantity) :
    OrderBook.matchFirst (sym.bookSide side) (sym.order incoming) (sym.price price)
        (sym.level level) (sym.book book) remainingQty =
      (OrderBook.matchFirst side incoming price level book remainingQty).map sym.matched := by
  cases queue : level.mOrders with
  | nil =>
    have empty : (sym.level level).mOrders = [] := queue
    simp [OrderBook.matchFirst, PriceLevel.peekFirst, queue, empty]
  | cons elem rest =>
    have queueToo : (sym.level level).mOrders = elem :: rest := queue
    cases read : book.heap.read elem with
    | none => simp [OrderBook.matchFirst, PriceLevel.peekFirst, queue, queueToo, read_book, read]
    | some element =>
      have readToo : (sym.book book).heap.read elem = some (sym.element element) := by
        rw [read_book, read, Option.map_some]
      by_cases own : element.m_traderId = incoming.m_traderId
      · have ownToo : (sym.element element).m_traderId = (sym.order incoming).m_traderId := own
        rw [OrderBook.matchFirst_own queue read own,
          OrderBook.matchFirst_own queueToo readToo ownToo, Option.map_some, matched,
          outputs_selfTrade, ← deleteOrder_book, ← setLevel_book]
        rfl
      · have foreign : (sym.element element).m_traderId ≠ (sym.order incoming).m_traderId := own
        by_cases covers : element.m_quantity ≤ remainingQty
        · have coversToo : (sym.element element).m_quantity ≤ remainingQty := covers
          rw [OrderBook.matchFirst_full queue read own covers,
            OrderBook.matchFirst_full queueToo readToo foreign coversToo, Option.map_some, matched,
            outputs_trade, ← deleteOrder_book, ← setLevel_book, ← setQty_book]
          rfl
        · have short := UInt32.not_le.mp covers
          have shortToo : remainingQty < (sym.element element).m_quantity := short
          rw [OrderBook.matchFirst_partly queue read own short,
            OrderBook.matchFirst_partly queueToo readToo foreign shortToo, Option.map_some, matched,
            outputs_trade, ← setLevel_book, ← setQty_book]
          rfl

/-- Emissions before a stretch of the matcher. -/
theorem matched_append (first : Outputs) (rest : OrderBook.Matched) :
    sym.matched { rest with out := first.append rest.out } =
      { sym.matched rest with out := (sym.outputs first).append (sym.matched rest).out } := by
  simp only [matched, outputs_append]

/-- The queue of a level of an image. -/
theorem matchLevel_book (side : BookSide) (incoming : OrderRequest) (price : Price)
    (iterations : Nat) (book : OrderBook) (remainingQty : Quantity) :
    OrderBook.matchLevel (sym.bookSide side) (sym.order incoming) (sym.price price) iterations
        (sym.book book) remainingQty =
      (OrderBook.matchLevel side incoming price iterations book remainingQty).map
        sym.matched := by
  induction iterations generalizing book remainingQty with
  | zero => rfl
  | succ iterations ih =>
    simp only [OrderBook.matchLevel, level_book]
    cases book.level side price with
    | none => rfl
    | some level =>
      have empty : (sym.level level).isEmpty = level.isEmpty := rfl
      simp only [Option.map_some, bind, Option.bind, empty, matchFirst_book]
      split
      · cases OrderBook.matchFirst side incoming price level book remainingQty with
        | none => rfl
        | some first =>
          have later := ih first.book first.remainingQty
          simp only [Option.map_some, matched] at later ⊢
          rw [later]
          cases OrderBook.matchLevel side incoming price iterations first.book
              first.remainingQty with
          | none => rfl
          | some rest => simp only [Option.map_some, matched_append]
      · rfl

/-- Erasing a level of an image if it is empty. -/
theorem eraseIfEmpty_book (book : OrderBook) (side : BookSide) (price : Price) :
    (sym.book book).eraseIfEmpty (sym.bookSide side) (sym.price price) =
      sym.book (book.eraseIfEmpty side price) := by
  simp only [OrderBook.eraseIfEmpty, level_book]
  cases book.level side price with
  | none => rfl
  | some level =>
    have empty : (sym.level level).isEmpty = level.isEmpty := rfl
    simp only [Option.map_some, empty, eraseLevel_book]
    split <;> rfl

/-- The best level of an image. -/
theorem begin?_book (book : OrderBook) (side : BookSide) :
    ((sym.book book).getBook (sym.bookSide side)).begin? =
      (book.getBook side).begin?.map (Prod.map sym.price sym.level) := by
  rw [getBook_book, OrderedMap.begin?_image]
  rfl

/-- The levels of one side of an image. -/
theorem matchLevels_book (side : BookSide) (incoming : OrderRequest) (iterations : Nat)
    (book : OrderBook) (remainingQty : Quantity) :
    OrderBook.matchLevels (sym.bookSide side) (sym.order incoming) iterations (sym.book book)
        remainingQty =
      (OrderBook.matchLevels side incoming iterations book remainingQty).map sym.matched := by
  induction iterations generalizing book remainingQty with
  | zero => rfl
  | succ iterations ih =>
    simp only [OrderBook.matchLevels, begin?_book]
    split
    · cases (book.getBook side).begin? with
      | none => rfl
      | some best =>
        obtain ⟨price, level⟩ := best
        have limit : (sym.order incoming).m_price = sym.price incoming.m_price := rfl
        have queue : (sym.level level).mOrders = level.mOrders := rfl
        simp only [Option.map_some, Prod.map_apply, limit, canTrade_image, queue, bind,
          Option.bind, matchLevel_book]
        split
        · cases OrderBook.matchLevel side incoming price (level.mOrders.length + 1) book
              remainingQty with
          | none => rfl
          | some first =>
            have later := ih (first.book.eraseIfEmpty side price) first.remainingQty
            simp only [Option.map_some, matched, eraseIfEmpty_book] at later ⊢
            rw [later]
            cases OrderBook.matchLevels side incoming iterations
                (first.book.eraseIfEmpty side price) first.remainingQty with
            | none => rfl
            | some rest => simp only [Option.map_some, matched_append]
        · rfl
    · rfl

/-- The matcher on an image. -/
theorem matchAgainst_book (book : OrderBook) (side : BookSide) (incoming : OrderRequest)
    (remainingQty : Quantity) :
    (sym.book book).matchAgainst (sym.bookSide side) (sym.order incoming) remainingQty =
      (book.matchAgainst side incoming remainingQty).map sym.matched := by
  rw [OrderBook.matchAgainst, getBook_book, OrderedMap.size_image, matchLevels_book,
    OrderBook.matchAgainst]

/-! ## The operations -/

/-- The acknowledgement of an image. -/
theorem outputs_accepted (symbol : SymbolId) (incoming : OrderRequest) :
    sym.outputs (OrderBook.acceptedOutputs symbol incoming) =
      OrderBook.acceptedOutputs symbol (sym.order incoming) := by
  simp [outputs, confirm, update, order, OrderBook.acceptedOutputs]

/-- The reject of an image. -/
theorem outputs_reject (symbol : SymbolId) (id : OrderId) (traderId : TraderId) :
    sym.outputs (OrderBook.rejectOutputs symbol id traderId) =
      OrderBook.rejectOutputs symbol (sym.ids id) traderId := by
  simp [outputs, confirm, OrderBook.rejectOutputs]

/-- The cancellation of an image. -/
theorem outputs_cancel (symbol : SymbolId) (id : OrderId) (traderId : TraderId) (side : Side)
    (price : Price) (qty : Quantity) :
    sym.outputs (OrderBook.cancelOutputs symbol id traderId side price qty) =
      OrderBook.cancelOutputs symbol (sym.ids id) traderId (sym.side side) (sym.price price)
        qty := by
  simp [outputs, confirm, update, OrderBook.cancelOutputs]

/-- The modification of an image. -/
theorem outputs_modify (symbol : SymbolId) (id : OrderId) (traderId : TraderId) (side : Side)
    (price : Price) (qty : Quantity) :
    sym.outputs (OrderBook.modifyOutputs symbol id traderId side price qty) =
      OrderBook.modifyOutputs symbol (sym.ids id) traderId (sym.side side) (sym.price price)
        qty := by
  simp [outputs, confirm, update, OrderBook.modifyOutputs]

/-- Creating an order in an image. -/
theorem createOrder_book (book : OrderBook) (element : BookElement) (detail : OrderDetails) :
    (sym.book book).createOrder (sym.element element) (sym.details detail) =
      sym.book (book.createOrder element detail) := by
  simp only [OrderBook.createOrder, Symmetry.book, update_symm, map_update_symm, Heap.map_alloc]
  rfl

/-- What `addOrder` does with the shares the matcher leaves. -/
theorem addOrder_eq (book : OrderBook) (incoming : OrderRequest) :
    book.addOrder incoming =
      (book.matchAgainst incoming.m_side.book.opposite incoming incoming.m_quantity).bind
        fun left =>
          if left.remainingQty = 0 then
            some (left.book, (OrderBook.acceptedOutputs book.symbol incoming).append left.out)
          else
            ((left.book.createOrder ⟨incoming.m_orderId, incoming.m_traderId, left.remainingQty⟩
              ⟨incoming.m_side, incoming.m_price, left.remainingQty⟩).insertIntoLevel
                incoming.m_side.book left.book.heap.next incoming.m_price).bind fun placed =>
              some (placed, (OrderBook.acceptedOutputs book.symbol incoming).append left.out) :=
  rfl

/-- `addOrder` on an image. -/
theorem addOrder_book (book : OrderBook) (incoming : OrderRequest) :
    (sym.book book).addOrder (sym.order incoming) = (book.addOrder incoming).map sym.result := by
  have own : (sym.order incoming).m_side.book = sym.bookSide incoming.m_side.book :=
    sym.side_book incoming.m_side
  have quantity : (sym.order incoming).m_quantity = incoming.m_quantity := rfl
  have symbol : (sym.book book).symbol = book.symbol := rfl
  simp only [addOrder_eq, own, ← bookSide_opposite, quantity, matchAgainst_book, symbol,
    ← outputs_accepted]
  cases book.matchAgainst incoming.m_side.book.opposite incoming incoming.m_quantity with
  | none => rfl
  | some left =>
    have remaining : (sym.matched left).remainingQty = left.remainingQty := rfl
    have emitted : (sym.matched left).out = sym.outputs left.out := rfl
    simp only [Option.map_some, Option.bind_some, remaining, emitted, ← outputs_append]
    split
    · rfl
    · have created := sym.createOrder_book left.book
        ⟨incoming.m_orderId, incoming.m_traderId, left.remainingQty⟩
        ⟨incoming.m_side, incoming.m_price, left.remainingQty⟩
      have placed := sym.insertIntoLevel_book (left.book.createOrder
        ⟨incoming.m_orderId, incoming.m_traderId, left.remainingQty⟩
        ⟨incoming.m_side, incoming.m_price, left.remainingQty⟩) incoming.m_side.book
        left.book.heap.next incoming.m_price
      rw [← created] at placed
      change Option.bind (((sym.book left.book).createOrder
        (sym.element ⟨incoming.m_orderId, incoming.m_traderId, left.remainingQty⟩)
        (sym.details ⟨incoming.m_side, incoming.m_price, left.remainingQty⟩)).insertIntoLevel
          (sym.bookSide incoming.m_side.book) left.book.heap.next
          (sym.price incoming.m_price)) _ = _
      rw [placed]
      cases (left.book.createOrder
        ⟨incoming.m_orderId, incoming.m_traderId, left.remainingQty⟩
        ⟨incoming.m_side, incoming.m_price, left.remainingQty⟩).insertIntoLevel
          incoming.m_side.book left.book.heap.next incoming.m_price <;> rfl

/-- `cancelOrder` on an image. -/
theorem cancelOrder_book (book : OrderBook) (id : OrderId) (traderId : TraderId) :
    (sym.book book).cancelOrder (sym.ids id) traderId =
      (book.cancelOrder id traderId).map sym.result := by
  have symbol : (sym.book book).symbol = book.symbol := rfl
  simp only [OrderBook.cancelOrder, orderMap_book, orderDetails_book, read_book, symbol]
  cases book.orderMap id with
  | none => simp only [Option.map_some, result, outputs_reject]
  | some elem =>
    simp only [bind, Option.bind]
    cases book.heap.read elem with
    | none => rfl
    | some element =>
      have owner : (sym.element element).m_traderId = element.m_traderId := rfl
      simp only [Option.map_some, owner]
      split
      · cases book.orderDetails id with
        | none => rfl
        | some detail =>
          have side : (sym.details detail).side.book = sym.bookSide detail.side.book :=
            sym.side_book detail.side
          have price : (sym.details detail).price = sym.price detail.price := rfl
          simp only [Option.map_some, side, price, removeFromLevel_book]
          cases book.removeFromLevel detail.side.book elem detail.price with
          | none => rfl
          | some removed =>
            simp only [Option.map_some, result, outputs_cancel, ← deleteOrder_book]
            rfl
      · simp only [Option.map_some, result, outputs_reject]

/-- Rewriting an order of an image. -/
theorem rewriteOrder_book (book : OrderBook) (elem : Addr) (id : OrderId) (element : BookElement)
    (detail : OrderDetails) :
    (sym.book book).rewriteOrder elem (sym.ids id) (sym.element element) (sym.details detail) =
      sym.book (book.rewriteOrder elem id element detail) := by
  simp only [OrderBook.rewriteOrder, Symmetry.book, map_update_symm, Heap.map_write]
  rfl

/-- `modifyOrder` on an image. -/
theorem modifyOrder_book (book : OrderBook) (id : OrderId) (traderId : TraderId)
    (newPrice : Price) (newQty : Quantity) :
    (sym.book book).modifyOrder (sym.ids id) traderId (sym.price newPrice) newQty =
      (book.modifyOrder id traderId newPrice newQty).map sym.result := by
  have symbol : (sym.book book).symbol = book.symbol := rfl
  simp only [OrderBook.modifyOrder, orderMap_book, orderDetails_book, read_book, symbol]
  cases book.orderMap id with
  | none => simp only [Option.map_some, result, outputs_reject]
  | some elem =>
    simp only [bind, Option.bind]
    cases book.heap.read elem with
    | none => rfl
    | some element =>
      have owner : (sym.element element).m_traderId = element.m_traderId := rfl
      simp only [Option.map_some, owner]
      split
      · cases book.orderDetails id with
        | none => rfl
        | some detail =>
          have side : (sym.details detail).side = sym.side detail.side := rfl
          have price : (sym.details detail).price = sym.price detail.price := rfl
          have cached : (sym.details detail).quantity = detail.quantity := rfl
          simp only [Option.map_some, side, price, cached, side_book, removeFromLevel_book,
            sym.price.injective.eq_iff, ← outputs_modify]
          split
          · exact congrArg (fun next => some (next, _)) (sym.rewriteOrder_book book elem id
              { element with m_quantity := newQty } { detail with quantity := newQty })
          · cases book.removeFromLevel detail.side.book elem detail.price with
            | none => rfl
            | some removed =>
              have inserted := sym.insertIntoLevel_book (removed.rewriteOrder elem id
                { element with m_quantity := newQty }
                { detail with price := newPrice, quantity := newQty }) detail.side.book elem newPrice
              rw [← rewriteOrder_book] at inserted
              change Option.bind (((sym.book removed).rewriteOrder elem (sym.ids id)
                (sym.element { element with m_quantity := newQty })
                (sym.details { detail with price := newPrice, quantity := newQty })).insertIntoLevel
                  (sym.bookSide detail.side.book) elem (sym.price newPrice)) _ = _
              rw [inserted]
              change _ = Option.map sym.result (Option.bind ((removed.rewriteOrder elem id
                { element with m_quantity := newQty }
                { detail with price := newPrice, quantity := newQty }).insertIntoLevel
                  detail.side.book elem newPrice) _)
              cases (removed.rewriteOrder elem id { element with m_quantity := newQty }
                { detail with price := newPrice, quantity := newQty }).insertIntoLevel
                  detail.side.book elem newPrice <;> rfl
      · simp only [Option.map_some, result, outputs_reject]

/-- Every call commutes with every symmetry. -/
theorem step_book (book : OrderBook) (request : BookRequest) :
    (sym.book book).step (sym.request request) = (book.step request).map sym.result := by
  cases request with
  | add incoming => exact sym.addOrder_book book incoming
  | cancel id traderId => exact sym.cancelOrder_book book id traderId
  | modify id traderId newPrice newQty =>
    exact sym.modifyOrder_book book id traderId newPrice newQty

/-- The two sides are mirror images: on every reachable book every call returns, and on the mirror
of the book the mirror of the call returns the mirror of the next book and of the emissions. -/
theorem step_mirror {book : OrderBook} (reachable : book.Reachable) {request : BookRequest}
    (fresh : book.Fresh request) :
    ∃ next out, book.step request = some (next, out) ∧
      (mirror.book book).step (mirror.request request) =
        some (mirror.book next, mirror.outputs out) := by
  obtain ⟨next, out, ran, -⟩ := reachable.good.step fresh
  refine ⟨next, out, ran, ?_⟩
  rw [step_book, ran]
  rfl

/-- Two resting bids and a sell order that fills one and part of the other, and the same sides
exchanged. -/
theorem step_mirror_place : ∃ book outs,
    run OrderBook.step (OrderBook.new 0)
      [OrderBook.place 1 7 Side.Buy 100 5, OrderBook.place 2 8 Side.Buy 99 4] = some (book, outs) ∧
    ∃ next out, book.step (OrderBook.place 3 9 Side.Sell 99 7) = some (next, out) ∧
      out.confirmsOut.map OrderConfirm.type = [.NewAck, .Trade, .Trade, .Trade, .Trade] ∧
      (mirror.book book).step (mirror.request (OrderBook.place 3 9 Side.Sell 99 7)) =
        some (mirror.book next, mirror.outputs out) := by
  have reached : ∃ book outs,
      Guarded OrderBook.step OrderBook.Fresh (OrderBook.new 0)
        [OrderBook.place 1 7 Side.Buy 100 5, OrderBook.place 2 8 Side.Buy 99 4] ∧
      run OrderBook.step (OrderBook.new 0)
        [OrderBook.place 1 7 Side.Buy 100 5, OrderBook.place 2 8 Side.Buy 99 4] =
          some (book, outs) ∧
      book.Fresh (OrderBook.place 3 9 Side.Sell 99 7) ∧
      (book.step (OrderBook.place 3 9 Side.Sell 99 7)).map
        (fun result => result.2.confirmsOut.map OrderConfirm.type) =
          some [.NewAck, .Trade, .Trade, .Trade, .Trade] :=
    ⟨_, _, by decide, rfl, rfl, by decide⟩
  obtain ⟨book, outs, guarded, ran, fresh, matched⟩ := reached
  obtain ⟨next, out, stepped, mirrored⟩ :=
    step_mirror ⟨0, [OrderBook.place 1 7 Side.Buy 100 5, OrderBook.place 2 8 Side.Buy 99 4], outs,
      guarded, ran⟩ fresh
  rw [stepped, Option.map_some, Option.some.injEq] at matched
  exact ⟨book, outs, ran, next, out, stepped, matched, mirrored⟩

/-! ## Ids and timestamps -/

/-- The levels of one side stay when nothing is turned over. -/
theorem image_upright (ids : Equiv.Perm OrderId) (clock : Timestamp → Timestamp) (side : BookSide)
    (levels : Levels side) :
    levels.image (prices ⟨false, ids, clock⟩ side) (level ⟨false, ids, clock⟩) = levels := by
  obtain ⟨entries, sorted⟩ := levels
  exact OrderedMap.mk.injEq .. ▸ List.map_id entries

/-- A renaming that fixes every key leaves an unordered map as it is. -/
theorem apply_symm_of_fixed {α : Type} {entries : OrderId → Option α} {ids : Equiv.Perm OrderId}
    (fixed : ∀ id value, entries id = some value → ids id = id) (id : OrderId) :
    entries (ids.symm id) = entries id := by
  cases stored : entries id with
  | some value => rw [ids.symm_apply_eq.mpr (fixed id value stored).symm, stored]
  | none =>
    cases other : entries (ids.symm id) with
    | none => rfl
    | some value =>
      have same := fixed _ value other
      rw [Equiv.apply_symm_apply] at same
      rw [← same, stored] at other
      contradiction

/-- A renaming that fixes every resting id leaves a sound book as it is. -/
theorem book_rename {book : OrderBook} (sound : book.Sound) {ids : Equiv.Perm OrderId}
    (fixed : ∀ id elem, book.orderMap id = some elem → ids id = id) :
    (rename ids).book book = book := by
  have pointers := apply_symm_of_fixed fixed
  have details : ∀ id, book.orderDetails (ids.symm id) = book.orderDetails id := by
    refine apply_symm_of_fixed ?_
    intro id detail detailed
    obtain ⟨elem, mapped⟩ := sound.detailed id detail detailed
    exact fixed id elem mapped
  have upright (detail : Option OrderDetails) : detail.map (rename ids).details = detail :=
    Option.map_id_apply
  have cells (elem : Addr) :
      (book.heap.cells elem).map (rename ids).element = book.heap.cells elem := by
    cases stored : book.heap.cells elem with
    | none => rfl
    | some element =>
      have same := fixed _ elem (sound.owned elem element stored)
      exact congrArg (fun id => some { element with m_id := id }) same
  obtain ⟨symbol, bids, asks, orderMap, orderDetails, ⟨stored, free, unused⟩⟩ := book
  change OrderBook.mk symbol (bids.image ((rename ids).prices .Buy) (rename ids).level)
    (asks.image ((rename ids).prices .Sell) (rename ids).level)
    (fun id => orderMap (ids.symm id))
    (fun id => (orderDetails (ids.symm id)).map (rename ids).details)
    ⟨fun address => (stored address).map (rename ids).element, free, _⟩ = _
  simp only [OrderBook.mk.injEq, true_and, Heap.mk.injEq, and_true]
  exact ⟨image_upright ids id .Buy bids, image_upright ids id .Sell asks, funext pointers,
    funext fun id => (upright _).trans (details id), funext cells⟩

/-- Rewriting timestamps leaves a book as it is. -/
theorem book_retime (clock : Timestamp → Timestamp) (book : OrderBook) :
    (retime clock).book book = book := by
  obtain ⟨symbol, bids, asks, orderMap, orderDetails, ⟨cells, free, unused⟩⟩ := book
  have details : (fun id => (orderDetails id).map (retime clock).details) = orderDetails := by
    funext id
    exact Option.map_id_apply
  have stored : (fun address => (cells address).map (retime clock).element) = cells := by
    funext address
    exact Option.map_id_apply
  change OrderBook.mk symbol (bids.image ((retime clock).prices .Buy) (retime clock).level)
    (asks.image ((retime clock).prices .Sell) (retime clock).level) orderMap
    (fun id => (orderDetails id).map (retime clock).details)
    ⟨fun address => (cells address).map (retime clock).element, free, _⟩ = _
  simp only [OrderBook.mk.injEq, true_and, Heap.mk.injEq, and_true]
  exact ⟨image_upright 1 clock .Buy bids, image_upright 1 clock .Sell asks, details, stored⟩

/-- Rewriting timestamps leaves emissions as they are. -/
theorem outputs_retime (clock : Timestamp → Timestamp) (out : Outputs) :
    (retime clock).outputs out = out := by
  have confirms : (retime clock).confirm = id := by
    funext confirm
    simp only [Symmetry.confirm, retime, Equiv.Perm.coe_one, id_eq]
    split <;> rfl
  have updates : (retime clock).update = id := rfl
  simp only [outputs, confirms, updates, List.map_id]

/-- No operation of a book looks at a timestamp. -/
theorem addOrder_retime (clock : Timestamp → Timestamp) (book : OrderBook)
    (incoming : OrderRequest) :
    book.addOrder { incoming with m_timestamp := clock incoming.m_timestamp } =
      book.addOrder incoming := by
  have image := (retime clock).addOrder_book book incoming
  rw [book_retime] at image
  rw [show ({ incoming with m_timestamp := clock incoming.m_timestamp } : OrderRequest) =
    (retime clock).order incoming from rfl, image]
  have same : (retime clock).result = id := by
    funext result
    simp only [Symmetry.result, book_retime, outputs_retime, id_eq]
  rw [same, Option.map_id_apply]

end Symmetry

end Exchange
