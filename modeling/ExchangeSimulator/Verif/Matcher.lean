import ExchangeSimulator.Verif.Sound

/-!
# The matcher refines the sweep

The inner loop keeps its level in the map until the queue is empty, and only
then does the outer loop erase it. Seen through `eraseIfEmpty`, each iteration
is one `MatchStep` of the ledger. The inner loop is then a trace that ends with
the incoming order filled or the level empty, and the outer loop a trace that
ends with nothing left to match. Both stay within their iteration counts.
-/

namespace Exchange

open Library

namespace OrderBook

/-! ## Queueing and unqueueing a pointer -/

/-- Mapping commutes with the removal of an element that no other one is mapped together with. -/
theorem map_erase_of_unique {α β : Type} [DecidableEq α] [DecidableEq β] (f : α → β) (item : α)
    (list : List α) (unique : ∀ other ∈ list, f other = f item → other = item) :
    (list.erase item).map f = (list.map f).erase (f item) := by
  induction list with
  | nil => rfl
  | cons head rest ih =>
    have later := ih (fun other member => unique other (List.mem_cons_of_mem _ member))
    by_cases same : head = item
    · subst same
      simp
    · have apart : f head ≠ f item := fun equal => same (unique head List.mem_cons_self equal)
      rw [List.erase_cons_tail (by simpa using same), List.map_cons, List.map_cons,
        List.erase_cons_tail (by simpa using apart), later]

/-- A level without one pointer, with an amount off its total. -/
def lessLevel (level : PriceLevel) (elem : Addr) (amount : Quantity) : PriceLevel :=
  { level with mTotalQty := level.mTotalQty - amount, mOrders := level.mOrders.erase elem }

/-- `removeOrder` on a queued pointer. -/
theorem removeOrder_eq {level : PriceLevel} {heap : Heap BookElement} {elem : Addr}
    {element : BookElement} (member : elem ∈ level.mOrders)
    (read : heap.read elem = some element) :
    level.removeOrder heap elem = some (lessLevel level elem element.m_quantity) := by
  simp only [PriceLevel.removeOrder, if_pos member, read, bind, Option.bind, lessLevel]

/-- `removeFromLevel` on a queued pointer. -/
theorem removeFromLevel_eq {book : OrderBook} {side : BookSide} {price : Price}
    {level : PriceLevel} {elem : Addr} {element : BookElement}
    (present : book.level side price = some level) (member : elem ∈ level.mOrders)
    (read : book.heap.read elem = some element) :
    book.removeFromLevel side elem price =
      some (book.replaceLevel side price (lessLevel level elem element.m_quantity)) := by
  simp only [removeFromLevel, present, removeOrder_eq member read, bind, Option.bind,
    PriceLevel.isEmpty, List.isEmpty_iff, replaceLevel]
  split <;> rfl

/-- The queue of a present level. -/
theorem queueAt_of_level {book : OrderBook} {side : BookSide} {price : Price}
    {level : PriceLevel} (present : book.level side price = some level) :
    book.queueAt (side, price) = level.mOrders := by
  simp only [queueAt, present]

/-- The total of a present level. -/
theorem totalAt_of_level {book : OrderBook} {side : BookSide} {price : Price}
    {level : PriceLevel} (present : book.level side price = some level) :
    book.totalAt (side, price) = level.mTotalQty := by
  simp only [totalAt, present]

/-- A level whose queue in the ledger holds an order is present. -/
theorem level_of_mem {book : OrderBook} {side : BookSide} {price : Price} {elem : Addr}
    (member : elem ∈ book.queueAt (side, price)) :
    ∃ level, book.level side price = some level ∧ elem ∈ level.mOrders := by
  cases present : book.level side price with
  | none => simp [queueAt, present] at member
  | some level => exact ⟨level, rfl, by simpa [queueAt, present] using member⟩

/-- A level that loses a pointer keeps a book sound. -/
theorem Sound.lessLevel {book : OrderBook} (sound : book.Sound) {side : BookSide} {price : Price}
    {level : PriceLevel} (present : book.level side price = some level) (elem : Addr)
    (amount : Quantity) : (book.replaceLevel side price (lessLevel level elem amount)).Sound := by
  refine sound.replaceLevel side price _ (sound.priced side price level present) ?_
  intro other member
  apply sound.queued (side, price)
  rw [queueAt_of_level present]
  exact List.mem_of_mem_erase member

/-- The ledger after a level lost a pointer. -/
theorem Sound.ledger_lessLevel {book : OrderBook} (sound : book.Sound) {side : BookSide}
    {price : Price} {level : PriceLevel} {elem : Addr} {element : BookElement}
    (present : book.level side price = some level) (member : elem ∈ level.mOrders)
    (read : book.heap.read elem = some element) (amount : Quantity) :
    (book.replaceLevel side price (OrderBook.lessLevel level elem amount)).ledger =
      book.ledger.unlink (side, price) element.m_id amount := by
  have queue : book.ledger.queue (side, price) = level.mOrders.map book.idAt := by
    rw [← queueAt_of_level present]
    rfl
  have mapped : (level.mOrders.erase elem).map book.idAt =
      (level.mOrders.map book.idAt).erase element.m_id := by
    rw [← idAt_of_read read]
    apply map_erase_of_unique
    intro other found same
    rw [← queueAt_of_level present] at found member
    exact sound.pointer_unique found member same
  rw [ledger_replaceLevel]
  apply Ledger.ext_fields
  · change Function.update book.ledger.queue (side, price) _ =
      Function.update book.ledger.queue (side, price) _
    rw [queue, ← mapped]
    rfl
  · rfl
  · change Function.update book.ledger.total (side, price) _ =
      Function.update book.ledger.total (side, price) _
    have total : book.ledger.total (side, price) = level.mTotalQty := totalAt_of_level present
    rw [queue, ← mapped, total]
    by_cases empty : level.mOrders.erase elem = []
    · simp [OrderBook.lessLevel, empty]
    · simp [OrderBook.lessLevel, empty]

/-- An order that left its queue waits nowhere. -/
theorem not_queued_of_unlink {ledger : Ledger} (filed : ledger.Filed) {slot : Slot} {id : OrderId}
    (member : id ∈ ledger.queue slot) (amount : Quantity) (other : Slot) :
    id ∉ (ledger.unlink slot id amount).queue other := by
  simp only [Ledger.unlink, QueueIndex.unlink, Function.update_apply]
  split
  · exact (filed.distinct slot).not_mem_erase
  · rename_i apart
    intro found
    obtain ⟨order, recorded, here⟩ := filed.recorded member
    exact apart ((filed.slot_eq found recorded).symm.trans here)

/-- The pointer of an order that waits nowhere in the ledger is in no queue. -/
theorem not_queued {book : OrderBook} {elem : Addr} {element : BookElement}
    (read : book.heap.read elem = some element)
    (gone : ∀ slot, element.m_id ∉ book.ledger.queue slot) (slot : Slot) :
    elem ∉ book.queueAt slot := by
  intro member
  apply gone slot
  rw [← idAt_of_read read]
  exact List.mem_map_of_mem member

/-- A pointer taken out of its level is in no queue. -/
theorem Sound.gone_lessLevel {book : OrderBook} (sound : book.Sound) (filed : book.ledger.Filed)
    {side : BookSide} {price : Price} {level : PriceLevel} {elem : Addr} {element : BookElement}
    (present : book.level side price = some level) (member : elem ∈ level.mOrders)
    (read : book.heap.read elem = some element) (amount : Quantity) (slot : Slot) :
    elem ∉ (book.replaceLevel side price (OrderBook.lessLevel level elem amount)).queueAt slot := by
  have waits : element.m_id ∈ book.ledger.queue (side, price) := by
    change element.m_id ∈ (book.queueAt (side, price)).map book.idAt
    rw [queueAt_of_level present, ← idAt_of_read read]
    exact List.mem_map_of_mem member
  apply not_queued (by simpa using read)
  intro slot
  rw [sound.ledger_lessLevel present member read amount]
  exact not_queued_of_unlink filed waits amount slot

/-- An order taken out of its level and deleted: the book stays sound and the order drops
out of the ledger. -/
theorem Sound.drop {book : OrderBook} (sound : book.Sound) (filed : book.ledger.Filed)
    {side : BookSide} {price : Price} {level : PriceLevel} {elem : Addr} {element : BookElement}
    (present : book.level side price = some level) (member : elem ∈ level.mOrders)
    (read : book.heap.read elem = some element) (amount : Quantity) :
    ((book.replaceLevel side price (OrderBook.lessLevel level elem amount)).deleteOrder
        element.m_id elem).Sound ∧
      ((book.replaceLevel side price (OrderBook.lessLevel level elem amount)).deleteOrder
        element.m_id elem).ledger = book.ledger.drop (side, price) element.m_id amount := by
  have ledger := sound.ledger_lessLevel present member read amount
  have mapped := sound.owned elem element read
  have gone := sound.gone_lessLevel filed present member read amount
  have less := sound.lessLevel present elem amount
  refine ⟨less.deleteOrder (by simpa using mapped) gone, ?_⟩
  rw [less.ledger_deleteOrder (by simpa using mapped) gone, ledger]
  rfl

/-- The level a pointer is added to. -/
def moreLevel (book : OrderBook) (side : BookSide) (price : Price) (elem : Addr)
    (amount : Quantity) : PriceLevel :=
  ⟨price, book.totalAt (side, price) + amount, book.queueAt (side, price) ++ [elem]⟩

/-- `insertIntoLevel` finds or creates the level and appends the pointer. -/
theorem Sound.insertIntoLevel_eq {book : OrderBook} (sound : book.Sound) (side : BookSide)
    (price : Price) {elem : Addr} {element : BookElement}
    (read : book.heap.read elem = some element) :
    book.insertIntoLevel side elem price =
      some (book.replaceLevel side price (book.moreLevel side price elem element.m_quantity)) := by
  have occupied : book.replaceLevel side price
      (book.moreLevel side price elem element.m_quantity) =
        book.setLevel side price (book.moreLevel side price elem element.m_quantity) := by
    simp [OrderBook.replaceLevel, OrderBook.moreLevel]
  rw [occupied]
  cases present : book.level side price with
  | none =>
    have again (first second : PriceLevel) :
        (book.setLevel side price first).setLevel side price second =
          book.setLevel side price second := by
      simp only [setLevel, getBook_setBook, setBook_setBook, OrderedMap.insert_insert]
    have heap : (book.setLevel side price (PriceLevel.new price)).heap.read elem =
        some element := by
      simpa [setLevel] using read
    simp only [insertIntoLevel, getOrCreateLevel, present, PriceLevel.addOrder, heap, bind,
      Option.bind, again, OrderBook.moreLevel, totalAt, queueAt]
    rfl
  | some level =>
    have priced := sound.priced side price level present
    simp only [insertIntoLevel, getOrCreateLevel, present, PriceLevel.addOrder, read, bind,
      Option.bind, OrderBook.moreLevel, totalAt, queueAt, priced]

/-- A mapped pointer added to a level keeps a book sound. -/
theorem Sound.moreLevel {book : OrderBook} (sound : book.Sound) (side : BookSide) (price : Price)
    {elem : Addr} {element : BookElement} (read : book.heap.read elem = some element)
    (amount : Quantity) :
    (book.replaceLevel side price (book.moreLevel side price elem amount)).Sound := by
  refine sound.replaceLevel side price _ rfl ?_
  intro other member
  rcases List.mem_append.mp member with old | new
  · exact sound.queued (side, price) other old
  · rw [List.mem_singleton] at new
    subst new
    exact ⟨element, read, sound.owned other element read⟩

/-- The ledger after a pointer was added to a level. -/
theorem ledger_moreLevel {book : OrderBook} (side : BookSide) (price : Price)
    {elem : Addr} {element : BookElement} (read : book.heap.read elem = some element)
    (amount : Quantity) :
    (book.replaceLevel side price (book.moreLevel side price elem amount)).ledger =
      book.ledger.link (side, price) element.m_id amount := by
  rw [ledger_replaceLevel]
  apply Ledger.ext_fields
  · change Function.update book.ledger.queue (side, price) _ =
      Function.update book.ledger.queue (side, price) _
    simp only [OrderBook.moreLevel, List.map_append, List.map_cons, List.map_nil,
      idAt_of_read read]
    rfl
  · rfl
  · change Function.update book.ledger.total (side, price) _ =
      Function.update book.ledger.total (side, price) _
    simp [OrderBook.moreLevel]
    rfl

/-! ## One iteration -/

/-- Erasing an emptied level after writing it is replacing it. -/
theorem eraseIfEmpty_setLevel (book : OrderBook) (side : BookSide) (price : Price)
    (level : PriceLevel) : (book.setLevel side price level).eraseIfEmpty side price =
      book.replaceLevel side price level := by
  simp only [eraseIfEmpty, level_setLevel, if_true, PriceLevel.isEmpty, List.isEmpty_iff,
    replaceLevel]
  split
  · simp only [eraseLevel, setLevel, getBook_setBook, setBook_setBook, OrderedMap.erase_insert]
  · rfl

/-- Deleting an order does not look at the levels. -/
theorem eraseIfEmpty_deleteOrder (book : OrderBook) (side : BookSide) (price : Price)
    (id : OrderId) (elem : Addr) : (book.deleteOrder id elem).eraseIfEmpty side price =
      (book.eraseIfEmpty side price).deleteOrder id elem := by
  have same : (book.deleteOrder id elem).level side price = book.level side price := by
    cases side <;> rfl
  simp only [eraseIfEmpty, same]
  split
  · rfl
  · split
    · cases side <;> rfl
    · rfl

/-- An occupied level stays. -/
theorem eraseIfEmpty_of_ne_nil {book : OrderBook} {side : BookSide} {price : Price}
    {level : PriceLevel} (present : book.level side price = some level)
    (occupied : level.mOrders ≠ []) : book.eraseIfEmpty side price = book := by
  simp [eraseIfEmpty, present, PriceLevel.isEmpty, occupied]

/-- An empty level goes. -/
theorem eraseIfEmpty_of_nil {book : OrderBook} {side : BookSide} {price : Price}
    {level : PriceLevel} (present : book.level side price = some level)
    (empty : level.mOrders = []) : book.eraseIfEmpty side price = book.eraseLevel side price := by
  simp [eraseIfEmpty, present, PriceLevel.isEmpty, empty]

/-- A resting quantity that the incoming order covers trades completely. -/
theorem minQty_of_le {remaining quantity : Quantity} (covers : quantity ≤ remaining) :
    minQty remaining quantity = quantity := by
  unfold minQty
  split
  · rfl
  · rename_i notLess
    exact UInt32.le_antisymm (UInt32.not_lt.mp notLess) covers

/-- An incoming order smaller than the resting one trades completely. -/
theorem minQty_of_lt {remaining quantity : Quantity} (short : remaining < quantity) :
    minQty remaining quantity = remaining := by
  unfold minQty
  split
  · rename_i less
    exact absurd less (UInt32.lt_asymm short)
  · rfl

/-- Overwriting a present level keeps the number of levels. -/
theorem size_setLevel {book : OrderBook} {side : BookSide} {price : Price} {old : PriceLevel}
    (present : book.level side price = some old) (level : PriceLevel) :
    ((book.setLevel side price level).getBook side).size = (book.getBook side).size := by
  rw [setLevel, getBook_setBook]
  exact OrderedMap.size_insert_of_find? level present

/-- Write the quantity of an element, as the matcher does through the pointer. -/
def setQty (book : OrderBook) (elem : Addr) (element : BookElement) (qty : Quantity) : OrderBook :=
  { book with heap := book.heap.write elem { element with m_quantity := qty } }

section Branches

variable {side : BookSide} {incoming : OrderRequest} {price : Price} {level : PriceLevel}
  {book : OrderBook} {remaining : Quantity} {elem : Addr} {rest : List Addr}
  {element : BookElement}

/-- The self-trade branch. -/
theorem matchFirst_own (queue : level.mOrders = elem :: rest)
    (read : book.heap.read elem = some element)
    (own : element.m_traderId = incoming.m_traderId) :
    matchFirst side incoming price level book remaining = some
      ⟨(book.setLevel side price (lessLevel level elem element.m_quantity)).deleteOrder
        element.m_id elem, remaining, selfTradeOutputs book.symbol side price element⟩ := by
  have member : elem ∈ level.mOrders := by simp [queue]
  simp only [matchFirst, PriceLevel.peekFirst, queue, List.head?_cons, bind, Option.bind, read,
    if_pos own, removeOrder_eq member read]

/-- The branch of a complete fill: the level subtracts zero. -/
theorem matchFirst_full (queue : level.mOrders = elem :: rest)
    (read : book.heap.read elem = some element)
    (foreign : element.m_traderId ≠ incoming.m_traderId)
    (covers : element.m_quantity ≤ remaining) :
    matchFirst side incoming price level book remaining = some
      ⟨((book.setQty elem element 0).setLevel side price (lessLevel level elem 0)).deleteOrder
          element.m_id elem, remaining - element.m_quantity,
        tradeOutputs book.symbol side price incoming element element.m_quantity⟩ := by
  have member : elem ∈ level.mOrders := by simp [queue]
  have written : (book.heap.write elem { element with m_quantity := 0 }).read elem =
      some { element with m_quantity := 0 } := by
    simp [Heap.read_write read]
  simp only [matchFirst, PriceLevel.peekFirst, queue, List.head?_cons, bind, Option.bind, read,
    if_neg foreign, minQty_of_le covers, UInt32.sub_self, if_true,
    removeOrder_eq member written, setQty]

/-- The branch of a partial fill. -/
theorem matchFirst_partly (queue : level.mOrders = elem :: rest)
    (read : book.heap.read elem = some element)
    (foreign : element.m_traderId ≠ incoming.m_traderId)
    (short : remaining < element.m_quantity) :
    matchFirst side incoming price level book remaining = some
      ⟨(book.setQty elem element (element.m_quantity - remaining)).setLevel side price
          (level.reduceQty remaining), 0,
        tradeOutputs book.symbol side price incoming element remaining⟩ := by
  have positive := sub_ne_zero_of_lt short
  simp only [matchFirst, PriceLevel.peekFirst, queue, List.head?_cons, bind, Option.bind, read,
    if_neg foreign, minQty_of_lt short, UInt32.sub_self, if_neg positive, setQty]

end Branches

/-- An element written with its details left alone is set with its own details. -/
theorem setQty_eq {book : OrderBook} {elem : Addr} {element : BookElement} {detail : OrderDetails}
    (details : book.orderDetails element.m_id = some detail) (qty : Quantity) :
    book.setQty elem element qty =
      book.setElement elem { element with m_quantity := qty } detail := by
  simp only [setQty, setElement, ← details, Function.update_eq_self]

/-- A written quantity keeps a book sound. -/
theorem Sound.setQty {book : OrderBook} (sound : book.Sound) {elem : Addr}
    {element : BookElement} (read : book.heap.read elem = some element) (qty : Quantity) :
    (book.setQty elem element qty).Sound := by
  obtain ⟨_, detail, _, _, details⟩ := sound.mapped _ _ (sound.owned elem element read)
  rw [setQty_eq details]
  exact sound.setElement read { element with m_quantity := qty } rfl detail

/-- The ledger after a quantity was written. -/
theorem Sound.ledger_setQty {book : OrderBook} (sound : book.Sound) {elem : Addr}
    {element : BookElement} (read : book.heap.read elem = some element) {order : Resting}
    (resting : book.resting element.m_id = some order) (qty : Quantity) :
    (book.setQty elem element qty).ledger =
      book.ledger.put element.m_id (some { order with quantity := qty }) := by
  have owner := sound.owned elem element read
  obtain ⟨_, detail, _, _, details⟩ := sound.mapped _ _ owner
  rw [resting_of_parts owner read details] at resting
  cases resting
  rw [setQty_eq details,
    sound.ledger_setElement read { element with m_quantity := qty } rfl detail]

/-- What one iteration leaves behind. -/
structure FirstMatched (side : BookSide) (incoming : OrderRequest) (price : Price)
    (book : OrderBook) (remaining : Quantity) (rest : List Addr) (first : Matched) : Prop where
  /-- The book behind the level bookkeeping is sound. -/
  sound : (first.book.eraseIfEmpty side price).Sound
  /-- The iteration is one step of the ledger. -/
  step : ∃ event, Ledger.MatchStep side incoming book.ledger remaining event
    (first.book.eraseIfEmpty side price).ledger first.remainingQty ∧
      first.out = event.outputs book.symbol side incoming
  /-- The level is still in the map; its queue lost its front or the incoming order is filled. -/
  level : ∃ level, first.book.level side price = some level ∧
    (level.mOrders = rest ∨ first.remainingQty = 0)
  /-- The instrument stays. -/
  symbol : first.book.symbol = book.symbol
  /-- The number of levels stays. -/
  size : (first.book.getBook side).size = (book.getBook side).size

/-- Deleting an order leaves the levels alone. -/
theorem getBook_deleteOrder (book : OrderBook) (id : OrderId) (elem : Addr) (side : BookSide) :
    (book.deleteOrder id elem).getBook side = book.getBook side := by
  cases side <;> rfl

/-- An iteration that takes the front order out, given the step it is of the ledger. -/
theorem Sound.firstMatched_drop {book : OrderBook} (sound : book.Sound)
    (filed : book.ledger.Filed) {side : BookSide} {incoming : OrderRequest} {price : Price}
    {level : PriceLevel} {elem : Addr} {rest : List Addr} {element : BookElement}
    (present : book.level side price = some level) (queue : level.mOrders = elem :: rest)
    (read : book.heap.read elem = some element) {start : OrderBook} {remaining after : Quantity}
    {amount : Quantity} {event : Ledger.MatchEvent} (symbol : book.symbol = start.symbol)
    (size : (book.getBook side).size = (start.getBook side).size)
    (step : Ledger.MatchStep side incoming start.ledger remaining event
      (book.ledger.drop (side, price) element.m_id amount) after) :
    FirstMatched side incoming price start remaining rest
      ⟨(book.setLevel side price (OrderBook.lessLevel level elem amount)).deleteOrder
        element.m_id elem, after, event.outputs start.symbol side incoming⟩ := by
  have member : elem ∈ level.mOrders := by simp [queue]
  obtain ⟨dropSound, dropLedger⟩ := sound.drop filed present member read amount
  constructor
  · simp only [eraseIfEmpty_deleteOrder, eraseIfEmpty_setLevel]
    exact dropSound
  · refine ⟨event, ?_, rfl⟩
    simp only [eraseIfEmpty_deleteOrder, eraseIfEmpty_setLevel, dropLedger]
    exact step
  · refine ⟨OrderBook.lessLevel level elem amount, ?_, Or.inl ?_⟩
    · simp only [OrderBook.level, getBook_deleteOrder]
      exact (level_setLevel book side side price price _).trans (if_pos rfl)
    · simp [OrderBook.lessLevel, queue]
  · rw [← symbol]
    exact symbol_setBook book side _
  · simp only [getBook_deleteOrder]
    exact (size_setLevel present _).trans size

/-- An iteration that fills the front order partly, given the step it is of the ledger. -/
theorem Sound.firstMatched_partly {book : OrderBook} (sound : book.Sound)
    (filed : book.ledger.Filed) {side : BookSide} {incoming : OrderRequest} {price : Price}
    {level : PriceLevel} {elem : Addr} {rest : List Addr} {element : BookElement}
    {order : Resting} (present : book.level side price = some level)
    (queue : level.mOrders = elem :: rest) (read : book.heap.read elem = some element)
    {remaining : Quantity} {event : Ledger.MatchEvent}
    (front : book.ledger.Front side price element.m_id order)
    (quantity : order.quantity = element.m_quantity)
    (step : Ledger.MatchStep side incoming book.ledger remaining event
      (book.ledger.reduce element.m_id order remaining) 0) :
    FirstMatched side incoming price book remaining rest
      ⟨(book.setQty elem element (element.m_quantity - remaining)).setLevel side price
        (level.reduceQty remaining), 0, event.outputs book.symbol side incoming⟩ := by
  have filled := sound.setQty read (element.m_quantity - remaining)
  have filledLedger := sound.ledger_setQty read front.recorded (element.m_quantity - remaining)
  have filledLevel : (book.setQty elem element (element.m_quantity - remaining)).level side price =
      some level := by
    cases side <;> exact present
  have occupied : (level.reduceQty remaining).mOrders ≠ [] := by
    simp [PriceLevel.reduceQty, queue]
  constructor
  · rw [eraseIfEmpty_setLevel]
    refine filled.replaceLevel side price _ (sound.priced side price level present) ?_
    intro other member
    apply filled.queued (side, price)
    rw [queueAt_of_level filledLevel]
    exact member
  · refine ⟨event, ?_, rfl⟩
    have ledger : ((book.setQty elem element (element.m_quantity - remaining)).replaceLevel side
        price (level.reduceQty remaining)).ledger =
          book.ledger.reduce element.m_id order remaining := by
      have same : (level.reduceQty remaining).mOrders.map
          (book.setQty elem element (element.m_quantity - remaining)).idAt =
            (book.setQty elem element (element.m_quantity - remaining)).ledger.queue
              (side, price) := by
        change level.mOrders.map _ = (OrderBook.queueAt _ _).map _
        rw [queueAt_of_level filledLevel]
      have total : book.ledger.total (side, price) = level.mTotalQty := totalAt_of_level present
      rw [ledger_replaceLevel, same, Function.update_eq_self, filledLedger]
      apply Ledger.ext_fields
      · rfl
      · rw [← quantity]
        rfl
      · change Function.update book.ledger.total (side, price) _ =
          Function.update book.ledger.total order.slot _
        rw [front.slot_eq filed, if_neg occupied]
        change _ = Function.update book.ledger.total (side, price)
          (book.ledger.total (side, price) - remaining)
        rw [total]
        rfl
    rw [eraseIfEmpty_setLevel, ledger]
    exact step
  · refine ⟨level.reduceQty remaining, ?_, Or.inr rfl⟩
    exact (level_setLevel _ side side price price _).trans (if_pos rfl)
  · exact symbol_setBook _ side _
  · refine (size_setLevel filledLevel _).trans ?_
    cases side <;> rfl

/-- The first order of the best level is cancelled, filled or partly filled. -/
theorem Sound.matchFirst {book : OrderBook} (sound : book.Sound) (filed : book.ledger.Filed)
    (side : BookSide) (incoming : OrderRequest) {price : Price} {level : PriceLevel}
    {elem : Addr} {rest : List Addr} (present : book.level side price = some level)
    (queue : level.mOrders = elem :: rest)
    (best : book.ledger.Leads side price)
    (crosses : canTrade side price incoming.m_price = true) {remaining : Quantity}
    (positive : 0 < remaining) :
    ∃ first, OrderBook.matchFirst side incoming price level book remaining = some first ∧
      FirstMatched side incoming price book remaining rest first := by
  have member : elem ∈ level.mOrders := by simp [queue]
  obtain ⟨element, read, mapped⟩ := sound.queued (side, price) elem
    (by rw [queueAt_of_level present]; exact member)
  obtain ⟨same, detail, sameRead, sameId, details, resting⟩ := sound.parts mapped
  rw [read] at sameRead
  cases sameRead
  have front : book.ledger.Front side price element.m_id
      ⟨detail.side, detail.price, detail.quantity, element.m_traderId, element.m_quantity⟩ := by
    refine ⟨?_, resting, best⟩
    change ((book.queueAt (side, price)).map book.idAt).head? = some element.m_id
    rw [queueAt_of_level present, queue, ← idAt_of_read read]
    rfl
  by_cases own : element.m_traderId = incoming.m_traderId
  · exact ⟨_, matchFirst_own queue read own, sound.firstMatched_drop filed present queue read rfl
      rfl (Ledger.MatchStep.selfTrade positive front crosses own)⟩
  · by_cases covers : element.m_quantity ≤ remaining
    · refine ⟨_, matchFirst_full queue read own covers, ?_⟩
      -- the element is at zero before it leaves, which the ledger does not see
      have zeroLedger := sound.ledger_setQty read resting 0
      have zeroFiled : (book.setQty elem element 0).ledger.Filed := by
        rw [zeroLedger]
        exact filed.rewrite resting rfl
      have zeroRead : (book.setQty elem element 0).heap.read elem =
          some { element with m_quantity := 0 } := by
        simp [OrderBook.setQty, Heap.read_write read]
      have step := Ledger.MatchStep.full positive front crosses own covers
      rw [← Ledger.drop_put, ← zeroLedger] at step
      refine (sound.setQty read 0).firstMatched_drop zeroFiled ?_ queue zeroRead
        (show (book.setQty elem element 0).symbol = book.symbol from rfl) ?_ step
      · cases side <;> exact present
      · cases side <;> rfl
    · have short : remaining < element.m_quantity := UInt32.not_le.mp covers
      refine ⟨_, matchFirst_partly queue read own short, ?_⟩
      exact sound.firstMatched_partly filed present queue read front rfl
        (Ledger.MatchStep.partly positive front crosses own short)

/-! ## The loops -/

/-- What the inner loop leaves behind. -/
structure LevelMatched (side : BookSide) (incoming : OrderRequest) (price : Price)
    (book : OrderBook) (remaining : Quantity) (matched : Matched) : Prop where
  /-- The book behind the level bookkeeping is sound. -/
  sound : (matched.book.eraseIfEmpty side price).Sound
  /-- The iterations are a trace of the ledger. -/
  sweep : ∃ events, Ledger.Sweep side incoming (book.eraseIfEmpty side price).ledger remaining
    events (matched.book.eraseIfEmpty side price).ledger matched.remainingQty ∧
      matched.out = Ledger.outputsOf book.symbol side incoming events
  /-- The incoming order is filled or the level is empty. -/
  level : ∃ level, matched.book.level side price = some level ∧
    (matched.remainingQty = 0 ∨ level.mOrders = [])
  /-- The instrument stays. -/
  symbol : matched.book.symbol = book.symbol
  /-- The number of levels stays. -/
  size : (matched.book.getBook side).size = (book.getBook side).size

/-- With more iterations than queued orders the inner loop ends, after a trace of the ledger. -/
theorem matchLevel_sweeps (side : BookSide) (incoming : OrderRequest) {price : Price}
    (crosses : canTrade side price incoming.m_price = true) (iterations : Nat)
    (book : OrderBook) (remaining : Quantity) (level : PriceLevel)
    (present : book.level side price = some level)
    (enough : remaining = 0 ∧ 0 < iterations ∨ level.mOrders.length < iterations)
    (sound : (book.eraseIfEmpty side price).Sound)
    (filed : (book.eraseIfEmpty side price).ledger.Filed)
    (best : (book.eraseIfEmpty side price).ledger.Leads side price) :
    ∃ matched, matchLevel side incoming price iterations book remaining = some matched ∧
      LevelMatched side incoming price book remaining matched := by
  induction iterations generalizing book remaining level with
  | zero => omega
  | succ iterations ih =>
    by_cases goes : 0 < remaining ∧ level.isEmpty = false
    · obtain ⟨positive, nonempty⟩ := goes
      obtain ⟨elem, rest, queue⟩ : ∃ elem rest, level.mOrders = elem :: rest := by
        cases orders : level.mOrders with
        | nil => simp [PriceLevel.isEmpty, orders] at nonempty
        | cons elem rest => exact ⟨elem, rest, rfl⟩
      have whole := eraseIfEmpty_of_ne_nil present (by simp [queue])
      rw [whole] at sound filed best
      obtain ⟨first, firstRun, firstMatched⟩ :=
        sound.matchFirst filed side incoming present queue best crosses positive
      obtain ⟨event, step, out⟩ := firstMatched.step
      obtain ⟨next, nextPresent, nextQueue⟩ := firstMatched.level
      have nextEnough : first.remainingQty = 0 ∧ 0 < iterations ∨
          next.mOrders.length < iterations := by
        have notZero : remaining ≠ 0 := UInt32.pos_iff_ne_zero.mp positive
        have longer := enough.resolve_left (fun both => notZero both.1)
        simp only [queue, List.length_cons] at longer
        rcases nextQueue with shorter | filled
        · right
          rw [shorter]
          omega
        · left
          exact ⟨filled, by omega⟩
      obtain ⟨matched, run, levelMatched⟩ := ih first.book first.remainingQty next nextPresent
        nextEnough firstMatched.sound (step.filed filed) (step.leads best)
      obtain ⟨events, sweep, laterOut⟩ := levelMatched.sweep
      refine ⟨⟨matched.book, matched.remainingQty, first.out.append matched.out⟩, ?_,
        levelMatched.sound, ⟨event :: events, ?_, ?_⟩, levelMatched.level,
        levelMatched.symbol.trans firstMatched.symbol, levelMatched.size.trans firstMatched.size⟩
      · simp only [matchLevel, present, bind, Option.bind, if_pos (And.intro positive nonempty),
          firstRun, run]
      · rw [whole]
        exact Ledger.Sweep.step step sweep
      · rw [out, laterOut, firstMatched.symbol]
        rfl
    · refine ⟨⟨book, remaining, Outputs.none⟩, ?_, sound,
        ⟨[], Ledger.Sweep.done _ _, rfl⟩, ⟨level, present, ?_⟩, rfl, rfl⟩
      · simp only [matchLevel, present, bind, Option.bind, if_neg goes]
      · by_cases zero : remaining = 0
        · exact Or.inl zero
        · right
          have positive : 0 < remaining := UInt32.pos_iff_ne_zero.mpr zero
          simpa [PriceLevel.isEmpty, positive] using goes

/-- A price that comes later in a side trades only where an earlier one does. -/
theorem canTrade_of_before {side : BookSide} {price other limit : Price}
    (earlier : side.before price other) (crosses : canTrade side other limit = true) :
    canTrade side price limit = true := by
  cases side with
  | Buy =>
    simp only [BookSide.before, canTrade, decide_eq_true_eq] at *
    exact UInt32.le_trans crosses (UInt32.le_of_lt earlier)
  | Sell =>
    simp only [BookSide.before, canTrade, decide_eq_true_eq] at *
    exact UInt32.le_trans (UInt32.le_of_lt earlier) crosses

/-- The front price of a side leads it in the ledger. -/
theorem leads_of_begin? {book : OrderBook} {side : BookSide} {price : Price} {level : PriceLevel}
    (front : (book.getBook side).begin? = some (price, level)) :
    book.ledger.Leads side price := by
  intro other occupied
  cases found : book.level side other with
  | none =>
    refine absurd ?_ occupied
    change (book.queueAt (side, other)).map book.idAt = []
    simp [queueAt, found]
  | some later => exact OrderedMap.before_of_begin? front found

/-- What the outer loop leaves behind. -/
structure Swept (side : BookSide) (incoming : OrderRequest) (book : OrderBook)
    (remaining : Quantity) (matched : Matched) : Prop where
  /-- The book is sound. -/
  sound : matched.book.Sound
  /-- The iterations are a trace of the ledger. -/
  sweep : ∃ events, Ledger.Sweep side incoming book.ledger remaining events matched.book.ledger
    matched.remainingQty ∧ matched.out = Ledger.outputsOf book.symbol side incoming events
  /-- Nothing is left to match. -/
  exhausted : Ledger.Exhausted side incoming.m_price matched.book.ledger matched.remainingQty
  /-- The instrument stays. -/
  symbol : matched.book.symbol = book.symbol

/-- With more iterations than levels the outer loop ends, after a trace of the ledger that
leaves nothing to match. -/
theorem matchLevels_sweeps (side : BookSide) (incoming : OrderRequest) (iterations : Nat)
    (book : OrderBook) (remaining : Quantity)
    (enough : remaining = 0 ∧ 0 < iterations ∨ (book.getBook side).size < iterations)
    (sound : book.Sound) (filed : book.ledger.Filed) :
    ∃ matched, matchLevels side incoming iterations book remaining = some matched ∧
      Swept side incoming book remaining matched := by
  induction iterations generalizing book remaining with
  | zero => omega
  | succ iterations ih =>
    by_cases positive : 0 < remaining
    · cases front : (book.getBook side).begin? with
      | none =>
        refine ⟨⟨book, remaining, Outputs.none⟩, by simp [matchLevels, positive, front], sound,
          ⟨[], Ledger.Sweep.done _ _, rfl⟩, Or.inr ?_, rfl⟩
        intro price occupied
        refine absurd ?_ occupied
        have missing : book.level side price = none := OrderedMap.find?_of_begin?_none front price
        change (book.queueAt (side, price)).map book.idAt = []
        simp [queueAt, missing]
      | some entry =>
        obtain ⟨price, level⟩ := entry
        have present : book.level side price = some level := OrderedMap.find?_of_begin? front
        have best := leads_of_begin? front
        by_cases crosses : canTrade side price incoming.m_price = true
        · have whole := eraseIfEmpty_of_ne_nil present (sound.occupied side price level present)
          obtain ⟨first, firstRun, levelMatched⟩ := matchLevel_sweeps side incoming crosses
            (level.mOrders.length + 1) book remaining level present (Or.inr (Nat.lt_succ_self _))
            (by rw [whole]; exact sound) (by rw [whole]; exact filed) (by rw [whole]; exact best)
          obtain ⟨events, sweep, out⟩ := levelMatched.sweep
          rw [whole] at sweep
          obtain ⟨last, lastPresent, lastQueue⟩ := levelMatched.level
          have nextEnough : first.remainingQty = 0 ∧ 0 < iterations ∨
              ((first.book.eraseIfEmpty side price).getBook side).size < iterations := by
            have occupied := OrderedMap.size_erase_of_find? present
            have notZero : remaining ≠ 0 := UInt32.pos_iff_ne_zero.mp positive
            have more := enough.resolve_left (fun both => notZero both.1)
            by_cases empty : last.mOrders = []
            · right
              have erased := OrderedMap.size_erase_of_find? lastPresent
              rw [eraseIfEmpty_of_nil lastPresent empty, eraseLevel, getBook_setBook]
              have same := levelMatched.size
              omega
            · left
              exact ⟨lastQueue.resolve_right empty, by omega⟩
          obtain ⟨matched, run, swept⟩ := ih _ first.remainingQty nextEnough levelMatched.sound
            (sweep.filed filed)
          obtain ⟨later, laterSweep, laterOut⟩ := swept.sweep
          have symbol : (first.book.eraseIfEmpty side price).symbol = book.symbol := by
            rw [← levelMatched.symbol]
            by_cases empty : last.mOrders = []
            · rw [eraseIfEmpty_of_nil lastPresent empty]
              exact symbol_setBook _ side _
            · rw [eraseIfEmpty_of_ne_nil lastPresent empty]
          refine ⟨⟨matched.book, matched.remainingQty, first.out.append matched.out⟩, ?_,
            swept.sound, ⟨events ++ later, sweep.trans laterSweep, ?_⟩, swept.exhausted,
            swept.symbol.trans symbol⟩
          · simp only [matchLevels, if_pos positive, front, crosses, if_true, firstRun, bind,
              Option.bind, run]
          · rw [Ledger.outputsOf_append, out, laterOut, symbol]
        · refine ⟨⟨book, remaining, Outputs.none⟩, ?_, sound,
            ⟨[], Ledger.Sweep.done _ _, rfl⟩, Or.inr ?_, rfl⟩
          · simp only [matchLevels, if_pos positive, front, if_neg crosses]
          · intro other occupied
            rw [Bool.eq_false_iff]
            intro otherCrosses
            rcases best other occupied with same | later
            · exact crosses (same ▸ otherCrosses)
            · exact crosses (canTrade_of_before later otherCrosses)
    · refine ⟨⟨book, remaining, Outputs.none⟩, by simp [matchLevels, positive], sound,
        ⟨[], Ledger.Sweep.done _ _, rfl⟩, Or.inl ?_, rfl⟩
      exact UInt32.le_zero_iff.mp (UInt32.not_lt.mp positive)

/-- `matchAgainst` on a sound book returns, after a trace of the ledger that leaves nothing
to match. -/
theorem Sound.matchAgainst {book : OrderBook} (sound : book.Sound) (filed : book.ledger.Filed)
    (side : BookSide) (incoming : OrderRequest) (remaining : Quantity) :
    ∃ matched, book.matchAgainst side incoming remaining = some matched ∧
      Swept side incoming book remaining matched :=
  matchLevels_sweeps side incoming _ book remaining (Or.inr (Nat.lt_succ_self _)) sound filed

end OrderBook

end Exchange
