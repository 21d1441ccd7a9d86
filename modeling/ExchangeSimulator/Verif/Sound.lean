import ExchangeSimulator.Verif.Ledger

/-!
# Sound books and their ledgers

A book is sound when its pointers are: every queued pointer leads to an element
that the order map leads back to, every mapped pointer leads to an element of
its own id with details, and every level stands under its price and is occupied.
A sound book has a ledger. Each update of the source touches the levels of one
price, one element with its details, or the entry of one order; for each of
these the book stays sound and the ledger changes by one operation.
-/

namespace Exchange

open Library

namespace OrderBook

/-- Pointers queued at a slot. -/
def queueAt (book : OrderBook) (slot : Slot) : List Addr :=
  match book.level slot.1 slot.2 with
  | none => []
  | some level => level.mOrders

/-- The total kept at a slot. -/
def totalAt (book : OrderBook) (slot : Slot) : Quantity :=
  match book.level slot.1 slot.2 with
  | none => 0
  | some level => level.mTotalQty

/-- The levels of both sides, bids first. -/
def levels (book : OrderBook) : List PriceLevel :=
  book.bids.entries.map Prod.snd ++ book.asks.entries.map Prod.snd

/-- The id behind a pointer. -/
def idAt (book : OrderBook) (elem : Addr) : OrderId :=
  match book.heap.read elem with
  | none => 0
  | some element => element.m_id

/-- What the maps say of an order id. -/
def resting (book : OrderBook) (id : OrderId) : Option Resting := do
  let elem ← book.orderMap id
  let element ← book.heap.read elem
  let detail ← book.orderDetails id
  some ⟨detail.side, detail.price, detail.quantity, element.m_traderId, element.m_quantity⟩

/-- The ledger of a book. -/
def ledger (book : OrderBook) : Ledger where
  queue slot := (book.queueAt slot).map book.idAt
  record := book.resting
  total := book.totalAt

/-- The pointers of the book are in order. -/
structure Sound (book : OrderBook) : Prop where
  /-- A level stands under its own price. -/
  priced : ∀ side price level, book.level side price = some level → level.mPrice = price
  /-- No level is empty. -/
  occupied : ∀ side price level, book.level side price = some level → level.mOrders ≠ []
  /-- A queued pointer leads to an element that is mapped to it. -/
  queued : ∀ slot, ∀ elem ∈ book.queueAt slot, ∃ element,
    book.heap.read elem = some element ∧ book.orderMap element.m_id = some elem
  /-- A mapped pointer leads to an element of that id, which has details. -/
  mapped : ∀ id elem, book.orderMap id = some elem → ∃ element detail,
    book.heap.read elem = some element ∧ element.m_id = id ∧ book.orderDetails id = some detail
  /-- Details belong to a mapped order. -/
  detailed : ∀ id detail, book.orderDetails id = some detail → ∃ elem, book.orderMap id = some elem
  /-- No element is allocated without being mapped. -/
  owned : ∀ elem element, book.heap.read elem = some element →
    book.orderMap element.m_id = some elem

/-! ## Levels -/

/-- Reading one side after writing it. -/
theorem level_setBook (book : OrderBook) (side other : BookSide) (levels : Levels side)
    (price : Price) : (book.setBook side levels).level other price =
      if other = side then levels.find? price else book.level other price := by
  cases side <;> cases other <;> rfl

/-- Reading a level after writing one. -/
theorem level_setLevel (book : OrderBook) (side other : BookSide) (price where' : Price)
    (level : PriceLevel) : (book.setLevel side price level).level other where' =
      if (other, where') = (side, price) then some level else book.level other where' := by
  rw [setLevel, level_setBook]
  by_cases same : other = side
  · subst same
    rw [if_pos rfl, OrderedMap.find?_insert]
    by_cases here : price = where'
    · simp [here]
    · rw [if_neg here, if_neg (by simp [Ne.symm here])]
      rfl
  · rw [if_neg same, if_neg (by simp [same])]

/-- Reading a level after erasing one. -/
theorem level_eraseLevel (book : OrderBook) (side other : BookSide) (price where' : Price) :
    (book.eraseLevel side price).level other where' =
      if (other, where') = (side, price) then none else book.level other where' := by
  rw [eraseLevel, level_setBook]
  by_cases same : other = side
  · subst same
    rw [if_pos rfl, OrderedMap.find?_erase]
    by_cases here : price = where'
    · simp [here]
    · rw [if_neg here, if_neg (by simp [Ne.symm here])]
      rfl
  · rw [if_neg same, if_neg (by simp [same])]

/-- Writing a side twice keeps the second. -/
theorem setBook_setBook (book : OrderBook) (side : BookSide) (first second : Levels side) :
    (book.setBook side first).setBook side second = book.setBook side second := by
  cases side <;> rfl

/-- The side just written. -/
theorem getBook_setBook (book : OrderBook) (side : BookSide) (levels : Levels side) :
    (book.setBook side levels).getBook side = levels := by
  cases side <;> rfl

/-- Writing a side leaves the order map alone. -/
@[simp]
theorem orderMap_setBook (book : OrderBook) (side : BookSide) (levels : Levels side) :
    (book.setBook side levels).orderMap = book.orderMap := by
  cases side <;> rfl

/-- Writing a side leaves the details alone. -/
@[simp]
theorem orderDetails_setBook (book : OrderBook) (side : BookSide) (levels : Levels side) :
    (book.setBook side levels).orderDetails = book.orderDetails := by
  cases side <;> rfl

/-- Writing a side leaves the elements alone. -/
@[simp]
theorem heap_setBook (book : OrderBook) (side : BookSide) (levels : Levels side) :
    (book.setBook side levels).heap = book.heap := by
  cases side <;> rfl

/-- Writing a side leaves the instrument alone. -/
@[simp]
theorem symbol_setBook (book : OrderBook) (side : BookSide) (levels : Levels side) :
    (book.setBook side levels).symbol = book.symbol := by
  cases side <;> rfl

/-- The level of a price written anew, or erased when its queue is empty. -/
def replaceLevel (book : OrderBook) (side : BookSide) (price : Price) (level : PriceLevel) :
    OrderBook :=
  if level.mOrders = [] then book.eraseLevel side price else book.setLevel side price level

/-- A replaced level leaves the order map alone. -/
@[simp]
theorem orderMap_replaceLevel (book : OrderBook) (side : BookSide) (price : Price)
    (level : PriceLevel) : (book.replaceLevel side price level).orderMap = book.orderMap := by
  simp only [replaceLevel, eraseLevel, setLevel]
  split <;> simp

/-- A replaced level leaves the details alone. -/
@[simp]
theorem orderDetails_replaceLevel (book : OrderBook) (side : BookSide) (price : Price)
    (level : PriceLevel) :
    (book.replaceLevel side price level).orderDetails = book.orderDetails := by
  simp only [replaceLevel, eraseLevel, setLevel]
  split <;> simp

/-- A replaced level leaves the elements alone. -/
@[simp]
theorem heap_replaceLevel (book : OrderBook) (side : BookSide) (price : Price)
    (level : PriceLevel) : (book.replaceLevel side price level).heap = book.heap := by
  simp only [replaceLevel, eraseLevel, setLevel]
  split <;> simp

/-- A replaced level leaves the instrument alone. -/
@[simp]
theorem symbol_replaceLevel (book : OrderBook) (side : BookSide) (price : Price)
    (level : PriceLevel) : (book.replaceLevel side price level).symbol = book.symbol := by
  simp only [replaceLevel, eraseLevel, setLevel]
  split <;> simp

/-- Reading a level after replacing one. -/
theorem level_replaceLevel (book : OrderBook) (side other : BookSide) (price where' : Price)
    (level : PriceLevel) : (book.replaceLevel side price level).level other where' =
      if (other, where') = (side, price) then
        if level.mOrders = [] then none else some level
      else book.level other where' := by
  unfold replaceLevel
  by_cases empty : level.mOrders = []
  · rw [if_pos empty, level_eraseLevel, if_pos empty]
  · rw [if_neg empty, level_setLevel, if_neg empty]

/-- Queues after replacing a level. -/
theorem queueAt_replaceLevel (book : OrderBook) (side : BookSide) (price : Price)
    (level : PriceLevel) (slot : Slot) : (book.replaceLevel side price level).queueAt slot =
      if slot = (side, price) then level.mOrders else book.queueAt slot := by
  simp only [queueAt, level_replaceLevel]
  by_cases here : slot = (side, price)
  · subst here
    by_cases empty : level.mOrders = []
    · simp [empty]
    · simp [empty]
  · simp [here]

/-- Totals after replacing a level. -/
theorem totalAt_replaceLevel (book : OrderBook) (side : BookSide) (price : Price)
    (level : PriceLevel) (slot : Slot) : (book.replaceLevel side price level).totalAt slot =
      if slot = (side, price) then if level.mOrders = [] then 0 else level.mTotalQty
      else book.totalAt slot := by
  simp only [totalAt, level_replaceLevel]
  by_cases here : slot = (side, price)
  · subst here
    by_cases empty : level.mOrders = []
    · simp [empty]
    · simp [empty]
  · simp [here]

/-- A level replaced by one under its price, with pointers that lead to mapped elements,
keeps a book sound. -/
theorem Sound.replaceLevel {book : OrderBook} (sound : book.Sound) (side : BookSide)
    (price : Price) (level : PriceLevel) (priced : level.mPrice = price)
    (queued : ∀ elem ∈ level.mOrders, ∃ element, book.heap.read elem = some element ∧
      book.orderMap element.m_id = some elem) : (book.replaceLevel side price level).Sound where
  priced := by
    intro other where' found present
    rw [level_replaceLevel] at present
    split at present
    · rename_i here
      cases here
      split at present
      · contradiction
      · cases present
        exact priced
    · exact sound.priced other where' found present
  occupied := by
    intro other where' found present
    rw [level_replaceLevel] at present
    split at present
    · split at present
      · contradiction
      · rename_i nonempty
        cases present
        exact nonempty
    · exact sound.occupied other where' found present
  queued := by
    intro slot elem member
    rw [queueAt_replaceLevel] at member
    rw [heap_replaceLevel, orderMap_replaceLevel]
    split at member
    · exact queued elem member
    · exact sound.queued slot elem member
  mapped := by
    simp only [orderMap_replaceLevel, heap_replaceLevel, orderDetails_replaceLevel]
    exact sound.mapped
  detailed := by
    simp only [orderMap_replaceLevel, orderDetails_replaceLevel]
    exact sound.detailed
  owned := by
    simp only [orderMap_replaceLevel, heap_replaceLevel]
    exact sound.owned

/-- A replaced level leaves the id behind each pointer alone. -/
@[simp]
theorem idAt_replaceLevel (book : OrderBook) (side : BookSide) (price : Price)
    (level : PriceLevel) : (book.replaceLevel side price level).idAt = book.idAt := by
  funext elem
  simp only [idAt, heap_replaceLevel]

/-- The ledger after replacing a level. -/
theorem ledger_replaceLevel (book : OrderBook) (side : BookSide) (price : Price)
    (level : PriceLevel) : (book.replaceLevel side price level).ledger =
      { queue := Function.update book.ledger.queue (side, price) (level.mOrders.map book.idAt)
        record := book.ledger.record
        total := Function.update book.ledger.total (side, price)
          (if level.mOrders = [] then 0 else level.mTotalQty) } := by
  apply Ledger.ext_fields
  · funext slot
    simp only [ledger, queueAt_replaceLevel, Function.update_apply]
    split <;> rw [idAt_replaceLevel]
  · funext id
    simp only [ledger, resting, orderMap_replaceLevel, heap_replaceLevel,
      orderDetails_replaceLevel]
  · funext slot
    simp only [ledger, totalAt_replaceLevel, Function.update_apply]

/-! ## Elements -/

/-- The id behind a pointer to an element. -/
theorem idAt_of_read {book : OrderBook} {elem : Addr} {element : BookElement}
    (read : book.heap.read elem = some element) : book.idAt elem = element.m_id := by
  simp only [idAt, read]

/-- What the maps say of a mapped order with an element and details. -/
theorem resting_of_parts {book : OrderBook} {id : OrderId} {elem : Addr}
    {element : BookElement} {detail : OrderDetails} (mapped : book.orderMap id = some elem)
    (read : book.heap.read elem = some element) (details : book.orderDetails id = some detail) :
    book.resting id = some ⟨detail.side, detail.price, detail.quantity, element.m_traderId,
      element.m_quantity⟩ := by
  simp only [resting, mapped, read, details, bind, Option.bind]

/-- A resting order of a sound book has a pointer, an element and details. -/
theorem Sound.parts {book : OrderBook} (sound : book.Sound) {id : OrderId} {elem : Addr}
    (mapped : book.orderMap id = some elem) : ∃ element detail,
      book.heap.read elem = some element ∧ element.m_id = id ∧
      book.orderDetails id = some detail ∧
      book.resting id = some ⟨detail.side, detail.price, detail.quantity, element.m_traderId,
        element.m_quantity⟩ := by
  obtain ⟨element, detail, read, same, details⟩ := sound.mapped id elem mapped
  exact ⟨element, detail, read, same, details, resting_of_parts mapped read details⟩

/-- An order rests exactly when it is mapped. -/
theorem Sound.resting_eq_none {book : OrderBook} (sound : book.Sound) (id : OrderId) :
    book.resting id = none ↔ book.orderMap id = none := by
  cases mapped : book.orderMap id with
  | none => simp [resting, mapped]
  | some elem =>
    obtain ⟨element, detail, _, _, _, found⟩ := sound.parts mapped
    simp [found]

/-- A resting order is mapped. -/
theorem Sound.mapped_of_resting {book : OrderBook} (sound : book.Sound) {id : OrderId}
    {order : Resting} (recorded : book.resting id = some order) :
    ∃ elem, book.orderMap id = some elem := by
  rw [← Option.ne_none_iff_exists', ne_eq, ← sound.resting_eq_none, recorded]
  exact Option.some_ne_none order

/-- In a sound book one pointer leads to one id and back. -/
theorem Sound.pointer_unique {book : OrderBook} (sound : book.Sound) {slot other : Slot}
    {left right : Addr} (here : left ∈ book.queueAt slot) (there : right ∈ book.queueAt other)
    (same : book.idAt left = book.idAt right) : left = right := by
  obtain ⟨element, read, mapped⟩ := sound.queued slot left here
  obtain ⟨twin, twinRead, twinMapped⟩ := sound.queued other right there
  rw [idAt_of_read read, idAt_of_read twinRead] at same
  rw [same, twinMapped] at mapped
  exact (Option.some.inj mapped).symm

/-- The pointer of an order that waits in the ledger is queued in the book. -/
theorem Sound.queued_of_mem {book : OrderBook} (sound : book.Sound) {slot : Slot} {id : OrderId}
    {elem : Addr} (member : id ∈ book.ledger.queue slot) (mapped : book.orderMap id = some elem) :
    elem ∈ book.queueAt slot := by
  obtain ⟨pointer, queued, same⟩ := List.mem_map.mp member
  obtain ⟨element, read, back⟩ := sound.queued slot pointer queued
  rw [idAt_of_read read] at same
  rw [same, mapped] at back
  cases back
  exact queued

/-- The levels of a book are those its sides find. -/
theorem mem_levels {book : OrderBook} {level : PriceLevel} :
    level ∈ book.levels ↔ ∃ side price, book.level side price = some level := by
  have found (side : BookSide) : level ∈ (book.getBook side).entries.map Prod.snd ↔
      ∃ price, book.level side price = some level := by
    rw [List.mem_map]
    constructor
    · rintro ⟨⟨price, _⟩, member, rfl⟩
      exact ⟨price, OrderedMap.findIn_of_mem (book.getBook side).sorted member⟩
    · rintro ⟨price, present⟩
      exact ⟨(price, level), OrderedMap.mem_of_findIn present, rfl⟩
  rw [levels, List.mem_append]
  constructor
  · rintro (bid | ask)
    · exact ⟨.Buy, (found .Buy).mp bid⟩
    · exact ⟨.Sell, (found .Sell).mp ask⟩
  · rintro ⟨side, present⟩
    cases side with
    | Buy => exact Or.inl ((found .Buy).mpr present)
    | Sell => exact Or.inr ((found .Sell).mpr present)

/-- A queued pointer leads to the element of a resting order. -/
theorem Sound.queued_resting {book : OrderBook} (sound : book.Sound) {slot : Slot} {elem : Addr}
    (member : elem ∈ book.queueAt slot) : ∃ element order,
      book.heap.read elem = some element ∧ book.resting element.m_id = some order ∧
      order.element element.m_id = element := by
  obtain ⟨element, read, mapped⟩ := sound.queued slot elem member
  obtain ⟨_, detail, _, _, details⟩ := sound.mapped _ _ mapped
  exact ⟨element, _, read, resting_of_parts mapped read details, rfl⟩

/-- Overwrite an element and its details, as the source does through the two pointers. -/
def setElement (book : OrderBook) (elem : Addr) (element : BookElement) (detail : OrderDetails) :
    OrderBook :=
  { book with
    heap := book.heap.write elem element
    orderDetails := Function.update book.orderDetails element.m_id (some detail) }

/-- Overwriting an element under its own id leaves the id behind each pointer alone. -/
theorem idAt_setElement {book : OrderBook} {elem : Addr} {element : BookElement}
    (read : book.heap.read elem = some element) {next : BookElement}
    (same : next.m_id = element.m_id) (detail : OrderDetails) :
    (book.setElement elem next detail).idAt = book.idAt := by
  funext other
  simp only [idAt, setElement, Heap.read_write read]
  by_cases here : other = elem
  · subst here
    simp [read, same]
  · simp [here]

/-- An element overwritten under its own id keeps a book sound. -/
theorem Sound.setElement {book : OrderBook} (sound : book.Sound) {elem : Addr}
    {element : BookElement} (read : book.heap.read elem = some element) (next : BookElement)
    (same : next.m_id = element.m_id) (detail : OrderDetails) :
    (book.setElement elem next detail).Sound where
  priced := sound.priced
  occupied := sound.occupied
  queued := by
    intro slot other member
    obtain ⟨found, foundRead, mapped⟩ := sound.queued slot other member
    simp only [OrderBook.setElement, Heap.read_write read]
    by_cases here : other = elem
    · subst here
      rw [read] at foundRead
      cases foundRead
      exact ⟨next, by simp, by rw [same]; exact mapped⟩
    · exact ⟨found, by simp [here, foundRead], mapped⟩
  mapped := by
    intro id other mapped
    obtain ⟨found, old, foundRead, foundId, details⟩ := sound.mapped id other mapped
    simp only [OrderBook.setElement, Heap.read_write read, Function.update_apply]
    by_cases here : other = elem
    · subst here
      rw [read] at foundRead
      cases foundRead
      exact ⟨next, detail, by simp, same.trans foundId, by simp [same, foundId]⟩
    · have apart : id ≠ next.m_id := by
        rintro rfl
        have owner := sound.owned elem element read
        rw [← same] at owner
        exact here (Option.some.inj (mapped.symm.trans owner))
      exact ⟨found, old, by simp [here, foundRead], foundId, by simp [apart, details]⟩
  detailed := by
    intro id found details
    simp only [OrderBook.setElement, Function.update_apply] at details ⊢
    split at details
    · rename_i here
      exact ⟨elem, by rw [here, same]; exact sound.owned elem element read⟩
    · exact sound.detailed id found details
  owned := by
    intro other found foundRead
    simp only [OrderBook.setElement, Heap.read_write read] at foundRead ⊢
    split at foundRead
    · rename_i here
      cases foundRead
      rw [here, same]
      exact sound.owned elem element read
    · exact sound.owned other found foundRead

/-- The ledger after overwriting an element and its details. -/
theorem Sound.ledger_setElement {book : OrderBook} (sound : book.Sound) {elem : Addr}
    {element : BookElement} (read : book.heap.read elem = some element) (next : BookElement)
    (same : next.m_id = element.m_id) (detail : OrderDetails) :
    (book.setElement elem next detail).ledger = book.ledger.put element.m_id
      (some ⟨detail.side, detail.price, detail.quantity, next.m_traderId, next.m_quantity⟩) := by
  have owner := sound.owned elem element read
  apply Ledger.ext_fields
  · funext slot
    change (book.queueAt slot).map (book.setElement elem next detail).idAt = _
    rw [idAt_setElement read same]
    rfl
  · funext id
    change (book.setElement elem next detail).resting id =
      Function.update book.resting element.m_id _ id
    rw [Function.update_apply]
    by_cases here : id = element.m_id
    · rw [if_pos here]
      refine resting_of_parts (show _ = some elem from ?_) ?_ ?_
      · rw [here]
        exact owner
      · simp [OrderBook.setElement, Heap.read_write read]
      · simp [OrderBook.setElement, here, same]
    · rw [if_neg here]
      simp only [resting, OrderBook.setElement, Function.update_apply, same, if_neg here]
      cases mapped : book.orderMap id with
      | none => rfl
      | some other =>
        have apart : other ≠ elem := by
          rintro rfl
          obtain ⟨found, _, foundRead, foundId, _⟩ := sound.mapped id other mapped
          rw [read] at foundRead
          cases foundRead
          exact here foundId.symm
        simp only [bind, Option.bind, Heap.read_write read, if_neg apart]
  · rfl

/-- Deleting an order that is in no queue keeps a book sound. -/
theorem Sound.deleteOrder {book : OrderBook} (sound : book.Sound) {id : OrderId} {elem : Addr}
    (mapped : book.orderMap id = some elem) (gone : ∀ slot, elem ∉ book.queueAt slot) :
    (book.deleteOrder id elem).Sound where
  priced := sound.priced
  occupied := sound.occupied
  queued := by
    intro slot other member
    obtain ⟨element, read, back⟩ := sound.queued slot other member
    have apart : other ≠ elem := fun equal => gone slot (equal ▸ member)
    have foreign : element.m_id ≠ id := by
      intro equal
      rw [equal, mapped] at back
      exact apart (Option.some.inj back).symm
    refine ⟨element, ?_, ?_⟩
    · simp [OrderBook.deleteOrder, Heap.read_free, apart, read]
    · simp [OrderBook.deleteOrder, foreign, back]
  mapped := by
    intro other pointer found
    simp only [OrderBook.deleteOrder, Function.update_apply] at found ⊢
    split at found
    · contradiction
    · rename_i foreign
      obtain ⟨element, detail, read, same, details⟩ := sound.mapped other pointer found
      have apart : pointer ≠ elem := by
        rintro rfl
        obtain ⟨twin, _, twinRead, twinId, _⟩ := sound.mapped id pointer mapped
        rw [read] at twinRead
        cases twinRead
        exact foreign (same.symm.trans twinId)
      exact ⟨element, detail, by simp [Heap.read_free, apart, read], same,
        by simp [foreign, details]⟩
  detailed := by
    intro other detail details
    simp only [OrderBook.deleteOrder, Function.update_apply] at details ⊢
    split at details
    · contradiction
    · rename_i foreign
      obtain ⟨pointer, found⟩ := sound.detailed other detail details
      exact ⟨pointer, by simp [foreign, found]⟩
  owned := by
    intro other element read
    simp only [OrderBook.deleteOrder, Heap.read_free, Function.update_apply] at read ⊢
    split at read
    · contradiction
    · rename_i apart
      have back := sound.owned other element read
      have foreign : element.m_id ≠ id := by
        intro equal
        rw [equal, mapped] at back
        exact apart (Option.some.inj back).symm
      rw [if_neg foreign]
      exact back

/-- The ledger after deleting an order that is in no queue. -/
theorem Sound.ledger_deleteOrder {book : OrderBook} (sound : book.Sound) {id : OrderId}
    {elem : Addr} (mapped : book.orderMap id = some elem)
    (gone : ∀ slot, elem ∉ book.queueAt slot) :
    (book.deleteOrder id elem).ledger = book.ledger.put id none := by
  apply Ledger.ext_fields
  · funext slot
    change (book.queueAt slot).map (book.deleteOrder id elem).idAt =
      (book.queueAt slot).map book.idAt
    apply List.map_congr_left
    intro other member
    have apart : other ≠ elem := fun equal => gone slot (equal ▸ member)
    simp only [idAt, OrderBook.deleteOrder, Heap.read_free, if_neg apart]
  · funext other
    change (book.deleteOrder id elem).resting other = Function.update book.resting id none other
    rw [Function.update_apply]
    by_cases here : other = id
    · rw [if_pos here]
      simp [resting, OrderBook.deleteOrder, here]
    · rw [if_neg here]
      simp only [resting, OrderBook.deleteOrder, Function.update_apply, if_neg here]
      cases found : book.orderMap other with
      | none => rfl
      | some pointer =>
        have apart : pointer ≠ elem := by
          rintro rfl
          obtain ⟨element, _, read, same, _⟩ := sound.mapped other pointer found
          obtain ⟨twin, _, twinRead, twinId, _⟩ := sound.mapped id pointer mapped
          rw [read] at twinRead
          cases twinRead
          exact here (same.symm.trans twinId)
        simp only [bind, Option.bind, Heap.read_free, if_neg apart]
  · rfl

/-- Allocate and map a new order, as `addOrder` does before it queues the pointer. -/
def createOrder (book : OrderBook) (element : BookElement) (detail : OrderDetails) : OrderBook :=
  { book with
    heap := book.heap.alloc element
    orderMap := Function.update book.orderMap element.m_id (some book.heap.next)
    orderDetails := Function.update book.orderDetails element.m_id (some detail) }

/-- A queued pointer is not the next address. -/
theorem Sound.queued_ne_next {book : OrderBook} (sound : book.Sound) {slot : Slot} {elem : Addr}
    (member : elem ∈ book.queueAt slot) : elem ≠ book.heap.next := by
  obtain ⟨element, read, _⟩ := sound.queued slot elem member
  exact Nat.ne_of_lt (Heap.lt_next read)

/-- Creating an order with a new id keeps a book sound. -/
theorem Sound.createOrder {book : OrderBook} (sound : book.Sound) (element : BookElement)
    (detail : OrderDetails) (fresh : book.orderMap element.m_id = none) :
    (book.createOrder element detail).Sound where
  priced := sound.priced
  occupied := sound.occupied
  queued := by
    intro slot elem member
    have apart := sound.queued_ne_next (show elem ∈ book.queueAt slot from member)
    obtain ⟨found, read, back⟩ := sound.queued slot elem member
    have foreign : found.m_id ≠ element.m_id := by
      intro equal
      rw [equal, fresh] at back
      contradiction
    refine ⟨found, ?_, ?_⟩
    · simp [OrderBook.createOrder, Heap.read_alloc, apart, read]
    · simp [OrderBook.createOrder, foreign, back]
  mapped := by
    intro id elem mapped
    simp only [OrderBook.createOrder, Function.update_apply, Heap.read_alloc] at mapped ⊢
    split at mapped
    · rename_i here
      cases mapped
      exact ⟨element, detail, by simp, here.symm, by simp [here]⟩
    · rename_i foreign
      obtain ⟨found, old, read, same, details⟩ := sound.mapped id elem mapped
      have apart : elem ≠ book.heap.next := Nat.ne_of_lt (Heap.lt_next read)
      exact ⟨found, old, by simp [apart, read], same, by simp [foreign, details]⟩
  detailed := by
    intro id found details
    simp only [OrderBook.createOrder, Function.update_apply] at details ⊢
    split at details
    · rename_i here
      exact ⟨book.heap.next, by simp [here]⟩
    · rename_i foreign
      obtain ⟨elem, mapped⟩ := sound.detailed id found details
      exact ⟨elem, by simp [foreign, mapped]⟩
  owned := by
    intro elem found read
    simp only [OrderBook.createOrder, Heap.read_alloc, Function.update_apply] at read ⊢
    split at read
    · rename_i here
      cases read
      simp [here]
    · have back := sound.owned elem found read
      have foreign : found.m_id ≠ element.m_id := by
        intro equal
        rw [equal, fresh] at back
        contradiction
      rw [if_neg foreign]
      exact back

/-- The ledger after creating an order with a new id. -/
theorem Sound.ledger_createOrder {book : OrderBook} (sound : book.Sound) (element : BookElement)
    (detail : OrderDetails) :
    (book.createOrder element detail).ledger = book.ledger.put element.m_id
      (some ⟨detail.side, detail.price, detail.quantity, element.m_traderId,
        element.m_quantity⟩) := by
  apply Ledger.ext_fields
  · funext slot
    change (book.queueAt slot).map (book.createOrder element detail).idAt =
      (book.queueAt slot).map book.idAt
    apply List.map_congr_left
    intro elem member
    have apart := sound.queued_ne_next member
    simp only [idAt, OrderBook.createOrder, Heap.read_alloc, if_neg apart]
  · funext id
    change (book.createOrder element detail).resting id =
      Function.update book.resting element.m_id _ id
    rw [Function.update_apply]
    by_cases here : id = element.m_id
    · rw [if_pos here]
      refine resting_of_parts (show _ = some book.heap.next from ?_) ?_ ?_
      · simp [OrderBook.createOrder, here]
      · simp [OrderBook.createOrder, Heap.read_alloc]
      · simp [OrderBook.createOrder, here]
    · rw [if_neg here]
      simp only [resting, OrderBook.createOrder, Function.update_apply, if_neg here]
      cases mapped : book.orderMap id with
      | none => rfl
      | some elem =>
        obtain ⟨found, _, read, _, _⟩ := sound.mapped id elem mapped
        have apart : elem ≠ book.heap.next := Nat.ne_of_lt (Heap.lt_next read)
        simp only [bind, Option.bind, Heap.read_alloc, if_neg apart]
  · rfl

end OrderBook

end Exchange
