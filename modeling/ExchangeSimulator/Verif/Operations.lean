import ExchangeSimulator.Library.Run
import ExchangeSimulator.Verif.Matcher

/-!
# The operations refine the ledger

`LedgerStep` lists everything a call on a book can do to its ledger and emit.
Every call on a sound book with a filed ledger returns, keeps the book sound and
filed, and is one `LedgerStep`; so does every run from an empty book. Later
modules read properties of the book off `LedgerStep` alone.
-/

namespace Exchange

open Library

namespace Ledger

/-- Everything a call can do. A request to cancel or modify is rejected when the id
does not rest or belongs to another trader. -/
inductive LedgerStep (symbol : SymbolId) (ledger : Ledger) :
    BookRequest → Outputs → Ledger → Prop where
  | filled {incoming : OrderRequest} {events : List MatchEvent} {last : Ledger}
      (sweep : Sweep incoming.m_side.book.opposite incoming ledger incoming.m_quantity events
        last 0) :
      LedgerStep symbol ledger (.add incoming)
        ((OrderBook.acceptedOutputs symbol incoming).append
          (outputsOf symbol incoming.m_side.book.opposite incoming events)) last
  | rested {incoming : OrderRequest} {events : List MatchEvent} {last : Ledger}
      {remaining : Quantity}
      (sweep : Sweep incoming.m_side.book.opposite incoming ledger incoming.m_quantity events
        last remaining)
      (positive : 0 < remaining)
      (uncrossed : ∀ price, last.queue (incoming.m_side.book.opposite, price) ≠ [] →
        OrderBook.canTrade incoming.m_side.book.opposite price incoming.m_price = false) :
      LedgerStep symbol ledger (.add incoming)
        ((OrderBook.acceptedOutputs symbol incoming).append
          (outputsOf symbol incoming.m_side.book.opposite incoming events))
        (last.rest incoming.m_orderId (Resting.ofRequest incoming remaining))
  | cancelled {id : OrderId} {traderId : TraderId} {order : Resting}
      (recorded : ledger.record id = some order) (own : order.traderId = traderId) :
      LedgerStep symbol ledger (.cancel id traderId)
        (OrderBook.cancelOutputs symbol id traderId order.side order.price order.quantity)
        (ledger.drop order.slot id order.quantity)
  | cancelRejected {id : OrderId} {traderId : TraderId}
      (foreign : ∀ order, ledger.record id = some order → order.traderId ≠ traderId) :
      LedgerStep symbol ledger (.cancel id traderId)
        (OrderBook.rejectOutputs symbol id traderId) ledger
  | rewritten {id : OrderId} {traderId : TraderId} {newPrice : Price} {newQty : Quantity}
      {order : Resting} (recorded : ledger.record id = some order)
      (own : order.traderId = traderId) (stays : order.price = newPrice)
      (smaller : newQty < order.cachedQty) :
      LedgerStep symbol ledger (.modify id traderId newPrice newQty)
        (OrderBook.modifyOutputs symbol id traderId order.side newPrice newQty)
        (ledger.rewrite id (order.modify newPrice newQty))
  | requeued {id : OrderId} {traderId : TraderId} {newPrice : Price} {newQty : Quantity}
      {order : Resting} (recorded : ledger.record id = some order)
      (own : order.traderId = traderId)
      (moves : ¬(order.price = newPrice ∧ newQty < order.cachedQty)) :
      LedgerStep symbol ledger (.modify id traderId newPrice newQty)
        (OrderBook.modifyOutputs symbol id traderId order.side newPrice newQty)
        (ledger.requeue id order (order.modify newPrice newQty))
  | modifyRejected {id : OrderId} {traderId : TraderId} {newPrice : Price} {newQty : Quantity}
      (foreign : ∀ order, ledger.record id = some order → order.traderId ≠ traderId) :
      LedgerStep symbol ledger (.modify id traderId newPrice newQty)
        (OrderBook.rejectOutputs symbol id traderId) ledger

/-- An iteration adds no record. -/
theorem MatchStep.record_none {side : BookSide} {incoming : OrderRequest} {ledger next : Ledger}
    {remaining after : Quantity} {event : MatchEvent}
    (step : MatchStep side incoming ledger remaining event next after) {id : OrderId}
    (missing : ledger.record id = none) : next.record id = none := by
  cases step with
  | selfTrade =>
    rw [record_drop]
    split
    · rfl
    · exact missing
  | full =>
    rw [record_drop]
    split
    · rfl
    · exact missing
  | partly _ front =>
    rw [record_reduce]
    split
    · rename_i here
      rw [here, front.recorded] at missing
      contradiction
    · exact missing

/-- A trace adds no record. -/
theorem Sweep.record_none {side : BookSide} {incoming : OrderRequest} {ledger last : Ledger}
    {remaining final : Quantity} {events : List MatchEvent}
    (sweep : Sweep side incoming ledger remaining events last final) {id : OrderId}
    (missing : ledger.record id = none) : last.record id = none :=
  sweep.invariant (fun ledger _ => ledger.record id = none)
    (fun step missing => step.record_none missing) missing

/-- The new id of an `add` does not rest yet. -/
def Fresh (ledger : Ledger) : BookRequest → Prop
  | .add incoming => ledger.record incoming.m_orderId = none
  | _ => True

/-- A call keeps queues and records in agreement. -/
theorem LedgerStep.filed {symbol : SymbolId} {ledger next : Ledger} {request : BookRequest}
    {out : Outputs} (step : LedgerStep symbol ledger request out next) (filed : ledger.Filed)
    (fresh : ledger.Fresh request) : next.Filed := by
  cases step with
  | filled sweep => exact sweep.filed filed
  | rested sweep _ _ => exact (sweep.filed filed).rest (sweep.record_none fresh) _
  | cancelled recorded _ => exact filed.drop recorded _
  | cancelRejected => exact filed
  | rewritten recorded _ stays _ =>
    exact filed.rewrite recorded (by rw [← stays]; rfl)
  | requeued recorded _ _ => exact filed.requeue recorded _
  | modifyRejected => exact filed

end Ledger

namespace OrderBook

/-- A book with sound pointers and a filed ledger. -/
structure Good (book : OrderBook) : Prop where
  /-- The pointers are in order. -/
  sound : book.Sound
  /-- Queues and maps agree. -/
  filed : book.ledger.Filed

/-- The next address of a book is that of the created order. -/
theorem read_createOrder (book : OrderBook) (element : BookElement) (detail : OrderDetails) :
    (book.createOrder element detail).heap.read book.heap.next = some element := by
  simp [createOrder, Heap.read_alloc]

/-- An order created and queued last at its price, as the end of `addOrder` does. -/
def restOrder (book : OrderBook) (element : BookElement) (detail : OrderDetails) : OrderBook :=
  (book.createOrder element detail).replaceLevel detail.side.book detail.price
    ((book.createOrder element detail).moreLevel detail.side.book detail.price book.heap.next
      element.m_quantity)

/-- `addOrder` when shares are left: the remainder comes to rest. -/
theorem addOrder_rested {book : OrderBook} {incoming : OrderRequest} {matched : Matched}
    (ran : book.matchAgainst incoming.m_side.book.opposite incoming incoming.m_quantity =
      some matched) (sound : matched.book.Sound)
    (unmapped : matched.book.orderMap incoming.m_orderId = none)
    (left : matched.remainingQty ≠ 0) :
    book.addOrder incoming = some (matched.book.restOrder
      ⟨incoming.m_orderId, incoming.m_traderId, matched.remainingQty⟩
      ⟨incoming.m_side, incoming.m_price, matched.remainingQty⟩,
      (acceptedOutputs book.symbol incoming).append matched.out) := by
  have created := sound.createOrder
    ⟨incoming.m_orderId, incoming.m_traderId, matched.remainingQty⟩
    ⟨incoming.m_side, incoming.m_price, matched.remainingQty⟩ unmapped
  have inserted := created.insertIntoLevel_eq incoming.m_side.book incoming.m_price
    (read_createOrder matched.book _ _)
  simp only [OrderBook.addOrder, ran, bind, Option.bind, if_neg left]
  simp only [OrderBook.createOrder] at inserted
  rw [inserted]
  rfl

/-- `addOrder` when no share is left. -/
theorem addOrder_filled {book : OrderBook} {incoming : OrderRequest} {matched : Matched}
    (ran : book.matchAgainst incoming.m_side.book.opposite incoming incoming.m_quantity =
      some matched) (done : matched.remainingQty = 0) :
    book.addOrder incoming = some (matched.book,
      (acceptedOutputs book.symbol incoming).append matched.out) := by
  simp only [OrderBook.addOrder, ran, bind, Option.bind, if_pos done]

/-- The ledger with an order that came to rest. -/
theorem Sound.ledger_restOrder {book : OrderBook} (sound : book.Sound) (element : BookElement)
    (detail : OrderDetails) : (book.restOrder element detail).ledger =
      (book.ledger.put element.m_id (some ⟨detail.side, detail.price, detail.quantity,
        element.m_traderId, element.m_quantity⟩)).link (detail.side.book, detail.price)
          element.m_id element.m_quantity := by
  rw [OrderBook.restOrder, ledger_moreLevel detail.side.book detail.price
    (read_createOrder book element detail), sound.ledger_createOrder]

/-- `addOrder` returns and is a step of the ledger. -/
theorem Good.addOrder {book : OrderBook} (good : book.Good) (incoming : OrderRequest)
    (fresh : book.resting incoming.m_orderId = none) :
    ∃ next out, book.addOrder incoming = some (next, out) ∧ next.Sound ∧
      next.symbol = book.symbol ∧
      Ledger.LedgerStep book.symbol book.ledger (.add incoming) out next.ledger := by
  obtain ⟨matched, run, swept⟩ := good.sound.matchAgainst good.filed
    incoming.m_side.book.opposite incoming incoming.m_quantity
  obtain ⟨events, sweep, out⟩ := swept.sweep
  by_cases done : matched.remainingQty = 0
  · refine ⟨_, _, addOrder_filled run done, swept.sound, swept.symbol, ?_⟩
    rw [out]
    rw [done] at sweep
    exact Ledger.LedgerStep.filled sweep
  · have positive : 0 < matched.remainingQty := UInt32.pos_iff_ne_zero.mpr done
    have missing : matched.book.resting incoming.m_orderId = none := sweep.record_none fresh
    have unmapped := (swept.sound.resting_eq_none _).mp missing
    have created := swept.sound.createOrder
      ⟨incoming.m_orderId, incoming.m_traderId, matched.remainingQty⟩
      ⟨incoming.m_side, incoming.m_price, matched.remainingQty⟩ unmapped
    have read := read_createOrder matched.book
      ⟨incoming.m_orderId, incoming.m_traderId, matched.remainingQty⟩
      ⟨incoming.m_side, incoming.m_price, matched.remainingQty⟩
    refine ⟨_, _, addOrder_rested run swept.sound unmapped done,
      created.moreLevel incoming.m_side.book incoming.m_price read matched.remainingQty, ?_, ?_⟩
    · rw [restOrder, symbol_replaceLevel, ← swept.symbol]
      rfl
    · rw [swept.sound.ledger_restOrder, out]
      exact Ledger.LedgerStep.rested sweep positive (swept.exhausted.resolve_left done)

/-- The level a resting order is queued in. -/
theorem Good.queued {book : OrderBook} (good : book.Good) {id : OrderId} {elem : Addr}
    {order : Resting} (mapped : book.orderMap id = some elem)
    (recorded : book.resting id = some order) :
    ∃ level, book.level order.side.book order.price = some level ∧ elem ∈ level.mOrders :=
  level_of_mem (good.sound.queued_of_mem (good.filed.mem recorded) mapped)

/-- `cancelOrder` by the owner: the order is taken out of its level and deleted. -/
theorem cancelOrder_accepted {book : OrderBook} {elem : Addr} {element : BookElement}
    {detail : OrderDetails} {level : PriceLevel}
    (mapped : book.orderMap element.m_id = some elem) (read : book.heap.read elem = some element)
    (details : book.orderDetails element.m_id = some detail)
    (present : book.level detail.side.book detail.price = some level)
    (member : elem ∈ level.mOrders) :
    book.cancelOrder element.m_id element.m_traderId = some
      ((book.replaceLevel detail.side.book detail.price
        (lessLevel level elem element.m_quantity)).deleteOrder element.m_id elem,
      cancelOutputs book.symbol element.m_id element.m_traderId detail.side detail.price
        element.m_quantity) := by
  simp only [OrderBook.cancelOrder, mapped, read, bind, Option.bind, if_true, details,
    removeFromLevel_eq present member read]

/-- `cancelOrder` returns and is a step of the ledger. -/
theorem Good.cancelOrder {book : OrderBook} (good : book.Good) (id : OrderId)
    (traderId : TraderId) :
    ∃ next out, book.cancelOrder id traderId = some (next, out) ∧ next.Sound ∧
      next.symbol = book.symbol ∧
      Ledger.LedgerStep book.symbol book.ledger (.cancel id traderId) out next.ledger := by
  cases mapped : book.orderMap id with
  | none =>
    have missing := (good.sound.resting_eq_none id).mpr mapped
    refine ⟨book, _, by simp only [OrderBook.cancelOrder, mapped], good.sound, rfl,
      Ledger.LedgerStep.cancelRejected ?_⟩
    intro order recorded
    rw [show book.ledger.record id = none from missing] at recorded
    contradiction
  | some elem =>
    obtain ⟨element, detail, read, rfl, details, resting⟩ := good.sound.parts mapped
    have recorded : book.ledger.record element.m_id = _ := resting
    by_cases own : element.m_traderId = traderId
    · subst own
      obtain ⟨level, present, member⟩ := good.queued mapped resting
      dsimp only at present
      obtain ⟨sound, ledger⟩ := good.sound.drop good.filed present member read element.m_quantity
      refine ⟨_, _, cancelOrder_accepted mapped read details present member, sound,
        symbol_replaceLevel book _ _ _, ?_⟩
      rw [ledger]
      exact Ledger.LedgerStep.cancelled recorded rfl
    · refine ⟨book, _, ?_, good.sound, rfl, Ledger.LedgerStep.cancelRejected ?_⟩
      · simp only [OrderBook.cancelOrder, mapped, read, bind, Option.bind, if_neg own]
      · intro order found
        rw [recorded] at found
        cases found
        exact own

/-- `modifyOrder` on an order of its owner that keeps its place. -/
theorem Sound.modifyOrder_inPlace {book : OrderBook} (sound : book.Sound) {elem : Addr}
    {element : BookElement} {detail : OrderDetails}
    (mapped : book.orderMap element.m_id = some elem) (read : book.heap.read elem = some element)
    (details : book.orderDetails element.m_id = some detail) {newPrice : Price} {newQty : Quantity}
    (stays : detail.price = newPrice ∧ newQty < detail.quantity) :
    ∃ next, book.modifyOrder element.m_id element.m_traderId newPrice newQty = some (next,
        modifyOutputs book.symbol element.m_id element.m_traderId detail.side newPrice newQty) ∧
      next.Sound ∧ next.symbol = book.symbol ∧ next.ledger = book.ledger.put element.m_id
        (some ⟨detail.side, newPrice, newQty, element.m_traderId, newQty⟩) := by
  refine ⟨book.setElement elem { element with m_quantity := newQty }
    { detail with quantity := newQty }, ?_, sound.setElement read _ (by rfl) _, rfl, ?_⟩
  · simp only [OrderBook.modifyOrder, mapped, read, bind, Option.bind, if_true, details,
      if_pos stays, OrderBook.setElement]
  · rw [sound.ledger_setElement read { element with m_quantity := newQty } rfl, ← stays.1]

/-- An element overwritten with its details and queued last at its price, as the end of
`modifyOrder` does. -/
def requeueOrder (book : OrderBook) (elem : Addr) (element : BookElement)
    (detail : OrderDetails) : OrderBook :=
  (book.setElement elem element detail).replaceLevel detail.side.book detail.price
    ((book.setElement elem element detail).moreLevel detail.side.book detail.price elem
      element.m_quantity)

/-- The element just overwritten. -/
theorem read_setElement {book : OrderBook} {elem : Addr} {old : BookElement}
    (read : book.heap.read elem = some old) (element : BookElement) (detail : OrderDetails) :
    (book.setElement elem element detail).heap.read elem = some element := by
  simp only [OrderBook.setElement, Heap.read_write read, if_true]

/-- `modifyOrder` by the owner when the order gives up its place. -/
theorem Sound.modifyOrder_requeued {book : OrderBook} (sound : book.Sound) {elem : Addr}
    {element : BookElement} {detail : OrderDetails} {level : PriceLevel}
    (mapped : book.orderMap element.m_id = some elem) (read : book.heap.read elem = some element)
    (details : book.orderDetails element.m_id = some detail)
    (present : book.level detail.side.book detail.price = some level)
    (member : elem ∈ level.mOrders) {newPrice : Price} {newQty : Quantity}
    (moves : ¬(detail.price = newPrice ∧ newQty < detail.quantity)) :
    book.modifyOrder element.m_id element.m_traderId newPrice newQty = some
      ((book.replaceLevel detail.side.book detail.price
        (OrderBook.lessLevel level elem element.m_quantity)).requeueOrder elem
          { element with m_quantity := newQty }
          { detail with price := newPrice, quantity := newQty },
      modifyOutputs book.symbol element.m_id element.m_traderId detail.side newPrice newQty) := by
  have removed := sound.lessLevel present elem element.m_quantity
  have removedRead : (book.replaceLevel detail.side.book detail.price
      (OrderBook.lessLevel level elem element.m_quantity)).heap.read elem = some element := by
    rw [heap_replaceLevel]
    exact read
  have updated := removed.setElement removedRead { element with m_quantity := newQty } rfl
    { detail with price := newPrice, quantity := newQty }
  have inserted := updated.insertIntoLevel_eq detail.side.book newPrice
    (read_setElement removedRead _ _)
  simp only [OrderBook.modifyOrder, mapped, read, bind, Option.bind, if_true, details,
    if_neg moves, removeFromLevel_eq present member read]
  simp only [OrderBook.setElement] at inserted
  rw [inserted]
  rfl

/-- `modifyOrder` on an order of its owner that goes to the back of a queue. -/
theorem Good.modifyOrder_requeue {book : OrderBook} (good : book.Good) {elem : Addr}
    {element : BookElement} {detail : OrderDetails}
    (mapped : book.orderMap element.m_id = some elem) (read : book.heap.read elem = some element)
    (details : book.orderDetails element.m_id = some detail) {newPrice : Price} {newQty : Quantity}
    (moves : ¬(detail.price = newPrice ∧ newQty < detail.quantity)) :
    ∃ next, book.modifyOrder element.m_id element.m_traderId newPrice newQty = some (next,
        modifyOutputs book.symbol element.m_id element.m_traderId detail.side newPrice newQty) ∧
      next.Sound ∧ next.symbol = book.symbol ∧ next.ledger = book.ledger.requeue element.m_id
        ⟨detail.side, detail.price, detail.quantity, element.m_traderId, element.m_quantity⟩
        ⟨detail.side, newPrice, newQty, element.m_traderId, newQty⟩ := by
  have resting := resting_of_parts mapped read details
  obtain ⟨level, present, member⟩ := good.queued mapped resting
  dsimp only at present
  have removed := good.sound.lessLevel present elem element.m_quantity
  have removedLedger := good.sound.ledger_lessLevel present member read element.m_quantity
  have removedRead : (book.replaceLevel detail.side.book detail.price
      (lessLevel level elem element.m_quantity)).heap.read elem = some element := by
    rw [heap_replaceLevel]
    exact read
  have updated := removed.setElement removedRead { element with m_quantity := newQty } rfl
    { detail with price := newPrice, quantity := newQty }
  have updatedLedger := removed.ledger_setElement removedRead { element with m_quantity := newQty }
    rfl { detail with price := newPrice, quantity := newQty }
  have updatedRead := read_setElement removedRead { element with m_quantity := newQty }
    { detail with price := newPrice, quantity := newQty }
  refine ⟨_, good.sound.modifyOrder_requeued mapped read details present member moves,
    updated.moreLevel detail.side.book newPrice updatedRead newQty, ?_, ?_⟩
  · rw [requeueOrder, symbol_replaceLevel]
    exact symbol_replaceLevel book _ _ _
  · rw [requeueOrder, ledger_moreLevel detail.side.book newPrice updatedRead, updatedLedger,
      removedLedger]
    apply Ledger.ext_fields
    · rfl
    · simp only [Ledger.requeue, Ledger.rest, Ledger.drop, Ledger.unlink, Ledger.put, Ledger.link,
        QueueIndex.unlink, QueueIndex.put, QueueIndex.link, Function.update_idem]
    · rfl

/-- `modifyOrder` returns and is a step of the ledger. -/
theorem Good.modifyOrder {book : OrderBook} (good : book.Good) (id : OrderId)
    (traderId : TraderId) (newPrice : Price) (newQty : Quantity) :
    ∃ next out, book.modifyOrder id traderId newPrice newQty = some (next, out) ∧ next.Sound ∧
      next.symbol = book.symbol ∧ Ledger.LedgerStep book.symbol book.ledger
        (.modify id traderId newPrice newQty) out next.ledger := by
  cases mapped : book.orderMap id with
  | none =>
    have missing := (good.sound.resting_eq_none id).mpr mapped
    refine ⟨book, _, by simp only [OrderBook.modifyOrder, mapped], good.sound, rfl,
      Ledger.LedgerStep.modifyRejected ?_⟩
    intro order recorded
    rw [show book.ledger.record id = none from missing] at recorded
    contradiction
  | some elem =>
    obtain ⟨element, detail, read, rfl, details, resting⟩ := good.sound.parts mapped
    have recorded : book.ledger.record element.m_id = _ := resting
    by_cases own : element.m_traderId = traderId
    · subst own
      by_cases stays : detail.price = newPrice ∧ newQty < detail.quantity
      · obtain ⟨next, run, sound, symbol, ledger⟩ :=
          good.sound.modifyOrder_inPlace mapped read details stays
        refine ⟨next, _, run, sound, symbol, ?_⟩
        rw [ledger]
        exact Ledger.LedgerStep.rewritten recorded rfl stays.1 stays.2
      · obtain ⟨next, run, sound, symbol, ledger⟩ :=
          good.modifyOrder_requeue mapped read details stays
        refine ⟨next, _, run, sound, symbol, ?_⟩
        rw [ledger]
        exact Ledger.LedgerStep.requeued recorded rfl stays
    · refine ⟨book, _, ?_, good.sound, rfl, Ledger.LedgerStep.modifyRejected ?_⟩
      · simp only [OrderBook.modifyOrder, mapped, read, bind, Option.bind, if_neg own]
      · intro order found
        rw [recorded] at found
        cases found
        exact own

/-- The new id of an `add` is not mapped yet. -/
def Fresh (book : OrderBook) : BookRequest → Prop
  | .add incoming => book.orderMap incoming.m_orderId = none
  | _ => True

instance (book : OrderBook) (request : BookRequest) : Decidable (book.Fresh request) :=
  match request with
  | .add incoming => inferInstanceAs (Decidable (book.orderMap incoming.m_orderId = none))
  | .cancel _ _ => inferInstanceAs (Decidable True)
  | .modify _ _ _ _ => inferInstanceAs (Decidable True)

/-- A fresh request is fresh for the ledger. -/
theorem Sound.fresh {book : OrderBook} (sound : book.Sound) {request : BookRequest}
    (fresh : book.Fresh request) : book.ledger.Fresh request := by
  cases request with
  | add incoming => exact (sound.resting_eq_none _).mpr fresh
  | cancel => trivial
  | modify => trivial

/-- Every call on a good book returns a good book and is a step of the ledger. -/
theorem Good.step {book : OrderBook} (good : book.Good) {request : BookRequest}
    (fresh : book.Fresh request) :
    ∃ next out, book.step request = some (next, out) ∧ next.Good ∧
      next.symbol = book.symbol ∧
      Ledger.LedgerStep book.symbol book.ledger request out next.ledger := by
  have filed {next : OrderBook} {out : Outputs} (sound : next.Sound)
      (step : Ledger.LedgerStep book.symbol book.ledger request out next.ledger) : next.Good :=
    ⟨sound, step.filed good.filed (good.sound.fresh fresh)⟩
  cases request with
  | add incoming =>
    obtain ⟨next, out, run, sound, symbol, step⟩ :=
      good.addOrder incoming (good.sound.fresh fresh)
    exact ⟨next, out, run, filed sound step, symbol, step⟩
  | cancel id traderId =>
    obtain ⟨next, out, run, sound, symbol, step⟩ := good.cancelOrder id traderId
    exact ⟨next, out, run, filed sound step, symbol, step⟩
  | modify id traderId newPrice newQty =>
    obtain ⟨next, out, run, sound, symbol, step⟩ := good.modifyOrder id traderId newPrice newQty
    exact ⟨next, out, run, filed sound step, symbol, step⟩

/-- A completed fresh call on a good book is a step of the ledger to a good book. -/
theorem Good.of_step {book next : OrderBook} (good : book.Good) {request : BookRequest}
    (fresh : book.Fresh request) {out : Outputs} (run : book.step request = some (next, out)) :
    next.Good ∧ next.symbol = book.symbol ∧
      Ledger.LedgerStep book.symbol book.ledger request out next.ledger := by
  obtain ⟨reached, emitted, ran, rest⟩ := good.step fresh
  rw [run] at ran
  cases ran
  exact rest

/-- The empty book is good. -/
theorem good_new (sym : SymbolId) : (OrderBook.new sym).Good where
  sound :=
    { priced := by intro side price level present; cases side <;> contradiction
      occupied := by intro side price level present; cases side <;> contradiction
      queued := by
        intro slot elem member
        obtain ⟨side, price⟩ := slot
        cases side <;> contradiction
      mapped := by intro id elem mapped; contradiction
      detailed := by intro id detail details; contradiction
      owned := by intro elem element read; contradiction }
  filed :=
    { waits := by
        intro slot id
        obtain ⟨side, price⟩ := slot
        cases side <;> constructor
        · intro member; contradiction
        · rintro ⟨order, recorded, _⟩; contradiction
        · intro member; contradiction
        · rintro ⟨order, recorded, _⟩; contradiction
      distinct := by
        intro slot
        obtain ⟨side, price⟩ := slot
        cases side <;> exact List.nodup_nil }

/-- A call that places an order. -/
def place (id : OrderId) (traderId : TraderId) (side : Side) (price : Price) (qty : Quantity) :
    BookRequest :=
  .add { m_orderId := id, m_traderId := traderId, m_side := side, m_price := price,
         m_quantity := qty }

/-- A book that a run of fresh calls reaches from the empty book. -/
def Reachable (book : OrderBook) : Prop :=
  ∃ sym requests outs, Guarded OrderBook.step OrderBook.Fresh (OrderBook.new sym) requests ∧
    run OrderBook.step (OrderBook.new sym) requests = some (book, outs)

/-- A guarded run keeps what each fresh call on a good book keeps, and each of its outputs has
what each such call gives its outputs. -/
theorem run_ledger {guard : OrderBook → BookRequest → Prop}
    (fresh : ∀ book request, guard book request → book.Fresh request)
    (invariant : Ledger → Prop) (property : Outputs → Prop)
    (preserved : ∀ (book : OrderBook) request out next, book.ledger.Filed →
      invariant book.ledger → guard book request →
      Ledger.LedgerStep book.symbol book.ledger request out next → invariant next ∧ property out)
    (requests : List BookRequest) (book : OrderBook) (good : book.Good)
    (holds : invariant book.ledger) (guarded : Guarded OrderBook.step guard book requests) :
    ∃ last outs, run OrderBook.step book requests = some (last, outs) ∧
      (last.Good ∧ invariant last.ledger) ∧ ∀ out ∈ outs, property out := by
  refine run_invariant (fun book => book.Good ∧ invariant book.ledger) property ?_ requests book
    ⟨good, holds⟩ guarded
  intro book request holds meets
  obtain ⟨next, out, ran, nextGood, _, step⟩ := holds.1.step (fresh book request meets)
  obtain ⟨nextHolds, emitted⟩ :=
    preserved book request out next.ledger holds.1.filed holds.2 meets step
  exact ⟨next, out, ran, ⟨nextGood, nextHolds⟩, emitted⟩

/-- A run of fresh calls from an empty book returns. It stays as wanted exactly under the
condition that is exact for each of its calls. -/
theorem always_iff {wanted : OrderBook → Prop} {emitted : Outputs → Prop}
    {condition : OrderBook → BookRequest → Prop}
    (exactly : ∀ (book : OrderBook) request out (next : OrderBook), book.Good → next.Good →
      wanted book → book.Fresh request →
      Ledger.LedgerStep book.symbol book.ledger request out next.ledger →
        (wanted next ∧ emitted out ↔ condition book request))
    (sym : SymbolId) (start : wanted (OrderBook.new sym)) (requests : List BookRequest)
    (fresh : Guarded OrderBook.step OrderBook.Fresh (OrderBook.new sym) requests) :
    (∃ last outs, run OrderBook.step (OrderBook.new sym) requests = some (last, outs)) ∧
      (Always OrderBook.step wanted emitted (OrderBook.new sym) requests ↔
        Guarded OrderBook.step condition (OrderBook.new sym) requests) := by
  constructor
  · obtain ⟨last, outs, ran, _⟩ := run_ledger (fun _ _ fresh => fresh) (fun _ => True)
      (fun _ => True) (fun _ _ _ _ _ _ _ _ => ⟨trivial, trivial⟩) requests _ (good_new sym)
      trivial fresh
    exact ⟨last, outs, ran⟩
  · refine always_iff_guarded Good wanted emitted condition ?_ requests _ (good_new sym) start
      fresh
    intro book request good wantedBook freshRequest
    obtain ⟨next, out, ran, nextGood, _, step⟩ := good.step freshRequest
    exact ⟨next, out, ran, nextGood,
      exactly book request out next good nextGood wantedBook freshRequest step⟩

/-- What holds of the empty ledger and is kept by every fresh call holds of the ledger of every
reachable book, and the book is good. -/
theorem Reachable.invariant {book : OrderBook} (reachable : book.Reachable)
    (invariant : Ledger → Prop) (start : ∀ sym, invariant (OrderBook.new sym).ledger)
    (preserved : ∀ {symbol : SymbolId} {ledger next : Ledger} {request : BookRequest}
      {out : Outputs}, Ledger.LedgerStep symbol ledger request out next → invariant ledger →
        invariant next) : book.Good ∧ invariant book.ledger := by
  obtain ⟨sym, requests, outs, guarded, ran⟩ := reachable
  obtain ⟨last, emitted, run, holds, _⟩ := run_ledger (fun _ _ fresh => fresh) invariant
    (fun _ => True) (fun _ _ _ _ _ holds _ step => ⟨preserved step holds, trivial⟩) requests
    (OrderBook.new sym) (good_new sym) (start sym) guarded
  rw [ran] at run
  cases run
  exact holds

/-- Every reachable book is good. -/
theorem Reachable.good {book : OrderBook} (reachable : book.Reachable) : book.Good :=
  (reachable.invariant (fun _ => True) (fun _ => trivial) (fun _ _ => trivial)).1

end OrderBook

end Exchange
