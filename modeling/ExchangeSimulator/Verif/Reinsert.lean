import ExchangeSimulator.Verif.Spread
import Mathlib.Logic.Equiv.Basic

/-!
# Cancelling and inserting again

A cancel takes back exactly what an `addOrder` has left in the book: the order is
last in its queue, so its level is as it was without it, and the two maps forget
its id. A modification that gives up its place is a cancel followed by a new
order of the same id, except that the element keeps its address. Two books that
differ only so are the same up to a renaming of their pointers.
-/

namespace Exchange

open Library

/-- A level with its pointers renamed. -/
def PriceLevel.rename (rename : Equiv.Perm Addr) (level : PriceLevel) : PriceLevel :=
  { level with mOrders := level.mOrders.map rename }

namespace OrderBook

/-- Two books with the same levels, maps and elements; only the next address may differ. -/
structure Same (book other : OrderBook) : Prop where
  /-- Instrument. -/
  symbol : other.symbol = book.symbol
  /-- Buy levels with their queues and totals. -/
  bids : other.bids = book.bids
  /-- Sell levels with their queues and totals. -/
  asks : other.asks = book.asks
  /-- Pointers by id. -/
  orderMap : other.orderMap = book.orderMap
  /-- Details by id. -/
  orderDetails : other.orderDetails = book.orderDetails
  /-- Elements by pointer. -/
  elements : other.heap.read = book.heap.read

/-- Two books with the same levels, maps and elements up to a renaming of the pointers. -/
structure SameUpTo (rename : Equiv.Perm Addr) (book other : OrderBook) : Prop where
  /-- Instrument. -/
  symbol : other.symbol = book.symbol
  /-- Levels of both sides with their queues and totals. -/
  levels : ∀ side price,
    other.level side price = (book.level side price).map (PriceLevel.rename rename)
  /-- Pointers by id. -/
  orderMap : ∀ id, other.orderMap id = (book.orderMap id).map rename
  /-- Details by id. -/
  orderDetails : other.orderDetails = book.orderDetails
  /-- Elements by pointer. -/
  elements : ∀ elem, other.heap.read (rename elem) = book.heap.read elem

/-- Books with the same levels at all prices have the same sides. -/
theorem getBook_of_level {book other : OrderBook}
    (levels : ∀ side price, other.level side price = book.level side price) (side : BookSide) :
    other.getBook side = book.getBook side :=
  OrderedMap.ext_find? (levels side)

/-- The address after the last one holds no element. -/
theorem read_next (book : OrderBook) : book.heap.read book.heap.next = none :=
  book.heap.unused book.heap.next (Nat.le_refl _)

/-- An order that does not rest has no details. -/
theorem Sound.details_of_unmapped {book : OrderBook} (sound : book.Sound) {id : OrderId}
    (unmapped : book.orderMap id = none) : book.orderDetails id = none := by
  cases details : book.orderDetails id with
  | none => rfl
  | some detail =>
    obtain ⟨elem, mapped⟩ := sound.detailed id detail details
    rw [unmapped] at mapped
    contradiction

/-- A level of a sound book is its queue and its total, and exists only with a queue. -/
theorem Sound.level_eq {book : OrderBook} (sound : book.Sound) (side : BookSide) (price : Price) :
    (if book.queueAt (side, price) = [] then none
      else some ⟨price, book.totalAt (side, price), book.queueAt (side, price)⟩) =
      book.level side price := by
  cases present : book.level side price with
  | none => simp only [queueAt, present, if_true]
  | some level =>
    have occupied := sound.occupied side price level present
    have priced := sound.priced side price level present
    rw [queueAt_of_level present, totalAt_of_level present, if_neg occupied, ← priced]

/-- The levels with an order that came to rest. -/
theorem level_restOrder (book : OrderBook) (element : BookElement) (detail : OrderDetails)
    (side : BookSide) (price : Price) : (book.restOrder element detail).level side price =
      if (side, price) = (detail.side.book, detail.price) then
        some (book.moreLevel detail.side.book detail.price book.heap.next element.m_quantity)
      else book.level side price := by
  have nonempty : ((book.createOrder element detail).moreLevel detail.side.book detail.price
      book.heap.next element.m_quantity).mOrders ≠ [] := by
    simp [OrderBook.moreLevel]
  rw [restOrder, level_replaceLevel, if_neg nonempty]
  cases side <;> rfl

/-- Taking the last order of a queue away gives the level as it was without it. -/
theorem Sound.lessLevel_moreLevel {book : OrderBook} (sound : book.Sound) (side : BookSide)
    (price : Price) (qty : Quantity) :
    OrderBook.lessLevel (book.moreLevel side price book.heap.next qty) book.heap.next qty =
      ⟨price, book.totalAt (side, price), book.queueAt (side, price)⟩ := by
  have absent : book.heap.next ∉ book.queueAt (side, price) := by
    intro member
    exact sound.queued_ne_next member rfl
  have erased : (book.queueAt (side, price) ++ [book.heap.next]).erase book.heap.next =
      book.queueAt (side, price) := by
    rw [List.erase_append_right _ absent, List.erase_cons_head, List.append_nil]
  simp only [OrderBook.lessLevel, OrderBook.moreLevel, erased, UInt32.add_sub_cancel]

/-- Cancelling an order that has just come to rest gives back the book without it. -/
theorem Sound.cancelOrder_restOrder {book : OrderBook} (sound : book.Sound)
    (element : BookElement) (detail : OrderDetails)
    (unmapped : book.orderMap element.m_id = none) :
    ∃ last, (book.restOrder element detail).cancelOrder element.m_id element.m_traderId =
        some (last, cancelOutputs book.symbol element.m_id element.m_traderId detail.side
          detail.price element.m_quantity) ∧ book.Same last := by
  have mapped : (book.restOrder element detail).orderMap =
      Function.update book.orderMap element.m_id (some book.heap.next) := by
    rw [restOrder, orderMap_replaceLevel]
    rfl
  have details : (book.restOrder element detail).orderDetails =
      Function.update book.orderDetails element.m_id (some detail) := by
    rw [restOrder, orderDetails_replaceLevel]
    rfl
  have heap : (book.restOrder element detail).heap = book.heap.alloc element := by
    rw [restOrder, heap_replaceLevel]
    rfl
  have symbol : (book.restOrder element detail).symbol = book.symbol := by
    rw [restOrder, symbol_replaceLevel]
    rfl
  have present := book.level_restOrder element detail detail.side.book detail.price
  rw [if_pos rfl] at present
  have cancelled := cancelOrder_accepted (by rw [mapped, Function.update_self])
    (by rw [heap, Heap.read_alloc, if_pos rfl]) (by rw [details, Function.update_self]) present
    (List.mem_append_right _ (List.mem_singleton_self _))
  rw [symbol, sound.lessLevel_moreLevel] at cancelled
  refine ⟨_, cancelled, ?_⟩
  have levels : ∀ side price, (((book.restOrder element detail).replaceLevel detail.side.book
      detail.price ⟨detail.price, book.totalAt (detail.side.book, detail.price),
        book.queueAt (detail.side.book, detail.price)⟩).deleteOrder element.m_id
          book.heap.next).level side price = book.level side price := by
    intro side price
    rw [level, getBook_deleteOrder, ← level, level_replaceLevel, level_restOrder]
    by_cases here : (side, price) = (detail.side.book, detail.price)
    · cases here
      rw [if_pos rfl]
      exact sound.level_eq _ _
    · rw [if_neg here, if_neg here]
  refine ⟨?_, getBook_of_level levels .Buy, getBook_of_level levels .Sell, ?_, ?_, ?_⟩
  · exact (symbol_replaceLevel _ _ _ _).trans symbol
  · simp only [OrderBook.deleteOrder, orderMap_replaceLevel, mapped, Function.update_idem]
    rw [← unmapped, Function.update_eq_self]
  · simp only [OrderBook.deleteOrder, orderDetails_replaceLevel, details, Function.update_idem]
    rw [← sound.details_of_unmapped unmapped, Function.update_eq_self]
  · funext elem
    simp only [OrderBook.deleteOrder, heap_replaceLevel, heap, Heap.read_free, Heap.read_alloc]
    split
    · rename_i here
      rw [here, read_next]
    · rfl

/-- The best level of the other side does not trade with an incoming order. -/
def NothingMatches (book : OrderBook) (incoming : OrderRequest) : Prop :=
  ∀ best level, (book.getBook incoming.m_side.book.opposite).begin? = some (best, level) →
    canTrade incoming.m_side.book.opposite best incoming.m_price = false

/-- An order that nothing matches leaves the book as it is. -/
theorem NothingMatches.matchAgainst {book : OrderBook} {incoming : OrderRequest}
    (nothing : book.NothingMatches incoming) (remaining : Quantity) :
    book.matchAgainst incoming.m_side.book.opposite incoming remaining =
      some ⟨book, remaining, Outputs.none⟩ := by
  rw [OrderBook.matchAgainst, matchLevels]
  split
  · cases front : (book.getBook incoming.m_side.book.opposite).begin? with
    | none => rfl
    | some first =>
      obtain ⟨best, level⟩ := first
      simp only [nothing best level front]
      rfl
  · rfl

/-- For every reachable book and fresh order, `addOrder` and then `cancelOrder` leave the book that
`matchAgainst` alone leaves; the cancel reports the unfilled shares, or is rejected and changes
nothing if there are none. -/
theorem cancelOrder_undoes_addOrder (book : OrderBook) (reachable : book.Reachable)
    (incoming : OrderRequest) (fresh : book.orderMap incoming.m_orderId = none) :
    ∃ matched added out last answer,
      book.matchAgainst incoming.m_side.book.opposite incoming incoming.m_quantity =
        some matched ∧
      book.addOrder incoming = some (added, out) ∧
      added.cancelOrder incoming.m_orderId incoming.m_traderId = some (last, answer) ∧
      matched.book.Same last ∧
      (0 < matched.remainingQty → answer = cancelOutputs book.symbol incoming.m_orderId
        incoming.m_traderId incoming.m_side incoming.m_price matched.remainingQty) ∧
      (matched.remainingQty = 0 → last = added ∧
        answer = rejectOutputs book.symbol incoming.m_orderId incoming.m_traderId) ∧
      (book.NothingMatches incoming → 0 < incoming.m_quantity → book.Same last) := by
  have good := reachable.good
  obtain ⟨matched, ran, swept⟩ := good.sound.matchAgainst good.filed
    incoming.m_side.book.opposite incoming incoming.m_quantity
  obtain ⟨events, sweep, -⟩ := swept.sweep
  have missing : matched.book.resting incoming.m_orderId = none :=
    sweep.record_none ((good.sound.resting_eq_none _).mpr fresh)
  have unmapped := (swept.sound.resting_eq_none _).mp missing
  have before (nothing : book.NothingMatches incoming) {last : OrderBook}
      (same : matched.book.Same last) : book.Same last := by
    rw [nothing.matchAgainst] at ran
    cases ran
    exact same
  by_cases done : matched.remainingQty = 0
  · refine ⟨matched, matched.book, _, matched.book, _, ran, addOrder_filled ran done,
      by rw [OrderBook.cancelOrder, unmapped], ⟨rfl, rfl, rfl, rfl, rfl, rfl⟩, ?_, ?_, ?_⟩
    · intro positive
      rw [done] at positive
      exact absurd positive (UInt32.lt_irrefl 0)
    · intro
      rw [swept.symbol]
      exact ⟨rfl, rfl⟩
    · intro nothing
      exact fun _ => before nothing ⟨rfl, rfl, rfl, rfl, rfl, rfl⟩
  · obtain ⟨last, cancelled, same⟩ := swept.sound.cancelOrder_restOrder
      ⟨incoming.m_orderId, incoming.m_traderId, matched.remainingQty⟩
      ⟨incoming.m_side, incoming.m_price, matched.remainingQty⟩ unmapped
    refine ⟨matched, _, _, last, _, ran, addOrder_rested ran swept.sound unmapped done, cancelled,
      same, ?_, ?_, ?_⟩
    · intro
      rw [swept.symbol]
    · intro none
      exact absurd none done
    · intro nothing
      exact fun _ => before nothing same

/-- An ask and a bid below it. -/
def twoSided : List BookRequest := [place 1 1 Side.Sell 100 5, place 2 2 Side.Buy 99 3]

/-- The book of both orders. -/
theorem twoSided_reached : ∃ book outs,
    Guarded OrderBook.step OrderBook.Fresh (OrderBook.new 0) twoSided ∧
    run OrderBook.step (OrderBook.new 0) twoSided = some (book, outs) ∧
    book.orderMap 3 = none ∧ book.resting 2 = some ⟨Side.Buy, 99, 3, 2, 3⟩ ∧
    book.ClearAt .Buy 98 :=
  ⟨_, _, by decide, rfl, by decide, by decide, by decide⟩

/-- A buy that takes the ask, rests with what is left and is cancelled. -/
theorem cancelOrder_undoes_addOrder_partly : ∃ book outs matched added out last answer,
    run OrderBook.step (OrderBook.new 0) twoSided = some (book, outs) ∧
    book.matchAgainst .Sell ⟨3, 0, 100, 0, 3, 0, 8, Side.Buy, .New⟩ 8 = some matched ∧
    book.addOrder ⟨3, 0, 100, 0, 3, 0, 8, Side.Buy, .New⟩ = some (added, out) ∧
    added.cancelOrder 3 3 = some (last, answer) ∧ matched.book.Same last := by
  obtain ⟨book, outs, guarded, ran, fresh, -⟩ := twoSided_reached
  obtain ⟨matched, added, out, last, answer, matching, adding, cancelling, same, -⟩ :=
    cancelOrder_undoes_addOrder book ⟨0, twoSided, outs, guarded, ran⟩
      ⟨3, 0, 100, 0, 3, 0, 8, Side.Buy, .New⟩ fresh
  exact ⟨book, outs, matched, added, out, last, answer, ran, matching, adding, cancelling, same⟩

/-! ## Modifications that give up their place -/

/-- The levels with an order that was queued again. -/
theorem level_requeueOrder (book : OrderBook) (elem : Addr) (element : BookElement)
    (detail : OrderDetails) (side : BookSide) (price : Price) :
    (book.requeueOrder elem element detail).level side price =
      if (side, price) = (detail.side.book, detail.price) then
        some (book.moreLevel detail.side.book detail.price elem element.m_quantity)
      else book.level side price := by
  have nonempty : ((book.setElement elem element detail).moreLevel detail.side.book detail.price
      elem element.m_quantity).mOrders ≠ [] := by
    simp [OrderBook.moreLevel]
  rw [requeueOrder, level_replaceLevel, if_neg nonempty]
  cases side <;> rfl

/-- A renaming of two pointers that are not queued leaves a level alone. -/
theorem rename_of_unqueued {book : OrderBook} {first second : Addr}
    (firstGone : ∀ slot, first ∉ book.queueAt slot)
    (secondGone : ∀ slot, second ∉ book.queueAt slot) (slot : Slot) :
    (book.queueAt slot).map (Equiv.swap first second) = book.queueAt slot := by
  refine (List.map_congr_left ?_).trans (List.map_id _)
  intro elem member
  refine Equiv.swap_apply_of_ne_of_ne ?_ ?_
  · rintro rfl
    exact firstGone slot member
  · rintro rfl
    exact secondGone slot member

section Requeue

variable {book : OrderBook} {elem : Addr} {old element : BookElement}

/-- The levels after an element is queued again, and after it is deleted and a new one comes to
rest. -/
theorem Sound.level_requeued (sound : book.Sound) (gone : ∀ slot, elem ∉ book.queueAt slot)
    (detail : OrderDetails) (side : BookSide) (price : Price) :
    ((book.deleteOrder old.m_id elem).restOrder element detail).level side price =
      ((book.requeueOrder elem element detail).level side price).map
        (PriceLevel.rename (Equiv.swap elem book.heap.next)) := by
  have nextGone (slot : Slot) : book.heap.next ∉ book.queueAt slot := fun member =>
    sound.queued_ne_next member rfl
  have renamed := rename_of_unqueued gone nextGone
  rw [level_requeueOrder, level_restOrder]
  split
  · change some (PriceLevel.mk _ _ (book.queueAt _ ++ [book.heap.next])) =
      some (PriceLevel.mk _ _ ((book.queueAt _ ++ [elem]).map _))
    rw [List.map_append, renamed, List.map_singleton, Equiv.swap_apply_left]
    rfl
  · have kept : (book.deleteOrder old.m_id elem).level side price = book.level side price := by
      rw [level, getBook_deleteOrder, ← level]
    rw [kept]
    cases present : book.level side price with
    | none => rfl
    | some found =>
      have queue := renamed (side, price)
      rw [queueAt_of_level present] at queue
      simp only [Option.map_some, PriceLevel.rename, queue]

/-- The pointers by id after the two. -/
theorem Sound.orderMap_requeued (sound : book.Sound) (read : book.heap.read elem = some old)
    (sameId : element.m_id = old.m_id) (detail : OrderDetails) (id : OrderId) :
    ((book.deleteOrder old.m_id elem).restOrder element detail).orderMap id =
      ((book.requeueOrder elem element detail).orderMap id).map
        (Equiv.swap elem book.heap.next) := by
  rw [restOrder, requeueOrder, orderMap_replaceLevel, orderMap_replaceLevel]
  simp only [OrderBook.createOrder, OrderBook.setElement, OrderBook.deleteOrder, sameId,
    Function.update_idem, Function.update_apply]
  by_cases here : id = old.m_id
  · rw [if_pos here, here, sound.owned elem old read, Option.map_some, Equiv.swap_apply_left]
    rfl
  · rw [if_neg here]
    cases found : book.orderMap id with
    | none => rfl
    | some other =>
      obtain ⟨twin, _, twinRead, twinId, _⟩ := sound.mapped id other found
      have foreign : other ≠ elem := by
        rintro rfl
        rw [read] at twinRead
        cases twinRead
        exact here twinId.symm
      rw [Option.map_some, Equiv.swap_apply_of_ne_of_ne foreign
        (Nat.ne_of_lt (Heap.lt_next twinRead))]

/-- The elements by pointer after the two. -/
theorem read_requeued (read : book.heap.read elem = some old) (detail : OrderDetails)
    (other : Addr) :
    ((book.deleteOrder old.m_id elem).restOrder element detail).heap.read
        (Equiv.swap elem book.heap.next other) =
      (book.requeueOrder elem element detail).heap.read other := by
  have apart : elem ≠ book.heap.next := Nat.ne_of_lt (Heap.lt_next read)
  rw [restOrder, requeueOrder, heap_replaceLevel, heap_replaceLevel]
  simp only [OrderBook.createOrder, OrderBook.setElement, OrderBook.deleteOrder,
    Heap.read_alloc, Heap.read_free, Heap.read_write read]
  by_cases first : other = elem
  · rw [first, Equiv.swap_apply_left, if_pos rfl]
    exact if_pos rfl
  · rw [if_neg first]
    by_cases second : other = book.heap.next
    · rw [second, Equiv.swap_apply_right, read_next]
      simp [Heap.free, apart]
    · rw [Equiv.swap_apply_of_ne_of_ne first second, if_neg first]
      exact if_neg second

/-- Queueing an element again is deleting it and letting a new one come to rest, up to the address
of the element. -/
theorem Sound.requeueOrder_same (sound : book.Sound) (read : book.heap.read elem = some old)
    (gone : ∀ slot, elem ∉ book.queueAt slot) (sameId : element.m_id = old.m_id)
    (detail : OrderDetails) :
    (book.requeueOrder elem element detail).SameUpTo (Equiv.swap elem book.heap.next)
      ((book.deleteOrder old.m_id elem).restOrder element detail) where
  symbol := by
    rw [restOrder, requeueOrder, symbol_replaceLevel, symbol_replaceLevel]
    rfl
  levels := sound.level_requeued gone detail
  orderMap := sound.orderMap_requeued read sameId detail
  orderDetails := by
    rw [restOrder, requeueOrder, orderDetails_replaceLevel, orderDetails_replaceLevel]
    simp only [OrderBook.createOrder, OrderBook.setElement, OrderBook.deleteOrder, sameId,
      Function.update_idem]
  elements := read_requeued read detail

end Requeue

/-- Replacing a level leaves the other side alone. -/
theorem getBook_replaceLevel_opposite (book : OrderBook) (side : BookSide) (price : Price)
    (level : PriceLevel) :
    (book.replaceLevel side price level).getBook side.opposite = book.getBook side.opposite := by
  unfold replaceLevel
  cases side with
  | Buy => split <;> rfl
  | Sell => split <;> rfl

/-- For every reachable book, every order of the requesting trader, every positive quantity and
every price that does not reach the other side, a modification that does not keep its place leaves
the book that a cancel and a new order of the same id leave, up to a renaming of the pointers. -/
theorem modifyOrder_reinserts (book : OrderBook) (reachable : book.Reachable) (id : OrderId)
    (traderId : TraderId) (newPrice : Price) (newQty : Quantity) (order : Resting)
    (resting : book.resting id = some order) (own : order.traderId = traderId)
    (positive : 0 < newQty) (clear : book.ClearAt order.side.book newPrice)
    (moves : ¬(newPrice = order.price ∧ newQty < order.cachedQty)) (request : OrderRequest)
    (sameId : request.m_orderId = id) (sameTrader : request.m_traderId = traderId)
    (sameSide : request.m_side = order.side) (atPrice : request.m_price = newPrice)
    (shares : request.m_quantity = newQty) :
    ∃ modified out cancelled answer added confirms,
      book.modifyOrder id traderId newPrice newQty = some (modified, out) ∧
      book.cancelOrder id traderId = some (cancelled, answer) ∧
      cancelled.addOrder request = some (added, confirms) ∧
      ∃ rename, modified.SameUpTo rename added := by
  have good := reachable.good
  obtain ⟨elem, mapped⟩ := good.sound.mapped_of_resting resting
  obtain ⟨element, detail, read, rfl, details, found⟩ := good.sound.parts mapped
  rw [resting] at found
  cases found
  obtain ⟨level, present, member⟩ := good.queued mapped resting
  dsimp only at present own clear moves sameSide
  subst own
  have stays : ¬(detail.price = newPrice ∧ newQty < detail.quantity) :=
    fun both => moves ⟨both.1.symm, both.2⟩
  have modified := good.sound.modifyOrder_requeued mapped read details present member stays
  have cancelled := cancelOrder_accepted mapped read details present member
  have removed := good.sound.lessLevel present elem element.m_quantity
  have gone := good.sound.gone_lessLevel good.filed present member read element.m_quantity
  obtain ⟨cancelledSound, -⟩ :=
    good.sound.drop good.filed present member read element.m_quantity
  -- the cancel leaves the other side alone, so the new order matches nothing
  have nothing : ((book.replaceLevel detail.side.book detail.price
      (lessLevel level elem element.m_quantity)).deleteOrder element.m_id elem).NothingMatches
        request := by
    intro best other front
    rw [sameSide, getBook_deleteOrder, getBook_replaceLevel_opposite] at front
    rw [sameSide, atPrice]
    exact (good.sound.clear_iff _ _).mp ((good.sound.clearAt_iff _ _).mp clear) best other front
  have left : request.m_quantity ≠ 0 := by
    rw [shares]
    exact UInt32.pos_iff_ne_zero.mp positive
  have added := addOrder_rested (nothing.matchAgainst request.m_quantity) cancelledSound
    (by rw [sameId]; simp [deleteOrder]) left
  refine ⟨_, _, _, _, _, _, modified, cancelled, added, Equiv.swap elem book.heap.next, ?_⟩
  have removedRead : (book.replaceLevel detail.side.book detail.price
      (lessLevel level elem element.m_quantity)).heap.read elem = some element := by
    rw [heap_replaceLevel]
    exact read
  have same := removed.requeueOrder_same removedRead gone
    (show BookElement.m_id { element with m_quantity := newQty } = element.m_id from rfl)
    { detail with price := newPrice, quantity := newQty }
  rw [heap_replaceLevel] at same
  rw [sameId, sameTrader, sameSide, atPrice, shares]
  exact same

/-- The bid is moved to a lower price with more shares. -/
theorem modifyOrder_reinserts_lower : ∃ book outs modified out cancelled answer added confirms,
    run OrderBook.step (OrderBook.new 0) twoSided = some (book, outs) ∧
    book.modifyOrder 2 2 98 7 = some (modified, out) ∧
    book.cancelOrder 2 2 = some (cancelled, answer) ∧
    cancelled.addOrder ⟨2, 0, 98, 0, 2, 0, 7, Side.Buy, .New⟩ = some (added, confirms) ∧
    ∃ rename, modified.SameUpTo rename added := by
  obtain ⟨book, outs, guarded, ran, -, resting, clear⟩ := twoSided_reached
  obtain ⟨modified, out, cancelled, answer, added, confirms, whole⟩ :=
    modifyOrder_reinserts book ⟨0, twoSided, outs, guarded, ran⟩ 2 2 98 7
      ⟨Side.Buy, 99, 3, 2, 3⟩ resting rfl (by decide) clear (by decide)
      ⟨2, 0, 98, 0, 2, 0, 7, Side.Buy, .New⟩ rfl rfl rfl rfl rfl
  exact ⟨book, outs, modified, out, cancelled, answer, added, confirms, ran, whole⟩

end OrderBook

end Exchange
