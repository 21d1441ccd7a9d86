import ExchangeSimulator.Verif.Totals

/-!
# Subtractions from level totals

`removeOrder` and `reduceQty` take an amount off the total of a level, as an
unsigned word. The functions here record each such subtraction in the order the
source makes it, next to the functions of the book, and count the values that
have been added to a level since it was created. A total that covers the
quantities queued in its level covers every subtraction. Additions below 2³²,
removals, fills and requeueing keep it so. A modification in place changes the
quantity and leaves the total: it may let a partly filled order grow until the
total no longer covers the queue, and then cancels bring it below zero.
-/

namespace Exchange

open Library

/-- One `mTotalQty -= amount`. -/
structure Subtraction where
  /-- The total before. -/
  total : Quantity
  /-- What is taken off. -/
  amount : Quantity
deriving DecidableEq, Repr

/-- At most the current total is taken off. -/
def Subtraction.Covered (subtraction : Subtraction) : Prop :=
  subtraction.amount ≤ subtraction.total

instance (subtraction : Subtraction) : Decidable subtraction.Covered :=
  inferInstanceAs (Decidable (subtraction.amount ≤ subtraction.total))

namespace PriceLevel

/-- The subtraction of `removeOrder`. -/
def removeOrderSubtracts (level : PriceLevel) (heap : Heap BookElement) (order : Addr) :
    List Subtraction :=
  if order ∈ level.mOrders then
    (heap.read order).toList.map fun elem => ⟨level.mTotalQty, elem.m_quantity⟩
  else []

/-- The subtraction of `reduceQty`. -/
def reduceQtySubtracts (level : PriceLevel) (amt : Quantity) : List Subtraction :=
  [⟨level.mTotalQty, amt⟩]

/-- `removeOrder` takes off what is recorded for it. -/
theorem removeOrder_mTotalQty {level next : PriceLevel} {heap : Heap BookElement} {order : Addr}
    (removed : level.removeOrder heap order = some next) : next.mTotalQty =
      (level.removeOrderSubtracts heap order).foldl (fun _ made => made.total - made.amount)
        level.mTotalQty := by
  by_cases member : order ∈ level.mOrders
  · cases read : heap.read order with
    | none => simp [removeOrder, member, read] at removed
    | some elem =>
      simp only [removeOrder, if_pos member, read, bind, Option.bind, Option.some.injEq] at removed
      rw [← removed, removeOrderSubtracts, if_pos member, read]
      rfl
  · rw [removeOrder, if_neg member, Option.some.injEq] at removed
    rw [← removed, removeOrderSubtracts, if_neg member]
    rfl

/-- `reduceQty` takes off what is recorded for it. -/
theorem reduceQty_mTotalQty (level : PriceLevel) (amt : Quantity) :
    (level.reduceQty amt).mTotalQty = (level.reduceQtySubtracts amt).foldl
      (fun _ made => made.total - made.amount) level.mTotalQty := rfl

end PriceLevel

namespace OrderBook

/-- The subtractions of `removeFromLevel<S>`. -/
def removeFromLevelSubtracts (book : OrderBook) (side : BookSide) (elem : Addr) (price : Price) :
    List Subtraction :=
  match book.level side price with
  | none => []
  | some level => level.removeOrderSubtracts book.heap elem

/-- The subtractions of one iteration of the inner loop of `matchAgainst`. -/
def matchFirstSubtracts (incoming : OrderRequest) (level : PriceLevel) (book : OrderBook)
    (remainingQty : Quantity) : List Subtraction :=
  match level.peekFirst with
  | none => []
  | some passive =>
    match book.heap.read passive with
    | none => []
    | some passiveOrder =>
      if passiveOrder.m_traderId = incoming.m_traderId then
        level.removeOrderSubtracts book.heap passive
      else
        let tradeQty := minQty remainingQty passiveOrder.m_quantity
        let left := passiveOrder.m_quantity - tradeQty
        if left = 0 then
          level.removeOrderSubtracts
            (book.heap.write passive { passiveOrder with m_quantity := left }) passive
        else level.reduceQtySubtracts tradeQty

/-- The subtractions of the inner loop of `matchAgainst`. -/
def matchLevelSubtracts (passiveSide : BookSide) (incoming : OrderRequest) (levelPrice : Price) :
    Nat → OrderBook → Quantity → List Subtraction
  | 0, _, _ => []
  | iterations + 1, book, remainingQty =>
    match book.level passiveSide levelPrice with
    | none => []
    | some level =>
      if 0 < remainingQty ∧ level.isEmpty = false then
        matchFirstSubtracts incoming level book remainingQty ++
          match matchFirst passiveSide incoming levelPrice level book remainingQty with
          | none => []
          | some first => matchLevelSubtracts passiveSide incoming levelPrice iterations first.book
              first.remainingQty
      else []

/-- The subtractions of the outer loop of `matchAgainst`. -/
def matchLevelsSubtracts (passiveSide : BookSide) (incoming : OrderRequest) :
    Nat → OrderBook → Quantity → List Subtraction
  | 0, _, _ => []
  | iterations + 1, book, remainingQty =>
    if 0 < remainingQty then
      match (book.getBook passiveSide).begin? with
      | none => []
      | some (levelPrice, level) =>
        if canTrade passiveSide levelPrice incoming.m_price then
          matchLevelSubtracts passiveSide incoming levelPrice (level.mOrders.length + 1) book
              remainingQty ++
            match matchLevel passiveSide incoming levelPrice (level.mOrders.length + 1) book
              remainingQty with
            | none => []
            | some first => matchLevelsSubtracts passiveSide incoming iterations
                (first.book.eraseIfEmpty passiveSide levelPrice) first.remainingQty
        else []
    else []

/-- The subtractions of `addOrder`, all of them in `matchAgainst`. -/
def addOrderSubtracts (book : OrderBook) (incoming : OrderRequest) : List Subtraction :=
  matchLevelsSubtracts incoming.m_side.book.opposite incoming
    ((book.getBook incoming.m_side.book.opposite).size + 1) book incoming.m_quantity

/-- The subtractions of `cancelOrder`. -/
def cancelOrderSubtracts (book : OrderBook) (id : OrderId) (traderId : TraderId) :
    List Subtraction :=
  match book.orderMap id with
  | none => []
  | some elem =>
    match book.heap.read elem, book.orderDetails id with
    | some element, some detail =>
      if element.m_traderId = traderId then
        book.removeFromLevelSubtracts detail.side.book elem detail.price
      else []
    | _, _ => []

/-- The subtractions of `modifyOrder`; a modification in place makes none. -/
def modifyOrderSubtracts (book : OrderBook) (id : OrderId) (traderId : TraderId)
    (newPrice : Price) (newQty : Quantity) : List Subtraction :=
  match book.orderMap id with
  | none => []
  | some elem =>
    match book.heap.read elem, book.orderDetails id with
    | some element, some detail =>
      if element.m_traderId = traderId then
        if detail.price = newPrice ∧ newQty < detail.quantity then []
        else book.removeFromLevelSubtracts detail.side.book elem detail.price
      else []
    | _, _ => []

/-- The subtractions of a call. -/
def subtracts (book : OrderBook) : BookRequest → List Subtraction
  | .add incoming => book.addOrderSubtracts incoming
  | .cancel id traderId => book.cancelOrderSubtracts id traderId
  | .modify id traderId newPrice newQty => book.modifyOrderSubtracts id traderId newPrice newQty

/-- Every subtraction of a call takes off at most the current total. -/
def SubtractsCovered (book : OrderBook) (request : BookRequest) : Prop :=
  ∀ subtraction ∈ book.subtracts request, subtraction.Covered

instance (book : OrderBook) (request : BookRequest) : Decidable (book.SubtractsCovered request) :=
  inferInstanceAs (Decidable (∀ subtraction ∈ book.subtracts request, subtraction.Covered))

end OrderBook

/-! ## Values added -/

/-- One `mTotalQty += qty`, by `insertIntoLevel`. -/
structure Insertion where
  /-- The level. -/
  slot : Slot
  /-- The level has to be created for it. -/
  created : Bool
  /-- The value added. -/
  qty : Quantity
deriving DecidableEq, Repr

/-- The sum of the values added to the level, given the sums before. -/
def Insertion.sum (insertion : Insertion) (added : Slot → Nat) : Nat :=
  (if insertion.created then 0 else added insertion.slot) + insertion.qty.toNat

namespace OrderBook

/-- The value that a call adds to a level, if it adds one. -/
def insertion (book : OrderBook) : BookRequest → Option Insertion
  | .add incoming =>
    match book.matchAgainst incoming.m_side.book.opposite incoming incoming.m_quantity with
    | none => none
    | some matched =>
      if matched.remainingQty = 0 then none
      else some ⟨(incoming.m_side.book, incoming.m_price),
        (matched.book.level incoming.m_side.book incoming.m_price).isNone, matched.remainingQty⟩
  | .cancel _ _ => none
  | .modify id traderId newPrice newQty => do
    let elem ← book.orderMap id
    let element ← book.heap.read elem
    let detail ← book.orderDetails id
    if element.m_traderId = traderId ∧ ¬(detail.price = newPrice ∧ newQty < detail.quantity) then
      let removed ← book.removeFromLevel detail.side.book elem detail.price
      some ⟨(detail.side.book, newPrice), (removed.level detail.side.book newPrice).isNone, newQty⟩
    else none

/-- A book with the sums of the values added to each level since it was created. -/
structure Counted where
  /-- The book. -/
  book : OrderBook
  /-- The sum for each level. -/
  added : Slot → Nat

/-- An empty book and no sums. -/
def Counted.new (sym : SymbolId) : Counted := ⟨OrderBook.new sym, fun _ => 0⟩

/-- The sums after a call. -/
def Counted.count (state : Counted) (request : BookRequest) : Slot → Nat :=
  match state.book.insertion request with
  | none => state.added
  | some insertion => Function.update state.added insertion.slot (insertion.sum state.added)

/-- One call, with the sums. -/
def Counted.step (state : Counted) (request : BookRequest) : Option (Counted × Outputs) := do
  let (book, out) ← state.book.step request
  some (⟨book, state.count request⟩, out)

/-- The values added to a level still sum to less than 2³². -/
def Counted.SumFits (state : Counted) (request : BookRequest) : Prop :=
  ∀ insertion ∈ state.book.insertion request, insertion.sum state.added < 2 ^ 32

instance (state : Counted) (request : BookRequest) : Decidable (state.SumFits request) :=
  inferInstanceAs (Decidable (∀ insertion ∈ state.book.insertion request,
    insertion.sum state.added < 2 ^ 32))

/-- An accepted modification in place lets the order grow by no more than the total of its level
exceeds the quantities queued there. -/
def KeepsCover (book : OrderBook) : BookRequest → Prop
  | .modify id traderId newPrice newQty => ∀ order ∈ book.resting id, order.traderId = traderId →
      order.price = newPrice ∧ newQty < order.cachedQty →
      ∀ level ∈ book.level order.side.book order.price,
        book.queuedQty level + newQty.toNat ≤ level.mTotalQty.toNat + order.quantity.toNat
  | _ => True

instance (book : OrderBook) (request : BookRequest) : Decidable (book.KeepsCover request) :=
  match request with
  | .add _ => inferInstanceAs (Decidable True)
  | .cancel _ _ => inferInstanceAs (Decidable True)
  | .modify id traderId newPrice newQty => inferInstanceAs (Decidable (∀ order ∈ book.resting id,
      order.traderId = traderId → order.price = newPrice ∧ newQty < order.cachedQty →
      ∀ level ∈ book.level order.side.book order.price,
        book.queuedQty level + newQty.toNat ≤ level.mTotalQty.toNat + order.quantity.toNat))

end OrderBook

/-! ## Totals that cover their queues -/

namespace Ledger

/-- Every total covers the quantities queued in its slot and stays within a bound. -/
structure Between (ledger : Ledger) (bound : Slot → Nat) : Prop where
  /-- No more is queued than the total says. -/
  covers : ∀ slot, ledger.restingQty slot ≤ (ledger.total slot).toNat
  /-- The total stays within the bound. -/
  bounded : ∀ slot, (ledger.total slot).toNat ≤ bound slot

section Operations

variable {ledger : Ledger} {id : OrderId} {order : Resting} {bound : Slot → Nat}

/-- The shares of a slot after an order left. -/
theorem restingQty_drop (filed : ledger.Filed) (recorded : ledger.record id = some order)
    (amount : Quantity) (slot : Slot) : (ledger.drop order.slot id amount).restingQty slot +
      (if slot = order.slot then order.quantity.toNat else 0) = ledger.restingQty slot := by
  have others (other : OrderId) (apart : other ≠ id) :
      (ledger.drop order.slot id amount).record other = ledger.record other := by
    rw [record_drop, if_neg apart]
  rw [restingQty, queue_drop]
  by_cases here : slot = order.slot
  · rw [if_pos here, if_pos here, here]
    exact sum_shares_erase filed recorded others
  · rw [if_neg here, if_neg here, Nat.add_zero]
    exact sum_shares_apart filed recorded others here

/-- The shares of a slot after an order came to rest. -/
theorem restingQty_rest (filed : ledger.Filed) (missing : ledger.record id = none)
    (order : Resting) (slot : Slot) : (ledger.rest id order).restingQty slot =
      ledger.restingQty slot + if slot = order.slot then order.quantity.toNat else 0 := by
  have others {place : Slot} : ∀ other ∈ ledger.queue place,
      (ledger.rest id order).record other = ledger.record other := by
    intro other member
    rw [record_rest, if_neg]
    rintro rfl
    exact filed.not_mem missing place member
  have own : (ledger.rest id order).shares id = order.quantity.toNat :=
    shares_of_record (by rw [record_rest, if_pos rfl])
  rw [restingQty, queue_rest]
  by_cases here : slot = order.slot
  · rw [if_pos here, if_pos here, here, List.map_append, List.sum_append, List.map_singleton,
      List.sum_singleton, own, sum_shares_congr others]
    rfl
  · rw [if_neg here, if_neg here, sum_shares_congr others]
    rfl

/-- An order has no more shares than its slot. -/
theorem quantity_le (filed : ledger.Filed) (recorded : ledger.record id = some order) :
    order.quantity.toNat ≤ ledger.restingQty order.slot := by
  have split := restingQty_drop filed recorded 0 order.slot
  rw [if_pos rfl] at split
  omega

/-- A total that covers its queue covers every order in it. -/
theorem Between.quantity_le (between : ledger.Between bound) (filed : ledger.Filed)
    (recorded : ledger.record id = some order) : order.quantity ≤ ledger.total order.slot := by
  rw [UInt32.le_iff_toNat_le]
  exact Nat.le_trans (Ledger.quantity_le filed recorded) (between.covers order.slot)

/-- An order that leaves with at most its shares keeps the totals covering. -/
theorem Between.drop (between : ledger.Between bound) (filed : ledger.Filed)
    (recorded : ledger.record id = some order) {amount : Quantity}
    (within : amount ≤ order.quantity) : (ledger.drop order.slot id amount).Between bound := by
  have covered := between.quantity_le filed recorded
  have less : (ledger.total order.slot - amount).toNat =
      (ledger.total order.slot).toNat - amount.toNat :=
    UInt32.toNat_sub_of_le _ _ (UInt32.le_trans within covered)
  rw [UInt32.le_iff_toNat_le] at within covered
  constructor
  · intro slot
    have split := restingQty_drop filed recorded amount slot
    have enough := between.covers slot
    rw [total_drop]
    by_cases here : slot = order.slot
    · subst here
      rw [if_pos rfl] at split ⊢
      split
      · rename_i empty
        rw [restingQty, queue_drop, if_pos rfl, empty]
        exact Nat.zero_le _
      · rw [less]
        omega
    · rw [if_neg here] at split ⊢
      omega
  · intro slot
    have within := between.bounded slot
    rw [total_drop]
    by_cases here : slot = order.slot
    · subst here
      rw [if_pos rfl]
      split
      · exact Nat.zero_le _
      · rw [less]
        omega
    · rw [if_neg here]
      exact within

/-- A partial fill keeps the totals covering. -/
theorem Between.reduce (between : ledger.Between bound) (filed : ledger.Filed)
    (recorded : ledger.record id = some order) {qty : Quantity} (within : qty ≤ order.quantity) :
    (ledger.reduce id order qty).Between bound := by
  have covered := between.quantity_le filed recorded
  have less : (ledger.total order.slot - qty).toNat =
      (ledger.total order.slot).toNat - qty.toNat :=
    UInt32.toNat_sub_of_le _ _ (UInt32.le_trans within covered)
  have left : (order.fill qty).quantity.toNat = order.quantity.toNat - qty.toNat :=
    UInt32.toNat_sub_of_le _ _ within
  rw [UInt32.le_iff_toNat_le] at within covered
  constructor
  · intro slot
    have sums := restingQty_of_record filed recorded (queue_reduce ledger id qty order)
      (fun other => record_reduce ledger id other qty order) slot
    have enough := between.covers slot
    rw [total_reduce]
    by_cases here : slot = order.slot
    · subst here
      rw [if_pos rfl, if_pos rfl, left] at sums
      rw [if_pos rfl, less]
      omega
    · rw [if_neg here, if_neg here] at sums
      rw [if_neg here]
      omega
  · intro slot
    have bounded := between.bounded slot
    rw [total_reduce]
    by_cases here : slot = order.slot
    · subst here
      rw [if_pos rfl, less]
      omega
    · rw [if_neg here]
      exact bounded

/-- An order that comes to rest keeps the totals covering when the sum of the values added to its
slot fits into a word. -/
theorem Between.rest (between : ledger.Between bound) (filed : ledger.Filed)
    (missing : ledger.record id = none) (order : Resting) {created : Bool}
    (opened : created = true → ledger.total order.slot = 0)
    (fits : (Insertion.mk order.slot created order.quantity).sum bound < 2 ^ 32) :
    (ledger.rest id order).Between (Function.update bound order.slot
      ((Insertion.mk order.slot created order.quantity).sum bound)) := by
  have sum : (ledger.total order.slot).toNat + order.quantity.toNat ≤
      (Insertion.mk order.slot created order.quantity).sum bound := by
    have bounded := between.bounded order.slot
    rw [Insertion.sum]
    split
    · rename_i new
      rw [opened new]
      exact Nat.le_refl _
    · exact Nat.add_le_add_right bounded _
  have more : (ledger.total order.slot + order.quantity).toNat =
      (ledger.total order.slot).toNat + order.quantity.toNat := by
    rw [UInt32.toNat_add, Nat.mod_eq_of_lt (Nat.lt_of_le_of_lt sum fits)]
  constructor
  · intro slot
    have enough := between.covers slot
    rw [restingQty_rest filed missing, total_rest]
    by_cases here : slot = order.slot
    · subst here
      rw [if_pos rfl, if_pos rfl, more]
      omega
    · rw [if_neg here, if_neg here]
      exact enough
  · intro slot
    have bounded := between.bounded slot
    rw [total_rest, Function.update_apply]
    by_cases here : slot = order.slot
    · rw [if_pos here, if_pos here, more]
      exact sum
    · rw [if_neg here, if_neg here]
      exact bounded

/-- A modification in place keeps the totals covering exactly when the total of its slot covers the
queue with the new quantity. -/
theorem Between.covers_rewrite_iff (between : ledger.Between bound) (filed : ledger.Filed)
    (recorded : ledger.record id = some order) (changed : Resting) :
    (∀ slot, (ledger.rewrite id changed).restingQty slot ≤
        ((ledger.rewrite id changed).total slot).toNat) ↔
      ledger.restingQty order.slot + changed.quantity.toNat ≤
        (ledger.total order.slot).toNat + order.quantity.toNat := by
  have sums := restingQty_of_record filed recorded (queue_rewrite ledger id changed)
    (fun other => record_rewrite ledger id other changed)
  simp only [total_rewrite]
  constructor
  · intro covers
    have here := covers order.slot
    have split := sums order.slot
    rw [if_pos rfl, if_pos rfl] at split
    omega
  · intro fits slot
    have split := sums slot
    have enough := between.covers slot
    by_cases here : slot = order.slot
    · subst here
      rw [if_pos rfl, if_pos rfl] at split
      omega
    · rw [if_neg here, if_neg here] at split
      omega

end Operations

/-- An iteration keeps the totals covering. -/
theorem MatchStep.between {side : BookSide} {incoming : OrderRequest} {ledger next : Ledger}
    {remaining after : Quantity} {event : MatchEvent}
    (step : MatchStep side incoming ledger remaining event next after) (filed : ledger.Filed)
    {bound : Slot → Nat} (between : ledger.Between bound) : next.Between bound := by
  cases step with
  | selfTrade _ front _ _ =>
    rw [← front.slot_eq filed]
    exact between.drop filed front.recorded (UInt32.le_refl _)
  | full _ front _ _ _ =>
    rw [← front.slot_eq filed]
    exact between.drop filed front.recorded UInt32.zero_le
  | partly _ front _ _ short => exact between.reduce filed front.recorded (UInt32.le_of_lt short)

/-- A trace keeps the totals covering. -/
theorem Sweep.between {side : BookSide} {incoming : OrderRequest} {ledger last : Ledger}
    {remaining final : Quantity} {events : List MatchEvent}
    (sweep : Sweep side incoming ledger remaining events last final) (filed : ledger.Filed)
    {bound : Slot → Nat} (between : ledger.Between bound) : last.Between bound := by
  have kept := sweep.invariant (fun ledger _ => ledger.Filed ∧ ledger.Between bound)
    (fun step holds => ⟨step.filed holds.1, step.between holds.1 holds.2⟩) ⟨filed, between⟩
  exact kept.2

end Ledger

namespace OrderBook

/-! ## Covered subtractions -/

/-- The total of a level covers each of its orders. -/
theorem Sound.quantity_le {book : OrderBook} (sound : book.Sound) (filed : book.ledger.Filed)
    {bound : Slot → Nat} (between : book.ledger.Between bound) {side : BookSide} {price : Price}
    {level : PriceLevel} {elem : Addr} {element : BookElement}
    (present : book.level side price = some level) (member : elem ∈ level.mOrders)
    (read : book.heap.read elem = some element) : element.m_quantity ≤ level.mTotalQty := by
  have queued : elem ∈ book.queueAt (side, price) := by
    rw [queueAt_of_level present]
    exact member
  obtain ⟨twin, order, twinRead, resting, same⟩ := sound.queued_resting queued
  rw [read] at twinRead
  cases twinRead
  have waits : element.m_id ∈ book.ledger.queue (side, price) := by
    change element.m_id ∈ (book.queueAt (side, price)).map book.idAt
    rw [← idAt_of_read read]
    exact List.mem_map_of_mem queued
  have covered := between.quantity_le filed resting
  rw [filed.slot_eq waits resting] at covered
  rw [← totalAt_of_level present, ← congrArg BookElement.m_quantity same]
  exact covered

/-- What `removeOrder` takes off for a queued element. -/
theorem removeOrderSubtracts_eq {level : PriceLevel} {heap : Heap BookElement} {elem : Addr}
    {element : BookElement} (member : elem ∈ level.mOrders)
    (read : heap.read elem = some element) :
    level.removeOrderSubtracts heap elem = [⟨level.mTotalQty, element.m_quantity⟩] := by
  simp only [PriceLevel.removeOrderSubtracts, if_pos member, read, Option.toList_some,
    List.map_singleton]

/-- An iteration takes off the shares of an own order, nothing for a filled one, and the traded
shares of one that stays. -/
theorem Sound.matchFirstSubtracts_covered {book : OrderBook} (sound : book.Sound)
    (filed : book.ledger.Filed) {bound : Slot → Nat} (between : book.ledger.Between bound)
    {side : BookSide} {price : Price} {level : PriceLevel}
    (present : book.level side price = some level) (incoming : OrderRequest)
    (remaining : Quantity) :
    ∀ subtraction ∈ matchFirstSubtracts incoming level book remaining, subtraction.Covered := by
  intro subtraction made
  cases queue : level.mOrders with
  | nil => simp [matchFirstSubtracts, PriceLevel.peekFirst, queue] at made
  | cons elem rest =>
    have member : elem ∈ level.mOrders := by
      rw [queue]
      exact List.mem_cons_self
    cases read : book.heap.read elem with
    | none => simp [matchFirstSubtracts, PriceLevel.peekFirst, queue, read] at made
    | some element =>
      have covered := sound.quantity_le filed between present member read
      simp only [matchFirstSubtracts, PriceLevel.peekFirst, queue, List.head?_cons, read] at made
      split at made
      · rw [removeOrderSubtracts_eq member read, List.mem_singleton] at made
        rw [made]
        exact covered
      · split at made
        · rename_i filled
          have written : (book.heap.write elem { element with m_quantity := 0 }).read elem =
              some { element with m_quantity := 0 } := by
            rw [Heap.read_write read, if_pos rfl]
          rw [filled, removeOrderSubtracts_eq member written, List.mem_singleton] at made
          rw [made]
          exact UInt32.zero_le
        · rename_i stays
          simp only [PriceLevel.reduceQtySubtracts, List.mem_singleton] at made
          have short : remaining < element.m_quantity := by
            rw [← UInt32.not_le]
            intro covers
            rw [minQty_of_le covers, UInt32.sub_self] at stays
            exact stays rfl
          rw [made, minQty_of_lt short]
          exact UInt32.le_trans (UInt32.le_of_lt short) covered

/-- Every subtraction of the inner loop is covered. -/
theorem matchLevelSubtracts_covered (side : BookSide) (incoming : OrderRequest) {price : Price}
    (crosses : canTrade side price incoming.m_price = true) {bound : Slot → Nat}
    (iterations : Nat) (book : OrderBook) (remaining : Quantity) (level : PriceLevel)
    (present : book.level side price = some level)
    (sound : (book.eraseIfEmpty side price).Sound)
    (filed : (book.eraseIfEmpty side price).ledger.Filed)
    (best : (book.eraseIfEmpty side price).ledger.Leads side price)
    (between : (book.eraseIfEmpty side price).ledger.Between bound) :
    ∀ subtraction ∈ matchLevelSubtracts side incoming price iterations book remaining,
      subtraction.Covered := by
  induction iterations generalizing book remaining level with
  | zero =>
    intro subtraction made
    contradiction
  | succ iterations ih =>
    intro subtraction made
    simp only [matchLevelSubtracts, present] at made
    split at made
    · rename_i goes
      obtain ⟨positive, nonempty⟩ := goes
      obtain ⟨elem, rest, queue⟩ : ∃ elem rest, level.mOrders = elem :: rest := by
        cases orders : level.mOrders with
        | nil => simp [PriceLevel.isEmpty, orders] at nonempty
        | cons elem rest => exact ⟨elem, rest, rfl⟩
      have whole := eraseIfEmpty_of_ne_nil present (by simp [queue])
      rw [whole] at sound filed best between
      obtain ⟨first, firstRun, firstMatched⟩ :=
        sound.matchFirst filed side incoming present queue best crosses positive
      obtain ⟨event, step, -⟩ := firstMatched.step
      obtain ⟨next, nextPresent, -⟩ := firstMatched.level
      rw [firstRun] at made
      rcases List.mem_append.mp made with here | later
      · exact sound.matchFirstSubtracts_covered filed between present incoming remaining
          subtraction here
      · exact ih first.book first.remainingQty next nextPresent firstMatched.sound
          (step.filed filed) (step.leads best) (step.between filed between) subtraction later
    · contradiction

/-- Every subtraction of the outer loop is covered. -/
theorem matchLevelsSubtracts_covered (side : BookSide) (incoming : OrderRequest)
    {bound : Slot → Nat} (iterations : Nat) (book : OrderBook) (remaining : Quantity)
    (sound : book.Sound) (filed : book.ledger.Filed) (between : book.ledger.Between bound) :
    ∀ subtraction ∈ matchLevelsSubtracts side incoming iterations book remaining,
      subtraction.Covered := by
  induction iterations generalizing book remaining with
  | zero =>
    intro subtraction made
    contradiction
  | succ iterations ih =>
    intro subtraction made
    rw [matchLevelsSubtracts] at made
    split at made
    · cases front : (book.getBook side).begin? with
      | none =>
        rw [front] at made
        contradiction
      | some entry =>
        obtain ⟨price, level⟩ := entry
        simp only [front] at made
        split at made
        · rename_i crosses
          have present : book.level side price = some level := OrderedMap.find?_of_begin? front
          have whole := eraseIfEmpty_of_ne_nil present (sound.occupied side price level present)
          have best := leads_of_begin? front
          obtain ⟨first, firstRun, levelMatched⟩ := matchLevel_sweeps side incoming crosses
            (level.mOrders.length + 1) book remaining level present (Or.inr (Nat.lt_succ_self _))
            (by rw [whole]; exact sound) (by rw [whole]; exact filed) (by rw [whole]; exact best)
          obtain ⟨events, sweep, -⟩ := levelMatched.sweep
          rw [whole] at sweep
          rw [firstRun] at made
          rcases List.mem_append.mp made with here | later
          · exact matchLevelSubtracts_covered side incoming crosses (level.mOrders.length + 1) book
              remaining level present (by rw [whole]; exact sound) (by rw [whole]; exact filed)
              (by rw [whole]; exact best) (by rw [whole]; exact between) subtraction here
          · exact ih _ first.remainingQty levelMatched.sound (sweep.filed filed)
              (sweep.between filed between) subtraction later
        · contradiction
    · contradiction

/-- What `removeFromLevel` takes off for a resting order. -/
theorem Good.removeFromLevelSubtracts_eq {book : OrderBook} (good : book.Good) {elem : Addr}
    {element : BookElement} {detail : OrderDetails}
    (mapped : book.orderMap element.m_id = some elem) (read : book.heap.read elem = some element)
    (details : book.orderDetails element.m_id = some detail) :
    book.removeFromLevelSubtracts detail.side.book elem detail.price =
      [⟨book.totalAt (detail.side.book, detail.price), element.m_quantity⟩] := by
  obtain ⟨level, present, member⟩ := good.queued mapped (resting_of_parts mapped read details)
  dsimp only at present
  simp only [removeFromLevelSubtracts, present, removeOrderSubtracts_eq member read,
    totalAt_of_level present]

/-- Every subtraction of a call on a book whose totals cover their queues is covered. -/
theorem Good.subtractsCovered {book : OrderBook} (good : book.Good) {bound : Slot → Nat}
    (between : book.ledger.Between bound) (request : BookRequest) :
    book.SubtractsCovered request := by
  have removes {id : OrderId} {elem : Addr} {element : BookElement} {detail : OrderDetails}
      (mapped : book.orderMap id = some elem) (read : book.heap.read elem = some element)
      (details : book.orderDetails id = some detail) :
      ∀ subtraction ∈ book.removeFromLevelSubtracts detail.side.book elem detail.price,
        subtraction.Covered := by
    intro subtraction made
    obtain ⟨twin, _, twinRead, rfl, _⟩ := good.sound.mapped id elem mapped
    rw [read] at twinRead
    cases twinRead
    rw [good.removeFromLevelSubtracts_eq mapped read details, List.mem_singleton] at made
    rw [made]
    exact between.quantity_le good.filed (resting_of_parts mapped read details)
  intro subtraction made
  cases request with
  | add incoming =>
    exact matchLevelsSubtracts_covered _ incoming _ book _ good.sound good.filed between
      subtraction made
  | cancel id traderId =>
    simp only [subtracts, cancelOrderSubtracts] at made
    split at made
    · contradiction
    · rename_i elem mapped
      split at made
      · rename_i element detail read details
        split at made
        · exact removes mapped read details subtraction made
        · contradiction
      · contradiction
  | modify id traderId newPrice newQty =>
    simp only [subtracts, modifyOrderSubtracts] at made
    split at made
    · contradiction
    · rename_i elem mapped
      split at made
      · rename_i element detail read details
        split at made
        · split at made
          · contradiction
          · exact removes mapped read details subtraction made
        · contradiction
      · contradiction

/-! ## Runs -/

/-- A level that does not exist has no total. -/
theorem totalAt_of_isNone {book : OrderBook} {side : BookSide} {price : Price}
    (absent : (book.level side price).isNone = true) : book.totalAt (side, price) = 0 := by
  simp only [totalAt, Option.isNone_iff_eq_none.mp absent]

/-- A call that adds nothing leaves the sums. -/
theorem Counted.count_of_none {state : Counted} {request : BookRequest}
    (none : state.book.insertion request = none) : state.count request = state.added := by
  simp only [Counted.count, none]

/-- A call that adds a value changes the sum of its level. -/
theorem Counted.count_of_some {state : Counted} {request : BookRequest} {insertion : Insertion}
    (inserts : state.book.insertion request = some insertion) : state.count request =
      Function.update state.added insertion.slot (insertion.sum state.added) := by
  simp only [Counted.count, inserts]

/-- `addOrder` keeps the totals covering while the sums fit. -/
theorem Counted.between_add {state : Counted} (good : state.book.Good)
    (between : state.book.ledger.Between state.added) {incoming : OrderRequest}
    (fresh : state.book.Fresh (.add incoming)) (fits : state.SumFits (.add incoming)) :
    ∃ next out, state.book.addOrder incoming = some (next, out) ∧
      next.ledger.Between (state.count (.add incoming)) := by
  obtain ⟨matched, ran, swept⟩ := good.sound.matchAgainst good.filed
    incoming.m_side.book.opposite incoming incoming.m_quantity
  obtain ⟨events, sweep, -⟩ := swept.sweep
  have matchedBetween := sweep.between good.filed between
  by_cases done : matched.remainingQty = 0
  · refine ⟨_, _, addOrder_filled ran done, ?_⟩
    rw [Counted.count_of_none (by simp only [insertion, ran, if_pos done])]
    exact matchedBetween
  · have missing : matched.book.resting incoming.m_orderId = none :=
      sweep.record_none (good.sound.fresh fresh)
    have unmapped := (swept.sound.resting_eq_none _).mp missing
    have inserts : state.book.insertion (.add incoming) =
        some ⟨(incoming.m_side.book, incoming.m_price),
          (matched.book.level incoming.m_side.book incoming.m_price).isNone,
          matched.remainingQty⟩ := by
      simp only [insertion, ran, if_neg done]
    refine ⟨_, _, addOrder_rested ran swept.sound unmapped done, ?_⟩
    rw [swept.sound.ledger_restOrder, Counted.count_of_some inserts]
    have opened (new : (matched.book.level incoming.m_side.book incoming.m_price).isNone = true) :
        matched.book.ledger.total (incoming.m_side.book, incoming.m_price) = 0 :=
      totalAt_of_isNone new
    exact matchedBetween.rest (sweep.filed good.filed) missing
      (Resting.ofRequest incoming matched.remainingQty) opened (fits _ inserts)

/-- A modification in place keeps the totals covering while it keeps the cover. -/
theorem Counted.between_inPlace {state : Counted} (good : state.book.Good)
    (between : state.book.ledger.Between state.added) {elem : Addr} {element : BookElement}
    {detail : OrderDetails} (mapped : state.book.orderMap element.m_id = some elem)
    (read : state.book.heap.read elem = some element)
    (details : state.book.orderDetails element.m_id = some detail) {newPrice : Price}
    {newQty : Quantity} (stays : detail.price = newPrice ∧ newQty < detail.quantity)
    (keeps : state.book.KeepsCover (.modify element.m_id element.m_traderId newPrice newQty)) :
    ∃ next out, state.book.modifyOrder element.m_id element.m_traderId newPrice newQty =
        some (next, out) ∧
      next.ledger.Between (state.count (.modify element.m_id element.m_traderId newPrice
        newQty)) := by
  have resting := resting_of_parts mapped read details
  obtain ⟨next, ran, -, -, ledger⟩ := good.sound.modifyOrder_inPlace mapped read details stays
  refine ⟨next, _, ran, ?_⟩
  rw [Counted.count_of_none (by simp [insertion, mapped, read, details, stays]), ledger]
  obtain ⟨level, present, -⟩ := good.queued mapped resting
  have enough := keeps _ resting rfl stays level present
  rw [← good.sound.restingQty_of_level present, ← totalAt_of_level present] at enough
  exact ⟨(between.covers_rewrite_iff good.filed resting _).mpr enough, between.bounded⟩

/-- An order that is queued again keeps the totals covering while the sums fit. -/
theorem Counted.between_requeue {state : Counted} (good : state.book.Good)
    (between : state.book.ledger.Between state.added) {elem : Addr} {element : BookElement}
    {detail : OrderDetails} (mapped : state.book.orderMap element.m_id = some elem)
    (read : state.book.heap.read elem = some element)
    (details : state.book.orderDetails element.m_id = some detail) {newPrice : Price}
    {newQty : Quantity} (moves : ¬(detail.price = newPrice ∧ newQty < detail.quantity))
    (fits : state.SumFits (.modify element.m_id element.m_traderId newPrice newQty)) :
    ∃ next out, state.book.modifyOrder element.m_id element.m_traderId newPrice newQty =
        some (next, out) ∧
      next.ledger.Between (state.count (.modify element.m_id element.m_traderId newPrice
        newQty)) := by
  have resting := resting_of_parts mapped read details
  obtain ⟨next, ran, -, -, ledger⟩ := good.modifyOrder_requeue mapped read details moves
  obtain ⟨level, present, member⟩ := good.queued mapped resting
  dsimp only at present
  have removed := good.sound.ledger_lessLevel present member read element.m_quantity
  have inserts : state.book.insertion
      (.modify element.m_id element.m_traderId newPrice newQty) =
        some ⟨(detail.side.book, newPrice), ((state.book.replaceLevel detail.side.book
          detail.price (lessLevel level elem element.m_quantity)).level detail.side.book
            newPrice).isNone, newQty⟩ := by
    simp [insertion, mapped, read, details, moves, removeFromLevel_eq present member read]
  refine ⟨next, _, ran, ?_⟩
  rw [ledger, Counted.count_of_some inserts]
  have dropped := between.drop good.filed resting (UInt32.le_refl _)
  have opened (new : ((state.book.replaceLevel detail.side.book detail.price
      (lessLevel level elem element.m_quantity)).level detail.side.book
        newPrice).isNone = true) :
      (state.book.ledger.drop (detail.side.book, detail.price) element.m_id
        element.m_quantity).total (detail.side.book, newPrice) = 0 := by
    have none := totalAt_of_isNone new
    change (OrderBook.ledger _).total (detail.side.book, newPrice) = 0 at none
    rw [removed] at none
    exact none
  exact dropped.rest (good.filed.drop resting element.m_quantity)
    (by rw [Ledger.record_drop, if_pos rfl])
    ⟨detail.side, newPrice, newQty, element.m_traderId, newQty⟩ opened (fits _ inserts)

/-- `modifyOrder` keeps the totals covering while the sums fit and it keeps the cover. -/
theorem Counted.between_modify {state : Counted} (good : state.book.Good)
    (between : state.book.ledger.Between state.added) {id : OrderId} {traderId : TraderId}
    {newPrice : Price} {newQty : Quantity}
    (fits : state.SumFits (.modify id traderId newPrice newQty))
    (keeps : state.book.KeepsCover (.modify id traderId newPrice newQty)) :
    ∃ next out, state.book.modifyOrder id traderId newPrice newQty = some (next, out) ∧
      next.ledger.Between (state.count (.modify id traderId newPrice newQty)) := by
  cases mapped : state.book.orderMap id with
  | none =>
    refine ⟨_, _, by simp only [modifyOrder, mapped]; rfl, ?_⟩
    rw [Counted.count_of_none (by simp [insertion, mapped])]
    exact between
  | some elem =>
    obtain ⟨element, detail, read, rfl, details, -⟩ := good.sound.parts mapped
    by_cases own : element.m_traderId = traderId
    · subst own
      by_cases stays : detail.price = newPrice ∧ newQty < detail.quantity
      · exact Counted.between_inPlace good between mapped read details stays keeps
      · exact Counted.between_requeue good between mapped read details stays fits
    · refine ⟨_, _, by simp only [modifyOrder, mapped, read, bind, Option.bind, if_neg own]; rfl,
        ?_⟩
      rw [Counted.count_of_none (by simp [insertion, mapped, read, details, own])]
      exact between

/-- `cancelOrder` keeps the totals covering. -/
theorem Good.between_cancel {book : OrderBook} (good : book.Good) {bound : Slot → Nat}
    (between : book.ledger.Between bound) (id : OrderId) (traderId : TraderId) :
    ∃ next out, book.cancelOrder id traderId = some (next, out) ∧ next.ledger.Between bound := by
  obtain ⟨next, out, ran, -, -, step⟩ := good.cancelOrder id traderId
  refine ⟨next, out, ran, ?_⟩
  generalize next.ledger = after at step
  cases step with
  | cancelled recorded _ => exact between.drop good.filed recorded (UInt32.le_refl _)
  | cancelRejected => exact between

/-- A call keeps the totals covering while the sums fit and it keeps the cover. -/
theorem Counted.between_step {state : Counted} (good : state.book.Good)
    (between : state.book.ledger.Between state.added) {request : BookRequest}
    (fresh : state.book.Fresh request) (fits : state.SumFits request)
    (keeps : state.book.KeepsCover request) :
    ∃ next out, state.step request = some (next, out) ∧
      state.book.step request = some (next.book, out) ∧ next.book.Good ∧
      next.book.ledger.Between next.added := by
  have moved : ∃ next out, state.book.step request = some (next, out) ∧
      next.ledger.Between (state.count request) := by
    cases request with
    | add incoming => exact Counted.between_add good between fresh fits
    | cancel id traderId => exact good.between_cancel between id traderId
    | modify id traderId newPrice newQty => exact Counted.between_modify good between fits keeps
  obtain ⟨next, out, ran, nextBetween⟩ := moved
  refine ⟨⟨next, state.count request⟩, out, ?_, ran, (good.of_step fresh ran).1, nextBetween⟩
  simp only [Counted.step, ran, bind, Option.bind]

/-- While the sums fit and every modification in place keeps the cover, every subtraction of a run
is covered. -/
theorem Counted.run_covered (requests : List BookRequest) (state : Counted)
    (good : state.book.Good) (between : state.book.ledger.Between state.added)
    (fresh : Guarded OrderBook.step OrderBook.Fresh state.book requests)
    (fits : Guarded Counted.step Counted.SumFits state requests)
    (keeps : Guarded OrderBook.step OrderBook.KeepsCover state.book requests) :
    Guarded OrderBook.step OrderBook.SubtractsCovered state.book requests := by
  induction requests generalizing state with
  | nil => trivial
  | cons request requests ih =>
    obtain ⟨next, out, counted, ran, nextGood, nextBetween⟩ :=
      Counted.between_step good between fresh.1 fits.1 keeps.1
    refine ⟨good.subtractsCovered between request, ?_⟩
    intro reached emitted stepped
    rw [ran] at stepped
    cases stepped
    exact ih next nextGood nextBetween (fresh.2 _ _ ran) (fits.2 _ _ counted) (keeps.2 _ _ ran)

/-- A request to cancel. -/
def IsCancel : BookRequest → Prop
  | .cancel _ _ => True
  | _ => False

/-- What cancelling a resting order takes off, and what it leaves. -/
theorem Good.cancels_recorded {book : OrderBook} (good : book.Good) {id : OrderId}
    {order : Resting} (recorded : book.resting id = some order) :
    book.subtracts (.cancel id order.traderId) =
        [⟨book.ledger.total order.slot, order.quantity⟩] ∧
      ∃ next out, book.step (.cancel id order.traderId) = some (next, out) ∧ next.Good ∧
        next.ledger = book.ledger.drop order.slot id order.quantity := by
  obtain ⟨elem, mapped⟩ := good.sound.mapped_of_resting recorded
  obtain ⟨element, detail, read, rfl, details, resting⟩ := good.sound.parts mapped
  rw [recorded] at resting
  cases resting
  constructor
  · simp only [subtracts, cancelOrderSubtracts, mapped, read, details, if_true]
    exact good.removeFromLevelSubtracts_eq mapped read details
  · obtain ⟨next, out, ran, nextGood, -, step⟩ :=
      good.step (show book.Fresh (.cancel element.m_id element.m_traderId) from trivial)
    refine ⟨next, out, ran, nextGood, ?_⟩
    generalize next.ledger = after at step
    cases step with
    | cancelled found _ =>
      change book.resting element.m_id = some _ at found
      rw [recorded] at found
      cases found
      rfl
    | cancelRejected foreign => exact absurd rfl (foreign _ recorded)

/-- When more is queued in a level than its total says, cancelling the orders of the level one
after the other takes more off than is there. -/
theorem Good.cancels_underflow {slot : Slot} (ids : List OrderId) (book : OrderBook)
    (good : book.Good) (queue : book.ledger.queue slot = ids)
    (short : (book.ledger.total slot).toNat < book.ledger.restingQty slot) :
    ∃ cancels, (∀ request ∈ cancels, IsCancel request) ∧
      ¬Guarded OrderBook.step OrderBook.SubtractsCovered book cancels := by
  induction ids generalizing book with
  | nil =>
    rw [Ledger.restingQty, queue] at short
    exact absurd short (Nat.not_lt_zero _)
  | cons id ids ih =>
    have member : id ∈ book.ledger.queue slot := by simp [queue]
    obtain ⟨order, recorded, rfl⟩ := good.filed.recorded member
    obtain ⟨made, next, out, ran, nextGood, ledger⟩ := good.cancels_recorded recorded
    by_cases covered : order.quantity ≤ book.ledger.total order.slot
    · -- the cancel takes the same off both sides of the inequality
      have split := Ledger.restingQty_drop good.filed recorded order.quantity order.slot
      rw [if_pos rfl] at split
      have left : next.ledger.queue order.slot = ids := by
        rw [ledger, Ledger.queue_drop, if_pos rfl, queue, List.erase_cons_head]
      have occupied : ids ≠ [] := by
        rintro rfl
        rw [Ledger.restingQty, ← ledger, left, List.map_nil, List.sum_nil] at split
        rw [UInt32.le_iff_toNat_le] at covered
        omega
      have less : (next.ledger.total order.slot).toNat < next.ledger.restingQty order.slot := by
        rw [ledger, Ledger.total_drop, if_pos rfl, if_neg (by rw [queue]; simpa using occupied),
          UInt32.toNat_sub_of_le _ _ covered]
        rw [UInt32.le_iff_toNat_le] at covered
        omega
      obtain ⟨cancels, plain, fails⟩ := ih next nextGood left less
      refine ⟨.cancel id order.traderId :: cancels, ?_, ?_⟩
      · intro request member
        rcases List.mem_cons.mp member with rfl | member
        · trivial
        · exact plain request member
      · intro guarded
        exact fails (guarded.2 next out ran)
    · refine ⟨[.cancel id order.traderId], ?_, ?_⟩
      · intro request member
        rw [List.mem_singleton.mp member]
        trivial
      · intro guarded
        refine covered (guarded.1 ⟨book.ledger.total order.slot, order.quantity⟩ ?_)
        rw [made]
        exact List.mem_singleton_self _

/-- A modification in place that does not keep the cover leaves a level whose total does not cover
its queue. -/
theorem Good.short_of_not_keepsCover {book : OrderBook} (good : book.Good) {bound : Slot → Nat}
    (between : book.ledger.Between bound) {request : BookRequest}
    (loses : ¬book.KeepsCover request) : ∃ next out slot, book.step request = some (next, out) ∧
      next.Good ∧ (next.ledger.total slot).toNat < next.ledger.restingQty slot := by
  cases request with
  | add incoming => exact absurd trivial loses
  | cancel id traderId => exact absurd trivial loses
  | modify id traderId newPrice newQty =>
    simp only [KeepsCover, not_forall] at loses
    obtain ⟨order, recorded, own, stays, level, present, exceeds⟩ := loses
    obtain ⟨elem, mapped⟩ := good.sound.mapped_of_resting recorded
    obtain ⟨element, detail, read, rfl, details, resting⟩ := good.sound.parts mapped
    rw [Option.mem_def, resting] at recorded
    cases recorded
    subst own
    rw [← good.sound.restingQty_of_level present, ← totalAt_of_level present] at exceeds
    obtain ⟨next, ran, -, -, ledger⟩ := good.sound.modifyOrder_inPlace mapped read details stays
    have uncovered : ¬∀ slot, next.ledger.restingQty slot ≤ (next.ledger.total slot).toNat := by
      rw [ledger]
      exact fun covers => exceeds ((between.covers_rewrite_iff good.filed resting _).mp covers)
    obtain ⟨slot, short⟩ := not_forall.mp uncovered
    have fresh : book.Fresh (.modify element.m_id element.m_traderId newPrice newQty) := trivial
    exact ⟨next, _, slot, ran, (good.of_step fresh ran).1, Nat.lt_of_not_le short⟩

/-- While the sums fit, a run in which some modification in place does not keep the cover can be
stopped and followed by cancels so that a subtraction takes off more than the total. -/
theorem Counted.run_underflows (requests : List BookRequest) (state : Counted)
    (good : state.book.Good) (between : state.book.ledger.Between state.added)
    (fresh : Guarded OrderBook.step OrderBook.Fresh state.book requests)
    (fits : Guarded Counted.step Counted.SumFits state requests)
    (loses : ¬Guarded OrderBook.step OrderBook.KeepsCover state.book requests) :
    ∃ early cancels, early <+: requests ∧ (∀ request ∈ cancels, IsCancel request) ∧
      ¬Guarded OrderBook.step OrderBook.SubtractsCovered state.book (early ++ cancels) := by
  induction requests generalizing state with
  | nil => exact absurd trivial loses
  | cons request requests ih =>
    by_cases keeps : state.book.KeepsCover request
    · obtain ⟨next, out, counted, ran, nextGood, nextBetween⟩ :=
        Counted.between_step good between fresh.1 fits.1 keeps
      have later : ¬Guarded OrderBook.step OrderBook.KeepsCover next.book requests := by
        intro guarded
        refine loses ⟨keeps, ?_⟩
        intro reached emitted stepped
        rw [ran] at stepped
        cases stepped
        exact guarded
      obtain ⟨early, cancels, here, plain, fails⟩ :=
        ih next nextGood nextBetween (fresh.2 _ _ ran) (fits.2 _ _ counted) later
      refine ⟨request :: early, cancels, by simpa using here, plain, ?_⟩
      intro guarded
      exact fails (guarded.2 next.book out ran)
    · obtain ⟨next, out, slot, ran, nextGood, short⟩ :=
        good.short_of_not_keepsCover between keeps
      obtain ⟨cancels, plain, fails⟩ := Good.cancels_underflow _ next nextGood rfl short
      refine ⟨[request], cancels, by simp, plain, ?_⟩
      intro guarded
      exact fails (guarded.2 next out ran)

/-- The empty book has nothing to cover. -/
theorem between_new (sym : SymbolId) :
    (OrderBook.new sym).ledger.Between (Counted.new sym).added where
  covers slot := by
    obtain ⟨side, price⟩ := slot
    cases side <;> exact Nat.zero_le _
  bounded slot := by
    obtain ⟨side, price⟩ := slot
    cases side <;> exact Nat.le_refl _

/-- Cancels may follow a run of fresh calls. -/
theorem fresh_cancels {book : OrderBook} {requests early cancels : List BookRequest}
    (fresh : Guarded OrderBook.step OrderBook.Fresh book requests) (here : early <+: requests)
    (plain : ∀ request ∈ cancels, IsCancel request) :
    Guarded OrderBook.step OrderBook.Fresh book (early ++ cancels) := by
  obtain ⟨later, rfl⟩ := here
  refine fresh.of_append.append ?_
  intro request member state
  cases request with
  | cancel id traderId => trivial
  | add incoming => exact (plain _ member).elim
  | modify id traderId newPrice newQty => exact (plain _ member).elim

/-- Cancels add nothing to a level. -/
theorem Counted.fits_cancels {state : Counted} {requests early cancels : List BookRequest}
    (fits : Guarded Counted.step Counted.SumFits state requests) (here : early <+: requests)
    (plain : ∀ request ∈ cancels, IsCancel request) :
    Guarded Counted.step Counted.SumFits state (early ++ cancels) := by
  obtain ⟨later, rfl⟩ := here
  refine fits.of_append.append ?_
  intro request member state insertion made
  cases request with
  | cancel id traderId => contradiction
  | add incoming => exact (plain _ member).elim
  | modify id traderId newPrice newQty => exact (plain _ member).elim

/-- In a run of fresh calls from an empty book in which the values added to each level sum to less
than 2³², every subtraction takes off at most the current total as long as every modification in
place keeps the cover. A run with one that does not can be stopped and followed by cancels, still
within these bounds, so that a subtraction takes off more. -/
theorem run_subtracts_covered (sym : SymbolId) (requests : List BookRequest)
    (fresh : Guarded OrderBook.step OrderBook.Fresh (OrderBook.new sym) requests)
    (fits : Guarded Counted.step Counted.SumFits (Counted.new sym) requests) :
    (Guarded OrderBook.step OrderBook.KeepsCover (OrderBook.new sym) requests →
      Guarded OrderBook.step OrderBook.SubtractsCovered (OrderBook.new sym) requests) ∧
    (¬Guarded OrderBook.step OrderBook.KeepsCover (OrderBook.new sym) requests →
      ∃ early cancels, early <+: requests ∧ (∀ request ∈ cancels, IsCancel request) ∧
        Guarded OrderBook.step OrderBook.Fresh (OrderBook.new sym) (early ++ cancels) ∧
        Guarded Counted.step Counted.SumFits (Counted.new sym) (early ++ cancels) ∧
        ¬Guarded OrderBook.step OrderBook.SubtractsCovered (OrderBook.new sym)
          (early ++ cancels)) := by
  refine ⟨Counted.run_covered requests (Counted.new sym) (good_new sym) (between_new sym) fresh
    fits, ?_⟩
  intro loses
  obtain ⟨early, cancels, here, plain, fails⟩ := Counted.run_underflows requests (Counted.new sym)
    (good_new sym) (between_new sym) fresh fits loses
  exact ⟨early, cancels, here, plain, fresh_cancels fresh here plain,
    Counted.fits_cancels fits here plain, fails⟩

/-- A bid that was reduced in place leaves shares in the total, so that a partly filled bid of the
level may grow back by two before both are cancelled. -/
theorem run_subtracts_covered_regrown :
    Guarded OrderBook.step OrderBook.SubtractsCovered (OrderBook.new 0)
      [place 1 1 Side.Buy 100 10, place 2 2 Side.Buy 100 5, .modify 2 2 100 2,
        place 3 3 Side.Sell 100 3, .modify 1 1 100 9, .cancel 1 1, .cancel 2 2] :=
  (run_subtracts_covered 0
    [place 1 1 Side.Buy 100 10, place 2 2 Side.Buy 100 5, .modify 2 2 100 2,
      place 3 3 Side.Sell 100 3, .modify 1 1 100 9, .cancel 1 1, .cancel 2 2]
    (by decide) (by decide)).1 (by decide)

/-- A bid of ten shares is filled down to one and then modified in place to nine, which the cached
quantity allows. Its level still has a total of one when a cancel takes the nine off. -/
theorem subtraction_fails_on_regrown_order :
    Guarded OrderBook.step OrderBook.Fresh (OrderBook.new 0)
      [place 1 1 Side.Buy 100 10, place 2 2 Side.Sell 100 9, .modify 1 1 100 9, .cancel 1 1] ∧
    Guarded Counted.step Counted.SumFits (Counted.new 0)
      [place 1 1 Side.Buy 100 10, place 2 2 Side.Sell 100 9, .modify 1 1 100 9, .cancel 1 1] ∧
    ¬Guarded OrderBook.step OrderBook.SubtractsCovered (OrderBook.new 0)
      [place 1 1 Side.Buy 100 10, place 2 2 Side.Sell 100 9, .modify 1 1 100 9, .cancel 1 1] := by
  decide

end OrderBook

end Exchange
