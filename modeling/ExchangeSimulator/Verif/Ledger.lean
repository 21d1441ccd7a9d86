import ExchangeSimulator.Library.QueueIndex
import ExchangeSimulator.Matching.OrderBook

/-!
# The ledger of a book

What an order book is for, without pointers, maps and loops: a queue of order
ids at every side and price, the total kept for it, and one record for each
resting order. A slot with an empty queue is a level that does not exist. The
matcher becomes a trace of single steps on the front order of the best slot,
and `LedgerStep` says, once, everything that a call on the book can do. The
refinement modules connect the book of the source to it.
-/

namespace Exchange

open Library

/-- A side and a price. -/
abbrev Slot := BookSide × Price

/-- What the element and the details say of one resting order. -/
structure Resting where
  /-- Side as requested. -/
  side : Side
  /-- Limit price. -/
  price : Price
  /-- Quantity when the order was last placed or modified. -/
  cachedQty : Quantity
  /-- Owner. -/
  traderId : TraderId
  /-- Shares left. -/
  quantity : Quantity
deriving DecidableEq, Repr

namespace Resting

/-- Where the order waits. -/
def slot (order : Resting) : Slot := (order.side.book, order.price)

/-- The element of the order. -/
def element (order : Resting) (id : OrderId) : BookElement := ⟨id, order.traderId, order.quantity⟩

/-- The order left by a fill. -/
def fill (order : Resting) (qty : Quantity) : Resting :=
  { order with quantity := order.quantity - qty }

/-- The order left by an accepted modification. -/
def modify (order : Resting) (newPrice : Price) (newQty : Quantity) : Resting :=
  { order with price := newPrice, cachedQty := newQty, quantity := newQty }

/-- The order an incoming request leaves in the book. -/
def ofRequest (incoming : OrderRequest) (remainingQty : Quantity) : Resting :=
  ⟨incoming.m_side, incoming.m_price, remainingQty, incoming.m_traderId, remainingQty⟩

end Resting

/-- Queues, records and totals of one instrument. -/
structure Ledger extends QueueIndex Slot OrderId Resting where
  /-- The total kept for a slot. -/
  total : Slot → Quantity

namespace Ledger

/-- Queues and records agree. -/
abbrev Filed (ledger : Ledger) : Prop := ledger.toQueueIndex.Filed Resting.slot

/-- Take an order out of its queue and an amount off the total; an emptied slot has no total. -/
def unlink (ledger : Ledger) (slot : Slot) (id : OrderId) (amount : Quantity) : Ledger where
  toQueueIndex := ledger.toQueueIndex.unlink slot id
  total := Function.update ledger.total slot
    (if (ledger.queue slot).erase id = [] then 0 else ledger.total slot - amount)

/-- Put an order last in a queue and an amount on the total. -/
def link (ledger : Ledger) (slot : Slot) (id : OrderId) (amount : Quantity) : Ledger where
  toQueueIndex := ledger.toQueueIndex.link slot id
  total := Function.update ledger.total slot (ledger.total slot + amount)

/-- Write or erase the record of an order. -/
def put (ledger : Ledger) (id : OrderId) (order : Option Resting) : Ledger :=
  { ledger with toQueueIndex := ledger.toQueueIndex.put id order }

/-- An order leaves; `amount` is what its level subtracts. -/
def drop (ledger : Ledger) (slot : Slot) (id : OrderId) (amount : Quantity) : Ledger :=
  (ledger.unlink slot id amount).put id none

/-- An order comes to rest last in its queue. -/
def rest (ledger : Ledger) (id : OrderId) (order : Resting) : Ledger :=
  (ledger.put id (some order)).link order.slot id order.quantity

/-- A partial fill of an order, with the total of its slot. -/
def reduce (ledger : Ledger) (id : OrderId) (order : Resting) (qty : Quantity) : Ledger :=
  let filled := ledger.put id (some (order.fill qty))
  { filled with total := Function.update filled.total order.slot (filled.total order.slot - qty) }

/-- An order modified in place; the total of its slot is left alone. -/
def rewrite (ledger : Ledger) (id : OrderId) (order : Resting) : Ledger :=
  ledger.put id (some order)

/-- An order moved to the back of the queue of its new price. -/
def requeue (ledger : Ledger) (id : OrderId) (order next : Resting) : Ledger :=
  (ledger.drop order.slot id order.quantity).rest id next

/-- The ledger of no orders. -/
def empty : Ledger := ⟨⟨fun _ => [], fun _ => none⟩, fun _ => 0⟩

/-- Ledgers with the same queues, records and totals are equal. -/
theorem ext_fields {left right : Ledger} (queues : left.queue = right.queue)
    (records : left.record = right.record) (totals : left.total = right.total) : left = right := by
  obtain ⟨⟨_, _⟩, _⟩ := left
  obtain ⟨⟨_, _⟩, _⟩ := right
  simp only at queues records totals
  subst queues records totals
  rfl

section Fields

variable (ledger : Ledger) (slot other : Slot) (id someId : OrderId) (amount : Quantity)
  (order next : Resting)

/-- Queues after an order left. -/
theorem queue_drop : (ledger.drop slot id amount).queue other =
    if other = slot then (ledger.queue slot).erase id else ledger.queue other := by
  simp only [drop, unlink, put, QueueIndex.unlink, QueueIndex.put, Function.update_apply]

/-- Records after an order left. -/
theorem record_drop : (ledger.drop slot id amount).record someId =
    if someId = id then none else ledger.record someId := by
  simp only [drop, unlink, put, QueueIndex.unlink, QueueIndex.put, Function.update_apply]

/-- Totals after an order left. -/
theorem total_drop : (ledger.drop slot id amount).total other =
    if other = slot then
      if (ledger.queue slot).erase id = [] then 0 else ledger.total slot - amount
    else ledger.total other := by
  simp only [drop, unlink, put, Function.update_apply]

/-- Queues after an order came to rest. -/
theorem queue_rest : (ledger.rest id order).queue other =
    if other = order.slot then ledger.queue order.slot ++ [id] else ledger.queue other := by
  simp only [rest, link, put, QueueIndex.link, QueueIndex.put, Function.update_apply]

/-- Records after an order came to rest. -/
theorem record_rest : (ledger.rest id order).record someId =
    if someId = id then some order else ledger.record someId := by
  simp only [rest, link, put, QueueIndex.link, QueueIndex.put, Function.update_apply]

/-- Totals after an order came to rest. -/
theorem total_rest : (ledger.rest id order).total other =
    if other = order.slot then ledger.total order.slot + order.quantity
    else ledger.total other := by
  simp only [rest, link, put, Function.update_apply]

/-- A partial fill leaves the queues alone. -/
theorem queue_reduce : (ledger.reduce id order amount).queue = ledger.queue := rfl

/-- Records after a partial fill. -/
theorem record_reduce : (ledger.reduce id order amount).record someId =
    if someId = id then some (order.fill amount) else ledger.record someId := by
  simp only [reduce, put, QueueIndex.put, Function.update_apply]

/-- Totals after a partial fill. -/
theorem total_reduce : (ledger.reduce id order amount).total other =
    if other = order.slot then ledger.total order.slot - amount else ledger.total other := by
  simp only [reduce, put, Function.update_apply]

/-- A modification in place leaves the queues alone. -/
theorem queue_rewrite : (ledger.rewrite id order).queue = ledger.queue := rfl

/-- Records after a modification in place. -/
theorem record_rewrite : (ledger.rewrite id order).record someId =
    if someId = id then some order else ledger.record someId := by
  simp only [rewrite, put, QueueIndex.put, Function.update_apply]

/-- A modification in place leaves the totals alone. -/
theorem total_rewrite : (ledger.rewrite id order).total = ledger.total := rfl

end Fields

/-- What an order's record said does not matter once the order leaves. -/
theorem drop_put (ledger : Ledger) (slot : Slot) (id : OrderId) (order : Option Resting)
    (amount : Quantity) : (ledger.put id order).drop slot id amount =
      ledger.drop slot id amount := by
  apply ext_fields
  · rfl
  · simp only [drop, unlink, put, QueueIndex.unlink, QueueIndex.put, Function.update_idem]
  · rfl

/-- An order that leaves keeps queues and records in agreement. -/
theorem Filed.drop {ledger : Ledger} (filed : ledger.Filed) {id : OrderId} {order : Resting}
    (recorded : ledger.record id = some order) (amount : Quantity) :
    (ledger.drop order.slot id amount).Filed :=
  QueueIndex.Filed.remove filed recorded

/-- A new order that comes to rest keeps queues and records in agreement. -/
theorem Filed.rest {ledger : Ledger} (filed : ledger.Filed) {id : OrderId}
    (missing : ledger.record id = none) (order : Resting) : (ledger.rest id order).Filed :=
  QueueIndex.Filed.append filed missing order

/-- A partial fill keeps queues and records in agreement. -/
theorem Filed.reduce {ledger : Ledger} (filed : ledger.Filed) {id : OrderId} {order : Resting}
    (recorded : ledger.record id = some order) (qty : Quantity) :
    (ledger.reduce id order qty).Filed :=
  QueueIndex.Filed.rewrite filed recorded (show (order.fill qty).slot = order.slot from rfl)

/-- A modification in place keeps queues and records in agreement. -/
theorem Filed.rewrite {ledger : Ledger} (filed : ledger.Filed) {id : OrderId}
    {order next : Resting} (recorded : ledger.record id = some order)
    (same : next.slot = order.slot) : (ledger.rewrite id next).Filed :=
  QueueIndex.Filed.rewrite filed recorded same

/-- A requeued order keeps queues and records in agreement. -/
theorem Filed.requeue {ledger : Ledger} (filed : ledger.Filed) {id : OrderId} {order : Resting}
    (recorded : ledger.record id = some order) (next : Resting) :
    (ledger.requeue id order next).Filed :=
  (filed.drop recorded order.quantity).rest (by simp [record_drop]) next

/-- Every resting order has a property. -/
def Each (ledger : Ledger) (property : Resting → Prop) : Prop :=
  ∀ id order, ledger.record id = some order → property order

/-- An order that leaves changes no other. -/
theorem Each.drop {ledger : Ledger} {property : Resting → Prop} (each : ledger.Each property)
    (slot : Slot) (id : OrderId) (amount : Quantity) :
    (ledger.drop slot id amount).Each property := by
  intro other order recorded
  rw [record_drop] at recorded
  split at recorded
  · contradiction
  · exact each other order recorded

/-- After one record was written, every order has a property exactly when the written one has. -/
theorem Each.iff_of_record {ledger next : Ledger} {property : Resting → Prop} {id : OrderId}
    {order : Resting} (each : ledger.Each property)
    (records : ∀ other, next.record other =
      if other = id then some order else ledger.record other) :
    next.Each property ↔ property order := by
  constructor
  · intro after
    apply after id
    rw [records, if_pos rfl]
  · intro own other found recorded
    rw [records] at recorded
    split at recorded
    · cases recorded
      exact own
    · exact each other found recorded

/-- The queue an order is moved to. -/
theorem queue_requeue {ledger : Ledger} (filed : ledger.Filed) {id : OrderId} {order : Resting}
    (recorded : ledger.record id = some order) (next : Resting) :
    (ledger.requeue id order next).queue next.slot = (ledger.queue next.slot).erase id ++ [id] := by
  rw [requeue, queue_rest, if_pos rfl, queue_drop]
  by_cases here : next.slot = order.slot
  · rw [if_pos here, here]
  · have absent : id ∉ ledger.queue next.slot := by
      intro member
      exact here (filed.slot_eq member recorded).symm
    rw [if_neg here, List.erase_of_not_mem absent]

/-! ## Matching -/

/-- No occupied price of a side comes before the given one. -/
def Leads (ledger : Ledger) (side : BookSide) (price : Price) : Prop :=
  ∀ other, ledger.queue (side, other) ≠ [] → other = price ∨ side.before price other

/-- `id` with record `order` is first in the best slot of a side. -/
structure Front (ledger : Ledger) (side : BookSide) (price : Price) (id : OrderId)
    (order : Resting) : Prop where
  /-- It heads the queue of its price. -/
  heads : (ledger.queue (side, price)).head? = some id
  /-- Its record. -/
  recorded : ledger.record id = some order
  /-- Every other occupied price of the side comes later. -/
  best : ledger.Leads side price

/-- One iteration of the matcher, as it is seen from outside. -/
inductive MatchEvent where
  /-- A resting order of the incoming trader is cancelled. -/
  | selfTrade (price : Price) (passive : BookElement)
  /-- A resting order trades. -/
  | fill (price : Price) (passive : BookElement) (qty : Quantity)
deriving DecidableEq, Repr

/-- What an iteration emits. -/
def MatchEvent.outputs (symbol : SymbolId) (side : BookSide) (incoming : OrderRequest) :
    MatchEvent → Outputs
  | .selfTrade price passive => OrderBook.selfTradeOutputs symbol side price passive
  | .fill price passive qty => OrderBook.tradeOutputs symbol side price incoming passive qty

/-- What a trace of iterations emits. -/
def outputsOf (symbol : SymbolId) (side : BookSide) (incoming : OrderRequest)
    (events : List MatchEvent) : Outputs :=
  events.foldr (fun event out => (event.outputs symbol side incoming).append out) Outputs.none

/-- One iteration on the front order of the passive side: cancel an own order, fill a
foreign one completely, or fill it partly and be done. The level of a completely filled
order subtracts the quantity the element has by then, which is zero. -/
inductive MatchStep (side : BookSide) (incoming : OrderRequest) (ledger : Ledger)
    (remaining : Quantity) : MatchEvent → Ledger → Quantity → Prop where
  | selfTrade {price : Price} {id : OrderId} {order : Resting}
      (positive : 0 < remaining) (front : ledger.Front side price id order)
      (crosses : OrderBook.canTrade side price incoming.m_price = true)
      (own : order.traderId = incoming.m_traderId) :
      MatchStep side incoming ledger remaining (.selfTrade price (order.element id))
        (ledger.drop (side, price) id order.quantity) remaining
  | full {price : Price} {id : OrderId} {order : Resting}
      (positive : 0 < remaining) (front : ledger.Front side price id order)
      (crosses : OrderBook.canTrade side price incoming.m_price = true)
      (foreign : order.traderId ≠ incoming.m_traderId) (covers : order.quantity ≤ remaining) :
      MatchStep side incoming ledger remaining
        (.fill price (order.element id) order.quantity)
        (ledger.drop (side, price) id 0) (remaining - order.quantity)
  | partly {price : Price} {id : OrderId} {order : Resting}
      (positive : 0 < remaining) (front : ledger.Front side price id order)
      (crosses : OrderBook.canTrade side price incoming.m_price = true)
      (foreign : order.traderId ≠ incoming.m_traderId) (short : remaining < order.quantity) :
      MatchStep side incoming ledger remaining (.fill price (order.element id) remaining)
        (ledger.reduce id order remaining) 0

/-- A trace of iterations. -/
inductive Sweep (side : BookSide) (incoming : OrderRequest) :
    Ledger → Quantity → List MatchEvent → Ledger → Quantity → Prop where
  | done (ledger : Ledger) (remaining : Quantity) :
      Sweep side incoming ledger remaining [] ledger remaining
  | step {ledger next last : Ledger} {remaining after final : Quantity} {event : MatchEvent}
      {events : List MatchEvent}
      (first : MatchStep side incoming ledger remaining event next after)
      (later : Sweep side incoming next after events last final) :
      Sweep side incoming ledger remaining (event :: events) last final

/-- Nothing is left to match: the incoming order is filled or no occupied price trades. -/
def Exhausted (side : BookSide) (limit : Price) (ledger : Ledger) (remaining : Quantity) : Prop :=
  remaining = 0 ∨ ∀ price, ledger.queue (side, price) ≠ [] →
    OrderBook.canTrade side price limit = false

/-- The front order waits in its slot. -/
theorem Front.mem {ledger : Ledger} {side : BookSide} {price : Price} {id : OrderId}
    {order : Resting} (front : ledger.Front side price id order) :
    id ∈ ledger.queue (side, price) :=
  List.mem_of_head? front.heads

/-- The record of the front order names the slot it heads. -/
theorem Front.slot_eq {ledger : Ledger} {side : BookSide} {price : Price} {id : OrderId}
    {order : Resting} (filed : ledger.Filed) (front : ledger.Front side price id order) :
    order.slot = (side, price) :=
  filed.slot_eq front.mem front.recorded

/-- An iteration only takes orders out of queues. -/
theorem MatchStep.queue_sublist {side : BookSide} {incoming : OrderRequest}
    {ledger next : Ledger} {remaining after : Quantity} {event : MatchEvent}
    (step : MatchStep side incoming ledger remaining event next after) (slot : Slot) :
    (next.queue slot).Sublist (ledger.queue slot) := by
  have dropped (price : Price) (id : OrderId) (amount : Quantity) :
      ((ledger.drop (side, price) id amount).queue slot).Sublist (ledger.queue slot) := by
    rw [queue_drop]
    split
    · rename_i here
      subst here
      exact List.erase_sublist
    · exact List.Sublist.refl _
  cases step with
  | selfTrade => exact dropped _ _ _
  | full => exact dropped _ _ _
  | partly => exact List.Sublist.refl _

/-- One iteration keeps queues and records in agreement. -/
theorem MatchStep.filed {side : BookSide} {incoming : OrderRequest} {ledger next : Ledger}
    {remaining after : Quantity} {event : MatchEvent}
    (step : MatchStep side incoming ledger remaining event next after) (filed : ledger.Filed) :
    next.Filed := by
  cases step with
  | selfTrade _ front _ _ =>
    rw [← front.slot_eq filed]
    exact filed.drop front.recorded _
  | full _ front _ _ _ =>
    rw [← front.slot_eq filed]
    exact filed.drop front.recorded _
  | partly _ front _ _ _ => exact filed.reduce front.recorded _

/-- An iteration keeps the best price of the passive side. -/
theorem MatchStep.leads {side : BookSide} {incoming : OrderRequest} {ledger next : Ledger}
    {remaining after : Quantity} {event : MatchEvent}
    (step : MatchStep side incoming ledger remaining event next after) {price : Price}
    (leads : ledger.Leads side price) : next.Leads side price := by
  intro other occupied
  apply leads other
  intro empty
  have less := step.queue_sublist (side, other)
  rw [empty] at less
  exact occupied (List.sublist_nil.mp less)

/-- A fact about ledger and remainder that every iteration keeps holds after a trace. -/
theorem Sweep.invariant {side : BookSide} {incoming : OrderRequest}
    (holds : Ledger → Quantity → Prop)
    (kept : ∀ {ledger next : Ledger} {remaining after : Quantity} {event : MatchEvent},
      MatchStep side incoming ledger remaining event next after →
        holds ledger remaining → holds next after)
    {ledger last : Ledger} {remaining final : Quantity} {events : List MatchEvent}
    (sweep : Sweep side incoming ledger remaining events last final)
    (start : holds ledger remaining) : holds last final := by
  induction sweep with
  | done => exact start
  | step first _ ih => exact ih (kept first start)

/-- What every iteration gives its event, from a fact that every iteration keeps, each event of
a trace has. -/
theorem Sweep.events {side : BookSide} {incoming : OrderRequest}
    (holds : Ledger → Quantity → Prop) (property : MatchEvent → Prop)
    (kept : ∀ {ledger next : Ledger} {remaining after : Quantity} {event : MatchEvent},
      MatchStep side incoming ledger remaining event next after →
        holds ledger remaining → holds next after ∧ property event)
    {ledger last : Ledger} {remaining final : Quantity} {events : List MatchEvent}
    (sweep : Sweep side incoming ledger remaining events last final)
    (start : holds ledger remaining) : ∀ event ∈ events, property event := by
  induction sweep with
  | done => simp
  | step first _ ih =>
    intro event member
    obtain ⟨later, here⟩ := kept first start
    rcases List.mem_cons.mp member with rfl | member
    · exact here
    · exact ih later event member

/-- A trace keeps queues and records in agreement. -/
theorem Sweep.filed {side : BookSide} {incoming : OrderRequest} {ledger last : Ledger}
    {remaining final : Quantity} {events : List MatchEvent}
    (sweep : Sweep side incoming ledger remaining events last final) (filed : ledger.Filed) :
    last.Filed :=
  sweep.invariant (fun ledger _ => ledger.Filed) (fun step filed => step.filed filed) filed

/-- A trace occupies no slot. -/
theorem Sweep.ne_nil {side : BookSide} {incoming : OrderRequest} {ledger last : Ledger}
    {remaining final : Quantity} {events : List MatchEvent}
    (sweep : Sweep side incoming ledger remaining events last final) {slot : Slot}
    (occupied : last.queue slot ≠ []) : ledger.queue slot ≠ [] := by
  intro empty
  apply occupied
  refine sweep.invariant (fun ledger _ => ledger.queue slot = []) ?_ empty
  intro ledger next remaining after event step empty
  have less := step.queue_sublist slot
  rw [empty] at less
  exact List.sublist_nil.mp less

/-- A trace that starts with nothing to fill does nothing. -/
theorem Sweep.of_zero {side : BookSide} {incoming : OrderRequest} {ledger last : Ledger}
    {remaining final : Quantity} {events : List MatchEvent}
    (sweep : Sweep side incoming ledger remaining events last final) (zero : remaining = 0) :
    events = [] ∧ last = ledger := by
  cases sweep with
  | done => exact ⟨rfl, rfl⟩
  | step first _ =>
    cases first with
    | selfTrade positive => exact absurd zero (UInt32.pos_iff_ne_zero.mp positive)
    | full positive => exact absurd zero (UInt32.pos_iff_ne_zero.mp positive)
    | partly positive => exact absurd zero (UInt32.pos_iff_ne_zero.mp positive)

/-- Traces in order are a trace. -/
theorem Sweep.trans {side : BookSide} {incoming : OrderRequest} {first second third : Ledger}
    {before between after : Quantity} {events later : List MatchEvent}
    (head : Sweep side incoming first before events second between)
    (tail : Sweep side incoming second between later third after) :
    Sweep side incoming first before (events ++ later) third after := by
  induction head with
  | done => exact tail
  | step step _ ih => exact Sweep.step step (ih tail)

/-- Traces in order emit in order. -/
theorem outputsOf_append (symbol : SymbolId) (side : BookSide) (incoming : OrderRequest)
    (events later : List MatchEvent) :
    outputsOf symbol side incoming (events ++ later) =
      (outputsOf symbol side incoming events).append (outputsOf symbol side incoming later) := by
  induction events with
  | nil => rfl
  | cons event events ih =>
    simp only [outputsOf, List.cons_append, List.foldr_cons] at ih ⊢
    rw [ih]
    simp only [Outputs.append, List.append_assoc]

/-- The confirmations of a trace are those of its events. -/
theorem confirmsOut_outputsOf (symbol : SymbolId) (side : BookSide) (incoming : OrderRequest)
    (events : List MatchEvent) : (outputsOf symbol side incoming events).confirmsOut =
      events.flatMap fun event => (event.outputs symbol side incoming).confirmsOut := by
  induction events with
  | nil => rfl
  | cons event events ih =>
    rw [List.flatMap_cons, ← ih]
    rfl

/-- A trace confirms trades and cancels. -/
theorem type_of_mem_outputsOf {symbol : SymbolId} {side : BookSide} {incoming : OrderRequest}
    {events : List MatchEvent} {confirm : OrderConfirm}
    (member : confirm ∈ (outputsOf symbol side incoming events).confirmsOut) :
    confirm.type = .Trade ∨ confirm.type = .CancelAck := by
  rw [confirmsOut_outputsOf] at member
  obtain ⟨event, _, reported⟩ := List.mem_flatMap.mp member
  cases event with
  | selfTrade =>
    simp only [MatchEvent.outputs, OrderBook.selfTradeOutputs, List.mem_singleton] at reported
    rw [reported]
    exact Or.inr rfl
  | fill =>
    simp only [MatchEvent.outputs, OrderBook.tradeOutputs, List.mem_cons, List.not_mem_nil,
      or_false] at reported
    rcases reported with rfl | rfl
    · exact Or.inl rfl
    · exact Or.inl rfl

end Ledger

end Exchange
