import ExchangeSimulator.Verif.PriceTime

/-!
# The reference matcher

What `addOrder` is for, said over one flat list: walk the passive side in
price-time priority while shares are left and the next order trades with the
limit, cancel own orders, fill foreign ones. The nested loops over levels and
queues leave a trace of the ledger, and every trace that stops where nothing is
left to match is the walk of this list. A list in price-time priority is
determined by the ledger, so the walk also gives the passive side that the book
has afterwards.
-/

namespace Exchange

open Library

/-- What the reference matcher decides. -/
structure Decision where
  /-- Cancels and fills in order. -/
  events : List Ledger.MatchEvent
  /-- The passive side afterwards. -/
  left : List Waiting
  /-- Shares of the incoming order still unfilled. -/
  remaining : Quantity
deriving DecidableEq, Repr

/-- A decision with one event before it. -/
def Decision.after (event : Ledger.MatchEvent) (decision : Decision) : Decision :=
  { decision with events := event :: decision.events }

/-- The order left when some of its shares have been filled. -/
def Waiting.withQty (waiting : Waiting) (qty : Quantity) : Waiting :=
  { waiting with element := { waiting.element with m_quantity := qty } }

/-- The reference matcher: walk the passive side from its front while shares are left and the
next order trades with the limit. -/
def priceTimeMatch (side : BookSide) (incoming : OrderRequest) :
    List Waiting → Quantity → Decision
  | [], remaining => ⟨[], [], remaining⟩
  | head :: rest, remaining =>
    if 0 < remaining ∧ OrderBook.canTrade side head.price incoming.m_price = true then
      if head.element.m_traderId = incoming.m_traderId then
        (priceTimeMatch side incoming rest remaining).after (.selfTrade head.price head.element)
      else
        let qty := min remaining head.element.m_quantity
        if head.element.m_quantity - qty = 0 then
          (priceTimeMatch side incoming rest (remaining - qty)).after
            (.fill head.price head.element qty)
        else
          -- the resting order was larger, so no share of the incoming one is left
          ⟨[.fill head.price head.element qty],
            head.withQty (head.element.m_quantity - qty) :: rest, remaining - qty⟩
    else ⟨[], head :: rest, remaining⟩

/-- A smaller resting order is filled completely. -/
theorem min_of_covers {remaining quantity : Quantity} (covers : quantity ≤ remaining) :
    min remaining quantity = quantity := by
  change (if remaining ≤ quantity then remaining else quantity) = quantity
  split
  · rename_i other
    exact UInt32.le_antisymm other covers
  · rfl

/-- A larger resting order takes the whole incoming one. -/
theorem min_of_short {remaining quantity : Quantity} (short : remaining < quantity) :
    min remaining quantity = remaining :=
  if_pos (UInt32.le_of_lt short)

section Branches

variable {side : BookSide} {incoming : OrderRequest} {head : Waiting} {rest : List Waiting}
  {remaining : Quantity}

/-- Without shares left the walk is over. -/
theorem priceTimeMatch_of_zero (list : List Waiting) :
    priceTimeMatch side incoming list 0 = ⟨[], list, 0⟩ := by
  cases list with
  | nil => rfl
  | cons head rest =>
    rw [priceTimeMatch, if_neg]
    rintro ⟨positive, -⟩
    exact absurd positive (UInt32.lt_irrefl 0)

/-- The walk stops at an order that does not trade with the limit. -/
theorem priceTimeMatch_of_refused
    (refused : OrderBook.canTrade side head.price incoming.m_price = false) :
    priceTimeMatch side incoming (head :: rest) remaining = ⟨[], head :: rest, remaining⟩ := by
  rw [priceTimeMatch, if_neg]
  rintro ⟨-, crosses⟩
  rw [refused] at crosses
  contradiction

/-- An own order is cancelled and the walk goes on. -/
theorem priceTimeMatch_own (positive : 0 < remaining)
    (crosses : OrderBook.canTrade side head.price incoming.m_price = true)
    (own : head.element.m_traderId = incoming.m_traderId) :
    priceTimeMatch side incoming (head :: rest) remaining =
      (priceTimeMatch side incoming rest remaining).after (.selfTrade head.price head.element) := by
  rw [priceTimeMatch, if_pos ⟨positive, crosses⟩, if_pos own]

/-- A covered order is filled and the walk goes on. -/
theorem priceTimeMatch_full (positive : 0 < remaining)
    (crosses : OrderBook.canTrade side head.price incoming.m_price = true)
    (foreign : head.element.m_traderId ≠ incoming.m_traderId)
    (covers : head.element.m_quantity ≤ remaining) :
    priceTimeMatch side incoming (head :: rest) remaining =
      (priceTimeMatch side incoming rest (remaining - head.element.m_quantity)).after
        (.fill head.price head.element head.element.m_quantity) := by
  rw [priceTimeMatch, if_pos ⟨positive, crosses⟩, if_neg foreign]
  simp only [min_of_covers covers, UInt32.sub_self, if_true]

/-- A larger order is filled partly and the walk is over. -/
theorem priceTimeMatch_partly (positive : 0 < remaining)
    (crosses : OrderBook.canTrade side head.price incoming.m_price = true)
    (foreign : head.element.m_traderId ≠ incoming.m_traderId)
    (short : remaining < head.element.m_quantity) :
    priceTimeMatch side incoming (head :: rest) remaining =
      ⟨[.fill head.price head.element remaining],
        head.withQty (head.element.m_quantity - remaining) :: rest, 0⟩ := by
  rw [priceTimeMatch, if_pos ⟨positive, crosses⟩, if_neg foreign]
  simp only [min_of_short short, UInt32.sub_self, if_neg (sub_ne_zero_of_lt short)]

end Branches

namespace Ledger

/-- The first order of a list in priority is the front order of the side. -/
theorem InPriority.head_front {ledger : Ledger} {side : BookSide} {head : Waiting}
    {rest : List Waiting} (priority : ledger.InPriority side (head :: rest)) :
    ∃ order, ledger.Front side head.price head.element.m_id order ∧
      order.element head.element.m_id = head.element := by
  obtain ⟨order, recorded, element⟩ := priority.recorded head List.mem_cons_self
  refine ⟨order, ⟨?_, recorded, ?_⟩, element⟩
  · rw [priority.queues, List.filter_cons_of_pos (by simp), List.map_cons, List.head?_cons]
  · intro other occupied
    obtain ⟨waiting, member, same⟩ := (priority.occupied_iff other).mp occupied
    rcases List.mem_cons.mp member with rfl | behind
    · exact .inl same.symm
    · rw [← same]
      rcases (List.pairwise_cons.mp priority.sorted).1 waiting behind with equal | later
      · exact .inl equal.symm
      · exact .inr later

/-- A ledger has one list in price-time priority for each side. -/
theorem InPriority.unique {ledger : Ledger} (filed : ledger.Filed) {side : BookSide}
    {list other : List Waiting} (priority : ledger.InPriority side list)
    (same : ledger.InPriority side other) : list = other := by
  induction list generalizing ledger other with
  | nil =>
    cases other with
    | nil => rfl
    | cons head rest =>
      have occupied := (same.occupied_iff head.price).mpr ⟨head, List.mem_cons_self, rfl⟩
      obtain ⟨waiting, member, -⟩ := (priority.occupied_iff head.price).mp occupied
      contradiction
  | cons head rest ih =>
    obtain ⟨order, front, element⟩ := priority.head_front
    obtain ⟨others, rfl⟩ := same.front front
    rw [element] at same ⊢
    have slot := front.slot_eq filed
    have dropped : (ledger.drop (side, head.price) head.element.m_id 0).Filed := by
      rw [← slot]
      exact filed.drop front.recorded 0
    rw [ih dropped (priority.drop filed 0) (same.drop filed 0)]

/-- A partial fill of the first order leaves the list in priority. -/
theorem InPriority.reduce {ledger : Ledger} (filed : ledger.Filed) {side : BookSide}
    {price : Price} {id : OrderId} {order : Resting} {rest : List Waiting}
    (priority : ledger.InPriority side (⟨price, order.element id⟩ :: rest)) (qty : Quantity) :
    (ledger.reduce id order qty).InPriority side
      (Waiting.withQty ⟨price, order.element id⟩ (order.quantity - qty) :: rest) where
  recorded := by
    intro waiting member
    rw [record_reduce]
    rcases List.mem_cons.mp member with rfl | behind
    · exact ⟨order.fill qty, if_pos rfl, rfl⟩
    · have apart : waiting.element.m_id ≠ id := priority.head_not_mem filed behind
      rw [if_neg apart]
      exact priority.recorded waiting (List.mem_cons_of_mem _ behind)
  queues := by
    intro where'
    rw [queue_reduce, priority.queues]
    by_cases here : price = where'
    · simp [Waiting.withQty, here]
    · simp [Waiting.withQty, here]
  sorted := by
    obtain ⟨first, later⟩ := List.pairwise_cons.mp priority.sorted
    exact List.pairwise_cons.mpr ⟨first, later⟩

/-- Every trace that stops where nothing is left to match is the walk of the reference matcher. -/
theorem Sweep.priceTimeMatch {side : BookSide} {incoming : OrderRequest} {ledger last : Ledger}
    {remaining final : Quantity} {events : List MatchEvent}
    (sweep : Sweep side incoming ledger remaining events last final)
    (exhausted : Exhausted side incoming.m_price last final) (filed : ledger.Filed)
    {list : List Waiting} (priority : ledger.InPriority side list) :
    ∃ left, Exchange.priceTimeMatch side incoming list remaining = ⟨events, left, final⟩ ∧
      last.InPriority side left := by
  induction sweep generalizing list with
  | done ledger remaining =>
    refine ⟨list, ?_, priority⟩
    rcases exhausted with zero | refused
    · rw [zero]
      exact priceTimeMatch_of_zero list
    · cases list with
      | nil => rfl
      | cons head rest =>
        have occupied := (priority.occupied_iff head.price).mpr ⟨head, List.mem_cons_self, rfl⟩
        exact priceTimeMatch_of_refused (refused head.price occupied)
  | @step ledger next last remaining after final event events first later ih =>
    have nextFiled := first.filed filed
    cases first with
    | @selfTrade price id order positive front crosses own =>
      obtain ⟨rest, rfl⟩ := priority.front front
      obtain ⟨left, walked, leftPriority⟩ :=
        ih exhausted nextFiled (priority.drop filed order.quantity)
      refine ⟨left, ?_, leftPriority⟩
      rw [priceTimeMatch_own positive crosses own, walked]
      rfl
    | @full price id order positive front crosses foreign covers =>
      obtain ⟨rest, rfl⟩ := priority.front front
      obtain ⟨left, walked, leftPriority⟩ := ih exhausted nextFiled (priority.drop filed 0)
      refine ⟨left, ?_, leftPriority⟩
      rw [priceTimeMatch_full positive crosses foreign covers]
      change Decision.after _ (Exchange.priceTimeMatch side incoming rest
        (remaining - order.quantity)) = _
      rw [walked]
      rfl
    | @partly price id order positive front crosses foreign short =>
      obtain ⟨rest, rfl⟩ := priority.front front
      obtain ⟨rfl, rfl⟩ := later.of_zero rfl
      have spent : final = 0 := by
        cases later
        rfl
      subst spent
      exact ⟨_, priceTimeMatch_partly positive crosses foreign short,
        priority.reduce filed remaining⟩

/-! ## The side of the incoming order -/

/-- A list stays in priority when the queues of its side and the records of its orders stay. -/
theorem InPriority.of_frame {ledger next : Ledger} {side : BookSide} {list : List Waiting}
    (priority : ledger.InPriority side list)
    (queues : ∀ price, next.queue (side, price) = ledger.queue (side, price))
    (records : ∀ price, ∀ id ∈ ledger.queue (side, price), next.record id = ledger.record id) :
    next.InPriority side list where
  recorded := by
    intro waiting member
    rw [records waiting.price _ (priority.mem_queue member)]
    exact priority.recorded waiting member
  queues := by
    intro price
    rw [queues, priority.queues]
  sorted := priority.sorted

/-- An order of one side is not queued on the other. -/
theorem Front.ne_of_other {ledger : Ledger} {side other : BookSide} {price where' : Price}
    {id someId : OrderId} {order : Resting} (filed : ledger.Filed)
    (front : ledger.Front side price id order) (apart : other ≠ side)
    (member : someId ∈ ledger.queue (other, where')) : someId ≠ id := by
  rintro rfl
  have here := filed.slot_eq member front.recorded
  rw [front.slot_eq filed] at here
  exact apart (congrArg Prod.fst here).symm

/-- An iteration leaves the list of the other side. -/
theorem MatchStep.inPriority_other {side other : BookSide} {incoming : OrderRequest}
    {ledger next : Ledger} {remaining after : Quantity} {event : MatchEvent}
    (step : MatchStep side incoming ledger remaining event next after) (filed : ledger.Filed)
    (apart : other ≠ side) {list : List Waiting} (priority : ledger.InPriority other list) :
    next.InPriority other list := by
  have dropped {price : Price} {id : OrderId} {order : Resting}
      (front : ledger.Front side price id order) (amount : Quantity) :
      (ledger.drop (side, price) id amount).InPriority other list := by
    refine priority.of_frame ?_ ?_
    · intro where'
      rw [queue_drop, if_neg fun slots => apart (congrArg Prod.fst slots)]
    · intro where' someId member
      rw [record_drop, if_neg (front.ne_of_other filed apart member)]
  cases step with
  | selfTrade _ front _ _ => exact dropped front _
  | full _ front _ _ _ => exact dropped front _
  | partly _ front _ _ _ =>
    refine priority.of_frame (fun _ => rfl) ?_
    intro where' someId member
    rw [record_reduce, if_neg (front.ne_of_other filed apart member)]

/-- A trace leaves the list of the other side. -/
theorem Sweep.inPriority_other {side other : BookSide} {incoming : OrderRequest}
    {ledger last : Ledger} {remaining final : Quantity} {events : List MatchEvent}
    (sweep : Sweep side incoming ledger remaining events last final) (filed : ledger.Filed)
    (apart : other ≠ side) {list : List Waiting} (priority : ledger.InPriority other list) :
    last.InPriority other list := by
  have kept := sweep.invariant (fun ledger _ => ledger.Filed ∧ ledger.InPriority other list)
    (fun step holds => ⟨step.filed holds.1, step.inPriority_other holds.1 apart holds.2⟩)
    ⟨filed, priority⟩
  exact kept.2

/-- An order that comes to rest leaves the list of the other side. -/
theorem InPriority.rest_other {ledger : Ledger} (filed : ledger.Filed) {side : BookSide}
    {list : List Waiting} (priority : ledger.InPriority side list) {id : OrderId}
    (missing : ledger.record id = none) {order : Resting} (apart : side ≠ order.slot.1) :
    (ledger.rest id order).InPriority side list := by
  refine priority.of_frame ?_ ?_
  · intro price
    rw [queue_rest, if_neg fun slots => apart (congrArg Prod.fst slots)]
  · intro price someId member
    rw [record_rest, if_neg]
    rintro rfl
    exact filed.not_mem missing _ member

/-- The element that the record of an order describes. -/
def elementOf (ledger : Ledger) (id : OrderId) : BookElement :=
  match ledger.record id with
  | some order => order.element id
  | none => ⟨id, 0, 0⟩

/-- The orders listed at a price are those of its queue. -/
theorem InPriority.filter_price {ledger : Ledger} {side : BookSide} {list : List Waiting}
    (priority : ledger.InPriority side list) (price : Price) :
    list.filter (fun waiting => waiting.price = price) =
      (ledger.queue (side, price)).map fun id => ⟨price, ledger.elementOf id⟩ := by
  rw [priority.queues, List.map_map]
  refine ((List.map_congr_left ?_).trans (List.map_id _)).symm
  intro waiting member
  obtain ⟨listed, here⟩ := List.mem_filter.mp member
  obtain ⟨order, recorded, element⟩ := priority.recorded waiting listed
  simp only [Function.comp_apply, elementOf, recorded, element, ← of_decide_eq_true here]
  rfl

/-- An order that comes to rest is listed last at its price. -/
theorem InPriority.filter_rest {ledger : Ledger} (filed : ledger.Filed) {side : BookSide}
    {list after : List Waiting} (priority : ledger.InPriority side list) {id : OrderId}
    (missing : ledger.record id = none) {order : Resting} (here : order.slot.1 = side)
    (rested : (ledger.rest id order).InPriority side after) (price : Price) :
    after.filter (fun waiting => waiting.price = price) =
      list.filter (fun waiting => waiting.price = price) ++
        if price = order.price then [⟨price, order.element id⟩] else [] := by
  have older : ∀ someId ∈ ledger.queue (side, price),
      (Waiting.mk price ((ledger.rest id order).elementOf someId)) =
        ⟨price, ledger.elementOf someId⟩ := by
    intro someId member
    have apart : someId ≠ id := by
      rintro rfl
      exact filed.not_mem missing _ member
    simp only [elementOf, record_rest, if_neg apart]
  have newest : (ledger.rest id order).elementOf id = order.element id := by
    simp only [elementOf, record_rest, if_true]
  rw [rested.filter_price, priority.filter_price, ← List.map_congr_left older, queue_rest]
  by_cases same : price = order.price
  · have slot : (side, price) = order.slot := Prod.ext here.symm same
    rw [if_pos slot, if_pos same, ← slot, List.map_append, List.map_singleton, newest]
  · rw [if_neg fun slots => same (congrArg Prod.snd slots), if_neg same, List.append_nil]

end Ledger

namespace OrderBook

/-- What the reference matcher decides for an incoming order. -/
def decision (book : OrderBook) (incoming : OrderRequest) : Decision :=
  priceTimeMatch incoming.m_side.book.opposite incoming
    (book.waiting incoming.m_side.book.opposite) incoming.m_quantity

/-- `addOrder` has done what the reference matcher decides. -/
structure FollowsReference (book : OrderBook) (incoming : OrderRequest) (next : OrderBook)
    (out : Outputs) : Prop where
  /-- As many shares are left. -/
  remaining : ∃ matched, book.matchAgainst incoming.m_side.book.opposite incoming
    incoming.m_quantity = some matched ∧
      matched.remainingQty = (book.decision incoming).remaining
  /-- The acknowledgement is followed by the reference's cancels and fills. -/
  emitted : out = (acceptedOutputs book.symbol incoming).append
    (Ledger.outputsOf book.symbol incoming.m_side.book.opposite incoming
      (book.decision incoming).events)
  /-- The passive side is the reference's. -/
  passive : next.waiting incoming.m_side.book.opposite = (book.decision incoming).left
  /-- The remainder is last at its price, and the side of the incoming order stays otherwise. -/
  own : ∀ price, (next.waiting incoming.m_side.book).filter (fun waiting => waiting.price = price) =
    (book.waiting incoming.m_side.book).filter (fun waiting => waiting.price = price) ++
      if 0 < (book.decision incoming).remaining ∧ price = incoming.m_price then
        [⟨price, ⟨incoming.m_orderId, incoming.m_traderId, (book.decision incoming).remaining⟩⟩]
      else []

/-- The trace of an exhausted matcher is the decision of the reference. -/
theorem Good.decision_eq {book : OrderBook} (good : book.Good) {incoming : OrderRequest}
    {events : List Ledger.MatchEvent} {last : Ledger} {final : Quantity}
    (sweep : Ledger.Sweep incoming.m_side.book.opposite incoming book.ledger incoming.m_quantity
      events last final)
    (exhausted : Ledger.Exhausted incoming.m_side.book.opposite incoming.m_price last final) :
    (book.decision incoming).events = events ∧ (book.decision incoming).remaining = final ∧
      last.InPriority incoming.m_side.book.opposite (book.decision incoming).left := by
  obtain ⟨left, walked, priority⟩ :=
    sweep.priceTimeMatch exhausted good.filed (good.inPriority _)
  rw [decision, walked]
  exact ⟨rfl, rfl, priority⟩

/-- From every reachable book and for every fresh order, `addOrder` returns and follows the
reference matcher. -/
theorem addOrder_follows_reference (book : OrderBook) (reachable : book.Reachable)
    (incoming : OrderRequest) (fresh : book.orderMap incoming.m_orderId = none) :
    ∃ next out, book.addOrder incoming = some (next, out) ∧
      book.FollowsReference incoming next out := by
  have good := reachable.good
  have freshCall : book.Fresh (.add incoming) := fresh
  obtain ⟨next, out, ran, nextGood, -, step⟩ := good.step freshCall
  refine ⟨next, out, ran, ?_⟩
  obtain ⟨matched, matching, swept⟩ := good.sound.matchAgainst good.filed
    incoming.m_side.book.opposite incoming incoming.m_quantity
  obtain ⟨trace, matchedSweep, -⟩ := swept.sweep
  have unfilled := (good.decision_eq matchedSweep swept.exhausted).2.1
  have passive := nextGood.inPriority incoming.m_side.book.opposite
  have own := nextGood.inPriority incoming.m_side.book
  have apart := BookSide.opposite_ne incoming.m_side.book
  generalize nextLedger : next.ledger = after at step passive own
  cases step with
  | filled sweep =>
    obtain ⟨events, remaining, left⟩ := good.decision_eq sweep (.inl rfl)
    have kept := sweep.inPriority_other good.filed apart.symm
      (good.inPriority incoming.m_side.book)
    refine ⟨⟨matched, matching, unfilled.symm⟩, by rw [events], ?_, ?_⟩
    · exact passive.unique (sweep.filed good.filed) left
    · intro price
      rw [own.unique (sweep.filed good.filed) kept, remaining, if_neg, List.append_nil]
      rintro ⟨positive, -⟩
      exact absurd positive (UInt32.lt_irrefl 0)
  | @rested _ _ last remaining sweep positive uncrossed =>
    obtain ⟨events, unspent, left⟩ := good.decision_eq sweep (.inr uncrossed)
    have lastFiled := sweep.filed good.filed
    have missing := sweep.record_none (good.sound.fresh freshCall)
    have kept := sweep.inPriority_other good.filed apart.symm
      (good.inPriority incoming.m_side.book)
    refine ⟨⟨matched, matching, unfilled.symm⟩, by rw [events], ?_, ?_⟩
    · exact passive.unique (lastFiled.rest missing _) (left.rest_other lastFiled missing apart)
    · intro price
      rw [kept.filter_rest lastFiled missing rfl own price, unspent]
      by_cases here : price = incoming.m_price
      · have resting : price = (Resting.ofRequest incoming remaining).price := here
        rw [if_pos resting, if_pos ⟨positive, here⟩]
        rfl
      · have elsewhere : price ≠ (Resting.ofRequest incoming remaining).price := here
        rw [if_neg elsewhere, if_neg fun both => here both.2]

/-- Asks of the buyer itself, of no shares, and of another trader behind them. -/
def mixedAsks : List BookRequest :=
  [place 1 7 Side.Sell 100 5, place 2 9 Side.Sell 100 4, .modify 2 9 100 0,
    place 3 8 Side.Sell 101 10]

/-- A buy of twelve shares over both prices, of which two are left. -/
theorem addOrder_follows_reference_mixed : ∃ book outs,
    run OrderBook.step (OrderBook.new 0) mixedAsks = some (book, outs) ∧
    ∃ next out, book.addOrder ⟨4, 0, 101, 0, 7, 0, 12, Side.Buy, .New⟩ = some (next, out) ∧
      book.FollowsReference ⟨4, 0, 101, 0, 7, 0, 12, Side.Buy, .New⟩ next out ∧
      (book.decision ⟨4, 0, 101, 0, 7, 0, 12, Side.Buy, .New⟩).remaining = 2 := by
  have reached : ∃ book outs,
      Guarded OrderBook.step OrderBook.Fresh (OrderBook.new 0) mixedAsks ∧
      run OrderBook.step (OrderBook.new 0) mixedAsks = some (book, outs) ∧
      book.orderMap 4 = none ∧
      (book.decision ⟨4, 0, 101, 0, 7, 0, 12, Side.Buy, .New⟩).remaining = 2 :=
    ⟨_, _, by decide, rfl, by decide, by decide⟩
  obtain ⟨book, outs, guarded, ran, fresh, left⟩ := reached
  obtain ⟨next, out, added, follows⟩ :=
    addOrder_follows_reference book ⟨0, mixedAsks, outs, guarded, ran⟩
      ⟨4, 0, 101, 0, 7, 0, 12, Side.Buy, .New⟩ fresh
  exact ⟨book, outs, ran, next, out, added, follows, left⟩

end OrderBook

end Exchange
