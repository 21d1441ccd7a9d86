import ExchangeSimulator.Library.Selection
import ExchangeSimulator.Verif.Product

/-!
# A book is a list of orders in order of arrival

The plainest account of a limit order book: the resting orders in one list, each
where it arrived. An incoming order takes the best price of the other side, and at
that price the order that arrived first; what is left of it is appended. A cancel
removes an order, a modification rewrites it where it stands or moves it to the
end. There are no levels, no maps and no pointers. Over every run, the book of the
source emits what this list emits and holds what it holds.
-/

namespace Exchange

open Library

/-- A resting order in the list. -/
structure Arrival where
  /-- Its identifier. -/
  id : OrderId
  /-- What is known of it. -/
  order : Resting
deriving DecidableEq, Repr

/-- What an incoming order does to the list. -/
structure Swept where
  /-- Cancels and fills in order. -/
  events : List Ledger.MatchEvent
  /-- The orders left. -/
  left : List Arrival
  /-- Shares of the incoming order still unfilled. -/
  remaining : Quantity
deriving DecidableEq, Repr

namespace Arrivals

/-- Of the best price of a side, the order that arrived first. -/
def best (side : BookSide) (arrivals : List Arrival) : Option Arrival :=
  firstBest (fun arrival => arrival.order.price) side.before
    (arrivals.filter fun arrival => arrival.order.side.book = side)

/-- The order with an identifier. -/
def find (arrivals : List Arrival) (id : OrderId) : Option Resting :=
  (arrivals.find? fun arrival => arrival.id = id).map Arrival.order

/-- An order leaves. -/
def leave (arrivals : List Arrival) (id : OrderId) : List Arrival :=
  arrivals.filter fun arrival => arrival.id ≠ id

/-- An order is rewritten where it stands. -/
def rewrite (arrivals : List Arrival) (id : OrderId) (order : Resting) : List Arrival :=
  arrivals.map fun arrival => if arrival.id = id then ⟨id, order⟩ else arrival

/-- Match an incoming order against a side, for at most so many of its orders. -/
def sweep (side : BookSide) (incoming : OrderRequest) :
    Nat → List Arrival → Quantity → Swept
  | 0, arrivals, remaining => ⟨[], arrivals, remaining⟩
  | count + 1, arrivals, remaining =>
    match best side arrivals with
    | none => ⟨[], arrivals, remaining⟩
    | some ⟨id, order⟩ =>
      if 0 < remaining ∧ OrderBook.canTrade side order.price incoming.m_price = true then
        if order.traderId = incoming.m_traderId then
          let later := sweep side incoming count (leave arrivals id) remaining
          { later with events := .selfTrade order.price (order.element id) :: later.events }
        else if order.quantity ≤ remaining then
          let later := sweep side incoming count (leave arrivals id) (remaining - order.quantity)
          { later with
            events := .fill order.price (order.element id) order.quantity :: later.events }
        else
          ⟨[.fill order.price (order.element id) remaining],
            rewrite arrivals id (order.fill remaining), 0⟩
      else ⟨[], arrivals, remaining⟩

/-- One call on the list. -/
def step (symbol : SymbolId) (arrivals : List Arrival) :
    BookRequest → Option (List Arrival × Outputs)
  | .add incoming =>
    let swept := sweep incoming.m_side.book.opposite incoming arrivals.length arrivals
      incoming.m_quantity
    let out := (OrderBook.acceptedOutputs symbol incoming).append
      (Ledger.outputsOf symbol incoming.m_side.book.opposite incoming swept.events)
    if swept.remaining = 0 then some (swept.left, out)
    else
      some (swept.left ++ [⟨incoming.m_orderId, .ofRequest incoming swept.remaining⟩], out)
  | .cancel id traderId =>
    match find arrivals id with
    | none => some (arrivals, OrderBook.rejectOutputs symbol id traderId)
    | some order =>
      if order.traderId = traderId then
        some (leave arrivals id, OrderBook.cancelOutputs symbol id traderId order.side order.price
          order.quantity)
      else some (arrivals, OrderBook.rejectOutputs symbol id traderId)
  | .modify id traderId newPrice newQty =>
    match find arrivals id with
    | none => some (arrivals, OrderBook.rejectOutputs symbol id traderId)
    | some order =>
      if order.traderId = traderId then
        let out := OrderBook.modifyOutputs symbol id traderId order.side newPrice newQty
        let next := order.modify newPrice newQty
        if order.price = newPrice ∧ newQty < order.cachedQty then
          some (rewrite arrivals id next, out)
        else some (leave arrivals id ++ [⟨id, next⟩], out)
      else some (arrivals, OrderBook.rejectOutputs symbol id traderId)

/-! ## The list and the ledger -/

/-- The list holds what a ledger holds. -/
structure Represents (arrivals : List Arrival) (ledger : Ledger) : Prop where
  /-- No order is listed twice. -/
  distinct : (arrivals.map Arrival.id).Nodup
  /-- The orders listed are those recorded. -/
  records : ∀ id order, ledger.record id = some order ↔ ⟨id, order⟩ ∈ arrivals
  /-- The queue of a slot is the part of the list that waits there. -/
  queues : ∀ slot, ledger.queue slot =
    (arrivals.filter fun arrival => arrival.order.slot = slot).map Arrival.id

variable {arrivals : List Arrival} {ledger : Ledger} {id : OrderId} {order : Resting}

/-- An empty list and the ledger of a fresh book. -/
theorem represents_new (sym : SymbolId) : Represents [] (OrderBook.new sym).ledger where
  distinct := List.nodup_nil
  records := by
    intro id order
    have absent : (OrderBook.new sym).ledger.record id = none := rfl
    simp [absent]
  queues := by
    rintro ⟨side, price⟩
    cases side <;> rfl

/-- The list finds an order exactly when it is recorded. -/
theorem Represents.find (represents : Represents arrivals ledger) (id : OrderId) :
    Arrivals.find arrivals id = ledger.record id := by
  cases recorded : ledger.record id with
  | none =>
    rw [Arrivals.find, Option.map_eq_none_iff, List.find?_eq_none]
    intro arrival member same
    rw [decide_eq_true_eq] at same
    subst same
    rw [(represents.records arrival.id arrival.order).mpr member] at recorded
    contradiction
  | some order =>
    have member := (represents.records id order).mp recorded
    cases found : arrivals.find? fun arrival => arrival.id = id with
    | none =>
      rw [List.find?_eq_none] at found
      exact absurd (decide_eq_true rfl) (found ⟨id, order⟩ member)
    | some arrival =>
      have here : arrival.id = id := by simpa using List.find?_some found
      have listed := List.mem_of_find?_eq_some found
      have again := (represents.records arrival.id arrival.order).mpr listed
      rw [here, recorded, Option.some.injEq] at again
      rw [Arrivals.find, found, again]
      rfl

/-- An order leaves list and ledger. -/
theorem Represents.drop (represents : Represents arrivals ledger) (filed : ledger.Filed)
    (recorded : ledger.record id = some order) (amount : Quantity) :
    Represents (leave arrivals id) (ledger.drop order.slot id amount) where
  distinct := represents.distinct.sublist (List.filter_sublist.map _)
  records := by
    intro someId someOrder
    rw [Ledger.record_drop, leave, List.mem_filter]
    by_cases same : someId = id
    · simp [same]
    · simp [same, represents.records]
  queues := by
    intro slot
    rw [Ledger.queue_drop, leave, List.filter_filter]
    have erased : ∀ slot, (ledger.queue slot).erase id =
        (arrivals.filter fun arrival => decide (arrival.order.slot = slot) &&
          decide (arrival.id ≠ id)).map Arrival.id := by
      intro slot
      rw [(filed.distinct slot).erase_eq_filter, represents.queues, List.filter_map,
        List.filter_filter]
      congr 1
      apply List.filter_congr
      intro arrival _
      rw [Bool.and_comm]
      by_cases same : arrival.id = id <;> simp [same]
    by_cases here : slot = order.slot
    · rw [if_pos here, here, erased]
    · rw [if_neg here, ← erased, List.erase_of_not_mem]
      intro member
      exact here (filed.slot_eq member recorded).symm

/-- An order comes to rest at the end. -/
theorem Represents.rest (represents : Represents arrivals ledger)
    (missing : ledger.record id = none) (order : Resting) :
    Represents (arrivals ++ [⟨id, order⟩]) (ledger.rest id order) where
  distinct := by
    rw [List.map_append, List.map_singleton, List.nodup_append]
    refine ⟨represents.distinct, by simp, ?_⟩
    intro first member second last same
    rw [List.mem_singleton] at last
    subst last same
    obtain ⟨arrival, listed, rfl⟩ := List.mem_map.mp member
    rw [(represents.records _ _).mpr listed] at missing
    contradiction
  records := by
    intro someId someOrder
    rw [Ledger.record_rest, List.mem_append, List.mem_singleton]
    by_cases same : someId = id
    · subst same
      have absent : ⟨someId, someOrder⟩ ∉ arrivals := by
        intro member
        rw [(represents.records _ _).mpr member] at missing
        contradiction
      simp [absent, eq_comm]
    · simp [same, represents.records]
  queues := by
    intro slot
    rw [Ledger.queue_rest, List.filter_append, List.map_append, ← represents.queues]
    by_cases here : slot = order.slot
    · subst here
      simp
    · simp [here, Ne.symm here]

/-- An order is rewritten in its slot. -/
theorem Represents.put (represents : Represents arrivals ledger)
    (recorded : ledger.record id = some order) {next : Resting} (stays : next.slot = order.slot)
    {after : Ledger} (queue : after.queue = ledger.queue)
    (record : ∀ someId, after.record someId =
      if someId = id then some next else ledger.record someId) :
    Represents (rewrite arrivals id next) after where
  distinct := by
    have same : (rewrite arrivals id next).map Arrival.id = arrivals.map Arrival.id := by
      rw [rewrite, List.map_map]
      apply List.map_congr_left
      intro arrival _
      by_cases same : arrival.id = id <;> simp [same]
    rw [same]
    exact represents.distinct
  records := by
    intro someId someOrder
    have member := (represents.records id order).mp recorded
    rw [record, rewrite, List.mem_map]
    by_cases same : someId = id
    · subst same
      rw [if_pos rfl, Option.some.injEq]
      constructor
      · rintro rfl
        exact ⟨_, member, by simp⟩
      · rintro ⟨arrival, _, rewritten⟩
        by_cases here : arrival.id = someId
        · simp only [here, if_true, Arrival.mk.injEq, true_and] at rewritten
          exact rewritten
        · rw [if_neg here] at rewritten
          exact absurd (congrArg Arrival.id rewritten) here
    · rw [if_neg same, represents.records]
      constructor
      · intro listed
        exact ⟨_, listed, if_neg same⟩
      · rintro ⟨arrival, listed, rewritten⟩
        by_cases here : arrival.id = id
        · rw [if_pos here] at rewritten
          exact absurd (congrArg Arrival.id rewritten).symm same
        · rw [if_neg here] at rewritten
          rwa [← rewritten]
  queues := by
    intro slot
    rw [queue, represents.queues, rewrite, List.filter_map, List.map_map]
    have ids : ∀ arrival ∈ arrivals,
        (if arrival.id = id then (⟨id, next⟩ : Arrival) else arrival).order.slot =
          arrival.order.slot := by
      intro arrival listed
      by_cases here : arrival.id = id
      · have own := (represents.records arrival.id arrival.order).mpr listed
        rw [here, recorded, Option.some.injEq] at own
        simp only [here, if_true, stays, own]
      · rw [if_neg here]
    have waits : arrivals.filter ((fun arrival => decide (arrival.order.slot = slot)) ∘
        fun arrival => if arrival.id = id then ⟨id, next⟩ else arrival) =
        arrivals.filter fun arrival => arrival.order.slot = slot := by
      apply List.filter_congr
      intro arrival listed
      rw [Function.comp_apply, ids arrival listed]
    rw [waits]
    apply List.map_congr_left
    intro arrival _
    by_cases here : arrival.id = id <;> simp [here]

/-! ## Matching -/

/-- The orders of a side that wait at a price. -/
theorem filter_side (arrivals : List Arrival) (side : BookSide) (price : Price) :
    (arrivals.filter fun arrival => arrival.order.side.book = side).filter
        (fun arrival => arrival.order.price = price) =
      arrivals.filter fun arrival => arrival.order.slot = (side, price) := by
  rw [List.filter_filter]
  apply List.filter_congr
  intro arrival _
  by_cases here : arrival.order.price = price <;>
    by_cases there : arrival.order.side.book = side <;> simp [Resting.slot, here, there]

/-- An order of a side occupies its price. -/
theorem Represents.occupied (represents : Represents arrivals ledger) {arrival : Arrival}
    {side : BookSide}
    (member : arrival ∈ arrivals.filter fun arrival => arrival.order.side.book = side) :
    ledger.queue (side, arrival.order.price) ≠ [] := by
  obtain ⟨listed, here⟩ := List.mem_filter.mp member
  rw [decide_eq_true_eq] at here
  have waits : arrival ∈ arrivals.filter fun other =>
      other.order.slot = (side, arrival.order.price) :=
    List.mem_filter.mpr ⟨listed, by simp [Resting.slot, here]⟩
  rw [represents.queues]
  exact List.ne_nil_of_mem (List.mem_map_of_mem waits)

/-- The front order of a side of the ledger is the best of the list. -/
theorem Represents.best_of_front (represents : Represents arrivals ledger) (filed : ledger.Filed)
    {side : BookSide} {price : Price} (front : ledger.Front side price id order) :
    best side arrivals = some ⟨id, order⟩ := by
  have slot := front.slot_eq filed
  have own : order.price = price := congrArg Prod.snd slot
  refine firstBest_of _ _ ?_ ?_
  · intro other member earlier
    rw [own] at earlier
    rcases front.best other.order.price (represents.occupied member) with same | later
    · rw [same] at earlier
      exact irrefl_of side.before _ earlier
    · exact asymm_of side.before earlier later
  · rw [filter_side, own]
    have heads := front.heads
    rw [represents.queues, List.head?_map, Option.map_eq_some_iff] at heads
    obtain ⟨arrival, first, same⟩ := heads
    have listed := (List.mem_filter.mp (List.mem_of_mem_head? first)).1
    have recorded := (represents.records arrival.id arrival.order).mpr listed
    rw [same, front.recorded, Option.some.injEq] at recorded
    rw [first, recorded, ← same]

/-- A shorter list after an order has left. -/
theorem length_leave (member : ⟨id, order⟩ ∈ arrivals) :
    (leave arrivals id).length < arrivals.length := by
  rw [leave, ← List.countP_eq_length_filter]
  refine Nat.lt_of_le_of_ne List.countP_le_length ?_
  intro all
  have kept := List.countP_eq_length.mp all _ member
  simp at kept

/-- Every trace of the matcher that stops where nothing is left to match is the sweep of the
list. -/
theorem Represents.sweep {side : BookSide} {incoming : OrderRequest} {last : Ledger}
    {remaining final : Quantity} {events : List Ledger.MatchEvent}
    (swept : Ledger.Sweep side incoming ledger remaining events last final)
    (exhausted : Ledger.Exhausted side incoming.m_price last final) (filed : ledger.Filed)
    (represents : Represents arrivals ledger) {count : Nat} (enough : arrivals.length ≤ count) :
    ∃ left, Arrivals.sweep side incoming count arrivals remaining = ⟨events, left, final⟩ ∧
      Represents left last := by
  induction swept generalizing arrivals count with
  | done ledger remaining =>
    refine ⟨arrivals, ?_, represents⟩
    cases count with
    | zero => rfl
    | succ count =>
      simp only [Arrivals.sweep]
      cases chosen : best side arrivals with
      | none => rfl
      | some arrival =>
        have member := (List.mem_filter.mp (List.mem_of_mem_head?
          (firstBest_spec _ _ chosen).2)).1
        have refused : ¬(0 < remaining ∧ OrderBook.canTrade side arrival.order.price
            incoming.m_price = true) := by
          rintro ⟨positive, crosses⟩
          rcases exhausted with zero | stuck
          · rw [zero] at positive
            exact absurd positive (UInt32.lt_irrefl 0)
          · rw [stuck _ (represents.occupied member)] at crosses
            contradiction
        simp only [if_neg refused]
  | @step ledger next last remaining after final event events first later ih =>
    have nextFiled := first.filed filed
    have begins {price : Price} {id : OrderId} {order : Resting}
        (front : ledger.Front side price id order) :
        order.price = price ∧ (side, price) = order.slot ∧ ⟨id, order⟩ ∈ arrivals ∧
          ∃ fewer, count = fewer + 1 := by
      have member := (represents.records id order).mp front.recorded
      have positive := List.length_pos_of_mem member
      have slot := front.slot_eq filed
      exact ⟨congrArg Prod.snd slot, slot.symm, member, count - 1, by omega⟩
    cases first with
    | @selfTrade price id order positive front crosses own =>
      obtain ⟨rfl, slot, member, fewer, rfl⟩ := begins front
      have shorter := length_leave member
      have enoughLater : (leave arrivals id).length ≤ fewer := by omega
      rw [slot] at nextFiled ih
      obtain ⟨left, sweeps, leftRepresents⟩ := ih exhausted nextFiled
        (represents.drop filed front.recorded order.quantity) enoughLater
      refine ⟨left, ?_, leftRepresents⟩
      simp only [Arrivals.sweep, represents.best_of_front filed front, if_pos (And.intro positive
        crosses), if_pos own, sweeps]
    | @full price id order positive front crosses foreign covers =>
      obtain ⟨rfl, slot, member, fewer, rfl⟩ := begins front
      have shorter := length_leave member
      have enoughLater : (leave arrivals id).length ≤ fewer := by omega
      rw [slot] at nextFiled ih
      obtain ⟨left, sweeps, leftRepresents⟩ := ih exhausted nextFiled
        (represents.drop filed front.recorded 0) enoughLater
      refine ⟨left, ?_, leftRepresents⟩
      simp only [Arrivals.sweep, represents.best_of_front filed front, if_pos (And.intro positive
        crosses), if_neg foreign, if_pos covers, sweeps]
    | @partly price id order positive front crosses foreign short =>
      obtain ⟨rfl, slot, member, fewer, rfl⟩ := begins front
      obtain ⟨rfl, rfl⟩ := later.of_zero rfl
      have spent : final = 0 := by
        cases later
        rfl
      subst spent
      refine ⟨rewrite arrivals id (order.fill remaining), ?_, ?_⟩
      · have notCovered : ¬order.quantity ≤ remaining := UInt32.not_le.mpr short
        simp only [Arrivals.sweep, represents.best_of_front filed front, if_pos (And.intro positive
          crosses), if_neg foreign, if_neg notCovered]
      · have stays : (order.fill remaining).slot = order.slot := rfl
        exact represents.put front.recorded stays (Ledger.queue_reduce ..)
          fun someId => Ledger.record_reduce ledger id someId remaining order

/-! ## Runs -/

/-- Every step of the ledger is a call on the list, with the same outputs. -/
theorem Represents.step {symbol : SymbolId} {request : BookRequest} {out : Outputs} {next : Ledger}
    (represents : Represents arrivals ledger) (filed : ledger.Filed)
    (fresh : ledger.Fresh request) (step : Ledger.LedgerStep symbol ledger request out next) :
    ∃ after, Arrivals.step symbol arrivals request = some (after, out) ∧ Represents after next := by
  cases step with
  | @filled incoming events last sweep =>
    obtain ⟨left, sweeps, leftRepresents⟩ :=
      Represents.sweep sweep (.inl rfl) filed represents (Nat.le_refl arrivals.length)
    refine ⟨left, ?_, leftRepresents⟩
    simp only [Arrivals.step, sweeps, if_true]
  | @rested incoming events last remaining sweep positive uncrossed =>
    obtain ⟨left, sweeps, leftRepresents⟩ :=
      Represents.sweep sweep (.inr uncrossed) filed represents (Nat.le_refl arrivals.length)
    have unfilled : remaining ≠ 0 := by
      rintro rfl
      exact absurd positive (UInt32.lt_irrefl 0)
    refine ⟨left ++ [⟨incoming.m_orderId, .ofRequest incoming remaining⟩], ?_,
      leftRepresents.rest (sweep.record_none fresh) _⟩
    simp only [Arrivals.step, sweeps, if_neg unfilled]
  | @cancelled id traderId order recorded own =>
    refine ⟨leave arrivals id, ?_, represents.drop filed recorded order.quantity⟩
    simp only [Arrivals.step, represents.find, recorded, if_pos own]
  | @cancelRejected id traderId foreign =>
    refine ⟨arrivals, ?_, represents⟩
    cases recorded : ledger.record id with
    | none => simp only [Arrivals.step, represents.find, recorded]
    | some order =>
      simp only [Arrivals.step, represents.find, recorded, if_neg (foreign order recorded)]
  | @rewritten id traderId newPrice newQty order recorded own stays smaller =>
    refine ⟨rewrite arrivals id (order.modify newPrice newQty), ?_, ?_⟩
    · simp only [Arrivals.step, represents.find, recorded, if_pos own,
        if_pos (And.intro stays smaller)]
    · refine represents.put recorded ?_ (Ledger.queue_rewrite ..)
        fun someId => Ledger.record_rewrite ledger id someId _
      simp only [Resting.slot, Resting.modify, stays]
  | @requeued id traderId newPrice newQty order recorded own moves =>
    refine ⟨leave arrivals id ++ [⟨id, order.modify newPrice newQty⟩], ?_, ?_⟩
    · simp only [Arrivals.step, represents.find, recorded, if_pos own, if_neg moves]
    · refine (represents.drop filed recorded order.quantity).rest ?_ _
      rw [Ledger.record_drop, if_pos rfl]
  | @modifyRejected id traderId newPrice newQty foreign =>
    refine ⟨arrivals, ?_, represents⟩
    cases recorded : ledger.record id with
    | none => simp only [Arrivals.step, represents.find, recorded]
    | some order =>
      simp only [Arrivals.step, represents.find, recorded, if_neg (foreign order recorded)]

end Arrivals

/-- A fresh engine has a book for each of its instruments and for no other. -/
theorem MatchingEngine.books_initializeBooks_isSome (symbols : List SymbolId) (sym : SymbolId) :
    ((initializeBooks symbols).books sym).isSome ↔ sym ∈ symbols := by
  have grows (books : SymbolId → Option OrderBook) :
      ((symbols.foldl (fun books sym => Function.update books sym (some (OrderBook.new sym)))
        books) sym).isSome ↔ (books sym).isSome ∨ sym ∈ symbols := by
    induction symbols generalizing books with
    | nil => simp
    | cons first rest ih =>
      rw [List.foldl_cons, ih, List.mem_cons]
      by_cases here : sym = first
      · simp [here]
      · simp [here]
  have whole := grows fun _ => none
  simpa [initializeBooks] using whole

/-- One list for each instrument, and one counter of order ids for all of them. -/
structure Listing where
  /-- The list of each initialised instrument. -/
  lists : SymbolId → Option (List Arrival)
  /-- The id of the next new order. -/
  nextOrderId : OrderId

namespace Listing

/-- An empty list for each of some instruments. -/
def new (symbols : List SymbolId) : Listing where
  lists := fun sym => if sym ∈ symbols then some [] else none
  nextOrderId := 1

/-- One call: on the list of its instrument, if there is one. -/
def step (listing : Listing) (request : Request) : Option (Listing × Outputs) :=
  let counted := { listing with nextOrderId := request.nextId listing.nextOrderId }
  match listing.lists request.symbolId with
  | none => some (counted, Outputs.none)
  | some arrivals => do
    let (arrivals, out) ← Arrivals.step request.symbolId arrivals
      (request.onBook listing.nextOrderId)
    some ({ counted with
      lists := Function.update listing.lists request.symbolId (some arrivals) }, out)

/-- A listing holds what an engine holds. -/
structure Represents (listing : Listing) (engine : MatchingEngine) : Prop where
  /-- The same instruments, with the same orders. -/
  books : ∀ sym, Option.Rel (fun arrivals book => Arrivals.Represents arrivals book.ledger)
    (listing.lists sym) (engine.books sym)
  /-- The same next id. -/
  counter : listing.nextOrderId = engine.nextOrderId

/-- A fresh listing holds what a fresh engine holds. -/
theorem represents_new (symbols : List SymbolId) :
    (new symbols).Represents (MatchingEngine.initializeBooks symbols) where
  books := by
    intro sym
    have listed := MatchingEngine.books_initializeBooks_isSome symbols sym
    cases present : (MatchingEngine.initializeBooks symbols).books sym with
    | none =>
      have missing : sym ∉ symbols := by
        simpa [present] using listed
      simp only [new, if_neg missing]
      exact .none
    | some book =>
      have member : sym ∈ symbols := by
        simpa [present] using listed
      rw [MatchingEngine.books_initializeBooks symbols sym book present]
      simp only [new, if_pos member]
      exact .some (Arrivals.represents_new sym)
  counter := rfl

/-- Every step of a good engine is a call on the listing, with the same outputs. -/
theorem Represents.step {listing : Listing} {engine next : MatchingEngine} {request : Request}
    {out : Outputs} (represents : listing.Represents engine)
    (step : MatchingEngine.EngineStep engine request out next) :
    ∃ after, listing.step request = some (after, out) ∧ after.Represents next := by
  have counter : (engine.advance request).nextOrderId = request.nextId listing.nextOrderId := by
    rw [represents.counter]
    cases request <;> rfl
  have here := represents.books request.symbolId
  cases step with
  | dropped missing =>
    rw [missing] at here
    cases listed : listing.lists request.symbolId with
    | some arrivals =>
      rw [listed] at here
      contradiction
    | none =>
      refine ⟨{ listing with nextOrderId := request.nextId listing.nextOrderId }, ?_, ?_, ?_⟩
      · simp only [Listing.step, listed]
      · rw [MatchingEngine.books_advance]
        exact represents.books
      · exact counter.symm
  | @routed book nextBook _ present good symbol _ _ fresh ledgerStep =>
    rw [present] at here
    cases listed : listing.lists request.symbolId with
    | none =>
      rw [listed] at here
      contradiction
    | some arrivals =>
      rw [listed] at here
      cases here with
      | some held =>
        rw [← represents.counter] at fresh ledgerStep
        obtain ⟨after, answered, afterHeld⟩ := held.step good.filed fresh ledgerStep
        refine ⟨{ lists := Function.update listing.lists request.symbolId (some after),
                  nextOrderId := request.nextId listing.nextOrderId }, ?_, ?_, ?_⟩
        · simp only [Listing.step, listed, answered, bind, Option.bind]
        · intro sym
          by_cases same : sym = request.symbolId
          · subst same
            simp only [Function.update_self]
            exact .some afterHeld
          · simp only [Function.update_of_ne same]
            exact represents.books sym
        · exact counter.symm

end Listing

namespace MatchingEngine

/-- Over every run with fewer than 2⁶⁴ − 1 new orders the engine emits exactly what plain lists of
orders in order of arrival emit, and holds what they hold. -/
theorem run_listing (symbols : List SymbolId) (requests : List Request)
    (few : orderCount requests < 2 ^ 64 - 1) :
    ∃ engine listing outs, run step (initializeBooks symbols) requests = some (engine, outs) ∧
      run Listing.step (Listing.new symbols) requests = some (listing, outs) ∧
      listing.Represents engine := by
  obtain ⟨engine, listing, outs, ran, listed, represents, -⟩ := run_simulated
    (fun engine (listing : Listing) => listing.Represents engine ∧ engine.Good)
    (fun engine listing request related room => by
      obtain ⟨represents, good⟩ := related
      obtain ⟨next, out, stepped, engineStep⟩ := good.steps request
      obtain ⟨after, answered, held⟩ := represents.step engineStep
      exact ⟨next, after, out, stepped, answered, held, good.next room engineStep⟩)
    requests (initializeBooks symbols) (Listing.new symbols)
    ⟨Listing.represents_new symbols, good_initializeBooks symbols⟩
    (guarded_initializeBooks symbols requests few)
  exact ⟨engine, listing, outs, ran, listed, represents⟩

/-- The lists of the sample day. -/
theorem run_listing_sample : ∃ engine listing outs,
    run step (initializeBooks [0, 1]) sampleRequests = some (engine, outs) ∧
      run Listing.step (Listing.new [0, 1]) sampleRequests = some (listing, outs) ∧
      listing.Represents engine :=
  run_listing [0, 1] sampleRequests (by decide)

end MatchingEngine

end Exchange
