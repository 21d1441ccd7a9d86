import Mathlib.Algebra.GroupWithZero.Nat
import ExchangeSimulator.Matching.MatchingEngine
import ExchangeSimulator.Verif.Operations

/-!
# The engine over its books

A request reaches the book of its instrument or nothing at all. Each request
keeps every book good, keeps all resting ids below the counter and keeps an id
in at most one book, as long as the counter does not wrap. Runs of fewer than
2⁶⁴ − 1 new orders therefore stay in good engines, and there the two level
maps, the order map and the details of every book describe the same orders.
-/

namespace Exchange

open Library

/-- The instrument a request is for. -/
def Request.symbolId : Request → SymbolId
  | .onOrder order => order.m_symbolId
  | .onCancel _ symbolId _ => symbolId
  | .onModify _ symbolId _ _ _ => symbolId

/-- The trader a request comes from. -/
def Request.traderId : Request → TraderId
  | .onOrder order => order.m_traderId
  | .onCancel _ _ traderId => traderId
  | .onModify _ _ traderId _ _ => traderId

/-- The call on the book that a request becomes when `next` is the next order id. -/
def Request.onBook (next : OrderId) : Request → BookRequest
  | .onOrder order => .add { order with m_orderId := next }
  | .onCancel orderId _ traderId => .cancel orderId traderId
  | .onModify orderId _ traderId newPrice newQty => .modify orderId traderId newPrice newQty

/-- How many ids a request takes. -/
def Request.ids : Request → Nat
  | .onOrder _ => 1
  | _ => 0

/-- The number of new orders among the requests. -/
def orderCount (requests : List Request) : Nat := (requests.map Request.ids).sum

namespace MatchingEngine

/-- The engine after a request took its id. -/
def advance (engine : MatchingEngine) : Request → MatchingEngine
  | .onOrder _ => { engine with nextOrderId := engine.nextOrderId + 1 }
  | _ => engine

/-- Every request is routed to the book of its instrument. -/
theorem step_eq (engine : MatchingEngine) (request : Request) :
    engine.step request = (engine.advance request).onBook request.symbolId
      (fun book => book.step (request.onBook engine.nextOrderId)) := by
  cases request <;> rfl

/-- Taking an id leaves the books alone. -/
@[simp]
theorem books_advance (engine : MatchingEngine) (request : Request) :
    (engine.advance request).books = engine.books := by
  cases request <;> rfl

/-- The ledger of an instrument, empty without a book. -/
def ledger (engine : MatchingEngine) (sym : SymbolId) : Ledger :=
  match engine.books sym with
  | none => Ledger.empty
  | some book => book.ledger

/-- The ledger of a present book. -/
theorem ledger_of_books {engine : MatchingEngine} {sym : SymbolId} {book : OrderBook}
    (present : engine.books sym = some book) : engine.ledger sym = book.ledger := by
  simp only [ledger, present]

/-- An order id rests in the book of an instrument. -/
def Lives (engine : MatchingEngine) (sym : SymbolId) (id : OrderId) : Prop :=
  ∃ book order, engine.books sym = some book ∧ book.resting id = some order

/-- Good books, ids below the counter, and no id in two books. -/
structure Good (engine : MatchingEngine) : Prop where
  /-- Every book is good and knows its instrument. -/
  books : ∀ sym book, engine.books sym = some book → book.Good ∧ book.symbol = sym
  /-- Resting ids lie below the counter. -/
  below : ∀ sym id, engine.Lives sym id → id < engine.nextOrderId
  /-- No id rests in two books. -/
  apart : ∀ sym other id, engine.Lives sym id → engine.Lives other id → sym = other

/-- The counter has room for the request. -/
def Room (engine : MatchingEngine) (request : Request) : Prop :=
  engine.nextOrderId.toNat + request.ids < 2 ^ 64

/-- What a request does: nothing without a book, one step of the ledger with one. -/
inductive EngineStep (engine : MatchingEngine) (request : Request) :
    Outputs → MatchingEngine → Prop where
  | dropped (missing : engine.books request.symbolId = none) :
      EngineStep engine request Outputs.none (engine.advance request)
  | routed {book next : OrderBook} {out : Outputs}
      (present : engine.books request.symbolId = some book) (good : book.Good)
      (symbol : book.symbol = request.symbolId) (nextGood : next.Good)
      (nextSymbol : next.symbol = request.symbolId)
      (fresh : book.ledger.Fresh (request.onBook engine.nextOrderId))
      (step : Ledger.LedgerStep request.symbolId book.ledger
        (request.onBook engine.nextOrderId) out next.ledger) :
      EngineStep engine request out
        { engine.advance request with
          books := Function.update engine.books request.symbolId (some next) }

end MatchingEngine

/-- An order that rests after a call rested before it or is the new one. -/
theorem Ledger.LedgerStep.rests {symbol : SymbolId} {ledger next : Ledger}
    {request : BookRequest} {out : Outputs} (step : LedgerStep symbol ledger request out next)
    {id : OrderId} {order : Resting} (recorded : next.record id = some order) :
    (∃ before, ledger.record id = some before) ∨
      ∃ incoming, request = .add incoming ∧ id = incoming.m_orderId := by
  have old {last : Ledger} (gone : ledger.record id = none → last.record id = none)
      (found : ∃ order, last.record id = some order) :
      ∃ before, ledger.record id = some before := by
    cases present : ledger.record id with
    | none =>
      obtain ⟨order, recorded⟩ := found
      rw [gone present] at recorded
      contradiction
    | some before => exact ⟨before, rfl⟩
  cases step with
  | filled sweep => exact Or.inl (old sweep.record_none ⟨order, recorded⟩)
  | @rested incoming _ _ _ sweep _ _ =>
    by_cases here : id = incoming.m_orderId
    · exact Or.inr ⟨incoming, rfl, here⟩
    · rw [record_rest, if_neg here] at recorded
      exact Or.inl (old sweep.record_none ⟨order, recorded⟩)
  | @cancelled other _ _ found _ =>
    rw [record_drop] at recorded
    split at recorded
    · contradiction
    · exact Or.inl ⟨order, recorded⟩
  | cancelRejected => exact Or.inl ⟨order, recorded⟩
  | @rewritten other _ _ _ _ found _ _ _ =>
    rw [record_rewrite] at recorded
    split at recorded
    · rename_i here
      exact Or.inl ⟨_, here ▸ found⟩
    · exact Or.inl ⟨order, recorded⟩
  | @requeued other _ _ _ _ found _ _ =>
    rw [requeue, record_rest] at recorded
    split at recorded
    · rename_i here
      exact Or.inl ⟨_, here ▸ found⟩
    · rename_i apart
      rw [record_drop, if_neg apart] at recorded
      exact Or.inl ⟨order, recorded⟩
  | modifyRejected => exact Or.inl ⟨order, recorded⟩

namespace MatchingEngine

/-- The next id is new to every book of a good engine. -/
theorem Good.fresh {engine : MatchingEngine} (good : engine.Good) {sym : SymbolId}
    {book : OrderBook} (present : engine.books sym = some book) (request : Request) :
    book.Fresh (request.onBook engine.nextOrderId) := by
  cases request with
  | onCancel => trivial
  | onModify => trivial
  | onOrder order =>
    have sound := (good.books sym book present).1.sound
    refine (sound.resting_eq_none _).mp ?_
    cases found : book.resting engine.nextOrderId with
    | none => rfl
    | some resting =>
      have low := good.below sym engine.nextOrderId ⟨book, resting, present, found⟩
      exact absurd low (UInt64.lt_irrefl _)

/-- Taking an id moves the counter by the ids taken, when there is room. -/
theorem nextOrderId_advance {engine : MatchingEngine} {request : Request}
    (room : engine.Room request) :
    (engine.advance request).nextOrderId.toNat = engine.nextOrderId.toNat + request.ids := by
  cases request with
  | onOrder order =>
    simp only [Room, Request.ids] at room
    simp only [advance, Request.ids, UInt64.toNat_add]
    exact Nat.mod_eq_of_lt room
  | onCancel => rfl
  | onModify => rfl

/-- A request to a good engine with room returns and is an engine step. -/
theorem Good.steps {engine : MatchingEngine} (good : engine.Good) (request : Request) :
    ∃ next out, engine.step request = some (next, out) ∧ EngineStep engine request out next := by
  rw [step_eq, onBook, books_advance]
  cases present : engine.books request.symbolId with
  | none => exact ⟨_, _, rfl, EngineStep.dropped present⟩
  | some book =>
    obtain ⟨bookGood, symbol⟩ := good.books _ book present
    have fresh := good.fresh present request
    obtain ⟨next, out, ran, nextGood, nextSymbol, step⟩ := bookGood.step fresh
    refine ⟨_, out, by simp only [ran, bind, Option.bind]; rfl, ?_⟩
    rw [symbol] at step
    exact EngineStep.routed present bookGood symbol nextGood (nextSymbol.trans symbol)
      (bookGood.sound.fresh fresh) step

/-- A request leaves the ledger of an instrument alone or is one step of it. -/
theorem EngineStep.ledger {engine next : MatchingEngine} {request : Request} {out : Outputs}
    (step : EngineStep engine request out next) (sym : SymbolId) :
    next.ledger sym = engine.ledger sym ∨
      sym = request.symbolId ∧ (engine.ledger sym).Filed ∧
        (engine.ledger sym).Fresh (request.onBook engine.nextOrderId) ∧
        Ledger.LedgerStep request.symbolId (engine.ledger sym)
          (request.onBook engine.nextOrderId) out (next.ledger sym) := by
  cases step with
  | dropped =>
    left
    simp only [MatchingEngine.ledger, books_advance]
  | @routed book nextBook _ present good _ _ _ fresh ledgerStep =>
    by_cases here : sym = request.symbolId
    · right
      subst here
      have after : MatchingEngine.ledger { engine.advance request with
          books := Function.update engine.books request.symbolId (some nextBook) }
            request.symbolId = nextBook.ledger :=
        ledger_of_books (Function.update_self _ _ _)
      rw [after, ledger_of_books present]
      exact ⟨rfl, good.filed, fresh, ledgerStep⟩
    · left
      simp only [MatchingEngine.ledger, Function.update_of_ne here]

/-- An id that lives after a step lived there before or is the one just taken. -/
theorem EngineStep.lives {engine next : MatchingEngine} {request : Request} {out : Outputs}
    (step : EngineStep engine request out next) {sym : SymbolId} {id : OrderId}
    (lives : next.Lives sym id) : engine.Lives sym id ∨
      sym = request.symbolId ∧ id = engine.nextOrderId ∧ request.ids = 1 := by
  obtain ⟨book, order, present, recorded⟩ := lives
  cases step with
  | dropped missing =>
    rw [books_advance] at present
    exact Or.inl ⟨book, order, present, recorded⟩
  | @routed old new _ oldPresent _ _ _ _ _ ledgerStep =>
    simp only [Function.update_apply] at present
    split at present
    · rename_i here
      cases present
      rcases ledgerStep.rests recorded with ⟨before, found⟩ | ⟨incoming, added, same⟩
      · exact Or.inl ⟨old, before, here ▸ oldPresent, found⟩
      · cases request with
        | onOrder order =>
          cases added
          exact Or.inr ⟨here, same, rfl⟩
        | onCancel => contradiction
        | onModify => contradiction
    · exact Or.inl ⟨book, order, present, recorded⟩

/-- A step moves the counter by the ids taken, when there is room. -/
theorem EngineStep.counter {engine next : MatchingEngine} {request : Request} {out : Outputs}
    (step : EngineStep engine request out next) (room : engine.Room request) :
    next.nextOrderId.toNat = engine.nextOrderId.toNat + request.ids := by
  rw [← nextOrderId_advance room]
  cases step <;> rfl

/-- A step with room for its id keeps an engine good. -/
theorem Good.next {engine next : MatchingEngine} (good : engine.Good) {request : Request}
    {out : Outputs} (room : engine.Room request) (step : EngineStep engine request out next) :
    next.Good := by
  have counter := step.counter room
  constructor
  · intro sym book present
    cases step with
    | dropped =>
      rw [books_advance] at present
      exact good.books sym book present
    | routed _ _ _ nextGood nextSymbol _ _ =>
      simp only [Function.update_apply] at present
      split at present
      · rename_i here
        cases present
        exact ⟨nextGood, nextSymbol.trans here.symm⟩
      · exact good.books sym book present
  · intro sym id lives
    rw [UInt64.lt_iff_toNat_lt, counter]
    rcases step.lives lives with before | ⟨_, same, one⟩
    · have low := good.below sym id before
      rw [UInt64.lt_iff_toNat_lt] at low
      omega
    · rw [same, one]
      omega
  · intro sym other id here there
    rcases step.lives here with before | ⟨new, same, _⟩
    · rcases step.lives there with otherBefore | ⟨_, taken, _⟩
      · exact good.apart sym other id before otherBefore
      · rw [taken] at before
        exact absurd (good.below sym _ before) (UInt64.lt_irrefl _)
    · rcases step.lives there with otherBefore | ⟨otherNew, _, _⟩
      · rw [same] at otherBefore
        exact absurd (good.below other _ otherBefore) (UInt64.lt_irrefl _)
      · rw [new, otherNew]

/-- Initialising more instruments only adds empty books. -/
theorem foldl_new (symbols : List SymbolId) (books : SymbolId → Option OrderBook)
    (empty : ∀ sym book, books sym = some book → book = OrderBook.new sym) (sym : SymbolId)
    (book : OrderBook)
    (present : (symbols.foldl (fun books sym =>
      Function.update books sym (some (OrderBook.new sym))) books) sym = some book) :
    book = OrderBook.new sym := by
  induction symbols generalizing books with
  | nil => exact empty sym book present
  | cons first rest ih =>
    refine ih _ ?_ present
    intro other found added
    simp only [Function.update_apply] at added
    split at added
    · rename_i here
      cases added
      rw [here]
    · exact empty other found added

/-- The books of a fresh engine are empty books of their instruments. -/
theorem books_initializeBooks (symbols : List SymbolId) (sym : SymbolId) (book : OrderBook)
    (present : (initializeBooks symbols).books sym = some book) : book = OrderBook.new sym :=
  foldl_new symbols (fun _ => none) (fun _ _ absent => nomatch absent) sym book present

/-- A fresh engine is good. -/
theorem good_initializeBooks (symbols : List SymbolId) : (initializeBooks symbols).Good where
  books := by
    intro sym book present
    rw [books_initializeBooks symbols sym book present]
    exact ⟨OrderBook.good_new sym, rfl⟩
  below := by
    rintro sym id ⟨book, order, present, recorded⟩
    rw [books_initializeBooks symbols sym book present] at recorded
    contradiction
  apart := by
    rintro sym other id ⟨book, order, present, recorded⟩ _
    rw [books_initializeBooks symbols sym book present] at recorded
    contradiction

/-- Enough room for all new orders is room at every step. -/
theorem Good.guarded {engine : MatchingEngine} (good : engine.Good) (requests : List Request)
    (few : engine.nextOrderId.toNat + orderCount requests < 2 ^ 64) :
    Guarded step Room engine requests := by
  induction requests generalizing engine with
  | nil => trivial
  | cons request rest ih =>
    simp only [orderCount, List.map_cons, List.sum_cons] at few
    have room : engine.Room request := by
      unfold Room
      omega
    refine ⟨room, ?_⟩
    intro next out ran
    obtain ⟨reached, emitted, stepped, engineStep⟩ := good.steps request
    rw [ran] at stepped
    cases stepped
    apply ih (good.next room engineStep)
    rw [engineStep.counter room]
    simp only [orderCount]
    omega

/-- A run from a fresh engine with fewer than 2⁶⁴ − 1 new orders meets `Room` at every step. -/
theorem guarded_initializeBooks (symbols : List SymbolId) (requests : List Request)
    (few : orderCount requests < 2 ^ 64 - 1) :
    Guarded step Room (initializeBooks symbols) requests := by
  apply (good_initializeBooks symbols).guarded
  have one : (initializeBooks symbols).nextOrderId.toNat = 1 := rfl
  rw [one]
  omega

/-- A run from a fresh engine with fewer than 2⁶⁴ − 1 new orders ends in a good engine. -/
theorem run_good (symbols : List SymbolId) (requests : List Request)
    (few : orderCount requests < 2 ^ 64 - 1) :
    ∃ engine outs, run step (initializeBooks symbols) requests = some (engine, outs) ∧
      engine.Good := by
  obtain ⟨engine, outs, ran, good, _⟩ := run_invariant Good (fun _ => True)
    (fun engine request good room => by
      obtain ⟨next, out, ran, engineStep⟩ := good.steps request
      exact ⟨next, out, ran, good.next room engineStep, trivial⟩)
    requests (initializeBooks symbols) (good_initializeBooks symbols)
    (guarded_initializeBooks symbols requests few)
  exact ⟨engine, outs, ran, good⟩

/-- An engine that a run of fewer than 2⁶⁴ − 1 new orders reaches. -/
def Reachable (engine : MatchingEngine) : Prop :=
  ∃ symbols requests outs, orderCount requests < 2 ^ 64 - 1 ∧
    run step (initializeBooks symbols) requests = some (engine, outs)

/-- Every reachable engine is good. -/
theorem Reachable.good {engine : MatchingEngine} (reachable : engine.Reachable) :
    engine.Good := by
  obtain ⟨symbols, requests, outs, few, ran⟩ := reachable
  obtain ⟨reached, emitted, run, good⟩ := run_good symbols requests few
  rw [ran] at run
  cases run
  exact good

end MatchingEngine

/-! ## The four structures of a book -/

namespace OrderBook

/-- The level maps, the order map and the details describe the same orders. -/
structure IndexesAgree (book : OrderBook) : Prop where
  /-- The order map and the details have the same keys. -/
  keys : ∀ id, (∃ elem, book.orderMap id = some elem) ↔
    ∃ detail, book.orderDetails id = some detail
  /-- Every queued pointer leads to an element. -/
  valid : ∀ slot, ∀ elem ∈ book.queueAt slot, ∃ element, book.heap.read elem = some element
  /-- An id is mapped to a pointer exactly when the pointer is queued and its element has the id. -/
  queued : ∀ id elem, book.orderMap id = some elem ↔
    (∃ slot, elem ∈ book.queueAt slot) ∧
      ∃ element, book.heap.read elem = some element ∧ element.m_id = id
  /-- An id with details is queued once, in the level of its recorded side and price. -/
  once : ∀ id detail, book.orderDetails id = some detail → ∀ slot,
    ((book.queueAt slot).map book.idAt).count id =
      if slot = (detail.side.book, detail.price) then 1 else 0
  /-- A level stands under its own price. -/
  priced : ∀ side price level, book.level side price = some level → level.mPrice = price
  /-- No level is empty. -/
  occupied : ∀ side price level, book.level side price = some level → level.mOrders ≠ []

/-- In a good book the four structures agree. -/
theorem Good.indexesAgree {book : OrderBook} (good : book.Good) : book.IndexesAgree where
  keys := by
    intro id
    constructor
    · rintro ⟨elem, mapped⟩
      obtain ⟨_, detail, _, _, details⟩ := good.sound.mapped id elem mapped
      exact ⟨detail, details⟩
    · rintro ⟨detail, details⟩
      exact good.sound.detailed id detail details
  valid := by
    intro slot elem member
    obtain ⟨element, read, _⟩ := good.sound.queued slot elem member
    exact ⟨element, read⟩
  queued := by
    intro id elem
    constructor
    · intro mapped
      obtain ⟨element, detail, read, same, _, resting⟩ := good.sound.parts mapped
      exact ⟨⟨_, good.sound.queued_of_mem (good.filed.mem resting) mapped⟩, element, read, same⟩
    · rintro ⟨_, element, read, rfl⟩
      exact good.sound.owned elem element read
  once := by
    intro id detail details slot
    obtain ⟨elem, mapped⟩ := good.sound.detailed id detail details
    obtain ⟨element, _, read, _⟩ := good.sound.mapped id elem mapped
    have resting := resting_of_parts mapped read details
    change (book.ledger.queue slot).count id = _
    rw [(good.filed.distinct slot).count]
    by_cases here : slot = (detail.side.book, detail.price)
    · rw [if_pos here, if_pos]
      rw [here]
      exact good.filed.mem resting
    · rw [if_neg here, if_neg]
      intro member
      exact here (good.filed.slot_eq member resting).symm
  priced := good.sound.priced
  occupied := good.sound.occupied

end OrderBook

namespace MatchingEngine

/-- After any run with fewer than 2⁶⁴ − 1 new orders the structures of every book agree, every
mapped id lies below the counter, and no id is mapped in two books. -/
theorem run_indexesAgree (symbols : List SymbolId) (requests : List Request)
    (few : orderCount requests < 2 ^ 64 - 1) :
    ∃ engine outs, run step (initializeBooks symbols) requests = some (engine, outs) ∧
      (∀ sym book, engine.books sym = some book → book.IndexesAgree) ∧
      (∀ sym book id elem, engine.books sym = some book → book.orderMap id = some elem →
        id < engine.nextOrderId) ∧
      ∀ sym other book otherBook id elem otherElem, engine.books sym = some book →
        engine.books other = some otherBook → book.orderMap id = some elem →
        otherBook.orderMap id = some otherElem → sym = other := by
  obtain ⟨engine, outs, ran, good⟩ := run_good symbols requests few
  have lives {sym : SymbolId} {book : OrderBook} {id : OrderId} {elem : Addr}
      (present : engine.books sym = some book) (mapped : book.orderMap id = some elem) :
      engine.Lives sym id := by
    obtain ⟨_, _, _, _, _, resting⟩ := (good.books sym book present).1.sound.parts mapped
    exact ⟨book, _, present, resting⟩
  refine ⟨engine, outs, ran, ?_, ?_, ?_⟩
  · intro sym book present
    exact (good.books sym book present).1.indexesAgree
  · intro sym book id elem present mapped
    exact good.below sym id (lives present mapped)
  · intro sym other book otherBook id elem otherElem present otherPresent mapped otherMapped
    exact good.apart sym other id (lives present mapped) (lives otherPresent otherMapped)

/-- A new order as a client sends it. -/
def newOrder (traderId : TraderId) (symbolId : SymbolId) (side : Side) (price : Price)
    (qty : Quantity) : OrderRequest :=
  { m_traderId := traderId, m_symbolId := symbolId, m_side := side, m_price := price,
    m_quantity := qty }

/-- A day on two instruments: a partial fill, a self-trade cancel, both kinds of modify, a
cancel, a side byte that is neither `Buy` nor `Sell`, and an instrument without a book. -/
def sampleRequests : List Request :=
  [.onOrder (newOrder 1 0 Side.Sell 100 5), .onOrder (newOrder 2 0 ⟨7⟩ 100 6),
    .onOrder (newOrder 3 0 Side.Buy 101 3), .onOrder (newOrder 1 0 Side.Buy 100 4),
    .onModify 2 0 2 100 1, .onModify 2 0 2 103 9, .onOrder (newOrder 4 1 Side.Buy 50 2),
    .onOrder (newOrder 4 9 Side.Buy 50 2), .onCancel 5 1 4, .onCancel 2 0 3]

/-- The agreement of the four structures over the sample day. -/
theorem run_indexesAgree_sample : orderCount sampleRequests < 2 ^ 64 - 1 ∧
    ∃ engine outs, run step (initializeBooks [0, 1]) sampleRequests = some (engine, outs) ∧
      ∀ sym book, engine.books sym = some book → book.IndexesAgree := by
  have few : orderCount sampleRequests < 2 ^ 64 - 1 := by decide
  obtain ⟨engine, outs, ran, agree, _⟩ := run_indexesAgree [0, 1] sampleRequests few
  exact ⟨few, engine, outs, ran, agree⟩

end MatchingEngine

end Exchange
