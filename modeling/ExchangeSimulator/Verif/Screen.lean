import Mathlib.Order.Bounds.Defs
import ExchangeSimulator.Verif.Spread
import ExchangeSimulator.Verif.Tracker
import ExchangeSimulator.Verif.Volume

/-!
# The published top of book and last trade

A message refreshes the entry of its own instrument only. The entry shows the
heads of the two level maps, and the levels are those of the resting orders, so
it shows the best prices of the orders that the request and confirmation history
leaves live. The other books do not change, and so their entries stay true. An
instrument without a book keeps the initial entry.
-/

namespace Exchange

open Library

/-- The limit prices of the live orders of an instrument on one side. -/
def Tracker.prices (tracker : Tracker) (sym : SymbolId) (side : BookSide) : Set Price :=
  {price | ∃ id order, tracker id = .live sym order ∧ order.side.book = side ∧
    order.price = price}

/-- An entry shows the best prices of the live orders and the last of the executions. -/
structure Current (entry : InstrumentState) (tracker : Tracker) (fills : List Execution)
    (sym : SymbolId) : Prop where
  /-- The highest bid, or zero. -/
  bid : IsGreatest (tracker.prices sym .Buy) entry.bestBid ∨
    tracker.prices sym .Buy = ∅ ∧ entry.bestBid = 0
  /-- The lowest ask, or zero. -/
  ask : IsLeast (tracker.prices sym .Sell) entry.bestAsk ∨
    tracker.prices sym .Sell = ∅ ∧ entry.bestAsk = 0
  /-- The last trade, or zeros. -/
  last : (entry.lastTradePrice, entry.lastTradeQty) = lastTrade (0, 0) fills

/-! ## Best prices -/

/-- The live prices of a side are its occupied levels. -/
theorem Tracker.Follows.prices {tracker : Tracker} {engine : MatchingEngine}
    (follows : tracker.Follows engine.live engine.Unissued) {sym : SymbolId} {book : OrderBook}
    (present : engine.books sym = some book) (good : book.Good) (side : BookSide) :
    tracker.prices sym side = {price | book.ledger.queue (side, price) ≠ []} := by
  have live (id : OrderId) (order : LiveOrder) : tracker id = .live sym order ↔
      ∃ resting, book.ledger.record id = some resting ∧ resting.live = order := by
    rw [follows.lives, MatchingEngine.live, MatchingEngine.ledger_of_books present, Ledger.live,
      Option.map_eq_some_iff]
  ext price
  constructor
  · rintro ⟨id, order, status, onSide, priced⟩
    obtain ⟨resting, recorded, rfl⟩ := (live id order).mp status
    have waits := good.filed.mem recorded
    rw [show resting.slot = (side, price) from Prod.ext onSide priced] at waits
    exact List.ne_nil_of_mem waits
  · intro occupied
    obtain ⟨id, member⟩ := List.exists_mem_of_ne_nil _ occupied
    obtain ⟨resting, recorded, waits⟩ := good.filed.recorded member
    exact ⟨id, resting.live, (live id resting.live).mpr ⟨resting, recorded, rfl⟩,
      congrArg Prod.fst waits, congrArg Prod.snd waits⟩

namespace OrderBook

/-- A side of a good book is empty, or its first level leads the occupied prices. -/
theorem Good.front {book : OrderBook} (good : book.Good) (side : BookSide) :
    ((book.getBook side).begin? = none ∧ ∀ price, book.ledger.queue (side, price) = []) ∨
      ∃ best level, (book.getBook side).begin? = some (best, level) ∧
        book.ledger.queue (side, best) ≠ [] ∧ book.ledger.Leads side best := by
  cases front : (book.getBook side).begin? with
  | none => exact .inl ⟨rfl, queue_of_begin?_none front⟩
  | some first =>
    obtain ⟨best, level⟩ := first
    exact .inr ⟨best, level, rfl, good.sound.ne_nil_of_begin? front, leads_of_begin? front⟩

/-- The best bid of a good book is the highest occupied price, or zero. -/
theorem Good.bestBid {book : OrderBook} (good : book.Good) :
    IsGreatest {price | book.ledger.queue (.Buy, price) ≠ []} book.getBestBidPrice ∨
      {price | book.ledger.queue (.Buy, price) ≠ []} = ∅ ∧ book.getBestBidPrice = 0 := by
  rcases good.front .Buy with ⟨front, empty⟩ | ⟨best, level, front, occupied, leads⟩
  · have shown : book.getBestBidPrice = 0 := by
      rw [getBestBidPrice, show book.bids.begin? = none from front]
    exact .inr ⟨Set.eq_empty_of_forall_notMem fun price some => some (empty price), shown⟩
  · have shown : book.getBestBidPrice = best := by
      rw [getBestBidPrice, show book.bids.begin? = some (best, level) from front]
    rw [shown]
    refine .inl ⟨occupied, ?_⟩
    intro other there
    rcases leads other there with rfl | lower
    · exact UInt32.le_refl _
    · exact UInt32.le_of_lt lower

/-- The best ask of a good book is the lowest occupied price, or zero. -/
theorem Good.bestAsk {book : OrderBook} (good : book.Good) :
    IsLeast {price | book.ledger.queue (.Sell, price) ≠ []} book.getBestAskPrice ∨
      {price | book.ledger.queue (.Sell, price) ≠ []} = ∅ ∧ book.getBestAskPrice = 0 := by
  rcases good.front .Sell with ⟨front, empty⟩ | ⟨best, level, front, occupied, leads⟩
  · have shown : book.getBestAskPrice = 0 := by
      rw [getBestAskPrice, show book.asks.begin? = none from front]
    exact .inr ⟨Set.eq_empty_of_forall_notMem fun price some => some (empty price), shown⟩
  · have shown : book.getBestAskPrice = best := by
      rw [getBestAskPrice, show book.asks.begin? = some (best, level) from front]
    rw [shown]
    refine .inl ⟨occupied, ?_⟩
    intro other there
    rcases leads other there with rfl | higher
    · exact UInt32.le_refl _
    · exact UInt32.le_of_lt higher

end OrderBook

/-- Two engines with the same book of an instrument show the same best prices of it. -/
theorem MatchingEngine.best_congr {engine next : MatchingEngine} {sym : SymbolId}
    (same : next.books sym = engine.books sym) :
    next.getBestBidPrice sym = engine.getBestBidPrice sym ∧
      next.getBestAskPrice sym = engine.getBestAskPrice sym := by
  simp only [getBestBidPrice, getBestAskPrice, same, and_self]

namespace MatchingThread

/-! ## Messages -/

/-- A tracker reads what the engine emitted for one message. -/
def track (tracker : Tracker) : Option (OrderRequest × Outputs) → Tracker
  | none => tracker
  | some (req, out) => tracker.observe (call req) out

/-- The tracker that has read the requests and confirmations of some messages. -/
def tracked (handled : List (Option (OrderRequest × Outputs))) : Tracker :=
  handled.foldl track Tracker.empty

/-- The tracker after one more message. -/
theorem tracked_append (past : List (Option (OrderRequest × Outputs)))
    (output : Option (OrderRequest × Outputs)) :
    tracked (past ++ [output]) = track (tracked past) output := by
  rw [tracked, List.foldl_append]
  rfl

/-- The counter has room for the request of the message. -/
def Room (thread : MatchingThread) (popped : RawMessage × Timestamp) : Prop :=
  ∀ req, parse popped.1 popped.2 = some req → thread.engine.Room (call req)

/-- A request takes as many ids without its timestamp. -/
theorem ids_untimed (req : OrderRequest) : (call (untimed req)).ids = (call req).ids := by
  have kind : (untimed req).m_requestType = req.m_requestType := rfl
  cases type : req.m_requestType <;> simp [call, kind, type, Request.ids]

/-- Enough room for all new orders is room at every message. -/
theorem guarded_room (popped : List (RawMessage × Timestamp)) (thread : MatchingThread)
    (good : thread.engine.Good)
    (few : thread.engine.nextOrderId.toNat + orderCount ((handed popped).map call) < 2 ^ 64) :
    Guarded step Room thread popped := by
  induction popped generalizing thread with
  | nil => trivial
  | cons message popped ih =>
    cases parsed : parse message.1 message.2 with
    | none =>
      have rest : handed (message :: popped) = handed popped := by simp [handed, parsed]
      rw [rest] at few
      refine ⟨fun req found => by simp [parsed] at found, ?_⟩
      intro next output ran
      obtain ⟨_, rfl, _⟩ | ⟨req, _, _, found, _⟩ := step_cases ran
      · exact ih next good few
      · simp [parsed] at found
    | some req =>
      have rest : handed (message :: popped) = untimed req :: handed popped := by
        simp [handed, parsed]
      rw [rest] at few
      simp only [orderCount, List.map_cons, List.sum_cons, ids_untimed] at few
      have room : thread.engine.Room (call req) := by
        unfold MatchingEngine.Room
        omega
      refine ⟨fun other found => by cases parsed.symm.trans found; exact room, ?_⟩
      intro next output ran
      obtain ⟨found, _, _⟩ | ⟨other, engine, out, found, stepped, rfl, _⟩ := step_cases ran
      · simp [parsed] at found
      · cases parsed.symm.trans found
        obtain ⟨reached, emitted, again, engineStep⟩ := good.steps (call req)
        rw [stepped] at again
        cases again
        refine ih _ (good.next room engineStep) ?_
        rw [engineStep.counter room]
        simp only [orderCount]
        omega

/-- The entries show the books, the books are in order and the tracker follows them. -/
structure Screened (thread : MatchingThread) (past : List (Option (OrderRequest × Outputs))) :
    Prop where
  /-- Executions are recorded. -/
  recorded : Recorded thread past
  /-- The engine is good. -/
  good : thread.engine.Good
  /-- The tracker's live orders are those of the engine. -/
  follows : (tracked past).Follows thread.engine.live thread.engine.Unissued
  /-- The entries show the best prices of the books. -/
  top : ∀ sym : SymbolId, sym.toNat < MAX_INSTRUMENTS →
    (thread.marketState.get sym).bestBid = thread.engine.getBestBidPrice sym ∧
      (thread.marketState.get sym).bestAsk = thread.engine.getBestAskPrice sym
  /-- An instrument without a book has the initial entry. -/
  blank : ∀ sym : SymbolId, sym.toNat < MAX_INSTRUMENTS → thread.engine.books sym = none →
    thread.marketState.get sym = {}

/-- Every message with room for its id keeps the screen. -/
theorem Screened.step {thread : MatchingThread} {past : List (Option (OrderRequest × Outputs))}
    (screened : Screened thread past) {popped : RawMessage × Timestamp}
    (room : thread.Room popped) :
    ∃ next output, thread.step popped = some (next, output) ∧
      Screened next (past ++ [output]) := by
  cases parsed : parse popped.1 popped.2 with
  | none =>
    have ran : thread.step popped = some (thread, none) := by
      simp only [MatchingThread.step, parsed]
    refine ⟨thread, none, ran, screened.recorded.step ran, screened.good, ?_, screened.top,
      screened.blank⟩
    rw [tracked_append]
    exact screened.follows
  | some req =>
    obtain ⟨engine, out, stepped, engineStep⟩ := screened.good.steps (call req)
    have ran : thread.step popped = some (⟨engine, engine.publish thread.marketState
        req.m_symbolId out.confirmsOut⟩, some (req, out)) := by
      simp only [MatchingThread.step, parsed, handle, stepped, bind, Option.bind]
    obtain ⟨others, kept⟩ := MatchingEngine.books_of_step stepped
    rw [symbolId_call] at others
    refine ⟨_, _, ran, screened.recorded.step ran, screened.good.next (room req parsed) engineStep,
      ?_, ?_, ?_⟩
    · rw [tracked_append]
      exact screened.follows.engineStep (room req parsed) engineStep
    · intro sym inRange
      rw [MatchingEngine.get_publish _ _ _ _ _ inRange]
      split
      · rename_i here
        subst here
        exact ⟨rfl, rfl⟩
      · rename_i apart
        obtain ⟨bid, ask⟩ := MatchingEngine.best_congr (others sym apart)
        rw [bid, ask]
        exact screened.top sym inRange
    · intro sym inRange missing
      have missing : engine.books sym = none := missing
      have before := screened.blank sym inRange ((kept sym).mp missing)
      rw [MatchingEngine.get_publish _ _ _ _ _ inRange]
      split
      · rename_i here
        subst here
        have silent : out = Outputs.none := by
          obtain ⟨_, _, silent⟩ | ⟨_, _, present, _, _⟩ := MatchingEngine.step_cases stepped
          · exact silent
          · rw [symbolId_call, (kept req.m_symbolId).mp missing] at present
            contradiction
        simp only [silent, Outputs.none, List.foldl_nil, before,
          MatchingEngine.getBestBidPrice, MatchingEngine.getBestBidQty,
          MatchingEngine.getBestAskPrice, MatchingEngine.getBestAskQty, missing]
      · exact before

/-- A fresh thread shows empty books. -/
theorem screened_new : Screened new [] where
  recorded := recorded_new
  good := MatchingEngine.good_initializeBooks _
  follows := Tracker.follows_initializeBooks _
  top := by
    intro sym inRange
    have entry : new.marketState.get sym = {} := by
      simp only [new, MarketState.get, dif_pos inRange]
    rw [entry, MatchingEngine.getBestBidPrice, MatchingEngine.getBestAskPrice]
    cases present : new.engine.books sym with
    | none => exact ⟨rfl, rfl⟩
    | some book =>
      rw [MatchingEngine.books_initializeBooks _ sym book present]
      exact ⟨rfl, rfl⟩
  blank := by
    intro sym inRange _
    simp only [new, MarketState.get, dif_pos inRange]

/-- Over every sequence of messages with fewer than 2⁶⁴ − 1 new orders, the entry of every
instrument with a book shows the best prices of the orders that the request and confirmation
history leaves live and the last execution, and every other entry is zero. -/
theorem run_screen (popped : List (RawMessage × Timestamp))
    (few : orderCount ((handed popped).map call) < 2 ^ 64 - 1) :
    ∃ thread handled, run step new popped = some (thread, handled) ∧
      ∀ sym : SymbolId, sym.toNat < MAX_INSTRUMENTS →
        (∀ book, thread.engine.books sym = some book →
          Current (thread.marketState.get sym) (tracked handled) (fillsOn sym handled) sym) ∧
        (thread.engine.books sym = none → thread.marketState.get sym = {}) := by
  have start : new.engine.nextOrderId.toNat = 1 := rfl
  have guarded := guarded_room popped new screened_new.good (by omega)
  obtain ⟨thread, handled, ran, screened⟩ := run_guarded_history Screened
    (fun _ _ _ screened room => screened.step room) popped new [] screened_new guarded
  rw [List.nil_append] at screened
  refine ⟨thread, handled, ran, ?_⟩
  intro sym inRange
  refine ⟨?_, screened.blank sym inRange⟩
  intro book present
  obtain ⟨bid, ask⟩ := screened.top sym inRange
  have good := (screened.good.books sym book present).1
  simp only [MatchingEngine.getBestBidPrice, MatchingEngine.getBestAskPrice, present] at bid ask
  refine ⟨?_, ?_, screened.recorded.last sym inRange⟩
  · rw [bid, screened.follows.prices present good]
    exact good.bestBid
  · rw [ask, screened.follows.prices present good]
    exact good.bestAsk

/-- The screen after a trade. -/
theorem run_screen_crossed : ∃ thread handled,
    run step new crossingOrders = some (thread, handled) ∧
      ∀ sym : SymbolId, sym.toNat < MAX_INSTRUMENTS →
        (∀ book, thread.engine.books sym = some book →
          Current (thread.marketState.get sym) (tracked handled) (fillsOn sym handled) sym) ∧
        (thread.engine.books sym = none → thread.marketState.get sym = {}) :=
  run_screen crossingOrders (by decide +kernel)

end MatchingThread

end Exchange
