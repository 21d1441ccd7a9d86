import ExchangeSimulator.Verif.Operations

/-!
# The spread

A book is uncrossed when its best bid lies below its best ask. A new order is
matched until no opposite price trades with its limit, so it never crosses the
book. A modification only moves the order to the queue of its new price, as if
no opposite order were there. It keeps the book uncrossed exactly when the new
price does not reach the opposite side, and so does a run of calls.
-/

namespace Exchange

open Library

namespace Ledger

/-- No occupied price of the opposite side trades with a price of this side. -/
def Clear (ledger : Ledger) (side : BookSide) (price : Price) : Prop :=
  ∀ other, ledger.queue (side.opposite, other) ≠ [] →
    OrderBook.canTrade side.opposite other price = false

/-- No occupied price trades with an occupied price of the other side. -/
def Uncrossed (ledger : Ledger) : Prop :=
  ∀ side price, ledger.queue (side, price) ≠ [] → ledger.Clear side price

/-- Trading is symmetric. -/
theorem canTrade_opposite (side : BookSide) (price other : Price) :
    OrderBook.canTrade side.opposite other price = OrderBook.canTrade side price other := by
  cases side <;> rfl

/-- Fewer occupied prices trade with fewer prices. -/
theorem Clear.mono {ledger next : Ledger} {side : BookSide} {price : Price}
    (clear : ledger.Clear side price)
    (fewer : ∀ other, next.queue (side.opposite, other) ≠ [] →
      ledger.queue (side.opposite, other) ≠ []) : next.Clear side price :=
  fun other occupied => clear other (fewer other occupied)

/-- Fewer occupied prices stay uncrossed. -/
theorem Uncrossed.mono {ledger next : Ledger} (uncrossed : ledger.Uncrossed)
    (fewer : ∀ slot, next.queue slot ≠ [] → ledger.queue slot ≠ []) : next.Uncrossed :=
  fun side price occupied =>
    (uncrossed side price (fewer _ occupied)).mono (fun other => fewer (side.opposite, other))

/-- An order that leaves empties at most its own slot. -/
theorem ne_nil_of_drop {ledger : Ledger} {slot other : Slot} {id : OrderId} {amount : Quantity}
    (occupied : (ledger.drop slot id amount).queue other ≠ []) : ledger.queue other ≠ [] := by
  rw [queue_drop] at occupied
  split at occupied
  · rename_i here
    subst here
    intro empty
    rw [empty] at occupied
    exact occupied rfl
  · exact occupied

/-- An order that comes to rest leaves the opposite side alone. -/
theorem clear_rest (ledger : Ledger) (id : OrderId) (order : Resting) (price : Price) :
    (ledger.rest id order).Clear order.side.book price ↔ ledger.Clear order.side.book price := by
  have same (other : Price) : (ledger.rest id order).queue (order.side.book.opposite, other) =
      ledger.queue (order.side.book.opposite, other) := by
    rw [queue_rest, if_neg]
    intro here
    exact order.side.book.opposite_ne (congrArg Prod.fst here)
  simp only [Clear, same]

/-- An order that leaves keeps the opposite side alone. -/
theorem clear_drop (ledger : Ledger) (side : BookSide) (price where' : Price) (id : OrderId)
    (amount : Quantity) :
    (ledger.drop (side, where') id amount).Clear side price ↔ ledger.Clear side price := by
  have same (other : Price) : (ledger.drop (side, where') id amount).queue (side.opposite, other) =
      ledger.queue (side.opposite, other) := by
    rw [queue_drop, if_neg]
    intro here
    exact side.opposite_ne (congrArg Prod.fst here)
  simp only [Clear, same]

/-- An order comes to rest in an uncrossed ledger without crossing it exactly when its price is
clear. -/
theorem Uncrossed.rest_iff {ledger : Ledger} (uncrossed : ledger.Uncrossed) (id : OrderId)
    (order : Resting) :
    (ledger.rest id order).Uncrossed ↔ ledger.Clear order.side.book order.price := by
  have rests : (ledger.rest id order).queue order.slot ≠ [] := by simp [queue_rest]
  constructor
  · intro after
    exact (ledger.clear_rest id order order.price).mp (after order.side.book order.price rests)
  · intro clear side price occupied other across
    by_cases here : (side, price) = order.slot
    · cases here
      exact (ledger.clear_rest id order order.price).mpr clear other across
    · rw [queue_rest, if_neg here] at occupied
      by_cases there : (side.opposite, other) = order.slot
      · -- the new order is the opposite one: its own price is clear of this one
        have sides : side.opposite = order.side.book := congrArg Prod.fst there
        have prices : other = order.price := congrArg Prod.snd there
        rw [← sides, ← prices] at clear
        have refused := clear price (by rwa [BookSide.opposite_opposite])
        rwa [canTrade_opposite] at refused
      · rw [queue_rest, if_neg there] at across
        exact uncrossed side price occupied other across

/-- An accepted modification moves its order to a clear price. -/
def MovesClear (ledger : Ledger) : BookRequest → Prop
  | .modify id traderId newPrice _ => ∀ order, ledger.record id = some order →
      order.traderId = traderId → ledger.Clear order.side.book newPrice
  | _ => True

/-- A call keeps an uncrossed ledger uncrossed exactly when it moves to a clear price. -/
theorem LedgerStep.uncrossed_iff {symbol : SymbolId} {ledger next : Ledger}
    {request : BookRequest} {out : Outputs} (step : LedgerStep symbol ledger request out next)
    (filed : ledger.Filed) (uncrossed : ledger.Uncrossed) :
    next.Uncrossed ↔ ledger.MovesClear request := by
  cases step with
  | filled sweep => exact iff_of_true (uncrossed.mono fun _ => sweep.ne_nil) trivial
  | rested sweep _ clear =>
    refine iff_of_true ?_ trivial
    exact ((uncrossed.mono fun _ => sweep.ne_nil).rest_iff _ _).mpr clear
  | cancelled => exact iff_of_true (uncrossed.mono fun _ => ne_nil_of_drop) trivial
  | cancelRejected => exact iff_of_true uncrossed trivial
  | rewritten recorded _ stays _ =>
    refine iff_of_true uncrossed ?_
    intro order found _
    rw [recorded] at found
    cases found
    rw [← stays]
    exact uncrossed _ _ (List.ne_nil_of_mem (filed.mem recorded))
  | @requeued id _ newPrice _ order recorded own _ =>
    have dropped : (ledger.drop order.slot id order.quantity).Uncrossed :=
      uncrossed.mono fun _ => ne_nil_of_drop
    rw [requeue, dropped.rest_iff]
    simp only [Resting.modify, Resting.slot, clear_drop, MovesClear]
    constructor
    · intro clear other found _
      rw [recorded] at found
      cases found
      exact clear
    · intro moves
      exact moves order recorded own
  | modifyRejected foreign =>
    refine iff_of_true uncrossed ?_
    intro order recorded own
    exact absurd own (foreign order recorded)

end Ledger

namespace OrderBook

/-- A present level is an occupied slot. -/
theorem Sound.ne_nil_of_begin? {book : OrderBook} (sound : book.Sound) {side : BookSide}
    {price : Price} {level : PriceLevel}
    (front : (book.getBook side).begin? = some (price, level)) :
    book.ledger.queue (side, price) ≠ [] := by
  have present : book.level side price = some level := OrderedMap.find?_of_begin? front
  have occupied := sound.occupied side price level present
  change (book.queueAt (side, price)).map book.idAt ≠ []
  rw [queueAt_of_level present]
  simpa using occupied

/-- A side without levels has no occupied slot. -/
theorem queue_of_begin?_none {book : OrderBook} {side : BookSide}
    (front : (book.getBook side).begin? = none) (price : Price) :
    book.ledger.queue (side, price) = [] := by
  have absent : book.level side price = none := OrderedMap.find?_of_begin?_none front price
  change (book.queueAt (side, price)).map book.idAt = []
  simp only [queueAt, absent, List.map_nil]

/-- A price is clear exactly when the best opposite price does not trade with it. -/
theorem Sound.clear_iff {book : OrderBook} (sound : book.Sound) (side : BookSide)
    (price : Price) : book.ledger.Clear side price ↔
      ∀ best level, (book.getBook side.opposite).begin? = some (best, level) →
        canTrade side.opposite best price = false := by
  constructor
  · intro clear best level front
    exact clear best (sound.ne_nil_of_begin? front)
  · intro best other occupied
    cases front : (book.getBook side.opposite).begin? with
    | none => exact absurd (queue_of_begin?_none front other) occupied
    | some first =>
      obtain ⟨bestPrice, level⟩ := first
      have refused := best bestPrice level front
      rcases leads_of_begin? front other occupied with same | later
      · rw [same]
        exact refused
      · rw [Bool.eq_false_iff] at refused ⊢
        exact fun trades => refused (canTrade_of_before later trades)

/-- Bids and asks, if there are any, have the best bid below the best ask. -/
def Uncrossed (book : OrderBook) : Prop :=
  book.bids.entries ≠ [] → book.asks.entries ≠ [] → book.getBestBidPrice < book.getBestAskPrice

instance (book : OrderBook) : Decidable book.Uncrossed :=
  inferInstanceAs (Decidable (book.bids.entries ≠ [] → book.asks.entries ≠ [] →
    book.getBestBidPrice < book.getBestAskPrice))

/-- A buy price below the best ask, or a sell price above the best bid. -/
def ClearAt (book : OrderBook) : BookSide → Price → Prop
  | .Buy, price => book.asks.entries ≠ [] → price < book.getBestAskPrice
  | .Sell, price => book.bids.entries ≠ [] → book.getBestBidPrice < price

instance (book : OrderBook) (side : BookSide) (price : Price) :
    Decidable (book.ClearAt side price) :=
  match side with
  | .Buy => inferInstanceAs (Decidable (book.asks.entries ≠ [] → price < book.getBestAskPrice))
  | .Sell => inferInstanceAs (Decidable (book.bids.entries ≠ [] → book.getBestBidPrice < price))

/-- An accepted modification does not reach the opposite side. -/
def MovesClear (book : OrderBook) : BookRequest → Prop
  | .modify id traderId newPrice _ => ∀ order ∈ book.resting id, order.traderId = traderId →
      book.ClearAt order.side.book newPrice
  | _ => True

instance (book : OrderBook) (request : BookRequest) : Decidable (book.MovesClear request) :=
  match request with
  | .add _ => inferInstanceAs (Decidable True)
  | .cancel _ _ => inferInstanceAs (Decidable True)
  | .modify id traderId newPrice _ => inferInstanceAs (Decidable (∀ order ∈ book.resting id,
      order.traderId = traderId → book.ClearAt order.side.book newPrice))

/-- A price is clear for the ledger of a sound book exactly when it is for the best prices. -/
theorem Sound.clearAt_iff {book : OrderBook} (sound : book.Sound) (side : BookSide)
    (price : Price) : book.ClearAt side price ↔ book.ledger.Clear side price := by
  rw [sound.clear_iff]
  cases side with
  | Buy =>
    have reads (best : Price) (level : PriceLevel) (front : book.asks.begin? = some (best, level)) :
        book.getBestAskPrice = best := by
      simp only [getBestAskPrice, front]
    simp only [BookSide.opposite, canTrade, decide_eq_false_iff_not, UInt32.not_le]
    exact (OrderedMap.forall_begin?_iff (fun best => price < best) reads).symm
  | Sell =>
    have reads (best : Price) (level : PriceLevel) (front : book.bids.begin? = some (best, level)) :
        book.getBestBidPrice = best := by
      simp only [getBestBidPrice, front]
    simp only [BookSide.opposite, canTrade, decide_eq_false_iff_not, UInt32.not_le]
    exact (OrderedMap.forall_begin?_iff (fun best => best < price) reads).symm

/-- A sound book is uncrossed exactly when its ledger is. -/
theorem Sound.uncrossed_iff {book : OrderBook} (sound : book.Sound) :
    book.Uncrossed ↔ book.ledger.Uncrossed := by
  constructor
  · intro below side price occupied other across
    have bidsClear (bid : Price) (bidOccupied : book.ledger.queue (.Buy, bid) ≠ []) :
        book.ledger.Clear .Buy bid := by
      rw [← sound.clearAt_iff]
      intro asks
      cases front : book.bids.begin? with
      | none =>
        have none : (book.getBook .Buy).begin? = none := front
        exact absurd (queue_of_begin?_none none bid) bidOccupied
      | some first =>
        obtain ⟨best, level⟩ := first
        have first : (book.getBook .Buy).begin? = some (best, level) := front
        have apart := below (OrderedMap.entries_of_begin? front) asks
        simp only [getBestBidPrice, front] at apart
        rcases leads_of_begin? first bid bidOccupied with same | later
        · rw [same]
          exact apart
        · exact UInt32.lt_trans later apart
    cases side with
    | Buy => exact bidsClear price occupied other across
    | Sell =>
      rw [Ledger.canTrade_opposite]
      exact bidsClear other across price occupied
  · intro uncrossed bids asks
    obtain ⟨best, level, front⟩ := OrderedMap.begin?_of_entries bids
    have clear := uncrossed .Buy best (sound.ne_nil_of_begin? front)
    have apart := (sound.clearAt_iff .Buy best).mpr clear asks
    simpa only [getBestBidPrice, front] using apart

/-- A move is clear for a sound book exactly when it is for its ledger. -/
theorem Sound.movesClear_iff {book : OrderBook} (sound : book.Sound) (request : BookRequest) :
    book.MovesClear request ↔ book.ledger.MovesClear request := by
  cases request with
  | add => exact Iff.rfl
  | cancel => exact Iff.rfl
  | modify id traderId newPrice newQty =>
    simp only [MovesClear, Ledger.MovesClear, Option.mem_def, sound.clearAt_iff]
    exact Iff.rfl

/-- A run of fresh calls from an empty book returns, and it never crosses the book exactly when
each of its modifications moves to a clear price. -/
theorem run_uncrossed_iff (sym : SymbolId) (requests : List BookRequest)
    (fresh : Guarded OrderBook.step OrderBook.Fresh (OrderBook.new sym) requests) :
    (∃ last outs, run OrderBook.step (OrderBook.new sym) requests = some (last, outs)) ∧
      (Always OrderBook.step Uncrossed (fun _ => True) (OrderBook.new sym) requests ↔
        Guarded OrderBook.step MovesClear (OrderBook.new sym) requests) := by
  refine always_iff ?_ sym ?_ requests fresh
  · intro book request out next good nextGood uncrossed _ step
    rw [and_true, nextGood.sound.uncrossed_iff, good.sound.movesClear_iff]
    exact step.uncrossed_iff good.filed (good.sound.uncrossed_iff.mp uncrossed)
  · intro bids
    exact absurd rfl bids

/-- A run that keeps a modified ask above the best bid stays uncrossed. -/
theorem run_uncrossed_iff_narrowed :
    Always OrderBook.step Uncrossed (fun _ => True) (OrderBook.new 0)
      [place 1 1 Side.Buy 100 5, place 2 2 Side.Sell 105 5, .modify 2 2 101 5] :=
  (run_uncrossed_iff 0 [place 1 1 Side.Buy 100 5, place 2 2 Side.Sell 105 5, .modify 2 2 101 5]
    (by decide)).2.mpr (by decide)

/-- An ask modified to a price below the best bid rests there and crosses the book. -/
theorem uncrossed_fails_on_modify :
    Guarded OrderBook.step OrderBook.Fresh (OrderBook.new 0)
      [place 1 1 Side.Buy 100 5, place 2 2 Side.Sell 105 5, .modify 2 2 95 5] ∧
    ¬Always OrderBook.step Uncrossed (fun _ => True) (OrderBook.new 0)
      [place 1 1 Side.Buy 100 5, place 2 2 Side.Sell 105 5, .modify 2 2 95 5] := by
  decide

end OrderBook

end Exchange
