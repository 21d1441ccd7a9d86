import ExchangeSimulator.Verif.Journal

/-!
# The market data feed

A subscriber keeps a map from instrument and order id to side, price and
quantity, and applies every update to it. After every request the map holds
exactly the resting orders of every book. Each update about an existing order
finds it in the map, no trade takes more than is there, and a cancel carries the
quantity that is left.
-/

namespace Exchange

open Library

/-- What a subscriber knows of an order. -/
structure FeedEntry where
  /-- Side as announced. -/
  side : Side
  /-- Last announced price. -/
  price : Price
  /-- Shares left. -/
  qty : Quantity
deriving DecidableEq, Repr

/-- What a subscriber should know of a live order. -/
def LiveOrder.feedEntry (order : LiveOrder) : FeedEntry :=
  ⟨order.side, order.price, order.remaining⟩

/-- What a subscriber should know of a resting order: the side and price of its details and the
quantity of its element. -/
def Resting.feedEntry (order : Resting) : FeedEntry := ⟨order.side, order.price, order.quantity⟩

/-- The map of a subscriber, by instrument and order id. -/
abbrev Feed := SymbolId × OrderId → Option FeedEntry

namespace Feed

/-- The map of a subscriber that has seen nothing. -/
def empty : Feed := fun _ => none

/-- What an update makes of the entry it is about. -/
def nextEntry (update : MdUpdate) (entry : Option FeedEntry) : Option FeedEntry :=
  match update.updateType, entry with
  | .New, _ => if 0 < update.qty then some ⟨update.side, update.price, update.qty⟩ else entry
  | .Trade, some entry =>
    if entry.qty - update.qty = 0 then none else some { entry with qty := entry.qty - update.qty }
  | .Cancel, _ => none
  | .Modify, some entry => some { entry with price := update.price, qty := update.qty }
  | _, none => none

/-- Apply an update to the map. -/
def apply (feed : Feed) (update : MdUpdate) : Feed :=
  Function.update feed (update.symbolId, update.orderId)
    (nextEntry update (feed (update.symbolId, update.orderId)))

/-- An update other than `New` is about an entry of the map. A trade takes no more than the entry
has, and a cancel carries what it has. -/
def Refers (feed : Feed) (update : MdUpdate) : Prop :=
  match update.updateType with
  | .New => True
  | .Trade => ∃ entry, feed (update.symbolId, update.orderId) = some entry ∧ update.qty ≤ entry.qty
  | .Cancel => ∃ entry, feed (update.symbolId, update.orderId) = some entry ∧
      update.qty = entry.qty
  | .Modify => ∃ entry, feed (update.symbolId, update.orderId) = some entry

/-- Each update refers to an entry present at its moment. -/
def AllRefer : Feed → List MdUpdate → Prop
  | _, [] => True
  | feed, update :: updates => feed.Refers update ∧ AllRefer (feed.apply update) updates

/-- The map after the updates of a request. -/
def observe (feed : Feed) (_ : Request) (out : Outputs) : Feed := out.mdOut.foldl apply feed

/-- The updates of a request refer to entries of the map. -/
def Accepts (feed : Feed) (_ : Request) (out : Outputs) : Prop := feed.AllRefer out.mdOut

/-- The map shows exactly the live orders. -/
def Shows (feed : Feed) (live : Live) : Prop :=
  ∀ sym id, feed (sym, id) = (live sym id).map LiveOrder.feedEntry

/-- Updates in order refer to entries when both stretches do. -/
theorem AllRefer.append {feed : Feed} {first second : List MdUpdate} (early : feed.AllRefer first)
    (late : AllRefer (first.foldl apply feed) second) : feed.AllRefer (first ++ second) := by
  induction first generalizing feed with
  | nil => exact late
  | cons update rest ih => exact ⟨early.1, ih early.2 late⟩

/-- An update that makes the right entry of the order it is about keeps the map exact. -/
theorem Shows.set {feed : Feed} {live : Live} (agrees : feed.Shows live) {update : MdUpdate}
    {order : Option LiveOrder}
    (makes : nextEntry update ((live update.symbolId update.orderId).map LiveOrder.feedEntry) =
      order.map LiveOrder.feedEntry) :
    (feed.apply update).Shows (live.set update.symbolId update.orderId order) := by
  intro sym id
  simp only [Feed.apply, Function.update_apply, Live.set_apply, Prod.mk.injEq]
  split
  · rw [agrees, makes]
  · exact agrees sym id

section Updates

variable {feed : Feed} {live : Live} {symbol : SymbolId} {id : OrderId} {order : LiveOrder}

/-- A `Trade` update of a live order. -/
theorem Shows.trade (agrees : feed.Shows live) (present : live symbol id = some order) (side : Side)
    (price : Price) {qty : Quantity} (covered : qty ≤ order.remaining) :
    feed.Refers ⟨symbol, id, side, price, qty, .Trade⟩ ∧
      (feed.apply ⟨symbol, id, side, price, qty, .Trade⟩).Shows
        (live.set symbol id (order.trade qty)) := by
  constructor
  · refine ⟨order.feedEntry, ?_, covered⟩
    rw [agrees, present]
    rfl
  · refine agrees.set ?_
    simp only [present, Option.map_some, nextEntry, LiveOrder.feedEntry, LiveOrder.trade]
    split <;> rfl

/-- A `Cancel` update of a live order with what it has left. -/
theorem Shows.cancel (agrees : feed.Shows live) (present : live symbol id = some order)
    (side : Side) (price : Price) :
    feed.Refers ⟨symbol, id, side, price, order.remaining, .Cancel⟩ ∧
      (feed.apply ⟨symbol, id, side, price, order.remaining, .Cancel⟩).Shows
        (live.set symbol id none) := by
  constructor
  · refine ⟨order.feedEntry, ?_, rfl⟩
    rw [agrees, present]
    rfl
  · exact agrees.set rfl

/-- A `Modify` update of a live order. -/
theorem Shows.modify (agrees : feed.Shows live) (present : live symbol id = some order)
    (side : Side) (newPrice : Price) (newQty : Quantity) :
    feed.Refers ⟨symbol, id, side, newPrice, newQty, .Modify⟩ ∧
      (feed.apply ⟨symbol, id, side, newPrice, newQty, .Modify⟩).Shows
        (live.set symbol id (some (order.modify newPrice newQty))) := by
  constructor
  · refine ⟨order.feedEntry, ?_⟩
    rw [agrees, present]
    rfl
  · refine agrees.set ?_
    simp only [present]
    rfl

/-- The `New` update of an incoming order. -/
theorem Shows.new {incoming : OrderRequest} (agrees : feed.Shows live)
    (missing : live symbol incoming.m_orderId = none) :
    (feed.apply ⟨symbol, incoming.m_orderId, incoming.m_side, incoming.m_price,
        incoming.m_quantity, .New⟩).Shows
      (live.set symbol incoming.m_orderId
        (LiveOrder.arriving incoming incoming.m_quantity)) := by
  refine agrees.set ?_
  simp only [missing, nextEntry, LiveOrder.arriving]
  by_cases zero : incoming.m_quantity = 0
  · simp [zero]
  · rw [if_pos (UInt32.pos_iff_ne_zero.mpr zero), if_neg zero]
    rfl

end Updates

/-- The updates of an iteration keep the map exact. -/
theorem Shows.fill {feed : Feed} {symbol : SymbolId} {incoming : OrderRequest} {live next : Live}
    {out : Outputs} (agrees : feed.Shows live) (fill : Fill symbol incoming live out next) :
    feed.AllRefer out.mdOut ∧ Shows (out.mdOut.foldl apply feed) next := by
  cases fill with
  | traded resting arriving apart _ _ _ covered within =>
    obtain ⟨refers, passive⟩ := agrees.trade resting incoming.m_side.book.opposite.side _ covered
    obtain ⟨alsoRefers, both⟩ := passive.trade
      ((Live.set_of_ne live symbol _ apart.symm).trans arriving) incoming.m_side incoming.m_price
      within
    exact ⟨⟨refers, alsoRefers, trivial⟩, both⟩
  | selfTraded resting _ _ =>
    obtain ⟨refers, gone⟩ := agrees.cancel resting incoming.m_side.book.opposite.side _
    exact ⟨⟨refers, trivial⟩, gone⟩

/-- The updates of the matcher keep the map exact. -/
theorem Shows.fills {feed : Feed} {symbol : SymbolId} {incoming : OrderRequest} {live last : Live}
    {out : Outputs} (agrees : feed.Shows live) (fills : Fills symbol incoming live out last) :
    feed.AllRefer out.mdOut ∧ Shows (out.mdOut.foldl apply feed) last := by
  induction fills generalizing feed with
  | done => exact ⟨trivial, agrees⟩
  | step first _ ih =>
    obtain ⟨early, between⟩ := agrees.fill first
    obtain ⟨late, after⟩ := ih between
    refine ⟨early.append late, ?_⟩
    rw [Outputs.append, List.foldl_append]
    exact after

/-- The updates of a call keep the map exact. -/
theorem Shows.entry {feed : Feed} {symbol : SymbolId} {request : BookRequest} {live next : Live}
    {out : Outputs} (agrees : feed.Shows live) (entry : Entry symbol live request out next) :
    feed.AllRefer out.mdOut ∧ Shows (out.mdOut.foldl apply feed) next := by
  cases entry with
  | placed missing fills =>
    obtain ⟨late, after⟩ := (agrees.new missing).fills fills
    exact ⟨⟨trivial, late⟩, after⟩
  | cancelled resting _ =>
    obtain ⟨refers, gone⟩ := agrees.cancel resting _ _
    exact ⟨⟨refers, trivial⟩, gone⟩
  | modified resting _ =>
    obtain ⟨refers, changed⟩ := agrees.modify resting _ _ _
    exact ⟨⟨refers, trivial⟩, changed⟩
  | rejected => exact ⟨trivial, agrees⟩

end Feed

namespace MatchingEngine

/-- Over every run with fewer than 2⁶⁴ − 1 new orders, each update refers to an entry that a
subscriber holds at that moment, and the subscriber's map ends up as the resting orders of all
books. -/
theorem run_feed (symbols : List SymbolId) (requests : List Request)
    (few : orderCount requests < 2 ^ 64 - 1) :
    ∃ engine outs, run step (initializeBooks symbols) requests = some (engine, outs) ∧
      Accepted Feed.observe Feed.Accepts Feed.empty requests outs ∧
      ∀ sym id, replay Feed.observe Feed.empty requests outs (sym, id) =
        ((engine.ledger sym).record id).map Resting.feedEntry := by
  obtain ⟨engine, outs, ran, accepted, _, agrees⟩ := run_observed Feed.observe Feed.Accepts
    (fun engine feed => engine.Good ∧ feed.Shows engine.live)
    (fun engine feed request related room => by
      obtain ⟨good, agrees⟩ := related
      obtain ⟨next, out, ran, engineStep⟩ := good.steps request
      refine ⟨next, out, ran, ?_⟩
      rcases engineStep.entry with ⟨silent, same⟩ | entry
      · subst silent
        exact ⟨trivial, good.next room engineStep, same ▸ agrees⟩
      · obtain ⟨refer, after⟩ := agrees.entry entry
        exact ⟨refer, good.next room engineStep, after⟩)
    requests (initializeBooks symbols) Feed.empty
    ⟨good_initializeBooks symbols, fun sym id => by rw [live_initializeBooks]; rfl⟩
    (guarded_initializeBooks symbols requests few)
  refine ⟨engine, outs, ran, accepted, ?_⟩
  intro sym id
  rw [agrees sym id]
  change ((((engine.ledger sym).record id).map Resting.live).map LiveOrder.feedEntry) = _
  rw [Option.map_map]
  rfl

/-- The feed over the sample day. -/
theorem run_feed_sample : ∃ engine outs,
    run step (initializeBooks [0, 1]) sampleRequests = some (engine, outs) ∧
      Accepted Feed.observe Feed.Accepts Feed.empty sampleRequests outs := by
  obtain ⟨engine, outs, ran, accepted, _⟩ := run_feed [0, 1] sampleRequests (by decide)
  exact ⟨engine, outs, ran, accepted⟩

end MatchingEngine

end Exchange
