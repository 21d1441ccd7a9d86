import ExchangeSimulator.Verif.Tracker

/-!
# Executions

The trade confirmations of a request come in pairs, the resting order first and
the incoming order second. With what a tracker knows when it reads a pair, the
two orders are live on opposite sides for different traders, the price is the
resting order's limit and no worse than the incoming order's, and neither order
trades more than it has left. One order of a pair buys what the other sells, so
over every run each instrument's bought and sold volumes are equal.
-/

namespace Exchange

open Library

/-- A price is not worse than a limit for an order of a side. -/
def BookSide.NotWorse : BookSide → Price → Price → Prop
  | .Buy, price, limit => price ≤ limit
  | .Sell, price, limit => limit ≤ price

/-- A pair of trade confirmations executes a resting order against an incoming one. -/
structure LegalPair (tracker : Tracker) (aggressor : OrderId) (first second : OrderConfirm)
    (passive incoming : LiveOrder) : Prop where
  /-- Both confirm a trade. -/
  trades : first.type = .Trade ∧ second.type = .Trade
  /-- The second one is about the order the request placed. -/
  placed : second.orderId = aggressor
  /-- Both report the same instrument, price and quantity. -/
  same : second.symbolId = first.symbolId ∧ second.price = first.price ∧ second.qty = first.qty
  /-- The first one is about a live order of the instrument. -/
  passiveLive : tracker first.orderId = .live first.symbolId passive
  /-- The second one is about a live order of the instrument. -/
  incomingLive : tracker second.orderId = .live first.symbolId incoming
  /-- Each is addressed to the owner of its order. -/
  addressed : first.traderId = passive.traderId ∧ second.traderId = incoming.traderId
  /-- The traders are different. -/
  traders : passive.traderId ≠ incoming.traderId
  /-- The sides are opposite. -/
  sides : incoming.side.book = passive.side.book.opposite
  /-- The price is the last accepted limit of the resting order. -/
  price : first.price = passive.price
  /-- The price is not worse than the limit of the incoming order. -/
  limit : incoming.side.book.NotWorse first.price incoming.price
  /-- Neither order trades more than it has left. -/
  covered : first.qty ≤ passive.remaining ∧ first.qty ≤ incoming.remaining

/-- The trade confirmations among these come in legal pairs. `aggressor` is the order the request
has placed, once its acknowledgement has been read. -/
inductive LegalFills (request : Request) : Tracker → Option OrderId → List OrderConfirm → Prop where
  | done (tracker : Tracker) (aggressor : Option OrderId) : LegalFills request tracker aggressor []
  | accepted {tracker : Tracker} {aggressor : Option OrderId} {confirm : OrderConfirm}
      {later : List OrderConfirm} (type : confirm.type = .NewAck)
      (rest : LegalFills request (tracker.read request confirm) (some confirm.orderId) later) :
      LegalFills request tracker aggressor (confirm :: later)
  | other {tracker : Tracker} {aggressor : Option OrderId} {confirm : OrderConfirm}
      {later : List OrderConfirm} (type : confirm.type ≠ .NewAck ∧ confirm.type ≠ .Trade)
      (rest : LegalFills request (tracker.read request confirm) aggressor later) :
      LegalFills request tracker aggressor (confirm :: later)
  | pair {tracker : Tracker} {aggressor : OrderId} {first second : OrderConfirm}
      {later : List OrderConfirm} {passive incoming : LiveOrder}
      (legal : LegalPair tracker aggressor first second passive incoming)
      (rest : LegalFills request ((tracker.read request first).read request second)
        (some aggressor) later) :
      LegalFills request tracker (some aggressor) (first :: second :: later)

/-- The side of a live order. -/
def Tracker.sideOf (tracker : Tracker) (id : OrderId) : Option BookSide :=
  match tracker id with
  | .live _ order => some order.side.book
  | _ => none

/-- A volume with a trade confirmation added, if it is one on the given side. -/
def countTrade (tracker : Tracker) (side : BookSide) (confirm : OrderConfirm)
    (volume : SymbolId → Nat) : SymbolId → Nat :=
  if confirm.type = .Trade ∧ tracker.sideOf confirm.orderId = some side then
    Function.update volume confirm.symbolId (volume confirm.symbolId + confirm.qty.toNat)
  else volume

/-- A trade confirmation adds its quantity to the volume of its side and instrument. -/
theorem countTrade_apply {tracker : Tracker} {confirm : OrderConfirm} {other : BookSide}
    (trade : confirm.type = .Trade) (onSide : tracker.sideOf confirm.orderId = some other)
    (side : BookSide) (volume : SymbolId → Nat) (sym : SymbolId) :
    countTrade tracker side confirm volume sym =
      volume sym + if other = side ∧ sym = confirm.symbolId then confirm.qty.toNat else 0 := by
  simp only [countTrade, trade, onSide, true_and, Option.some.injEq]
  by_cases counted : other = side
  · rw [if_pos counted, Function.update_apply]
    by_cases here : sym = confirm.symbolId
    · rw [if_pos here, if_pos ⟨counted, here⟩, here]
    · rw [if_neg here, if_neg fun both => here both.2, Nat.add_zero]
  · rw [if_neg counted, if_neg fun both => counted both.1, Nat.add_zero]

/-- A tracker with the traded volumes of every instrument. -/
structure Tape where
  /-- The orders. -/
  tracker : Tracker
  /-- Shares bought. -/
  bought : SymbolId → Nat
  /-- Shares sold. -/
  sold : SymbolId → Nat

namespace Tape

/-- The tape at the start. -/
def empty : Tape := ⟨Tracker.empty, fun _ => 0, fun _ => 0⟩

/-- Read a confirmation of a request. -/
def read (request : Request) (tape : Tape) (confirm : OrderConfirm) : Tape where
  tracker := tape.tracker.read request confirm
  bought := countTrade tape.tracker .Buy confirm tape.bought
  sold := countTrade tape.tracker .Sell confirm tape.sold

/-- The tape after the confirmations of a request. -/
def observe (tape : Tape) (request : Request) (out : Outputs) : Tape :=
  out.confirmsOut.foldl (read request) tape

/-- The trades of a request come in legal pairs. -/
def Accepts (tape : Tape) (request : Request) (out : Outputs) : Prop :=
  LegalFills request tape.tracker none out.confirmsOut

/-- What was bought was sold. -/
def Balanced (tape : Tape) : Prop := ∀ sym, tape.bought sym = tape.sold sym

/-- The tracker of a tape reads on its own. -/
theorem tracker_foldl (request : Request) (confirms : List OrderConfirm) (tape : Tape) :
    (confirms.foldl (read request) tape).tracker =
      confirms.foldl (Tracker.read request) tape.tracker := by
  induction confirms generalizing tape with
  | nil => rfl
  | cons confirm rest ih => exact ih (tape.read request confirm)

/-- A confirmation other than a trade moves no volume. -/
theorem Balanced.other {tape : Tape} (balanced : tape.Balanced) (request : Request)
    {confirm : OrderConfirm} (type : confirm.type ≠ .Trade) :
    (tape.read request confirm).Balanced := by
  intro sym
  simp only [read, countTrade, type, false_and, if_false]
  exact balanced sym

/-- A legal pair adds the same to both volumes. -/
theorem Balanced.pair {tape : Tape} (balanced : tape.Balanced) (request : Request)
    {aggressor : OrderId} {first second : OrderConfirm} {passive incoming : LiveOrder}
    (legal : LegalPair tape.tracker aggressor first second passive incoming)
    (apart : second.orderId ≠ first.orderId) :
    ((tape.read request first).read request second).Balanced := by
  have passiveSide : tape.tracker.sideOf first.orderId = some passive.side.book := by
    simp only [Tracker.sideOf, legal.passiveLive]
  have incomingSide : (tape.tracker.read request first).sideOf second.orderId =
      some passive.side.book.opposite := by
    simp only [Tracker.sideOf, Tracker.read, Function.update_of_ne apart, legal.incomingLive,
      legal.sides]
  obtain ⟨symbols, _, quantities⟩ := legal.same
  intro sym
  have before := balanced sym
  simp only [read, countTrade_apply legal.trades.2 incomingSide,
    countTrade_apply legal.trades.1 passiveSide, symbols, quantities]
  cases passive.side.book with
  | Buy =>
    simp only [BookSide.opposite, true_and, reduceCtorEq, false_and, if_false]
    omega
  | Sell =>
    simp only [BookSide.opposite, true_and, reduceCtorEq, false_and, if_false]
    omega

/-- The pair of an iteration is legal for a tracker that follows the live orders. -/
theorem legalPair_of_traded {tracker : Tracker} {live : Live} {free : OrderId → Prop}
    {symbol : SymbolId} {incoming : OrderRequest} {id : OrderId} {passive : LiveOrder}
    {remaining qty : Quantity} (follows : tracker.Follows live free)
    (resting : live symbol id = some passive)
    (arriving : live symbol incoming.m_orderId = some (.ofRequest incoming remaining))
    (foreign : passive.traderId ≠ incoming.m_traderId)
    (opposite : passive.side.book = incoming.m_side.book.opposite)
    (crosses : OrderBook.canTrade incoming.m_side.book.opposite passive.price
      incoming.m_price = true)
    (covered : qty ≤ passive.remaining) (within : qty ≤ remaining) :
    LegalPair tracker incoming.m_orderId
      ⟨.Trade, id, 0, passive.traderId, symbol, passive.price, qty, .UnknownOrder⟩
      ⟨.Trade, incoming.m_orderId, incoming.m_clientOrderId, incoming.m_traderId, symbol,
        passive.price, qty, .UnknownOrder⟩
      passive (.ofRequest incoming remaining) where
  trades := ⟨rfl, rfl⟩
  placed := rfl
  same := ⟨rfl, rfl, rfl⟩
  passiveLive := follows.status resting
  incomingLive := follows.status arriving
  addressed := ⟨rfl, rfl⟩
  traders := foreign
  sides := by
    rw [opposite, BookSide.opposite_opposite]
    rfl
  price := rfl
  limit := by
    simp only [LiveOrder.ofRequest]
    cases side : incoming.m_side.book with
    | Buy => simpa [side, BookSide.opposite, OrderBook.canTrade, BookSide.NotWorse] using crosses
    | Sell => simpa [side, BookSide.opposite, OrderBook.canTrade, BookSide.NotWorse] using crosses
  covered := ⟨covered, within⟩

/-- The trades of the matcher come in legal pairs, and they move both volumes alike. -/
theorem Balanced.fills {tape : Tape} {live last : Live} {free : OrderId → Prop}
    {symbol : SymbolId} {incoming : OrderRequest} {out : Outputs} (balanced : tape.Balanced)
    (follows : tape.tracker.Follows live free) (fills : Fills symbol incoming live out last)
    (request : Request) :
    LegalFills request tape.tracker (some incoming.m_orderId) out.confirmsOut ∧
      Balanced (out.confirmsOut.foldl (read request) tape) := by
  induction fills generalizing tape with
  | done => exact ⟨LegalFills.done _ _, balanced⟩
  | step first _ ih =>
    have between := (follows.fill first request).2
    cases first with
    | traded resting arriving apart foreign opposite crosses covered within =>
      have legal := legalPair_of_traded follows resting arriving foreign opposite crosses covered
        within
      obtain ⟨legalRest, balancedRest⟩ := ih (balanced.pair request legal apart.symm) between
      exact ⟨LegalFills.pair legal legalRest, balancedRest⟩
    | @selfTraded id passive resting _ _ =>
      let cancelled : OrderConfirm :=
        ⟨.CancelAck, id, 0, passive.traderId, symbol, 0, passive.remaining, .SelfTrade⟩
      have kept : (tape.read request cancelled).Balanced := balanced.other request nofun
      obtain ⟨legalRest, balancedRest⟩ := ih kept between
      refine ⟨LegalFills.other ?_ legalRest, balancedRest⟩
      exact ⟨nofun, nofun⟩

/-- The trades of a request come in legal pairs, and they move both volumes alike. -/
theorem Balanced.entry {tape : Tape} {live next : Live} {free : OrderId → Prop}
    {request : Request} {new : OrderId} {out : Outputs} (balanced : tape.Balanced)
    (follows : tape.tracker.Follows live free) (isFree : free new)
    (entry : Entry request.symbolId live (request.onBook new) out next) :
    LegalFills request tape.tracker none out.confirmsOut ∧
      Balanced (out.confirmsOut.foldl (read request) tape) := by
  have single {confirm : OrderConfirm} (type : confirm.type ≠ .NewAck ∧ confirm.type ≠ .Trade) :
      LegalFills request tape.tracker none [confirm] ∧
        Balanced ([confirm].foldl (read request) tape) :=
    ⟨LegalFills.other type (LegalFills.done _ _), balanced.other request type.2⟩
  cases request with
  | onOrder order =>
    cases entry with
    | placed missing fills =>
      let accepted : OrderConfirm :=
        ⟨.NewAck, new, order.m_clientOrderId, order.m_traderId, order.m_symbolId, 0, 0,
          .UnknownOrder⟩
      have acceptedRead : (tape.read (.onOrder order) accepted).tracker.Follows
          (live.set order.m_symbolId new (LiveOrder.arriving order order.m_quantity))
          (fun id => free id ∧ id ≠ new) := follows.readNew isFree rfl
      have kept : (tape.read (.onOrder order) accepted).Balanced :=
        balanced.other _ nofun
      obtain ⟨legalRest, balancedRest⟩ := kept.fills acceptedRead fills (.onOrder order)
      exact ⟨LegalFills.accepted rfl legalRest, balancedRest⟩
    | rejected => exact single ⟨nofun, nofun⟩
  | onCancel id symbolId traderId =>
    cases entry with
    | cancelled => exact single ⟨nofun, nofun⟩
    | rejected => exact single ⟨nofun, nofun⟩
  | onModify id symbolId traderId newPrice newQty =>
    cases entry with
    | modified => exact single ⟨nofun, nofun⟩
    | rejected => exact single ⟨nofun, nofun⟩

end Tape

namespace MatchingEngine

/-- Over every run with fewer than 2⁶⁴ − 1 new orders, the trades of each request come in legal
pairs, and in every instrument as much was bought as sold. -/
theorem run_executions (symbols : List SymbolId) (requests : List Request)
    (few : orderCount requests < 2 ^ 64 - 1) :
    ∃ engine outs, run step (initializeBooks symbols) requests = some (engine, outs) ∧
      Accepted Tape.observe Tape.Accepts Tape.empty requests outs ∧
      ∀ sym, (replay Tape.observe Tape.empty requests outs).bought sym =
        (replay Tape.observe Tape.empty requests outs).sold sym := by
  have start : Tape.empty.tracker.Follows (initializeBooks symbols).live
      (initializeBooks symbols).Unissued := Tracker.follows_initializeBooks symbols
  obtain ⟨engine, outs, ran, accepted, _, _, balanced⟩ := run_observed Tape.observe Tape.Accepts
    (fun engine tape => engine.Good ∧ tape.tracker.Follows engine.live engine.Unissued ∧
      tape.Balanced)
    (fun engine tape request related room => by
      obtain ⟨good, follows, balanced⟩ := related
      obtain ⟨next, out, ran, engineStep⟩ := good.steps request
      refine ⟨next, out, ran, ?_⟩
      have after := follows.engineStep room engineStep
      rw [← Tape.tracker_foldl] at after
      rcases engineStep.entry with ⟨silent, _⟩ | entry
      · subst silent
        exact ⟨LegalFills.done _ _, good.next room engineStep, after, balanced⟩
      · obtain ⟨legal, kept⟩ := balanced.entry follows (Nat.le_refl _) entry
        exact ⟨legal, good.next room engineStep, after, kept⟩)
    requests (initializeBooks symbols) Tape.empty
    ⟨good_initializeBooks symbols, start, fun _ => rfl⟩
    (guarded_initializeBooks symbols requests few)
  exact ⟨engine, outs, ran, accepted, balanced⟩

/-- The executions of the sample day. -/
theorem run_executions_sample : ∃ engine outs,
    run step (initializeBooks [0, 1]) sampleRequests = some (engine, outs) ∧
      Accepted Tape.observe Tape.Accepts Tape.empty sampleRequests outs := by
  obtain ⟨engine, outs, ran, accepted, _⟩ := run_executions [0, 1] sampleRequests (by decide)
  exact ⟨engine, outs, ran, accepted⟩

end MatchingEngine

end Exchange
