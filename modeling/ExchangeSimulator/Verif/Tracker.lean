import ExchangeSimulator.Verif.Journal

/-!
# Private confirmations

A tracker reads each request with the confirmations it gets and keeps the state
of every order id: not seen yet, live in an instrument, or dead. Its live orders
are those resting in the books after every request. Each confirmation is
addressed to the trader who placed the order, finds the order live, and never
takes more shares than are left.
-/

namespace Exchange

open Library

/-- What a tracker knows of an order id. -/
inductive OrderStatus where
  /-- No acknowledgement yet. -/
  | unseen
  /-- Live in the book of an instrument. -/
  | live (symbolId : SymbolId) (order : LiveOrder)
  /-- Filled, cancelled or placed with no shares. -/
  | dead
deriving DecidableEq, Repr

/-- The status of a live or dead order. -/
def OrderStatus.ofLive (symbolId : SymbolId) : Option LiveOrder → OrderStatus
  | none => .dead
  | some order => .live symbolId order

/-- The status that a confirmation of a request leaves its order in. -/
def OrderStatus.next (request : Request) (confirm : OrderConfirm) (status : OrderStatus) :
    OrderStatus :=
  match confirm.type, request, status with
  | .NewAck, .onOrder order, _ =>
    if 0 < order.m_quantity then
      .live order.m_symbolId ⟨order.m_traderId, order.m_side, order.m_price, order.m_quantity⟩
    else .dead
  | .Trade, _, .live symbolId order =>
    if order.remaining - confirm.qty = 0 then .dead
    else .live symbolId { order with remaining := order.remaining - confirm.qty }
  | .ModifyAck, .onModify _ _ _ newPrice newQty, .live symbolId order =>
    .live symbolId { order with price := newPrice, remaining := newQty }
  | .CancelAck, _, _ => .dead
  | _, _, status => status

/-- The status of every order id. -/
abbrev Tracker := OrderId → OrderStatus

namespace Tracker

/-- The tracker that has read nothing. -/
def empty : Tracker := fun _ => .unseen

/-- Read a confirmation of a request. -/
def read (request : Request) (tracker : Tracker) (confirm : OrderConfirm) : Tracker :=
  Function.update tracker confirm.orderId ((tracker confirm.orderId).next request confirm)

/-- An order is live with its owner and at least a number of shares. -/
def Owes (tracker : Tracker) (confirm : OrderConfirm) (qty : Quantity) : Prop :=
  ∃ symbolId order, tracker confirm.orderId = .live symbolId order ∧
    confirm.traderId = order.traderId ∧ qty ≤ order.remaining

/-- A confirmation is in order: an acknowledgement of a new order is about an unseen id and goes
to the requesting trader; a trade, modification or cancel is about a live order and goes to the
trader who placed it; a trade takes no more than is left. -/
def InOrder (tracker : Tracker) (request : Request) (confirm : OrderConfirm) : Prop :=
  match confirm.type with
  | .NewAck => tracker confirm.orderId = .unseen ∧ confirm.traderId = request.traderId
  | .Trade => tracker.Owes confirm confirm.qty
  | .ModifyAck => tracker.Owes confirm 0
  | .CancelAck => tracker.Owes confirm 0
  | .Reject => True

/-- Each confirmation is in order when it is read. -/
def AllInOrder (request : Request) : Tracker → List OrderConfirm → Prop
  | _, [] => True
  | tracker, confirm :: confirms => tracker.InOrder request confirm ∧
    AllInOrder request (tracker.read request confirm) confirms

/-- The tracker after the confirmations of a request. -/
def observe (tracker : Tracker) (request : Request) (out : Outputs) : Tracker :=
  out.confirmsOut.foldl (read request) tracker

/-- The confirmations of a request are in order. -/
def Accepts (tracker : Tracker) (request : Request) (out : Outputs) : Prop :=
  tracker.AllInOrder request out.confirmsOut

/-- The tracker's live orders are the live orders, and no free id has been seen. -/
structure Follows (tracker : Tracker) (live : Live) (free : OrderId → Prop) : Prop where
  /-- An id is live for the tracker exactly when it is in the instrument's book. -/
  lives : ∀ sym id order, tracker id = .live sym order ↔ live sym id = some order
  /-- The ids still to be given out are unseen. -/
  unseen : ∀ id, free id → tracker id = .unseen

/-- Confirmations in order stay so one stretch after the other. -/
theorem AllInOrder.append {request : Request} {tracker : Tracker} {first second : List OrderConfirm}
    (early : tracker.AllInOrder request first)
    (late : AllInOrder request (first.foldl (read request) tracker) second) :
    tracker.AllInOrder request (first ++ second) := by
  induction first generalizing tracker with
  | nil => exact late
  | cons confirm rest ih => exact ⟨early.1, ih early.2 late⟩

section Reading

variable {tracker : Tracker} {live : Live} {free : OrderId → Prop} {symbol : SymbolId}
  {id : OrderId} {order : LiveOrder} {confirm : OrderConfirm}

/-- Fewer free ids are unseen. -/
theorem Follows.mono (follows : tracker.Follows live free) {fewer : OrderId → Prop}
    (less : ∀ id, fewer id → free id) : tracker.Follows live fewer :=
  ⟨follows.lives, fun id isFree => follows.unseen id (less id isFree)⟩

/-- A taken id that is not live elsewhere can change its status with the live orders. -/
theorem Follows.set (follows : tracker.Follows live free) (taken : ¬free id)
    (here : ∀ sym order, tracker id = .live sym order → sym = symbol) (after : Option LiveOrder) :
    Follows (Function.update tracker id (OrderStatus.ofLive symbol after))
      (live.set symbol id after) free := by
  constructor
  · intro sym other order
    rw [Function.update_apply, Live.set_apply]
    by_cases same : other = id
    · subst same
      rw [if_pos rfl]
      by_cases there : sym = symbol
      · subst there
        cases after <;> simp [OrderStatus.ofLive]
      · rw [if_neg fun both => there both.1, ← follows.lives]
        constructor
        · intro status
          cases after with
          | none => contradiction
          | some _ =>
            cases status
            exact absurd rfl there
        · intro status
          exact absurd (here sym order status) there
    · rw [if_neg same, if_neg fun both => same both.2]
      exact follows.lives sym other order
  · intro other isFree
    have apart : other ≠ id := by
      rintro rfl
      exact taken isFree
    rw [Function.update_of_ne apart]
    exact follows.unseen other isFree

/-- The status of a live order. -/
theorem Follows.status (follows : tracker.Follows live free)
    (present : live symbol id = some order) : tracker id = .live symbol order :=
  (follows.lives symbol id order).mpr present

/-- A live order can change its status with the live orders. -/
theorem Follows.setLive (follows : tracker.Follows live free)
    (present : live symbol id = some order) (after : Option LiveOrder) :
    Follows (Function.update tracker id (OrderStatus.ofLive symbol after))
      (live.set symbol id after) free := by
  have status := follows.status present
  apply follows.set
  · intro isFree
    rw [follows.unseen id isFree] at status
    contradiction
  · intro sym other found
    rw [status] at found
    cases found
    rfl

/-- A live order is owed to its owner. -/
theorem Follows.owes (follows : tracker.Follows live free)
    (present : live symbol confirm.orderId = some order)
    (addressed : confirm.traderId = order.traderId) {qty : Quantity}
    (covered : qty ≤ order.remaining) : tracker.Owes confirm qty :=
  ⟨symbol, order, follows.status present, addressed, covered⟩

/-- Reading a trade of a live order. -/
theorem Follows.readTrade (follows : tracker.Follows live free) (request : Request)
    (present : live symbol confirm.orderId = some order) (type : confirm.type = .Trade) :
    (tracker.read request confirm).Follows
      (live.set symbol confirm.orderId (order.trade confirm.qty)) free := by
  have next : (tracker confirm.orderId).next request confirm =
      OrderStatus.ofLive symbol (order.trade confirm.qty) := by
    rw [follows.status present]
    simp only [OrderStatus.next, type, LiveOrder.trade]
    split <;> rfl
  rw [read, next]
  exact follows.setLive present _

/-- Reading a cancel of a live order. -/
theorem Follows.readCancel (follows : tracker.Follows live free) (request : Request)
    (present : live symbol confirm.orderId = some order) (type : confirm.type = .CancelAck) :
    (tracker.read request confirm).Follows (live.set symbol confirm.orderId none) free := by
  have next : (tracker confirm.orderId).next request confirm = OrderStatus.ofLive symbol none := by
    simp only [OrderStatus.next, type, OrderStatus.ofLive]
  rw [read, next]
  exact follows.setLive present _

/-- Reading the modification of a live order. -/
theorem Follows.readModify (follows : tracker.Follows live free)
    (present : live symbol confirm.orderId = some order) (type : confirm.type = .ModifyAck)
    (orderId : OrderId) (symbolId : SymbolId) (traderId : TraderId) (newPrice : Price)
    (newQty : Quantity) :
    (tracker.read (.onModify orderId symbolId traderId newPrice newQty) confirm).Follows
      (live.set symbol confirm.orderId (some (order.modify newPrice newQty))) free := by
  have next : (tracker confirm.orderId).next (.onModify orderId symbolId traderId newPrice newQty)
      confirm = OrderStatus.ofLive symbol (some (order.modify newPrice newQty)) := by
    rw [follows.status present]
    simp only [OrderStatus.next, type, OrderStatus.ofLive, LiveOrder.modify]
  rw [read, next]
  exact follows.setLive present _

/-- Reading the acknowledgement of a new order under a free id. -/
theorem Follows.readNew {request : OrderRequest} (follows : tracker.Follows live free)
    (isFree : free confirm.orderId) (type : confirm.type = .NewAck) :
    (tracker.read (.onOrder request) confirm).Follows
      (live.set request.m_symbolId confirm.orderId
        (LiveOrder.arriving request request.m_quantity))
      (fun id => free id ∧ id ≠ confirm.orderId) := by
  have unseen := follows.unseen _ isFree
  have next : (tracker confirm.orderId).next (.onOrder request) confirm =
      OrderStatus.ofLive request.m_symbolId (LiveOrder.arriving request request.m_quantity) := by
    simp only [OrderStatus.next, type, LiveOrder.arriving]
    by_cases zero : request.m_quantity = 0
    · simp [zero, OrderStatus.ofLive]
    · rw [if_pos (UInt32.pos_iff_ne_zero.mpr zero), if_neg zero]
      rfl
  rw [read, next]
  apply (follows.mono fun id both => both.1).set
  · exact fun both => both.2 rfl
  · intro sym order found
    rw [unseen] at found
    contradiction

/-- Reading a reject changes nothing. -/
theorem read_reject (tracker : Tracker) (request : Request) (type : confirm.type = .Reject) :
    tracker.read request confirm = tracker := by
  have next : (tracker confirm.orderId).next request confirm = tracker confirm.orderId := by
    simp only [OrderStatus.next, type]
  rw [read, next, Function.update_eq_self]

end Reading

/-- The confirmations of an iteration are in order and keep the tracker exact. -/
theorem Follows.fill {tracker : Tracker} {live next : Live} {free : OrderId → Prop}
    {symbol : SymbolId} {incoming : OrderRequest} {out : Outputs}
    (follows : tracker.Follows live free) (fill : Fill symbol incoming live out next)
    (request : Request) : tracker.AllInOrder request out.confirmsOut ∧
      Follows (out.confirmsOut.foldl (read request) tracker) next free := by
  cases fill with
  | @traded id passive remaining qty resting arriving apart _ _ _ covered within =>
    let passiveConfirm : OrderConfirm :=
      ⟨.Trade, id, 0, passive.traderId, symbol, passive.price, qty, .UnknownOrder⟩
    have passiveRead : (tracker.read request passiveConfirm).Follows
        (live.set symbol id (passive.trade qty)) free := follows.readTrade request resting rfl
    have still := (Live.set_of_ne live symbol (passive.trade qty) apart.symm).trans arriving
    exact ⟨⟨follows.owes resting rfl covered, passiveRead.owes still rfl within, trivial⟩,
      passiveRead.readTrade request still rfl⟩
  | selfTraded resting _ _ =>
    exact ⟨⟨follows.owes resting rfl UInt32.zero_le, trivial⟩,
      follows.readCancel request resting rfl⟩

/-- The confirmations of the matcher are in order and keep the tracker exact. -/
theorem Follows.fills {tracker : Tracker} {live last : Live} {free : OrderId → Prop}
    {symbol : SymbolId} {incoming : OrderRequest} {out : Outputs}
    (follows : tracker.Follows live free) (fills : Fills symbol incoming live out last)
    (request : Request) : tracker.AllInOrder request out.confirmsOut ∧
      Follows (out.confirmsOut.foldl (read request) tracker) last free := by
  induction fills generalizing tracker with
  | done => exact ⟨trivial, follows⟩
  | step first _ ih =>
    obtain ⟨early, between⟩ := follows.fill first request
    obtain ⟨late, after⟩ := ih between
    refine ⟨early.append late, ?_⟩
    rw [Outputs.append, List.foldl_append]
    exact after

/-- The confirmations of a request are in order and keep the tracker exact. -/
theorem Follows.entry {tracker : Tracker} {live next : Live} {free : OrderId → Prop}
    {request : Request} {new : OrderId} {out : Outputs} (follows : tracker.Follows live free)
    (isFree : free new) (entry : Entry request.symbolId live (request.onBook new) out next) :
    tracker.AllInOrder request out.confirmsOut ∧
      Follows (out.confirmsOut.foldl (read request) tracker) next
        (fun id => free id ∧ (request.ids = 1 → id ≠ new)) := by
  have rejected (symbol : SymbolId) (id : OrderId) (traderId : TraderId) :
      tracker.AllInOrder request (OrderBook.rejectOutputs symbol id traderId).confirmsOut ∧
        Follows ((OrderBook.rejectOutputs symbol id traderId).confirmsOut.foldl (read request)
          tracker) live (fun id => free id ∧ (request.ids = 1 → id ≠ new)) := by
    refine ⟨⟨trivial, trivial⟩, ?_⟩
    simp only [OrderBook.rejectOutputs, List.foldl_cons, List.foldl_nil]
    rw [read_reject tracker request rfl]
    exact follows.mono fun id both => both.1
  cases request with
  | onOrder order =>
    cases entry with
    | placed missing fills =>
      let accepted : OrderConfirm :=
        ⟨.NewAck, new, order.m_clientOrderId, order.m_traderId, order.m_symbolId, 0, 0,
          .UnknownOrder⟩
      have acceptedRead : (tracker.read (.onOrder order) accepted).Follows
          (live.set order.m_symbolId new (LiveOrder.arriving order order.m_quantity))
          (fun id => free id ∧ id ≠ new) := follows.readNew isFree rfl
      obtain ⟨late, after⟩ := acceptedRead.fills fills (.onOrder order)
      refine ⟨⟨⟨follows.unseen new isFree, rfl⟩, late⟩, ?_⟩
      exact after.mono fun id both => ⟨both.1, both.2 rfl⟩
    | rejected => exact rejected _ _ _
  | onCancel id symbolId traderId =>
    cases entry with
    | cancelled resting own =>
      refine ⟨⟨follows.owes resting own.symm UInt32.zero_le, trivial⟩, ?_⟩
      exact (follows.readCancel _ resting rfl).mono fun id both => both.1
    | rejected => exact rejected _ _ _
  | onModify id symbolId traderId newPrice newQty =>
    cases entry with
    | modified resting own =>
      refine ⟨⟨follows.owes resting own.symm UInt32.zero_le, trivial⟩, ?_⟩
      exact (follows.readModify resting rfl _ _ _ _ _).mono fun id both => both.1
    | rejected => exact rejected _ _ _

end Tracker

namespace MatchingEngine

/-- The ids that an engine has not given out. -/
def Unissued (engine : MatchingEngine) (id : OrderId) : Prop :=
  engine.nextOrderId.toNat ≤ id.toNat

/-- After a request, the ids not given out are those of before but the one just taken. -/
theorem Unissued.before {engine next : MatchingEngine} {request : Request} {out : Outputs}
    (room : engine.Room request) (step : EngineStep engine request out next) {id : OrderId}
    (unissued : next.Unissued id) :
    engine.Unissued id ∧ (request.ids = 1 → id ≠ engine.nextOrderId) := by
  have counter := step.counter room
  simp only [Unissued] at *
  constructor
  · omega
  · rintro one rfl
    omega

end MatchingEngine

namespace Tracker

/-- The confirmations of a request to the engine are in order. -/
theorem Follows.inOrder {tracker : Tracker} {engine next : MatchingEngine} {request : Request}
    {out : Outputs} (follows : tracker.Follows engine.live engine.Unissued)
    (step : MatchingEngine.EngineStep engine request out next) :
    tracker.AllInOrder request out.confirmsOut := by
  rcases step.entry with ⟨silent, _⟩ | entry
  · rw [silent]
    trivial
  · exact (follows.entry (Nat.le_refl _) entry).1

/-- A request to the engine keeps the tracker exact. -/
theorem Follows.engineStep {tracker : Tracker} {engine next : MatchingEngine} {request : Request}
    {out : Outputs} (follows : tracker.Follows engine.live engine.Unissued)
    (room : engine.Room request) (step : MatchingEngine.EngineStep engine request out next) :
    Follows (out.confirmsOut.foldl (read request) tracker) next.live next.Unissued := by
  have before (id : OrderId) (unissued : next.Unissued id) := unissued.before room step
  rcases step.entry with ⟨silent, same⟩ | entry
  · rw [silent, same]
    exact follows.mono fun id unissued => (before id unissued).1
  · exact (follows.entry (Nat.le_refl _) entry).2.mono before

/-- The empty tracker follows a fresh engine. -/
theorem follows_initializeBooks (symbols : List SymbolId) :
    empty.Follows (MatchingEngine.initializeBooks symbols).live
      (MatchingEngine.initializeBooks symbols).Unissued where
  lives := by
    intro sym id order
    rw [MatchingEngine.live_initializeBooks]
    simp [empty]
  unseen := fun _ _ => rfl

end Tracker

namespace MatchingEngine

/-- Over every run with fewer than 2⁶⁴ − 1 new orders, each confirmation is in order for a tracker
that reads requests and confirmations, and the tracker's live orders end up as the resting orders
of all books. -/
theorem run_tracked (symbols : List SymbolId) (requests : List Request)
    (few : orderCount requests < 2 ^ 64 - 1) :
    ∃ engine outs, run step (initializeBooks symbols) requests = some (engine, outs) ∧
      Accepted Tracker.observe Tracker.Accepts Tracker.empty requests outs ∧
      ∀ sym id order, replay Tracker.observe Tracker.empty requests outs id = .live sym order ↔
        ((engine.ledger sym).record id).map Resting.live = some order := by
  obtain ⟨engine, outs, ran, accepted, _, follows⟩ := run_observed Tracker.observe Tracker.Accepts
    (fun engine tracker => engine.Good ∧ tracker.Follows engine.live engine.Unissued)
    (fun engine tracker request related room => by
      obtain ⟨good, follows⟩ := related
      obtain ⟨next, out, ran, engineStep⟩ := good.steps request
      exact ⟨next, out, ran, follows.inOrder engineStep, good.next room engineStep,
        follows.engineStep room engineStep⟩)
    requests (initializeBooks symbols) Tracker.empty
    ⟨good_initializeBooks symbols, Tracker.follows_initializeBooks symbols⟩
    (guarded_initializeBooks symbols requests few)
  exact ⟨engine, outs, ran, accepted, follows.lives⟩

/-- The tracker over the sample day. -/
theorem run_tracked_sample : ∃ engine outs,
    run step (initializeBooks [0, 1]) sampleRequests = some (engine, outs) ∧
      Accepted Tracker.observe Tracker.Accepts Tracker.empty sampleRequests outs := by
  obtain ⟨engine, outs, ran, accepted, _⟩ := run_tracked [0, 1] sampleRequests (by decide)
  exact ⟨engine, outs, ran, accepted⟩

end MatchingEngine

end Exchange
