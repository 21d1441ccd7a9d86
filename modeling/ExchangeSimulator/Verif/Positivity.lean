import ExchangeSimulator.Verif.Operations

/-!
# Positive quantities

A new order rests only with shares left, and a partial fill leaves some. So
every resting quantity and every traded quantity is positive, unless a
modification writes a quantity of zero: it is accepted and the order stays in
its queue. A run keeps all quantities positive exactly when no accepted
modification asks for zero shares.
-/

namespace Exchange

open Library

/-- The trades a call reports, to traders and to the public, move at least one share. -/
def Outputs.TradesPositive (out : Outputs) : Prop :=
  (∀ confirm ∈ out.confirmsOut, confirm.type = .Trade → 0 < confirm.qty) ∧
    ∀ update ∈ out.mdOut, update.updateType = .Trade → 0 < update.qty

instance (out : Outputs) : Decidable out.TradesPositive :=
  inferInstanceAs (Decidable ((∀ confirm ∈ out.confirmsOut, confirm.type = .Trade →
    0 < confirm.qty) ∧ ∀ update ∈ out.mdOut, update.updateType = .Trade → 0 < update.qty))

/-- Emissions in order trade positive quantities when both do. -/
theorem Outputs.TradesPositive.append {first second : Outputs} (before : first.TradesPositive)
    (after : second.TradesPositive) : (first.append second).TradesPositive := by
  constructor
  · intro confirm member
    rcases List.mem_append.mp member with early | late
    · exact before.1 confirm early
    · exact after.1 confirm late
  · intro update member
    rcases List.mem_append.mp member with early | late
    · exact before.2 update early
    · exact after.2 update late

namespace Ledger

/-- Every resting order has shares left. -/
def Positive (ledger : Ledger) : Prop := ledger.Each fun order => 0 < order.quantity

/-- A fill moves at least one share. -/
def MatchEvent.Executes : MatchEvent → Prop
  | .selfTrade _ _ => True
  | .fill _ _ qty => 0 < qty

/-- A positive fill reports positive trades. -/
theorem MatchEvent.tradesPositive {event : MatchEvent} (executes : event.Executes)
    (symbol : SymbolId) (side : BookSide) (incoming : OrderRequest) :
    (event.outputs symbol side incoming).TradesPositive := by
  cases event with
  | selfTrade price passive =>
    simp [Outputs.TradesPositive, outputs, OrderBook.selfTradeOutputs]
  | fill price passive qty =>
    have positive : 0 < qty := executes
    simp [Outputs.TradesPositive, outputs, OrderBook.tradeOutputs, positive]

/-- A trace of positive fills reports positive trades. -/
theorem tradesPositive_outputsOf {symbol : SymbolId} {side : BookSide} {incoming : OrderRequest}
    {events : List MatchEvent} (executes : ∀ event ∈ events, event.Executes) :
    (outputsOf symbol side incoming events).TradesPositive := by
  induction events with
  | nil => simp [Outputs.TradesPositive, outputsOf, Outputs.none]
  | cons event events ih =>
    have first := MatchEvent.tradesPositive (executes event List.mem_cons_self) symbol side incoming
    have later := ih fun other member => executes other (List.mem_cons_of_mem event member)
    exact first.append later

/-- An iteration keeps quantities positive and trades a positive one. -/
theorem MatchStep.positive {side : BookSide} {incoming : OrderRequest} {ledger next : Ledger}
    {remaining after : Quantity} {event : MatchEvent}
    (step : MatchStep side incoming ledger remaining event next after)
    (positive : ledger.Positive) : next.Positive ∧ event.Executes := by
  cases step with
  | selfTrade => exact ⟨Each.drop positive _ _ _, trivial⟩
  | full _ front _ _ _ => exact ⟨Each.drop positive _ _ _, positive _ _ front.recorded⟩
  | @partly _ id order enough front _ _ short =>
    refine ⟨?_, enough⟩
    apply (Each.iff_of_record positive fun other =>
      record_reduce ledger id other remaining order).mpr
    exact UInt32.pos_iff_ne_zero.mpr (sub_ne_zero_of_lt short)

/-- An accepted modification asks for at least one share. -/
def ModifiesPositive (ledger : Ledger) : BookRequest → Prop
  | .modify id traderId _ newQty => ∀ order ∈ ledger.record id, order.traderId = traderId →
      0 < newQty
  | _ => True

/-- A call keeps quantities positive exactly when it does not modify one to zero. -/
theorem LedgerStep.positive_iff {symbol : SymbolId} {ledger next : Ledger}
    {request : BookRequest} {out : Outputs} (step : LedgerStep symbol ledger request out next)
    (positive : ledger.Positive) :
    next.Positive ∧ out.TradesPositive ↔ ledger.ModifiesPositive request := by
  have swept {side : BookSide} {incoming : OrderRequest} {last : Ledger} {final : Quantity}
      {events : List MatchEvent}
      (sweep : Sweep side incoming ledger incoming.m_quantity events last final) :
      last.Positive ∧ ((OrderBook.acceptedOutputs symbol incoming).append
        (outputsOf symbol side incoming events)).TradesPositive := by
    have executes := sweep.events (fun ledger _ => ledger.Positive) MatchEvent.Executes
      (fun step positive => step.positive positive) positive
    have kept := sweep.invariant (fun ledger _ => ledger.Positive)
      (fun step positive => (step.positive positive).1) positive
    refine ⟨kept, Outputs.TradesPositive.append ?_ (tradesPositive_outputsOf executes)⟩
    simp [Outputs.TradesPositive, OrderBook.acceptedOutputs]
  have rejected {id : OrderId} {traderId : TraderId} :
      (OrderBook.rejectOutputs symbol id traderId).TradesPositive := by
    simp [Outputs.TradesPositive, OrderBook.rejectOutputs]
  have modified {id : OrderId} {traderId : TraderId} {asked : Side} {newPrice : Price}
      {newQty : Quantity} :
      (OrderBook.modifyOutputs symbol id traderId asked newPrice newQty).TradesPositive := by
    simp [Outputs.TradesPositive, OrderBook.modifyOutputs]
  cases step with
  | filled sweep => exact iff_of_true (swept sweep) trivial
  | @rested incoming _ last remaining sweep left _ =>
    refine iff_of_true ⟨?_, (swept sweep).2⟩ trivial
    exact (Each.iff_of_record (swept sweep).1 fun other =>
      record_rest last incoming.m_orderId other (Resting.ofRequest incoming remaining)).mpr left
  | cancelled =>
    refine iff_of_true ⟨Each.drop positive _ _ _, ?_⟩ trivial
    simp [Outputs.TradesPositive, OrderBook.cancelOutputs]
  | cancelRejected => exact iff_of_true ⟨positive, rejected⟩ trivial
  | @rewritten id traderId newPrice newQty order recorded own _ _ =>
    have after := Each.iff_of_record positive fun other =>
      record_rewrite ledger id other (order.modify newPrice newQty)
    rw [and_iff_left modified, Positive, after]
    simp [ModifiesPositive, recorded, own, Resting.modify]
  | @requeued id traderId newPrice newQty order recorded own _ =>
    have after := Each.iff_of_record (Each.drop positive order.slot id order.quantity)
      fun other => record_rest (ledger.drop order.slot id order.quantity) id other
        (order.modify newPrice newQty)
    rw [and_iff_left modified, Positive, requeue, after]
    simp [ModifiesPositive, recorded, own, Resting.modify]
  | modifyRejected foreign =>
    refine iff_of_true ⟨positive, rejected⟩ ?_
    intro order recorded own
    exact absurd own (foreign order recorded)

end Ledger

namespace OrderBook

/-- Every element queued in a level has shares left. -/
def Positive (book : OrderBook) : Prop :=
  ∀ level ∈ book.levels, ∀ elem ∈ level.mOrders, ∃ element ∈ book.heap.read elem,
    0 < element.m_quantity

instance (book : OrderBook) : Decidable book.Positive :=
  inferInstanceAs (Decidable (∀ level ∈ book.levels, ∀ elem ∈ level.mOrders,
    ∃ element ∈ book.heap.read elem, 0 < element.m_quantity))

/-- The quantities of a good book are positive exactly when those of its ledger are. -/
theorem Good.positive_iff {book : OrderBook} (good : book.Good) :
    book.Positive ↔ book.ledger.Positive := by
  constructor
  · intro positive id order recorded
    obtain ⟨elem, mapped⟩ := good.sound.mapped_of_resting recorded
    obtain ⟨level, present, member⟩ := good.queued mapped recorded
    obtain ⟨element, read, left⟩ :=
      positive level (mem_levels.mpr ⟨_, _, present⟩) elem member
    obtain ⟨found, detail, foundRead, _, _, resting⟩ := good.sound.parts mapped
    rw [show book.ledger.record id = _ from resting] at recorded
    cases recorded
    rw [Option.mem_def, foundRead] at read
    cases read
    exact left
  · intro positive level present elem member
    obtain ⟨side, price, found⟩ := mem_levels.mp present
    rw [← queueAt_of_level found] at member
    obtain ⟨element, order, read, resting, same⟩ := good.sound.queued_resting member
    refine ⟨element, read, ?_⟩
    rw [← same]
    exact positive element.m_id order resting

/-- An accepted modification asks for at least one share. -/
def ModifiesPositive (book : OrderBook) (request : BookRequest) : Prop :=
  book.ledger.ModifiesPositive request

instance (book : OrderBook) (request : BookRequest) : Decidable (book.ModifiesPositive request) :=
  match request with
  | .add _ => inferInstanceAs (Decidable True)
  | .cancel _ _ => inferInstanceAs (Decidable True)
  | .modify id traderId _ newQty => inferInstanceAs (Decidable (∀ order ∈ book.resting id,
      order.traderId = traderId → 0 < newQty))

/-- A run of fresh calls from an empty book returns. Its resting and traded quantities are
all positive exactly when no accepted modification asks for zero shares. -/
theorem run_positive_iff (sym : SymbolId) (requests : List BookRequest)
    (fresh : Guarded OrderBook.step OrderBook.Fresh (OrderBook.new sym) requests) :
    (∃ last outs, run OrderBook.step (OrderBook.new sym) requests = some (last, outs)) ∧
      (Always OrderBook.step Positive Outputs.TradesPositive (OrderBook.new sym) requests ↔
        Guarded OrderBook.step ModifiesPositive (OrderBook.new sym) requests) := by
  refine always_iff ?_ sym ?_ requests fresh
  · intro book request out next good nextGood positive _ step
    rw [nextGood.positive_iff]
    exact step.positive_iff (good.positive_iff.mp positive)
  · intro level present
    contradiction

/-- A run with a partial fill and a modification to one share. -/
theorem run_positive_iff_one_share :
    Always OrderBook.step Positive Outputs.TradesPositive (OrderBook.new 0)
      [place 1 1 Side.Buy 100 5, place 2 2 Side.Sell 100 3, .modify 1 1 100 1,
        place 3 2 Side.Sell 100 3] :=
  (run_positive_iff 0 [place 1 1 Side.Buy 100 5, place 2 2 Side.Sell 100 3, .modify 1 1 100 1,
    place 3 2 Side.Sell 100 3] (by decide)).2.mpr (by decide)

/-- An order modified to zero shares rests with none, and the next opposite order trades zero
shares with it. -/
theorem positive_fails_on_modify :
    Guarded OrderBook.step OrderBook.Fresh (OrderBook.new 0)
      [place 1 1 Side.Buy 100 5, .modify 1 1 100 0, place 2 2 Side.Sell 100 3] ∧
    ¬Always OrderBook.step Positive (fun _ => True) (OrderBook.new 0)
      [place 1 1 Side.Buy 100 5, .modify 1 1 100 0, place 2 2 Side.Sell 100 3] ∧
    ¬Always OrderBook.step (fun _ => True) Outputs.TradesPositive (OrderBook.new 0)
      [place 1 1 Side.Buy 100 5, .modify 1 1 100 0, place 2 2 Side.Sell 100 3] := by
  decide

end OrderBook

end Exchange
