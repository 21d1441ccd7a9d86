import ExchangeSimulator.Verif.Engine

/-!
# Replies

The book of an instrument answers each request once: a new order with its
acknowledgement, a cancel or a modification with its acknowledgement when the
id rests in the book and belongs to the requesting trader, and with a reject
otherwise. Trades and self-trade cancels come on top and answer nothing. An
instrument without a book answers nothing at all, so a request is answered
exactly when its instrument has a book.
-/

namespace Exchange

open Library

/-- A confirmation that answers a new order: an acknowledgement or a reject. -/
def OrderConfirm.AnswersOrder (confirm : OrderConfirm) : Prop :=
  confirm.type = .NewAck ∨ confirm.type = .Reject

instance : DecidablePred OrderConfirm.AnswersOrder := fun confirm =>
  inferInstanceAs (Decidable (confirm.type = .NewAck ∨ confirm.type = .Reject))

namespace MatchingEngine

/-- The owner of an order that rests in the book of an instrument. -/
def owner (engine : MatchingEngine) (sym : SymbolId) (id : OrderId) : Option TraderId :=
  ((engine.ledger sym).record id).map Resting.traderId

/-- The request is answered exactly once, to the requesting trader. -/
def Answered (engine : MatchingEngine) (out : Outputs) : Request → Prop
  | .onOrder order => ∃ reply,
      out.confirmsOut.filter (fun confirm => confirm.AnswersOrder) = [reply] ∧
      reply.traderId = order.m_traderId ∧ (reply.type = .NewAck →
        reply.clientOrderId = order.m_clientOrderId ∧ reply.orderId = engine.nextOrderId)
  | .onCancel orderId symbolId traderId => ∃ reply, out.confirmsOut = [reply] ∧
      reply.traderId = traderId ∧ reply.orderId = orderId ∧
      reply.type = if engine.owner symbolId orderId = some traderId then .CancelAck else .Reject
  | .onModify orderId symbolId traderId _ _ => ∃ reply, out.confirmsOut = [reply] ∧
      reply.traderId = traderId ∧ reply.orderId = orderId ∧
      reply.type = if engine.owner symbolId orderId = some traderId then .ModifyAck else .Reject

end MatchingEngine

namespace Ledger

/-- Matching adds no answer to the acknowledgement of a new order. -/
theorem answers_accepted (symbol : SymbolId) (side : BookSide) (incoming : OrderRequest)
    (events : List MatchEvent) :
    ((OrderBook.acceptedOutputs symbol incoming).append
        (outputsOf symbol side incoming events)).confirmsOut.filter
          (fun confirm => confirm.AnswersOrder) =
      (OrderBook.acceptedOutputs symbol incoming).confirmsOut := by
  have silent : (outputsOf symbol side incoming events).confirmsOut.filter
      (fun confirm => confirm.AnswersOrder) = [] := by
    rw [List.filter_eq_nil_iff]
    intro confirm member
    rw [decide_eq_true_eq, OrderConfirm.AnswersOrder]
    rcases type_of_mem_outputsOf member with trade | cancel
    · simp [trade]
    · simp [cancel]
  simp only [Outputs.append, List.filter_append, silent, List.append_nil]
  rfl

end Ledger

namespace MatchingEngine

/-- The owner of a recorded order. -/
theorem owner_of_record {engine : MatchingEngine} {sym : SymbolId} {id : OrderId} {order : Resting}
    (recorded : (engine.ledger sym).record id = some order) :
    engine.owner sym id = some order.traderId := by
  rw [owner, recorded]
  rfl

/-- A trader without the order does not own it. -/
theorem owner_ne {engine : MatchingEngine} {sym : SymbolId} {id : OrderId} {traderId : TraderId}
    (foreign : ∀ order, (engine.ledger sym).record id = some order → order.traderId ≠ traderId) :
    engine.owner sym id ≠ some traderId := by
  intro owned
  rw [owner, Option.map_eq_some_iff] at owned
  obtain ⟨order, recorded, own⟩ := owned
  exact foreign order recorded own

/-- A step of the ledger of an instrument answers the request. -/
theorem answered_of_ledgerStep {engine : MatchingEngine} {request : Request} {out : Outputs}
    {next : Ledger} (step : Ledger.LedgerStep request.symbolId (engine.ledger request.symbolId)
      (request.onBook engine.nextOrderId) out next) : engine.Answered out request := by
  cases request with
  | onOrder order =>
    cases step with
    | filled sweep => exact ⟨_, Ledger.answers_accepted _ _ _ _, rfl, fun _ => ⟨rfl, rfl⟩⟩
    | rested sweep _ _ => exact ⟨_, Ledger.answers_accepted _ _ _ _, rfl, fun _ => ⟨rfl, rfl⟩⟩
  | onCancel id sym traderId =>
    cases step with
    | cancelled recorded own =>
      exact ⟨_, rfl, rfl, rfl, (if_pos (own ▸ owner_of_record recorded)).symm⟩
    | cancelRejected foreign => exact ⟨_, rfl, rfl, rfl, (if_neg (owner_ne foreign)).symm⟩
  | onModify id sym traderId newPrice newQty =>
    cases step with
    | rewritten recorded own _ _ =>
      exact ⟨_, rfl, rfl, rfl, (if_pos (own ▸ owner_of_record recorded)).symm⟩
    | requeued recorded own _ =>
      exact ⟨_, rfl, rfl, rfl, (if_pos (own ▸ owner_of_record recorded)).symm⟩
    | modifyRejected foreign => exact ⟨_, rfl, rfl, rfl, (if_neg (owner_ne foreign)).symm⟩

/-- Silence answers nothing. -/
theorem not_answered_none (engine : MatchingEngine) (request : Request) :
    ¬engine.Answered Outputs.none request := by
  cases request <;> simp [Answered, Outputs.none]

/-- Every request to a reachable engine returns, and it is answered exactly once if and only if
its instrument has a book. -/
theorem answered_iff_book (engine : MatchingEngine) (reachable : engine.Reachable)
    (request : Request) :
    ∃ next out, engine.step request = some (next, out) ∧
      (engine.Answered out request ↔ (engine.books request.symbolId).isSome) := by
  obtain ⟨next, out, ran, step⟩ := reachable.good.steps request
  refine ⟨next, out, ran, ?_⟩
  cases step with
  | dropped missing =>
    rw [missing]
    exact iff_of_false (engine.not_answered_none request) (by decide)
  | routed present _ _ _ _ _ ledgerStep =>
    rw [← ledger_of_books present] at ledgerStep
    rw [present]
    exact iff_of_true (answered_of_ledgerStep ledgerStep) rfl

/-- A cancel of a resting order by its own trader, with another order resting, is answered; so is
one by somebody else. -/
theorem answered_iff_book_initialised : ∃ engine outs,
    run step (initializeBooks [0])
      [.onOrder (newOrder 1 0 Side.Buy 100 5), .onOrder (newOrder 2 0 Side.Sell 103 4)] =
        some (engine, outs) ∧
    engine.owner 0 1 = some 1 ∧ engine.owner 0 2 = some 2 ∧
    (∃ next out, engine.step (.onCancel 1 0 1) = some (next, out) ∧
      engine.Answered out (.onCancel 1 0 1)) ∧
    ∃ next out, engine.step (.onCancel 2 0 1) = some (next, out) ∧
      engine.Answered out (.onCancel 2 0 1) := by
  have reached : ∃ engine outs,
      run step (initializeBooks [0])
        [.onOrder (newOrder 1 0 Side.Buy 100 5), .onOrder (newOrder 2 0 Side.Sell 103 4)] =
          some (engine, outs) ∧
      engine.owner 0 1 = some 1 ∧ engine.owner 0 2 = some 2 ∧
      (engine.books 0).isSome = true :=
    ⟨_, _, rfl, by decide, by decide, by decide⟩
  obtain ⟨engine, outs, ran, buyer, seller, book⟩ := reached
  have reachable : engine.Reachable := ⟨[0], _, outs, by decide, ran⟩
  obtain ⟨next, out, stepped, answered⟩ := answered_iff_book engine reachable (.onCancel 1 0 1)
  obtain ⟨other, rejected, steppedOther, answeredOther⟩ :=
    answered_iff_book engine reachable (.onCancel 2 0 1)
  exact ⟨engine, outs, ran, buyer, seller, ⟨next, out, stepped, answered.mpr book⟩, other, rejected,
    steppedOther, answeredOther.mpr book⟩

/-- A new order for an instrument without a book gets no reply at all. -/
theorem answered_fails_without_book :
    (initializeBooks [0]).Reachable ∧ ∃ next,
      (initializeBooks [0]).step (.onOrder (newOrder 1 9 Side.Buy 100 5)) =
        some (next, Outputs.none) ∧
      ¬(initializeBooks [0]).Answered Outputs.none (.onOrder (newOrder 1 9 Side.Buy 100 5)) :=
  ⟨⟨[0], [], [], by decide, rfl⟩, _, rfl, not_answered_none _ _⟩

end MatchingEngine

end Exchange
