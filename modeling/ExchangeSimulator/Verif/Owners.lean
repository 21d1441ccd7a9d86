import ExchangeSimulator.Verif.Replies

/-!
# Who owns an order

An acknowledgement of a new order tells its trader the identifier that the order
has got. Over every run with fewer than 2⁶⁴ − 1 new orders the identifiers told are
not zero, and a resting order with such an identifier belongs to the trader who was
told it: neither a fill nor a modification changes hands. Of every resting order its
trader has been told.
-/

namespace Exchange

open Library

/-- A trader has been told the identifier of an order it placed under its own one. -/
def Acked (outs : List Outputs) (traderId : TraderId) (clientOrderId orderId : OrderId) : Prop :=
  ∃ out ∈ outs, ∃ confirm ∈ out.confirmsOut, confirm.type = .NewAck ∧
    confirm.traderId = traderId ∧ confirm.clientOrderId = clientOrderId ∧
    confirm.orderId = orderId

/-- What was told stays told. -/
theorem Acked.append {outs : List Outputs} {traderId : TraderId} {clientOrderId orderId : OrderId}
    (acked : Acked outs traderId clientOrderId orderId) (more : List Outputs) :
    Acked (outs ++ more) traderId clientOrderId orderId := by
  obtain ⟨out, member, told⟩ := acked
  exact ⟨out, List.mem_append_left more member, told⟩

namespace Ledger

/-- An iteration leaves the owners of the orders that rest on. -/
theorem MatchStep.trader {side : BookSide} {incoming : OrderRequest} {ledger next : Ledger}
    {remaining after : Quantity} {event : MatchEvent}
    (step : MatchStep side incoming ledger remaining event next after) {id : OrderId}
    {order : Resting} (recorded : next.record id = some order) :
    ∃ before, ledger.record id = some before ∧ before.traderId = order.traderId := by
  cases step with
  | selfTrade | full =>
    rw [record_drop] at recorded
    split at recorded
    · contradiction
    · exact ⟨order, recorded, rfl⟩
  | partly _ front _ _ _ =>
    rw [record_reduce] at recorded
    split at recorded
    · rename_i here
      subst here
      cases recorded
      exact ⟨_, front.recorded, rfl⟩
    · exact ⟨order, recorded, rfl⟩

/-- So does matching. -/
theorem Sweep.trader {side : BookSide} {incoming : OrderRequest} {ledger last : Ledger}
    {remaining final : Quantity} {events : List MatchEvent}
    (sweep : Sweep side incoming ledger remaining events last final) {id : OrderId}
    {order : Resting} (recorded : last.record id = some order) :
    ∃ before, ledger.record id = some before ∧ before.traderId = order.traderId := by
  induction sweep with
  | done => exact ⟨order, recorded, rfl⟩
  | step first _ ih =>
    obtain ⟨between, found, same⟩ := ih recorded
    obtain ⟨before, rested, own⟩ := first.trader found
    exact ⟨before, rested, own.trans same⟩

/-- An order that rests after a call has the owner it had, or is the new one and acknowledged. -/
theorem LedgerStep.trader {symbol : SymbolId} {ledger next : Ledger} {request : BookRequest}
    {out : Outputs} (step : LedgerStep symbol ledger request out next) {id : OrderId}
    {order : Resting} (recorded : next.record id = some order) :
    (∃ before, ledger.record id = some before ∧ before.traderId = order.traderId) ∨
      ∃ incoming, request = .add incoming ∧ id = incoming.m_orderId ∧
        order.traderId = incoming.m_traderId ∧
        Acked [out] order.traderId incoming.m_clientOrderId id := by
  cases step with
  | filled sweep => exact .inl (sweep.trader recorded)
  | @rested incoming _ _ _ sweep _ _ =>
    rw [record_rest] at recorded
    split at recorded
    · rename_i here
      cases recorded
      refine .inr ⟨incoming, rfl, here, rfl, _, List.mem_singleton_self _, _,
        List.mem_append_left _ List.mem_cons_self, rfl, rfl, rfl, ?_⟩
      exact here.symm
    · exact .inl (sweep.trader recorded)
  | cancelled =>
    rw [record_drop] at recorded
    split at recorded
    · contradiction
    · exact .inl ⟨order, recorded, rfl⟩
  | cancelRejected | modifyRejected => exact .inl ⟨order, recorded, rfl⟩
  | rewritten found =>
    rw [record_rewrite] at recorded
    split at recorded
    · rename_i here
      subst here
      cases recorded
      exact .inl ⟨_, found, rfl⟩
    · exact .inl ⟨order, recorded, rfl⟩
  | requeued found =>
    rw [requeue, record_rest] at recorded
    split at recorded
    · rename_i here
      subst here
      cases recorded
      exact .inl ⟨_, found, rfl⟩
    · rename_i apart
      rw [record_drop, if_neg apart] at recorded
      exact .inl ⟨order, recorded, rfl⟩

end Ledger

namespace MatchingEngine

/-- An acknowledgement tells the trader of a new order its identifier. -/
theorem EngineStep.acked {engine next : MatchingEngine} {request : Request} {out : Outputs}
    (step : EngineStep engine request out next) {confirm : OrderConfirm}
    (member : confirm ∈ out.confirmsOut) (acks : confirm.type = .NewAck) :
    ∃ order, request = .onOrder order ∧ confirm.traderId = order.m_traderId ∧
      confirm.clientOrderId = order.m_clientOrderId ∧ confirm.orderId = engine.nextOrderId := by
  cases step with
  | dropped => exact absurd member List.not_mem_nil
  | routed present _ _ _ _ _ ledgerStep =>
    rw [← ledger_of_books present] at ledgerStep
    have answered := answered_of_ledgerStep ledgerStep
    have only {reply : OrderConfirm} {accepts : Prop} [Decidable accepts] {kind : ConfirmType}
        (other : kind ≠ .NewAck) (alone : out.confirmsOut = [reply])
        (type : reply.type = if accepts then kind else .Reject) : False := by
      rw [alone, List.mem_singleton] at member
      rw [member, type] at acks
      split at acks
      · exact other acks
      · contradiction
    cases request with
    | onOrder order =>
      obtain ⟨reply, alone, trader, told⟩ := answered
      have answers : confirm ∈ out.confirmsOut.filter fun confirm => confirm.AnswersOrder :=
        List.mem_filter.mpr ⟨member, decide_eq_true (.inl acks)⟩
      rw [alone, List.mem_singleton] at answers
      subst answers
      exact ⟨order, rfl, trader, told acks⟩
    | onCancel id sym traderId =>
      obtain ⟨reply, alone, -, -, type⟩ := answered
      exact (only (by simp) alone type).elim
    | onModify id sym traderId newPrice newQty =>
      obtain ⟨reply, alone, -, -, type⟩ := answered
      exact (only (by simp) alone type).elim

/-- The identifiers told are given out and belong to those who were told them. -/
structure Owned (engine : MatchingEngine) (outs : List Outputs) : Prop where
  /-- Zero is not given out. -/
  positive : 0 < engine.nextOrderId.toNat
  /-- What has been told has been given out. -/
  given : ∀ traderId clientOrderId orderId, Acked outs traderId clientOrderId orderId →
    orderId ≠ 0 ∧ orderId.toNat < engine.nextOrderId.toNat
  /-- A resting order belongs to the trader who was told its identifier. -/
  owner : ∀ traderId clientOrderId orderId, Acked outs traderId clientOrderId orderId →
    ∀ sym order, (engine.ledger sym).record orderId = some order → order.traderId = traderId
  /-- The trader of a resting order was told its identifier. -/
  told : ∀ sym orderId order, (engine.ledger sym).record orderId = some order →
    ∃ clientOrderId, Acked outs order.traderId clientOrderId orderId

/-- A request keeps this. -/
theorem Owned.next {engine next : MatchingEngine} {outs : List Outputs} {request : Request}
    {out : Outputs} (owned : engine.Owned outs) (good : engine.Good) (room : engine.Room request)
    (step : EngineStep engine request out next) : next.Owned (outs ++ [out]) := by
  have counter := step.counter room
  have fresh {traderId : TraderId} {clientOrderId orderId : OrderId}
      (acked : Acked (outs ++ [out]) traderId clientOrderId orderId) :
      Acked outs traderId clientOrderId orderId ∨ ∃ order, request = .onOrder order ∧
        traderId = order.m_traderId ∧ orderId = engine.nextOrderId := by
    obtain ⟨some_, member, confirm, emitted, acks, rfl, rfl, rfl⟩ := acked
    rcases List.mem_append.mp member with before | now
    · exact .inl ⟨some_, before, confirm, emitted, acks, rfl, rfl, rfl⟩
    · rw [List.mem_singleton] at now
      subst now
      obtain ⟨order, placed, trader, -, id⟩ := step.acked emitted acks
      exact .inr ⟨order, placed, trader, id⟩
  refine ⟨?_, ?_, ?_, ?_⟩
  · have positive := owned.positive
    omega
  · intro traderId clientOrderId orderId acked
    rcases fresh acked with before | ⟨order, rfl, -, rfl⟩
    · obtain ⟨nonzero, below⟩ := owned.given _ _ _ before
      exact ⟨nonzero, by omega⟩
    · have positive := owned.positive
      refine ⟨?_, ?_⟩
      · intro zero
        rw [zero] at positive
        contradiction
      · simp only [Request.ids] at counter
        omega
  · intro traderId clientOrderId orderId acked sym order recorded
    have before : ∀ before, (engine.ledger sym).record orderId = some before →
        before.traderId = order.traderId → order.traderId = traderId := by
      intro before rested same
      rcases fresh acked with old | ⟨_, -, -, rfl⟩
      · rw [← same]
        exact owned.owner _ _ _ old sym before rested
      · -- the identifier just given out rested nowhere
        exfalso
        rw [ledger] at rested
        cases present : engine.books sym with
        | none => simp [present, Ledger.empty] at rested
        | some book =>
          rw [present] at rested
          exact absurd (good.below sym _ ⟨book, before, present, rested⟩) (UInt64.lt_irrefl _)
    rcases step.ledger sym with same | ⟨_, _, _, ledgerStep⟩
    · rw [same] at recorded
      exact before order recorded rfl
    · rcases ledgerStep.trader recorded with
        ⟨rested, found, same⟩ | ⟨incoming, added, id, trader, -⟩
      · exact before rested found same
      · cases request with
        | onCancel | onModify => contradiction
        | onOrder placed =>
          cases added
          rcases fresh acked with old | ⟨again, same, rfl, -⟩
          · obtain ⟨-, below⟩ := owned.given _ _ _ old
            rw [show orderId = engine.nextOrderId from id] at below
            exact absurd below (Nat.lt_irrefl _)
          · cases same
            exact trader
  · intro sym orderId order recorded
    rcases step.ledger sym with same | ⟨_, _, _, ledgerStep⟩
    · rw [same] at recorded
      obtain ⟨clientOrderId, acked⟩ := owned.told sym orderId order recorded
      exact ⟨clientOrderId, acked.append [out]⟩
    · rcases ledgerStep.trader recorded with ⟨rested, found, same⟩ | ⟨incoming, _, _, _, acked⟩
      · obtain ⟨clientOrderId, acked⟩ := owned.told sym orderId rested found
        rw [same] at acked
        exact ⟨clientOrderId, acked.append [out]⟩
      · obtain ⟨some_, member, told⟩ := acked
        exact ⟨incoming.m_clientOrderId, some_, List.mem_append_right outs member, told⟩

/-- No order rests in a fresh engine. -/
theorem record_initializeBooks (symbols : List SymbolId) (sym : SymbolId) (id : OrderId) :
    ((initializeBooks symbols).ledger sym).record id = none := by
  rw [ledger]
  cases present : (initializeBooks symbols).books sym with
  | none => rfl
  | some book =>
    rw [books_initializeBooks symbols sym book present]
    rfl

/-- The identifiers told over a run. -/
theorem owned_of_run {symbols : List SymbolId} {requests : List Request} {engine : MatchingEngine}
    {outs : List Outputs} (few : orderCount requests < 2 ^ 64 - 1)
    (ran : run step (initializeBooks symbols) requests = some (engine, outs)) :
    engine.Good ∧ engine.Owned outs := by
  obtain ⟨last, emitted, again, good, owned⟩ := run_guarded_history
    (fun engine outs => engine.Good ∧ engine.Owned outs)
    (fun engine request outs kept room => by
      obtain ⟨good, owned⟩ := kept
      obtain ⟨next, out, ran, engineStep⟩ := good.steps request
      exact ⟨next, out, ran, good.next room engineStep, owned.next good room engineStep⟩)
    requests (initializeBooks symbols) []
    ⟨good_initializeBooks symbols, Nat.one_pos, by simp [Acked], by simp [Acked],
      fun sym orderId order recorded => by
        rw [record_initializeBooks] at recorded
        contradiction⟩
    (guarded_initializeBooks symbols requests few)
  rw [ran] at again
  cases again
  exact ⟨good, owned⟩

end MatchingEngine

end Exchange
