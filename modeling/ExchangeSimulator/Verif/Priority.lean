import ExchangeSimulator.Verif.Operations

/-!
# Time priority

A modification should leave an order in its place when it only takes shares
away, and send it to the back of a queue when it changes the price or adds
shares. The source compares the new quantity with the one cached when the order
was last placed or modified, which fills do not lower. An order that has been
partly filled may therefore grow back in place. This is the only failure, and it
is one exactly when somebody waits behind the order.
-/

namespace Exchange

open Library

namespace Ledger

/-- No order has more shares left than its cached quantity. -/
def Capped (ledger : Ledger) : Prop := ledger.Each fun order => order.quantity ≤ order.cachedQty

/-- An iteration keeps quantities under the cached ones. -/
theorem MatchStep.capped {side : BookSide} {incoming : OrderRequest} {ledger next : Ledger}
    {remaining after : Quantity} {event : MatchEvent}
    (step : MatchStep side incoming ledger remaining event next after)
    (capped : ledger.Capped) : next.Capped := by
  cases step with
  | selfTrade => exact Each.drop capped _ _ _
  | full => exact Each.drop capped _ _ _
  | @partly _ id order _ front _ _ short =>
    have before : order.quantity ≤ order.cachedQty := capped id order front.recorded
    apply (Each.iff_of_record capped fun other =>
      record_reduce ledger id other remaining order).mpr
    simp only [Resting.fill]
    rw [UInt32.le_iff_toNat_le] at before ⊢
    rw [UInt32.toNat_sub_of_le _ _ (UInt32.le_of_lt short)]
    omega

/-- A call keeps quantities under the cached ones. -/
theorem LedgerStep.capped {symbol : SymbolId} {ledger next : Ledger} {request : BookRequest}
    {out : Outputs} (step : LedgerStep symbol ledger request out next)
    (capped : ledger.Capped) : next.Capped := by
  have swept {side : BookSide} {incoming : OrderRequest} {last : Ledger} {final : Quantity}
      {events : List MatchEvent}
      (sweep : Sweep side incoming ledger incoming.m_quantity events last final) : last.Capped :=
    sweep.invariant (fun ledger _ => ledger.Capped) (fun step capped => step.capped capped) capped
  cases step with
  | filled sweep => exact swept sweep
  | @rested incoming _ last remaining sweep _ _ =>
    exact (Each.iff_of_record (swept sweep) fun other => record_rest last incoming.m_orderId other
      (Resting.ofRequest incoming remaining)).mpr (UInt32.le_refl _)
  | cancelled => exact Each.drop capped _ _ _
  | cancelRejected => exact capped
  | @rewritten id _ newPrice newQty order _ _ _ _ =>
    exact (Each.iff_of_record capped fun other => record_rewrite ledger id other
      (order.modify newPrice newQty)).mpr (UInt32.le_refl _)
  | @requeued id _ newPrice newQty order _ _ _ =>
    exact (Each.iff_of_record (Each.drop capped order.slot id order.quantity) fun other =>
      record_rest (ledger.drop order.slot id order.quantity) id other
        (order.modify newPrice newQty)).mpr (UInt32.le_refl _)
  | modifyRejected => exact capped

/-- The modification of an order respects time priority. -/
structure RespectsPriority (ledger next : Ledger) (id : OrderId) (order : Resting)
    (newPrice : Price) (newQty : Quantity) : Prop where
  /-- Fewer shares at the same price leave the queue as it is. -/
  stays : newPrice = order.price → newQty < order.quantity →
    next.queue order.slot = ledger.queue order.slot
  /-- Another price or more shares put the order last in the queue of the new price. -/
  goesLast : newPrice ≠ order.price ∨ order.quantity < newQty →
    next.queue (order.side.book, newPrice) =
      (ledger.queue (order.side.book, newPrice)).erase id ++ [id]
  /-- An order that grows is ahead of nobody. -/
  notAhead : order.quantity < newQty → ∀ other,
    ¬[id, other].Sublist (next.queue (order.side.book, newPrice))

/-- The modification of an order would let it grow past fills without losing its place: the
price stays, the new quantity lies between the live and the cached one, and somebody waits
behind. -/
def GrowsInPlace (ledger : Ledger) (id : OrderId) (order : Resting) (newPrice : Price)
    (newQty : Quantity) : Prop :=
  newPrice = order.price ∧ order.quantity < newQty ∧ newQty < order.cachedQty ∧
    (ledger.queue order.slot).getLast? ≠ some id

/-- In a queue without repetition an id stands last exactly when moving it to the back changes
nothing. -/
theorem eq_erase_append_iff {queue : List OrderId} (distinct : queue.Nodup) (id : OrderId) :
    queue = queue.erase id ++ [id] ↔ queue.getLast? = some id := by
  constructor
  · intro moved
    rw [moved, List.getLast?_concat]
  · intro last
    obtain ⟨before, rfl⟩ := List.getLast?_eq_some_iff.mp last
    have absent : id ∉ before := by
      intro member
      exact (List.nodup_append.mp distinct).2.2 id member id (List.mem_singleton_self id) rfl
    rw [List.erase_append_right _ absent]
    simp

/-- Nobody is behind an id that was moved to the back. -/
theorem not_behind_moved {queue : List OrderId} (distinct : queue.Nodup) (id other : OrderId) :
    ¬[id, other].Sublist (queue.erase id ++ [id]) := by
  intro behind
  obtain ⟨early, late, split, inRest, inLast⟩ := List.sublist_append_iff.mp behind
  cases early with
  | nil =>
    rw [List.nil_append] at split
    have short := inLast.length_le
    rw [← split] at short
    simp at short
  | cons first rest =>
    have same : first = id := (List.cons.inj split).1.symm
    exact distinct.not_mem_erase (same ▸ inRest.subset List.mem_cons_self)

/-- An accepted modification respects time priority exactly when it does not grow in place. -/
theorem LedgerStep.respectsPriority_iff {symbol : SymbolId} {ledger next : Ledger} {id : OrderId}
    {traderId : TraderId} {newPrice : Price} {newQty : Quantity} {out : Outputs}
    (step : LedgerStep symbol ledger (.modify id traderId newPrice newQty) out next)
    (filed : ledger.Filed) (capped : ledger.Capped) {order : Resting}
    (recorded : ledger.record id = some order) (own : order.traderId = traderId) :
    ledger.RespectsPriority next id order newPrice newQty ↔
      ¬ledger.GrowsInPlace id order newPrice newQty := by
  have cap : order.quantity ≤ order.cachedQty := capped id order recorded
  have assemble (stays : newPrice = order.price → newQty < order.quantity →
        next.queue order.slot = ledger.queue order.slot)
      (goesLast : newPrice ≠ order.price ∨ order.quantity < newQty →
        next.queue (order.side.book, newPrice) =
          (ledger.queue (order.side.book, newPrice)).erase id ++ [id]) :
      ledger.RespectsPriority next id order newPrice newQty := by
    refine ⟨stays, goesLast, ?_⟩
    intro grows other
    rw [goesLast (Or.inr grows)]
    exact not_behind_moved (filed.distinct _) id other
  cases step with
  | rewritten found _ same smaller =>
    rw [recorded] at found
    cases found
    subst same
    have last := eq_erase_append_iff (filed.distinct order.slot) id
    constructor
    · rintro respects ⟨_, grows, _, notLast⟩
      exact notLast (last.mp (respects.goesLast (Or.inr grows)))
    · intro shrinks
      refine assemble (fun _ _ => rfl) ?_
      rintro (moves | grows)
      · exact absurd rfl moves
      · by_contra stuck
        exact shrinks ⟨rfl, grows, smaller, fun ends => stuck (last.mpr ends)⟩
  | requeued found _ moves =>
    rw [recorded] at found
    cases found
    refine iff_of_true (assemble ?_ ?_) ?_
    · intro same fewer
      exact absurd ⟨same.symm, UInt32.lt_of_lt_of_le fewer cap⟩ moves
    · intro _
      exact queue_requeue filed recorded (order.modify newPrice newQty)
    · rintro ⟨same, _, smaller, _⟩
      exact moves ⟨same.symm, smaller⟩
  | modifyRejected foreign => exact absurd own (foreign order recorded)

end Ledger

namespace OrderBook

/-- No order of a reachable book has more shares left than its cached quantity. -/
theorem Reachable.capped {book : OrderBook} (reachable : book.Reachable) :
    book.ledger.Capped := by
  refine (reachable.invariant Ledger.Capped ?_ (fun step capped => step.capped capped)).2
  intro sym id order recorded
  contradiction

/-- Every accepted modification of a reachable book returns, and it respects time priority
exactly when it does not let a partly filled order grow ahead of others in its queue. -/
theorem modifyOrder_priority_iff (book : OrderBook) (reachable : book.Reachable) (id : OrderId)
    (traderId : TraderId) (newPrice : Price) (newQty : Quantity) (order : Resting)
    (resting : book.resting id = some order) (own : order.traderId = traderId) :
    ∃ next out, book.modifyOrder id traderId newPrice newQty = some (next, out) ∧
      (book.ledger.RespectsPriority next.ledger id order newPrice newQty ↔
        ¬book.ledger.GrowsInPlace id order newPrice newQty) := by
  have good := reachable.good
  obtain ⟨next, out, ran, _, _, step⟩ := good.modifyOrder id traderId newPrice newQty
  exact ⟨next, out, ran, step.respectsPriority_iff good.filed reachable.capped resting own⟩

/-- A bid of ten shares of which six have traded, with a second bid behind it. -/
def partlyFilled : List BookRequest :=
  [place 1 1 Side.Buy 100 10, place 2 2 Side.Buy 100 5, place 3 3 Side.Sell 100 6]

/-- The bids after the partial fill: four shares left, ten cached. -/
theorem partlyFilled_reached : ∃ book outs,
    Guarded OrderBook.step OrderBook.Fresh (OrderBook.new 0) partlyFilled ∧
    run OrderBook.step (OrderBook.new 0) partlyFilled = some (book, outs) ∧
    book.resting 1 = some ⟨Side.Buy, 100, 10, 1, 4⟩ ∧
    book.ledger.queue (.Buy, 100) = [1, 2] ∧
    (book.modifyOrder 1 1 100 7).map (fun result => result.1.ledger.queue (.Buy, 100)) =
      some [1, 2] :=
  ⟨_, _, by decide, rfl, by decide, by decide, by decide⟩

/-- Taking shares off the partly filled bid leaves it in its place. -/
theorem modifyOrder_priority_iff_smaller : ∃ book outs,
    run OrderBook.step (OrderBook.new 0) partlyFilled = some (book, outs) ∧
    ∃ next out, book.modifyOrder 1 1 100 3 = some (next, out) ∧
      book.ledger.RespectsPriority next.ledger 1 ⟨Side.Buy, 100, 10, 1, 4⟩ 100 3 := by
  obtain ⟨book, outs, fresh, reached, resting, _⟩ := partlyFilled_reached
  obtain ⟨next, out, ran, respects⟩ := modifyOrder_priority_iff book
    ⟨0, partlyFilled, outs, fresh, reached⟩ 1 1 100 3 ⟨Side.Buy, 100, 10, 1, 4⟩ resting rfl
  refine ⟨book, outs, reached, next, out, ran, respects.mpr ?_⟩
  rintro ⟨_, grows, _⟩
  exact absurd grows (by decide)

/-- The partly filled bid grows from four shares to seven and stays ahead of the second bid. -/
theorem priority_fails_on_regrowth : ∃ book outs,
    Guarded OrderBook.step OrderBook.Fresh (OrderBook.new 0) partlyFilled ∧
    run OrderBook.step (OrderBook.new 0) partlyFilled = some (book, outs) ∧
    book.resting 1 = some ⟨Side.Buy, 100, 10, 1, 4⟩ ∧
    ∃ next out, book.modifyOrder 1 1 100 7 = some (next, out) ∧
      ¬book.ledger.RespectsPriority next.ledger 1 ⟨Side.Buy, 100, 10, 1, 4⟩ 100 7 := by
  obtain ⟨book, outs, fresh, reached, resting, queue, moved⟩ := partlyFilled_reached
  obtain ⟨⟨next, out⟩, ran, same⟩ := Option.map_eq_some_iff.mp moved
  refine ⟨book, outs, fresh, reached, resting, next, out, ran, ?_⟩
  intro respects
  have last := respects.goesLast (Or.inr (by decide))
  change next.ledger.queue (.Buy, 100) = (book.ledger.queue (.Buy, 100)).erase 1 ++ [1] at last
  rw [queue, same] at last
  revert last
  decide

end OrderBook

end Exchange
