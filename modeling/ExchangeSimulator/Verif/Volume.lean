import ExchangeSimulator.Verif.Trades
import ExchangeSimulator.Verif.Wire

/-!
# Published volume

The screen adds up the quantities of the trade confirmations, and an execution
is confirmed twice, so the published volume of an instrument is twice the shares
that changed hands. The two agree only as long as nothing changes hands at all:
whether a new order executes anything is decided before it is matched, by the
orders of other traders that its limit crosses.
-/

namespace Exchange

open Library

namespace OrderBook

/-! ## Whether a new order executes anything -/

/-- An order of another trader with shares left waits on the side at a price that the limit of the
incoming order crosses. -/
def Meets (book : OrderBook) (side : BookSide) (incoming : OrderRequest) : Prop :=
  ∃ price level elem element, book.level side price = some level ∧
    canTrade side price incoming.m_price = true ∧ elem ∈ level.mOrders ∧
    book.heap.read elem = some element ∧ element.m_traderId ≠ incoming.m_traderId ∧
    element.m_quantity ≠ 0

/-- An order that cannot be met leaves its level without a trace of it. -/
theorem meets_without {book next : OrderBook} {side : BookSide} {incoming : OrderRequest}
    {price : Price} {level less : PriceLevel} {elem : Addr} {element : BookElement}
    (present : book.level side price = some level) (read : book.heap.read elem = some element)
    (useless : element.m_traderId = incoming.m_traderId ∨ element.m_quantity = 0)
    (levels : ∀ other, next.level side other =
      if other = price then some less else book.level side other)
    (queue : less.mOrders = level.mOrders.erase elem)
    (reads : ∀ other, next.heap.read other = if other = elem then none else book.heap.read other) :
    next.Meets side incoming ↔ book.Meets side incoming := by
  constructor
  · rintro ⟨where', other, addr, found, there, crosses, member, reading, foreign, some⟩
    rw [reads] at reading
    split at reading
    · contradiction
    · rw [levels] at there
      split at there
      · rename_i here
        cases there
        rw [queue] at member
        exact ⟨where', level, addr, found, here ▸ present, crosses, List.mem_of_mem_erase member,
          reading, foreign, some⟩
      · exact ⟨where', other, addr, found, there, crosses, member, reading, foreign, some⟩
  · rintro ⟨where', other, addr, found, there, crosses, member, reading, foreign, some⟩
    have apart : addr ≠ elem := by
      rintro rfl
      rw [read] at reading
      cases reading
      exact useless.elim foreign some
    have still : next.heap.read addr = .some found := by rw [reads, if_neg apart, reading]
    by_cases here : where' = price
    · subst here
      rw [present] at there
      cases there
      refine ⟨where', less, addr, found, ?_, crosses, ?_, still, foreign, some⟩
      · rw [levels, if_pos rfl]
      · rw [queue]
        exact (List.mem_erase_of_ne apart).mpr member
    · refine ⟨where', other, addr, found, ?_, crosses, member, still, foreign, some⟩
      rw [levels, if_neg here, there]

/-- Erasing an emptied level does not change what an order meets. -/
theorem meets_eraseIfEmpty (book : OrderBook) (side : BookSide) (incoming : OrderRequest)
    (price : Price) :
    (book.eraseIfEmpty side price).Meets side incoming ↔ book.Meets side incoming := by
  rw [eraseIfEmpty]
  split
  · exact Iff.rfl
  · rename_i level present
    split
    · rename_i empty
      have same : (book.eraseLevel side price).heap = book.heap := heap_setBook _ _ _
      simp only [Meets, same, level_eraseLevel]
      constructor
      · rintro ⟨where', other, addr, found, there, rest⟩
        split at there
        · contradiction
        · exact ⟨where', other, addr, found, there, rest⟩
      · rintro ⟨where', other, addr, found, there, crosses, member, rest⟩
        refine ⟨where', other, addr, found, ?_, crosses, member, rest⟩
        rw [if_neg, there]
        rintro ⟨-, rfl⟩
        rw [present] at there
        cases there
        rw [PriceLevel.isEmpty, List.isEmpty_iff] at empty
        simp [empty] at member
    · exact Iff.rfl

/-- The levels of the side after a level was written and an order deleted. -/
theorem level_setLevel_deleteOrder (book : OrderBook) (side : BookSide) (price other : Price)
    (level : PriceLevel) (id : OrderId) (elem : Addr) :
    ((book.setLevel side price level).deleteOrder id elem).level side other =
      if other = price then some level else book.level side other := by
  have same : ((book.setLevel side price level).deleteOrder id elem).level side other =
      (book.setLevel side price level).level side other := by
    simp only [OrderBook.level, getBook_deleteOrder]
  rw [same, level_setLevel]
  simp

/-- Taking an order that cannot be met out of its level does not change what an order meets, also
when its element was written before. -/
theorem meets_drop {book written : OrderBook} {side : BookSide} {incoming : OrderRequest}
    {price : Price} {level : PriceLevel} {elem : Addr} {element : BookElement}
    (present : book.level side price = some level) (read : book.heap.read elem = some element)
    (useless : element.m_traderId = incoming.m_traderId ∨ element.m_quantity = 0)
    (levels : ∀ other, written.level side other = book.level side other)
    (reads : ∀ other, other ≠ elem → written.heap.read other = book.heap.read other)
    (amount : Quantity) (id : OrderId) :
    ((written.setLevel side price (lessLevel level elem amount)).deleteOrder id elem).Meets side
        incoming ↔ book.Meets side incoming := by
  have queue : (lessLevel level elem amount).mOrders = level.mOrders.erase elem := rfl
  refine meets_without present read useless ?_ queue ?_
  · intro other
    rw [level_setLevel_deleteOrder, levels]
  · intro other
    have same : (written.setLevel side price (lessLevel level elem amount)).heap = written.heap :=
      heap_setBook _ _ _
    simp only [deleteOrder, same, Heap.read_free]
    split
    · rfl
    · rename_i apart
      exact reads other apart

/-- The matcher takes no more shares than are left. As long as it takes none it does not change
what the order meets, and it takes none from an order that meets nothing. -/
structure Spends (side : BookSide) (incoming : OrderRequest) (book : OrderBook)
    (remaining : Quantity) (matched : Matched) : Prop where
  /-- Shares are only taken off. -/
  le : matched.remainingQty ≤ remaining
  /-- Without a share taken, what is met stays. -/
  same : matched.remainingQty = remaining →
    (matched.book.Meets side incoming ↔ book.Meets side incoming)
  /-- An order that meets nothing keeps its shares. -/
  none : ¬book.Meets side incoming → matched.remainingQty = remaining

/-- One iteration spends. -/
theorem spends_matchFirst {side : BookSide} {incoming : OrderRequest} {book : OrderBook}
    {remaining : Quantity} {price : Price} {level : PriceLevel} {matched : Matched}
    (positive : 0 < remaining) (present : book.level side price = some level)
    (crosses : canTrade side price incoming.m_price = true)
    (ran : matchFirst side incoming price level book remaining = some matched) :
    Spends side incoming book remaining matched := by
  obtain ⟨elem, element, member, read, iteration⟩ := matchFirst_cases ran
  have met (foreign : element.m_traderId ≠ incoming.m_traderId) (some : element.m_quantity ≠ 0) :
      book.Meets side incoming :=
    ⟨price, level, elem, element, present, crosses, member, read, foreign, some⟩
  obtain ⟨own, rfl⟩ | ⟨foreign, covers, rfl⟩ | ⟨foreign, short, rfl⟩ := iteration
  · refine ⟨UInt32.le_refl _, fun _ => ?_, fun _ => rfl⟩
    exact meets_drop present read (.inl own) (fun _ => rfl) (fun _ _ => rfl) _ _
  · have taken : (remaining - element.m_quantity).toNat =
        remaining.toNat - element.m_quantity.toNat := UInt32.toNat_sub_of_le _ _ covers
    refine ⟨?_, fun unchanged => ?_, fun meetsNothing => ?_⟩
    · rw [UInt32.le_iff_toNat_le, taken]
      exact Nat.sub_le _ _
    · have zero : element.m_quantity = 0 := by
        have same := congrArg UInt32.toNat unchanged
        rw [taken] at same
        rw [UInt32.le_iff_toNat_le] at covers
        rw [← UInt32.toNat_inj]
        change _ = 0
        omega
      refine meets_drop present read (.inr zero) (fun _ => by cases side <;> rfl) ?_ _ _
      intro other apart
      simp only [setQty, Heap.read_write read, if_neg apart]
    · have zero : element.m_quantity = 0 := by
        by_contra some
        exact meetsNothing (met foreign some)
      rw [zero]
      exact UInt32.sub_zero _
  · have some : element.m_quantity ≠ 0 := by
      rintro zero
      rw [zero] at short
      exact absurd short UInt32.not_lt_zero
    refine ⟨UInt32.zero_le, fun unchanged => ?_, fun meetsNothing => ?_⟩
    · rw [← unchanged] at positive
      exact absurd positive (UInt32.lt_irrefl _)
    · exact absurd (met foreign some) meetsNothing

/-- The matcher spends. -/
theorem carried_spends (side : BookSide) (incoming : OrderRequest) :
    Carried side incoming (Spends side incoming) where
  stop := fun _ _ => ⟨UInt32.le_refl _, fun _ => Iff.rfl, fun _ => rfl⟩
  first := fun _ _ _ _ _ positive present crosses ran =>
    spends_matchFirst positive present crosses ran
  erase := fun book _ price =>
    ⟨UInt32.le_refl _, fun _ => meets_eraseIfEmpty book side incoming price, fun _ => rfl⟩
  compose := by
    intro book remaining early late first second
    refine ⟨UInt32.le_trans second.le first.le, fun unchanged => ?_, fun meetsNothing => ?_⟩
    · have between : early.remainingQty = remaining :=
        UInt32.le_antisymm first.le (unchanged ▸ second.le)
      exact (second.same (unchanged.trans between.symm)).trans (first.same between)
    · have kept := first.none meetsNothing
      have still : ¬early.book.Meets side incoming := (first.same kept).not.mpr meetsNothing
      exact (second.none still).trans kept

/-- The matcher goes on until the order is filled or meets nothing. -/
theorem matchLevels_spent {side : BookSide} {incoming : OrderRequest} (iterations : Nat)
    (book : OrderBook) (remaining : Quantity) (matched : Matched)
    (ran : matchLevels side incoming iterations book remaining = some matched) :
    matched.remainingQty = 0 ∨ ¬matched.book.Meets side incoming := by
  induction iterations generalizing book remaining matched with
  | zero => contradiction
  | succ iterations ih =>
    rw [matchLevels] at ran
    split at ran
    · split at ran
      · rename_i front
        cases ran
        right
        rintro ⟨price, level, _, _, present, _⟩
        have absent : book.level side price = Option.none :=
          OrderedMap.find?_of_begin?_none front price
        rw [absent] at present
        contradiction
      · rename_i best level front
        split at ran
        · simp only [bind, Option.bind_eq_some_iff] at ran
          obtain ⟨early, _, late, goesOn, ran⟩ := ran
          have later := ih _ _ _ goesOn
          cases ran
          exact later
        · rename_i refused
          cases ran
          right
          rintro ⟨price, level, _, _, present, crosses, _⟩
          rcases OrderedMap.before_of_begin? front present with same | later
          · exact refused (same ▸ crosses)
          · exact refused (canTrade_of_before later crosses)
    · rename_i spent
      cases ran
      exact .inl (UInt32.le_zero_iff.mp (UInt32.not_lt.mp spent))

/-- A new order executes fewer than 2³² shares, and none exactly when it has none or meets
nothing. -/
theorem volume_addOrder {book next : OrderBook} {incoming : OrderRequest} {out : Outputs}
    (ran : book.addOrder incoming = some (next, out)) :
    volume (executions out.confirmsOut) < 2 ^ 32 ∧
      (volume (executions out.confirmsOut) = 0 ↔
        incoming.m_quantity = 0 ∨ ¬book.Meets incoming.m_side.book.opposite incoming) := by
  obtain ⟨matched, ranMatcher, rfl, -⟩ := addOrder_cases ran
  obtain ⟨-, -, shares⟩ := (carried_paired _ incoming).matchAgainst ranMatcher
  have spends := (carried_spends _ incoming).matchAgainst ranMatcher
  have spent := matchLevels_spent _ _ _ _ ranMatcher
  have emitted : volume (executions
      ((acceptedOutputs book.symbol incoming).append matched.out).confirmsOut) =
        volume (executions matched.out.confirmsOut) :=
    congrArg volume (executions_cons (by exact nofun) matched.out.confirmsOut)
  have bound := incoming.m_quantity.toNat_lt
  rw [emitted]
  refine ⟨by omega, ?_⟩
  have untouched : volume (executions matched.out.confirmsOut) = 0 ↔
      matched.remainingQty = incoming.m_quantity := by
    rw [← UInt32.toNat_inj]
    omega
  rw [untouched]
  constructor
  · intro unchanged
    rcases spent with zero | meetsNothing
    · exact .inl (unchanged.symm.trans zero)
    · exact .inr ((spends.same unchanged).not.mp meetsNothing)
  · rintro (zero | meetsNothing)
    · have le := spends.le
      rw [zero] at le ⊢
      exact UInt32.le_zero_iff.mp le
    · exact spends.none meetsNothing

/-- A single confirmation other than a trade executes nothing. -/
theorem volume_of_single {out : Outputs} (answered : ∃ confirm, out.confirmsOut = [confirm] ∧
    confirm.type ≠ .Trade) : volume (executions out.confirmsOut) = 0 := by
  obtain ⟨confirm, emitted, type⟩ := answered
  rw [emitted, executions_cons type]
  rfl

end OrderBook

/-! ## The published entry -/

/-- Price and quantity of the last of some executions, if there is one. -/
def lastTrade (earlier : Price × Quantity) (fills : List Execution) : Price × Quantity :=
  match fills.getLast? with
  | none => earlier
  | some fill => (fill.price, fill.qty)

/-- The last of two stretches. -/
theorem lastTrade_append (earlier : Price × Quantity) (first second : List Execution) :
    lastTrade earlier (first ++ second) = lastTrade (lastTrade earlier first) second := by
  simp only [lastTrade, List.getLast?_append]
  cases second.getLast? <;> rfl

/-- An entry after confirmations with trades in pairs: the volume grows by twice the executed
shares, and the last trade is that of the last execution. -/
theorem Paired.applyTrades {symbol : SymbolId} {confirms : List OrderConfirm}
    (paired : Paired symbol confirms) (state : InstrumentState) :
    (confirms.foldl InstrumentState.applyTrade state).totalTradedVolume.toNat =
      (state.totalTradedVolume.toNat + 2 * volume (executions confirms)) % 2 ^ 32 ∧
    ((confirms.foldl InstrumentState.applyTrade state).lastTradePrice,
        (confirms.foldl InstrumentState.applyTrade state).lastTradeQty) =
      lastTrade (state.lastTradePrice, state.lastTradeQty) (executions confirms) := by
  induction paired generalizing state with
  | nil => exact ⟨(Nat.mod_eq_of_lt state.totalTradedVolume.toNat_lt).symm, rfl⟩
  | @other confirm later type rest ih =>
    have skips : state.applyTrade confirm = state := if_neg type
    rw [List.foldl_cons, skips, executions_cons type]
    exact ih state
  | @pair first second later trades here same rest ih =>
    obtain ⟨total, last⟩ := ih ((state.applyTrade first).applyTrade second)
    have reported : executions (first :: second :: later) =
        [⟨first.symbolId, first.price, first.qty⟩] ++ executions later := by
      rw [executions, if_pos trades]
      rfl
    have twice : (state.applyTrade first).applyTrade second = { state with
        lastTradePrice := first.price
        lastTradeQty := first.qty
        totalTradedVolume := state.totalTradedVolume + first.qty + first.qty } := by
      simp only [InstrumentState.applyTrade, trades.1, trades.2, if_true, same.1, same.2]
    rw [List.foldl_cons, List.foldl_cons, reported, lastTrade_append, volume_append]
    rw [twice] at total last ⊢
    refine ⟨?_, last⟩
    rw [total]
    simp only [UInt32.toNat_add, volume, List.map_cons, List.map_nil, List.sum_cons, List.sum_nil]
    omega

/-- The entry of an instrument after the state was published. -/
theorem MatchingEngine.get_publish (engine : MatchingEngine) (market : MarketState)
    (symbolId sym : SymbolId) (confirms : List OrderConfirm)
    (inRange : sym.toNat < MAX_INSTRUMENTS) :
    (engine.publish market symbolId confirms).get sym =
      if sym = symbolId then
        { confirms.foldl InstrumentState.applyTrade (market.get symbolId) with
          bestBid := engine.getBestBidPrice symbolId
          bidVolume := engine.getBestBidQty symbolId
          bestAsk := engine.getBestAskPrice symbolId
          askVolume := engine.getBestAskQty symbolId }
      else market.get sym := by
  split
  · rename_i here
    subst here
    exact MarketState.get_update market inRange _
  · rename_i apart
    exact MarketState.get_update_of_ne market apart _

namespace MatchingThread

/-- The instrument of the call of a request. -/
@[simp]
theorem symbolId_call (req : OrderRequest) : (call req).symbolId = req.m_symbolId := by
  cases type : req.m_requestType <;> simp [call, type, Request.symbolId]

/-- What a popped message does: nothing, or the engine handles its request and the state is
published. -/
theorem step_cases {thread next : MatchingThread} {popped : RawMessage × Timestamp}
    {output : Option (OrderRequest × Outputs)} (ran : thread.step popped = some (next, output)) :
    (parse popped.1 popped.2 = none ∧ next = thread ∧ output = none) ∨
      ∃ req engine out, parse popped.1 popped.2 = some req ∧
        thread.engine.step (call req) = some (engine, out) ∧
        next = ⟨engine, engine.publish thread.marketState req.m_symbolId out.confirmsOut⟩ ∧
        output = some (req, out) := by
  rw [step] at ran
  cases parsed : parse popped.1 popped.2 with
  | none =>
    rw [parsed] at ran
    cases ran
    exact .inl ⟨rfl, rfl, rfl⟩
  | some req =>
    rw [parsed] at ran
    simp only [handle, bind, Option.bind_eq_some_iff] at ran
    obtain ⟨⟨_, _, _⟩, ⟨⟨engine, out⟩, stepped, same⟩, ran⟩ := ran
    cases same
    cases ran
    exact .inr ⟨req, engine, out, rfl, stepped, rfl, rfl⟩

/-- The executions of one message. -/
def fills : Option (OrderRequest × Outputs) → List Execution
  | none => []
  | some (_, out) => executions out.confirmsOut

/-- The executions on an instrument, from what the engine emitted for each message. -/
def fillsOn (sym : SymbolId) (handled : List (Option (OrderRequest × Outputs))) : List Execution :=
  (handled.flatMap fills).filter fun fill => fill.symbolId = sym

/-- A skipped message executes nothing. -/
theorem fillsOn_skipped (sym : SymbolId) (past : List (Option (OrderRequest × Outputs))) :
    fillsOn sym (past ++ [none]) = fillsOn sym past := by
  simp [fillsOn, fills]

/-- A handled message executes on its instrument only. -/
theorem fillsOn_handled (sym : SymbolId) (past : List (Option (OrderRequest × Outputs)))
    {req : OrderRequest} {out : Outputs} (paired : Paired req.m_symbolId out.confirmsOut) :
    fillsOn sym (past ++ [some (req, out)]) = fillsOn sym past ++
      if sym = req.m_symbolId then executions out.confirmsOut else [] := by
  have only : (executions out.confirmsOut).filter (fun fill => fill.symbolId = sym) =
      if sym = req.m_symbolId then executions out.confirmsOut else [] := by
    split
    · rename_i here
      refine List.filter_eq_self.mpr ?_
      intro fill member
      simp [paired.symbolId_of_mem member, here]
    · rename_i apart
      refine List.filter_eq_nil_iff.mpr ?_
      intro fill member
      simp [paired.symbolId_of_mem member, Ne.symm apart]
  rw [fillsOn, List.flatMap_append, List.filter_append, List.flatMap_singleton]
  exact congrArg (fillsOn sym past ++ ·) only

/-- What the published state says of the executions so far, twice as much volume included. -/
structure Recorded (thread : MatchingThread) (past : List (Option (OrderRequest × Outputs))) :
    Prop where
  /-- Every book knows its instrument. -/
  named : thread.engine.Named
  /-- Every instrument with a book has an entry. -/
  inRange : ∀ sym, thread.engine.books sym ≠ none → sym.toNat < MAX_INSTRUMENTS
  /-- The volume is twice the executed shares. -/
  total : ∀ sym : SymbolId, sym.toNat < MAX_INSTRUMENTS →
    (thread.marketState.get sym).totalTradedVolume.toNat =
      (2 * volume (fillsOn sym past)) % 2 ^ 32
  /-- The last trade is the last execution. -/
  last : ∀ sym : SymbolId, sym.toNat < MAX_INSTRUMENTS →
    ((thread.marketState.get sym).lastTradePrice, (thread.marketState.get sym).lastTradeQty) =
      lastTrade (0, 0) (fillsOn sym past)

/-- A fresh thread has recorded nothing. -/
theorem recorded_new : Recorded new [] where
  named := MatchingEngine.named_initializeBooks _
  inRange := by
    intro sym booked
    by_contra high
    apply booked
    have apart {other : SymbolId} (low : other.toNat < MAX_INSTRUMENTS) : sym ≠ other := by
      rintro rfl
      exact high low
    change Function.update (Function.update (Function.update (Function.update (Function.update
      (fun _ => none) 0 _) 1 _) 2 _) 3 _) 4 _ sym = none
    rw [Function.update_of_ne (apart (by decide)), Function.update_of_ne (apart (by decide)),
      Function.update_of_ne (apart (by decide)), Function.update_of_ne (apart (by decide)),
      Function.update_of_ne (apart (by decide))]
  total := by
    intro sym inRange
    simp only [new, MarketState.get, dif_pos inRange]
    rfl
  last := by
    intro sym inRange
    simp only [new, MarketState.get, dif_pos inRange]
    rfl

/-- Every message keeps the record. -/
theorem Recorded.step {thread next : MatchingThread}
    {past : List (Option (OrderRequest × Outputs))} (recorded : Recorded thread past)
    {popped : RawMessage × Timestamp} {output : Option (OrderRequest × Outputs)}
    (ran : thread.step popped = some (next, output)) : Recorded next (past ++ [output]) := by
  obtain ⟨_, rfl, rfl⟩ | ⟨req, engine, out, _, stepped, rfl, rfl⟩ := step_cases ran
  · refine ⟨recorded.named, recorded.inRange, ?_, ?_⟩
    · simp only [fillsOn_skipped]
      exact recorded.total
    · simp only [fillsOn_skipped]
      exact recorded.last
  · obtain ⟨named, paired⟩ := recorded.named.step stepped
    rw [symbolId_call] at paired
    obtain ⟨volumeAfter, lastAfter⟩ := paired.applyTrades (thread.marketState.get req.m_symbolId)
    refine ⟨named, ?_, ?_, ?_⟩
    · intro sym booked
      exact recorded.inRange sym
        (((MatchingEngine.books_of_step stepped).2 sym).not.mp booked)
    · intro sym inRange
      rw [MatchingEngine.get_publish _ _ _ _ _ inRange, fillsOn_handled sym past paired,
        volume_append]
      have before := recorded.total sym inRange
      split
      · rename_i here
        subst here
        rw [volumeAfter, before]
        omega
      · rw [before]
        rfl
    · intro sym inRange
      rw [MatchingEngine.get_publish _ _ _ _ _ inRange, fillsOn_handled sym past paired,
        lastTrade_append, ← recorded.last sym inRange]
      split
      · rename_i here
        subst here
        exact lastAfter
      · rfl

/-- The published volume of every instrument with a book is the executed one. -/
def VolumeExact (thread : MatchingThread) (handled : List (Option (OrderRequest × Outputs))) :
    Prop :=
  ∀ sym book, thread.engine.books sym = some book →
    (thread.marketState.get sym).totalTradedVolume.toNat =
      volume (fillsOn sym handled) % 2 ^ 32

/-- If the message is a new order with shares for an instrument with a book, then no order of
another trader with shares left waits there at a price that its limit crosses. -/
def Quiet (thread : MatchingThread) (popped : RawMessage × Timestamp) : Prop :=
  ∀ req, parse popped.1 popped.2 = some req → req.m_requestType = .New → req.m_quantity ≠ 0 →
    ∀ book, thread.engine.books req.m_symbolId = some book →
      ¬book.Meets req.m_side.book.opposite req

/-- Only a new order executes anything. -/
theorem volume_of_other {book next : OrderBook} {req : OrderRequest} {new : OrderId} {out : Outputs}
    (other : req.m_requestType ≠ .New)
    (ran : book.step ((call req).onBook new) = some (next, out)) :
    volume (executions out.confirmsOut) = 0 := by
  cases type : req.m_requestType with
  | New => exact absurd type other
  | Cancel =>
    simp only [call, type, Request.onBook] at ran
    exact OrderBook.volume_of_single (OrderBook.cancelOrder_cases ran).2
  | Modify =>
    simp only [call, type, Request.onBook] at ran
    exact OrderBook.volume_of_single (OrderBook.modifyOrder_cases ran).2

/-- The engine executes fewer than 2³² shares for a request, and none exactly when it is not a new
order, has no shares, finds no book or meets nothing there. -/
theorem volume_call {engine next : MatchingEngine} {req : OrderRequest} {out : Outputs}
    (ran : engine.step (call req) = some (next, out)) :
    volume (executions out.confirmsOut) < 2 ^ 32 ∧
      (volume (executions out.confirmsOut) = 0 ↔
        (req.m_requestType = .New → req.m_quantity ≠ 0 →
          ∀ book, engine.books req.m_symbolId = some book →
            ¬book.Meets req.m_side.book.opposite req)) := by
  obtain ⟨missing, -, rfl⟩ | ⟨book, after, present, stepped, -⟩ := MatchingEngine.step_cases ran
  · refine ⟨by decide, iff_of_true rfl ?_⟩
    intro _ _ book present
    rw [symbolId_call, present] at missing
    contradiction
  · rw [symbolId_call] at present
    by_cases type : req.m_requestType = .New
    · simp only [call, type, Request.onBook] at stepped
      obtain ⟨bound, exactly⟩ := OrderBook.volume_addOrder stepped
      refine ⟨bound, exactly.trans ?_⟩
      constructor
      · intro either _ some other found
        rw [present] at found
        cases found
        exact either.resolve_left some
      · intro quiet
        by_cases zero : req.m_quantity = 0
        · exact .inl zero
        · exact .inr (quiet type zero book present)
    · have quiet := volume_of_other type stepped
      rw [quiet]
      exact ⟨by decide, iff_of_true rfl fun isNew => absurd isNew type⟩

/-- Twice a volume is the volume only when it is a multiple of 2³². -/
theorem Recorded.multiple {thread : MatchingThread}
    {past : List (Option (OrderRequest × Outputs))} (recorded : Recorded thread past)
    (exact : thread.VolumeExact past) {sym : SymbolId} (booked : thread.engine.books sym ≠ none) :
    volume (fillsOn sym past) % 2 ^ 32 = 0 := by
  obtain ⟨book, present⟩ := Option.ne_none_iff_exists'.mp booked
  have published := recorded.total sym (recorded.inRange sym booked)
  rw [exact sym book present] at published
  omega

/-- From a state with the exact volume, a message keeps the volume exact exactly when it is
quiet. -/
theorem Recorded.volumeExact_iff {thread next : MatchingThread}
    {past : List (Option (OrderRequest × Outputs))} (recorded : Recorded thread past)
    (exact : thread.VolumeExact past) {popped : RawMessage × Timestamp}
    {output : Option (OrderRequest × Outputs)} (ran : thread.step popped = some (next, output)) :
    next.VolumeExact (past ++ [output]) ↔ thread.Quiet popped := by
  have nextRecorded := recorded.step ran
  obtain ⟨skipped, rfl, rfl⟩ | ⟨req, engine, out, parsed, stepped, rfl, rfl⟩ := step_cases ran
  · refine iff_of_true ?_ ?_
    · simp only [VolumeExact, fillsOn_skipped]
      exact exact
    · intro req parsed
      rw [skipped] at parsed
      contradiction
  · obtain ⟨bound, executesNone⟩ := volume_call stepped
    have paired := (recorded.named.step stepped).2
    rw [symbolId_call] at paired
    have kept := (MatchingEngine.books_of_step stepped).2
    have quiet : thread.Quiet popped ↔ volume (executions out.confirmsOut) = 0 := by
      rw [executesNone, Quiet, parsed]
      simp only [Option.some.injEq, forall_eq']
    have published {sym : SymbolId} (booked : engine.books sym ≠ none) :=
      nextRecorded.total sym (nextRecorded.inRange sym booked)
    simp only [fillsOn_handled _ past paired, volume_append] at published
    simp only [quiet, VolumeExact, fillsOn_handled _ past paired, volume_append]
    constructor
    · intro after
      by_contra some
      have booked : thread.engine.books req.m_symbolId ≠ none := by
        intro missing
        refine some (executesNone.mpr ?_)
        intro _ _ book present
        rw [missing] at present
        contradiction
      have still := (kept req.m_symbolId).not.mpr booked
      obtain ⟨book, present⟩ := Option.ne_none_iff_exists'.mp still
      have twice := published still
      have once := after req.m_symbolId book present
      have before := recorded.multiple exact booked
      rw [if_pos rfl] at twice once
      omega
    · intro zero sym book present
      have still : engine.books sym ≠ none := by simp [present]
      have twice := published still
      have before := recorded.multiple exact ((kept sym).not.mp still)
      split at twice
      · rename_i here
        rw [if_pos here]
        omega
      · rename_i apart
        have empty : volume [] = 0 := rfl
        rw [if_neg apart]
        omega

/-- Over every run from a fresh thread, the published volume is the executed one after every
message exactly when each message that is processed is quiet. -/
theorem run_volume_iff (popped : List (RawMessage × Timestamp)) :
    (∀ early, early <+: popped → ∀ thread handled, run step new early = some (thread, handled) →
      thread.VolumeExact handled) ↔
      Guarded step (fun thread message => thread.step message ≠ none → thread.Quiet message) new
        popped :=
  prefixes_iff_guarded Recorded VolumeExact Quiet
    (fun _ _ _ _ _ recorded exact ran => ⟨recorded.step ran, recorded.volumeExact_iff exact ran⟩)
    popped new [] recorded_new (by
      intro sym book present
      have booked : new.engine.books sym ≠ none := by simp [present]
      have total := recorded_new.total sym (recorded_new.inRange sym booked)
      exact total)

/-- A trader offers five shares and another trader takes them. -/
def crossingOrders : List (RawMessage × Timestamp) :=
  ((RawMessage.ofFrame 1 (ClientMsg.bytes (.new 1 0 Side.Sell 100 5))).toList ++
    (RawMessage.ofFrame 2 (ClientMsg.bytes (.new 1 0 Side.Buy 100 5))).toList).map
      fun raw => (raw, 0)

/-- After five shares have changed hands, ten are published. -/
theorem volume_fails_on_trade : ∃ thread handled,
    run step new crossingOrders = some (thread, handled) ∧
      (thread.marketState.get 0).totalTradedVolume = 10 ∧ volume (fillsOn 0 handled) = 5 ∧
      ¬thread.VolumeExact handled := by
  have shows : (run step new crossingOrders).map (fun ran =>
      ((ran.1.marketState.get 0).totalTradedVolume, volume (fillsOn 0 ran.2),
        (ran.1.engine.books 0).isSome)) = some (10, 5, true) := by decide +kernel
  rw [Option.map_eq_some_iff] at shows
  obtain ⟨⟨thread, handled⟩, ran, same⟩ := shows
  simp only [Prod.mk.injEq, Option.isSome_iff_exists] at same
  obtain ⟨published, executed, book, present⟩ := same
  refine ⟨thread, handled, ran, published, executed, ?_⟩
  intro exact
  have once := exact 0 book present
  rw [published, executed] at once
  exact absurd once (by decide)

end MatchingThread

end Exchange
