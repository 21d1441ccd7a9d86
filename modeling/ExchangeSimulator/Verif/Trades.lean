import ExchangeSimulator.Verif.Engine

/-!
# Trades in the confirmations

An execution is confirmed to both parties, so it stands in the confirmations as
two trades in a row. `executions` counts each pair once. That the trades of every
call come in such pairs holds of any book, in order or not: it is read off the
loops of the matcher by one rule, which carries a relation between the book the
matcher starts from and what it leaves.
-/

namespace Exchange

open Library

/-- One fill of a resting order by an incoming one. -/
structure Execution where
  /-- Instrument. -/
  symbolId : SymbolId
  /-- Price of the fill. -/
  price : Price
  /-- Shares that changed hands. -/
  qty : Quantity
deriving DecidableEq, Repr

/-- The executions that some confirmations report: two trades in a row are the two parties of
one. -/
def executions : List OrderConfirm → List Execution
  | passive :: aggressor :: later =>
    if passive.type = .Trade ∧ aggressor.type = .Trade then
      ⟨passive.symbolId, passive.price, passive.qty⟩ :: executions later
    else executions (aggressor :: later)
  | _ => []

/-- A confirmation other than a trade reports nothing. -/
theorem executions_cons {confirm : OrderConfirm} (type : confirm.type ≠ .Trade)
    (later : List OrderConfirm) : executions (confirm :: later) = executions later := by
  cases later with
  | nil => rfl
  | cons next later => rw [executions, if_neg fun both => type both.1]

/-- The shares that changed hands in some executions. -/
def volume (fills : List Execution) : Nat := (fills.map fun fill => fill.qty.toNat).sum

/-- The shares of two stretches. -/
theorem volume_append (first second : List Execution) :
    volume (first ++ second) = volume first + volume second := by
  simp only [volume, List.map_append, List.sum_append]

/-- Confirmations of one instrument whose trades come in pairs. -/
inductive Paired (symbol : SymbolId) : List OrderConfirm → Prop where
  | nil : Paired symbol []
  | other {confirm : OrderConfirm} {later : List OrderConfirm} (type : confirm.type ≠ .Trade)
      (rest : Paired symbol later) : Paired symbol (confirm :: later)
  | pair {first second : OrderConfirm} {later : List OrderConfirm}
      (trades : first.type = .Trade ∧ second.type = .Trade) (here : first.symbolId = symbol)
      (same : second.price = first.price ∧ second.qty = first.qty)
      (rest : Paired symbol later) : Paired symbol (first :: second :: later)

namespace Paired

variable {symbol : SymbolId} {first second : List OrderConfirm}

/-- Pairs of two stretches. -/
theorem append (early : Paired symbol first) (late : Paired symbol second) :
    Paired symbol (first ++ second) := by
  induction early with
  | nil => exact late
  | other type _ ih => exact .other type ih
  | pair trades here same _ ih => exact .pair trades here same ih

/-- Executions of two stretches. -/
theorem executions_append (early : Paired symbol first) (second : List OrderConfirm) :
    executions (first ++ second) = executions first ++ executions second := by
  induction early with
  | nil => rfl
  | other type _ ih => rw [List.cons_append, executions_cons type, executions_cons type, ih]
  | pair trades _ _ _ ih =>
    rw [List.cons_append, List.cons_append, executions, if_pos trades, executions, if_pos trades,
      ih, List.cons_append]

/-- Every execution is on the instrument. -/
theorem symbolId_of_mem (paired : Paired symbol first) {execution : Execution}
    (member : execution ∈ executions first) : execution.symbolId = symbol := by
  induction paired with
  | nil => contradiction
  | other type _ ih =>
    rw [executions_cons type] at member
    exact ih member
  | pair trades here _ _ ih =>
    rw [executions, if_pos trades] at member
    rcases List.mem_cons.mp member with rfl | later
    · exact here
    · exact ih later

/-- One confirmation other than a trade. -/
theorem single {confirm : OrderConfirm} (type : confirm.type ≠ .Trade) : Paired symbol [confirm] :=
  .other type .nil

end Paired

namespace OrderBook

/-! ## A rule for the loops of the matcher -/

/-- A relation between the book before the matcher, with the shares still to fill, and what some of
its iterations leave. -/
structure Carried (side : BookSide) (incoming : OrderRequest)
    (leaves : OrderBook → Quantity → Matched → Prop) : Prop where
  /-- Doing nothing is related. -/
  stop : ∀ book remaining, leaves book remaining ⟨book, remaining, Outputs.none⟩
  /-- One iteration on a level that trades is related. -/
  first : ∀ book remaining price level matched, 0 < remaining →
    book.level side price = some level →
    canTrade side price incoming.m_price = true →
    matchFirst side incoming price level book remaining = some matched →
    leaves book remaining matched
  /-- Erasing an emptied level is related. -/
  erase : ∀ book remaining price,
    leaves book remaining ⟨book.eraseIfEmpty side price, remaining, Outputs.none⟩
  /-- One stretch after another is related. -/
  compose : ∀ book remaining early late, leaves book remaining early →
    leaves early.book early.remainingQty late →
    leaves book remaining ⟨late.book, late.remainingQty, early.out.append late.out⟩

namespace Carried

variable {side : BookSide} {incoming : OrderRequest}
  {leaves : OrderBook → Quantity → Matched → Prop}

/-- The inner loop is related. -/
theorem matchLevel (carried : Carried side incoming leaves) {price : Price}
    (crosses : canTrade side price incoming.m_price = true) (iterations : Nat) (book : OrderBook)
    (remaining : Quantity) (matched : Matched)
    (ran : OrderBook.matchLevel side incoming price iterations book remaining = some matched) :
    leaves book remaining matched := by
  induction iterations generalizing book remaining matched with
  | zero => contradiction
  | succ iterations ih =>
    simp only [OrderBook.matchLevel, bind, Option.bind_eq_some_iff] at ran
    obtain ⟨level, present, ran⟩ := ran
    split at ran
    · rename_i goes
      rw [Option.bind_eq_some_iff] at ran
      obtain ⟨early, began, ran⟩ := ran
      rw [Option.bind_eq_some_iff] at ran
      obtain ⟨late, goesOn, ran⟩ := ran
      cases ran
      exact carried.compose book remaining early late
        (carried.first book remaining price level early goes.1 present crosses began)
        (ih _ _ _ goesOn)
    · cases ran
      exact carried.stop book remaining

/-- The outer loop is related. -/
theorem matchLevels (carried : Carried side incoming leaves) (iterations : Nat) (book : OrderBook)
    (remaining : Quantity) (matched : Matched)
    (ran : OrderBook.matchLevels side incoming iterations book remaining = some matched) :
    leaves book remaining matched := by
  induction iterations generalizing book remaining matched with
  | zero => contradiction
  | succ iterations ih =>
    rw [OrderBook.matchLevels] at ran
    split at ran
    · split at ran
      · cases ran
        exact carried.stop book remaining
      · split at ran
        · rename_i crosses
          simp only [bind, Option.bind_eq_some_iff] at ran
          obtain ⟨early, level, late, goesOn, ran⟩ := ran
          cases ran
          have emptied := carried.compose _ _ _ _
            (carried.erase early.book early.remainingQty _) (ih _ _ _ goesOn)
          exact carried.compose book remaining early _
            (carried.matchLevel crosses _ book remaining early level) emptied
        · cases ran
          exact carried.stop book remaining
    · cases ran
      exact carried.stop book remaining

/-- The matcher is related. -/
theorem matchAgainst (carried : Carried side incoming leaves) {book : OrderBook}
    {remaining : Quantity} {matched : Matched}
    (ran : book.matchAgainst side incoming remaining = some matched) :
    leaves book remaining matched :=
  carried.matchLevels _ book remaining matched ran

end Carried

/-- What an iteration does, in any book: the front order of the level belongs to the trader and
leaves, or it is filled and leaves, or it is filled partly. -/
theorem matchFirst_cases {side : BookSide} {incoming : OrderRequest} {price : Price}
    {level : PriceLevel} {book : OrderBook} {remaining : Quantity} {matched : Matched}
    (ran : matchFirst side incoming price level book remaining = some matched) :
    ∃ elem element, elem ∈ level.mOrders ∧ book.heap.read elem = some element ∧
      (element.m_traderId = incoming.m_traderId ∧ matched =
        ⟨(book.setLevel side price (lessLevel level elem element.m_quantity)).deleteOrder
          element.m_id elem, remaining, selfTradeOutputs book.symbol side price element⟩ ∨
      element.m_traderId ≠ incoming.m_traderId ∧ element.m_quantity ≤ remaining ∧ matched =
        ⟨((book.setQty elem element 0).setLevel side price (lessLevel level elem 0)).deleteOrder
            element.m_id elem, remaining - element.m_quantity,
          tradeOutputs book.symbol side price incoming element element.m_quantity⟩ ∨
      element.m_traderId ≠ incoming.m_traderId ∧ remaining < element.m_quantity ∧ matched =
        ⟨(book.setQty elem element (element.m_quantity - remaining)).setLevel side price
            (level.reduceQty remaining), 0,
          tradeOutputs book.symbol side price incoming element remaining⟩) := by
  cases queue : level.mOrders with
  | nil => simp [matchFirst, PriceLevel.peekFirst, queue] at ran
  | cons elem rest =>
    cases read : book.heap.read elem with
    | none => simp [matchFirst, PriceLevel.peekFirst, queue, read] at ran
    | some element =>
      refine ⟨elem, element, List.mem_cons_self, read, ?_⟩
      by_cases own : element.m_traderId = incoming.m_traderId
      · rw [matchFirst_own queue read own] at ran
        cases ran
        exact .inl ⟨own, rfl⟩
      · by_cases covers : element.m_quantity ≤ remaining
        · rw [matchFirst_full queue read own covers] at ran
          cases ran
          exact .inr (.inl ⟨own, covers, rfl⟩)
        · have short := UInt32.not_le.mp covers
          rw [matchFirst_partly queue read own short] at ran
          cases ran
          exact .inr (.inr ⟨own, short, rfl⟩)

/-- Erasing an emptied level leaves the instrument. -/
@[simp]
theorem symbol_eraseIfEmpty (book : OrderBook) (side : BookSide) (price : Price) :
    (book.eraseIfEmpty side price).symbol = book.symbol := by
  rw [eraseIfEmpty]
  split
  · rfl
  · split
    · exact symbol_setBook _ _ _
    · rfl

/-- The confirmations of one fill are a pair. -/
theorem paired_tradeOutputs (symbol : SymbolId) (side : BookSide) (price : Price)
    (incoming : OrderRequest) (element : BookElement) (qty : Quantity) :
    Paired symbol (tradeOutputs symbol side price incoming element qty).confirmsOut :=
  .pair ⟨rfl, rfl⟩ rfl ⟨rfl, rfl⟩ .nil

/-- One fill executes its shares. -/
theorem volume_tradeOutputs (symbol : SymbolId) (side : BookSide) (price : Price)
    (incoming : OrderRequest) (element : BookElement) (qty : Quantity) :
    volume (executions (tradeOutputs symbol side price incoming element qty).confirmsOut) =
      qty.toNat := rfl

/-- The matcher keeps the instrument, confirms trades in pairs, and executes the shares it takes
off the incoming order. -/
theorem carried_paired (side : BookSide) (incoming : OrderRequest) :
    Carried side incoming fun book remaining matched => matched.book.symbol = book.symbol ∧
      Paired book.symbol matched.out.confirmsOut ∧
      remaining.toNat = matched.remainingQty.toNat +
        volume (executions matched.out.confirmsOut) where
  stop := fun _ _ => ⟨rfl, .nil, rfl⟩
  first := by
    intro book remaining price level matched _ _ _ ran
    obtain ⟨elem, element, _, _, ⟨_, rfl⟩ | ⟨_, covers, rfl⟩ | ⟨_, _, rfl⟩⟩ :=
      matchFirst_cases ran
    · exact ⟨symbol_setBook book side _, .single nofun, rfl⟩
    · refine ⟨symbol_setBook (book.setQty _ _ _) side _, paired_tradeOutputs _ _ _ _ _ _, ?_⟩
      have less := UInt32.toNat_sub_of_le _ _ covers
      rw [UInt32.le_iff_toNat_le] at covers
      rw [volume_tradeOutputs, less]
      omega
    · refine ⟨symbol_setBook (book.setQty _ _ _) side _, paired_tradeOutputs _ _ _ _ _ _, ?_⟩
      rw [volume_tradeOutputs]
      exact (Nat.zero_add _).symm
  erase := fun book _ price => ⟨symbol_eraseIfEmpty book side price, .nil, rfl⟩
  compose := by
    intro book remaining early late first second
    obtain ⟨symbol, pairs, shares⟩ := first
    obtain ⟨laterSymbol, laterPairs, laterShares⟩ := second
    rw [symbol] at laterPairs
    refine ⟨laterSymbol.trans symbol, pairs.append laterPairs, ?_⟩
    have both := pairs.executions_append late.out.confirmsOut
    simp only [Outputs.append, both, volume_append]
    omega

/-! ## Calls and requests -/

/-- Taking a pointer out of a level keeps the instrument. -/
theorem symbol_removeFromLevel {book next : OrderBook} {side : BookSide} {elem : Addr}
    {price : Price} (ran : book.removeFromLevel side elem price = some next) :
    next.symbol = book.symbol := by
  rw [removeFromLevel] at ran
  split at ran
  · cases ran
    rfl
  · simp only [bind, Option.bind_eq_some_iff] at ran
    obtain ⟨level, _, ran⟩ := ran
    split at ran
    · cases ran
      exact symbol_setBook _ _ _
    · cases ran
      exact symbol_setBook _ _ _

/-- Putting a pointer into a level keeps the instrument. -/
theorem symbol_insertIntoLevel {book next : OrderBook} {side : BookSide} {elem : Addr}
    {price : Price} (ran : book.insertIntoLevel side elem price = some next) :
    next.symbol = book.symbol := by
  have created : (book.getOrCreateLevel side price).1.symbol = book.symbol := by
    rw [getOrCreateLevel]
    split
    · rfl
    · exact symbol_setBook _ _ _
  simp only [insertIntoLevel, bind, Option.bind_eq_some_iff] at ran
  obtain ⟨level, _, ran⟩ := ran
  cases ran
  exact (symbol_setBook _ _ _).trans created

/-- A new order is acknowledged and matched; what is left of it may come to rest. -/
theorem addOrder_cases {book next : OrderBook} {incoming : OrderRequest} {out : Outputs}
    (ran : book.addOrder incoming = some (next, out)) :
    ∃ matched, book.matchAgainst incoming.m_side.book.opposite incoming incoming.m_quantity =
        some matched ∧ out = (acceptedOutputs book.symbol incoming).append matched.out ∧
      next.symbol = matched.book.symbol := by
  simp only [addOrder, bind, Option.bind_eq_some_iff] at ran
  obtain ⟨matched, ranMatcher, ran⟩ := ran
  refine ⟨matched, ranMatcher, ?_⟩
  split at ran
  · cases ran
    exact ⟨rfl, rfl⟩
  · rw [Option.bind_eq_some_iff] at ran
    obtain ⟨placed, inserted, ran⟩ := ran
    have kept := symbol_insertIntoLevel inserted
    cases ran
    exact ⟨rfl, kept⟩

/-- A cancel is answered with one confirmation. -/
theorem cancelOrder_cases {book next : OrderBook} {id : OrderId} {traderId : TraderId}
    {out : Outputs} (ran : book.cancelOrder id traderId = some (next, out)) :
    next.symbol = book.symbol ∧ ∃ confirm, out.confirmsOut = [confirm] ∧ confirm.type ≠ .Trade := by
  rw [cancelOrder] at ran
  split at ran
  · cases ran
    exact ⟨rfl, _, rfl, by rintro ⟨⟩⟩
  · simp only [bind, Option.bind_eq_some_iff] at ran
    obtain ⟨element, _, ran⟩ := ran
    split at ran
    · simp only [Option.bind_eq_some_iff] at ran
      obtain ⟨detail, _, removed, removes, ran⟩ := ran
      have kept := symbol_removeFromLevel removes
      cases ran
      exact ⟨kept, _, rfl, by rintro ⟨⟩⟩
    · cases ran
      exact ⟨rfl, _, rfl, by rintro ⟨⟩⟩

/-- A modification is answered with one confirmation. -/
theorem modifyOrder_cases {book next : OrderBook} {id : OrderId} {traderId : TraderId}
    {newPrice : Price} {newQty : Quantity} {out : Outputs}
    (ran : book.modifyOrder id traderId newPrice newQty = some (next, out)) :
    next.symbol = book.symbol ∧ ∃ confirm, out.confirmsOut = [confirm] ∧ confirm.type ≠ .Trade := by
  rw [modifyOrder] at ran
  split at ran
  · cases ran
    exact ⟨rfl, _, rfl, by rintro ⟨⟩⟩
  · simp only [bind, Option.bind_eq_some_iff] at ran
    obtain ⟨element, _, ran⟩ := ran
    split at ran
    · rw [Option.bind_eq_some_iff] at ran
      obtain ⟨detail, _, ran⟩ := ran
      split at ran
      · cases ran
        exact ⟨rfl, _, rfl, by rintro ⟨⟩⟩
      · simp only [Option.bind_eq_some_iff] at ran
        obtain ⟨removed, removes, inserted, inserts, ran⟩ := ran
        have kept := symbol_removeFromLevel removes
        cases ran
        exact ⟨(symbol_insertIntoLevel inserts).trans kept, _, rfl, by rintro ⟨⟩⟩
    · cases ran
      exact ⟨rfl, _, rfl, by rintro ⟨⟩⟩

/-- Every call keeps the instrument and confirms trades in pairs. -/
theorem paired_of_step {book next : OrderBook} {request : BookRequest} {out : Outputs}
    (ran : book.step request = some (next, out)) :
    next.symbol = book.symbol ∧ Paired book.symbol out.confirmsOut := by
  cases request with
  | add incoming =>
    obtain ⟨matched, ranMatcher, rfl, symbol⟩ := addOrder_cases ran
    obtain ⟨kept, pairs, _⟩ := (carried_paired _ incoming).matchAgainst ranMatcher
    exact ⟨symbol.trans kept, .other nofun pairs⟩
  | cancel id traderId =>
    obtain ⟨symbol, confirm, emitted, type⟩ := cancelOrder_cases ran
    exact ⟨symbol, emitted ▸ .single type⟩
  | modify id traderId newPrice newQty =>
    obtain ⟨symbol, confirm, emitted, type⟩ := modifyOrder_cases ran
    exact ⟨symbol, emitted ▸ .single type⟩

end OrderBook

namespace MatchingEngine

/-- Every book knows its instrument. -/
def Named (engine : MatchingEngine) : Prop :=
  ∀ sym book, engine.books sym = some book → book.symbol = sym

/-- What a request does to any engine: nothing without a book, one call on the book with one. -/
theorem step_cases {engine next : MatchingEngine} {request : Request} {out : Outputs}
    (ran : engine.step request = some (next, out)) :
    (engine.books request.symbolId = none ∧ next = engine.advance request ∧ out = Outputs.none) ∨
      ∃ book after, engine.books request.symbolId = some book ∧
        book.step (request.onBook engine.nextOrderId) = some (after, out) ∧
        next = { engine.advance request with
          books := Function.update engine.books request.symbolId (some after) } := by
  rw [step_eq, onBook, books_advance] at ran
  cases present : engine.books request.symbolId with
  | none =>
    rw [present] at ran
    cases ran
    exact .inl ⟨rfl, rfl, rfl⟩
  | some book =>
    rw [present] at ran
    simp only [bind, Option.bind_eq_some_iff] at ran
    obtain ⟨⟨after, emitted⟩, stepped, ran⟩ := ran
    cases ran
    exact .inr ⟨book, after, rfl, stepped, rfl⟩

/-- A request changes no book but that of its instrument, and neither adds nor removes one. -/
theorem books_of_step {engine next : MatchingEngine} {request : Request} {out : Outputs}
    (ran : engine.step request = some (next, out)) :
    (∀ sym, sym ≠ request.symbolId → next.books sym = engine.books sym) ∧
      ∀ sym, next.books sym = none ↔ engine.books sym = none := by
  obtain ⟨_, rfl, _⟩ | ⟨book, after, present, _, rfl⟩ := step_cases ran
  · rw [books_advance]
    exact ⟨fun _ _ => rfl, fun _ => Iff.rfl⟩
  · refine ⟨fun sym apart => Function.update_of_ne apart _ _, ?_⟩
    intro sym
    by_cases here : sym = request.symbolId
    · subst here
      simp [present]
    · simp only [Function.update_of_ne here]

/-- Every request keeps the books named and confirms trades of its instrument in pairs. -/
theorem Named.step {engine next : MatchingEngine} (named : engine.Named) {request : Request}
    {out : Outputs} (ran : engine.step request = some (next, out)) :
    next.Named ∧ Paired request.symbolId out.confirmsOut := by
  obtain ⟨_, rfl, rfl⟩ | ⟨book, after, present, stepped, rfl⟩ := step_cases ran
  · refine ⟨?_, .nil⟩
    rw [Named, books_advance]
    exact named
  · obtain ⟨symbol, pairs⟩ := OrderBook.paired_of_step stepped
    rw [named _ book present] at symbol pairs
    refine ⟨?_, pairs⟩
    intro sym other found
    simp only [Function.update_apply] at found
    split at found
    · rename_i here
      cases found
      exact symbol.trans here.symm
    · exact named sym other found

/-- The books of a fresh engine are named. -/
theorem named_initializeBooks (symbols : List SymbolId) : (initializeBooks symbols).Named := by
  intro sym book present
  rw [books_initializeBooks symbols sym book present]
  rfl

end MatchingEngine

end Exchange
