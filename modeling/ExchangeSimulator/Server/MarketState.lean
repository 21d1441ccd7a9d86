import ExchangeSimulator.Matching.MatchingEngine

/-!
# The published market state

`market_state.hpp` and the block of `runMatchingThread` that updates it after a
request: the trades of the request first, then the top of the book. The mutex of
the source makes each access one step, as the functions here are.
-/

namespace Exchange

/-- `MAX_INSTRUMENTS`. -/
def MAX_INSTRUMENTS : Nat := 256

/-- `InstrumentState`. -/
structure InstrumentState where
  /-- Best bid. -/
  bestBid : Price := 0
  /-- Best ask. -/
  bestAsk : Price := 0
  /-- Shares at the best bid. -/
  bidVolume : Quantity := 0
  /-- Shares at the best ask. -/
  askVolume : Quantity := 0
  /-- Price of the last trade. -/
  lastTradePrice : Price := 0
  /-- Quantity of the last trade. -/
  lastTradeQty : Quantity := 0
  /-- Sum of the quantities of the trade confirmations. -/
  totalTradedVolume : Quantity := 0
deriving DecidableEq, Repr

/-- `MarketState`. -/
structure MarketState where
  /-- One state for each instrument. -/
  instruments : Fin MAX_INSTRUMENTS → InstrumentState := fun _ => {}

namespace MarketState

/-- `update`; an instrument out of range is ignored. -/
def update (market : MarketState) (symbol : SymbolId) (state : InstrumentState) : MarketState :=
  if inRange : symbol.toNat < MAX_INSTRUMENTS then
    ⟨Function.update market.instruments ⟨symbol.toNat, inRange⟩ state⟩
  else market

/-- `get`; an instrument out of range has the initial state. -/
def get (market : MarketState) (symbol : SymbolId) : InstrumentState :=
  if inRange : symbol.toNat < MAX_INSTRUMENTS then market.instruments ⟨symbol.toNat, inRange⟩
  else {}

/-- The state just written. -/
theorem get_update (market : MarketState) {symbol : SymbolId}
    (inRange : symbol.toNat < MAX_INSTRUMENTS) (state : InstrumentState) :
    (market.update symbol state).get symbol = state := by
  simp only [get, update, dif_pos inRange, Function.update_self]

/-- The state of another instrument. -/
theorem get_update_of_ne (market : MarketState) {symbol other : SymbolId} (apart : other ≠ symbol)
    (state : InstrumentState) : (market.update symbol state).get other = market.get other := by
  simp only [get, update]
  split
  · split
    · simp only [Function.update_apply, Fin.mk.injEq, UInt32.toNat_inj, if_neg apart]
    · rfl
  · rfl

end MarketState

/-- One trade confirmation in the published state; other confirmations leave it alone. -/
def InstrumentState.applyTrade (state : InstrumentState) (confirm : OrderConfirm) :
    InstrumentState :=
  if confirm.type = .Trade then
    { state with
      lastTradePrice := confirm.price
      lastTradeQty := confirm.qty
      totalTradedVolume := state.totalTradedVolume + confirm.qty }
  else state

/-- `// update market state for gui` in `runMatchingThread`, after a request for `symbolId`. -/
def MatchingEngine.publish (engine : MatchingEngine) (market : MarketState) (symbolId : SymbolId)
    (confirms : List OrderConfirm) : MarketState :=
  let state := confirms.foldl InstrumentState.applyTrade (market.get symbolId)
  market.update symbolId { state with
    bestBid := engine.getBestBidPrice symbolId
    bidVolume := engine.getBestBidQty symbolId
    bestAsk := engine.getBestAskPrice symbolId
    askVolume := engine.getBestAskQty symbolId }

end Exchange
