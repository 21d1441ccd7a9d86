import Mathlib.Algebra.BigOperators.Group.List.Basic
import ExchangeSimulator.Server.MarketState
import ExchangeSimulator.Verif.PriceTime

/-!
# Level totals

The total a level keeps should be the sum of the quantities queued in it, modulo
2³². The difference of the two is the drift of the level. Resting, cancelling,
requeueing and partial fills leave it at zero. Two things do not: a modification
in place changes the quantity and not the total, and an order that is filled
completely is taken off the level with the zero quantity it has by then. The
second one shows only when the level survives, that is when an order behind the
filled one stays.
-/

namespace Exchange

open Library

namespace Ledger

/-- The shares an id has left, none without a record. -/
def shares (ledger : Ledger) (id : OrderId) : Nat :=
  match ledger.record id with
  | none => 0
  | some order => order.quantity.toNat

/-- The shares resting in a slot. -/
def restingQty (ledger : Ledger) (slot : Slot) : Nat :=
  ((ledger.queue slot).map ledger.shares).sum

/-- How far the total of a slot is off. -/
def drift (ledger : Ledger) (slot : Slot) : Quantity :=
  ledger.total slot - UInt32.ofNat (ledger.restingQty slot)

/-- Every total is the sum of the queued quantities. -/
def Exact (ledger : Ledger) : Prop := ∀ slot, ledger.drift slot = 0

/-- The shares of a recorded order. -/
theorem shares_of_record {ledger : Ledger} {id : OrderId} {order : Resting}
    (recorded : ledger.record id = some order) : ledger.shares id = order.quantity.toNat := by
  simp only [shares, recorded]

/-- Shares are read off the record. -/
theorem shares_congr {ledger next : Ledger} {id : OrderId}
    (same : next.record id = ledger.record id) : next.shares id = ledger.shares id := by
  simp only [shares, same]

/-- Queued ids with the same records have the same shares. -/
theorem sum_shares_congr {ledger next : Ledger} {ids : List OrderId}
    (same : ∀ id ∈ ids, next.record id = ledger.record id) :
    (ids.map next.shares).sum = (ids.map ledger.shares).sum := by
  rw [List.map_congr_left fun id member => shares_congr (same id member)]

section Operations

variable {ledger : Ledger} {id : OrderId} {order : Resting}

/-- The ids of a slot with one of its orders written anew. -/
theorem sum_shares_erase (filed : ledger.Filed) (recorded : ledger.record id = some order)
    {next : Ledger} (others : ∀ other, other ≠ id → next.record other = ledger.record other) :
    (((ledger.queue order.slot).erase id).map next.shares).sum + order.quantity.toNat =
      ledger.restingQty order.slot := by
  have kept : (((ledger.queue order.slot).erase id).map next.shares).sum =
      (((ledger.queue order.slot).erase id).map ledger.shares).sum := by
    apply sum_shares_congr
    intro other member
    apply others
    rintro rfl
    exact (filed.distinct _).not_mem_erase member
  have split := List.sum_map_erase ledger.shares (filed.mem recorded)
  rw [shares_of_record recorded] at split
  rw [kept, restingQty]
  omega

/-- A slot other than the order's own has nothing to do with it. -/
theorem sum_shares_apart (filed : ledger.Filed) (recorded : ledger.record id = some order)
    {next : Ledger} (others : ∀ other, other ≠ id → next.record other = ledger.record other)
    {slot : Slot} (apart : slot ≠ order.slot) :
    ((ledger.queue slot).map next.shares).sum = ledger.restingQty slot := by
  apply sum_shares_congr
  intro other member
  apply others
  rintro rfl
  exact apart (filed.slot_eq member recorded).symm

/-- The drift after an order left with `amount` taken off the total. -/
theorem drift_drop (filed : ledger.Filed) (recorded : ledger.record id = some order)
    (amount : Quantity) (slot : Slot) : (ledger.drop order.slot id amount).drift slot =
      if slot = order.slot then
        if (ledger.queue order.slot).erase id = [] then 0
        else ledger.drift order.slot + order.quantity - amount
      else ledger.drift slot := by
  have others (other : OrderId) (apart : other ≠ id) :
      (ledger.drop order.slot id amount).record other = ledger.record other := by
    rw [record_drop, if_neg apart]
  simp only [drift, total_drop, restingQty, queue_drop]
  by_cases here : slot = order.slot
  · simp only [if_pos here]
    split
    · rename_i empty
      rw [empty, List.map_nil, List.sum_nil]
      decide
    · have sum := sum_shares_erase filed recorded others
      rw [restingQty] at sum
      rw [← sum, UInt32.ofNat_add, UInt32.ofNat_toNat]
      grind
  · simp only [if_neg here]
    rw [sum_shares_apart filed recorded others here]
    rfl

/-- The drift after an order came to rest. -/
theorem drift_rest (filed : ledger.Filed) (missing : ledger.record id = none) (order : Resting)
    (slot : Slot) : (ledger.rest id order).drift slot = ledger.drift slot := by
  have others {other : OrderId} {place : Slot} (member : other ∈ ledger.queue place) :
      (ledger.rest id order).record other = ledger.record other := by
    rw [record_rest, if_neg]
    rintro rfl
    exact filed.not_mem missing place member
  have own : (ledger.rest id order).shares id = order.quantity.toNat :=
    shares_of_record (by rw [record_rest, if_pos rfl])
  simp only [drift, total_rest, restingQty, queue_rest]
  by_cases here : slot = order.slot
  · simp only [if_pos here]
    rw [List.map_append, List.sum_append, List.map_singleton, List.sum_singleton, own,
      sum_shares_congr fun other member => others member, UInt32.ofNat_add, UInt32.ofNat_toNat,
      here]
    grind
  · simp only [if_neg here]
    rw [sum_shares_congr fun other member => others member]

/-- The shares of the slots after an order was written anew in its place. -/
theorem restingQty_of_record (filed : ledger.Filed) (recorded : ledger.record id = some order)
    {next : Ledger} {changed : Resting} (queues : next.queue = ledger.queue)
    (records : ∀ other, next.record other =
      if other = id then some changed else ledger.record other)
    (slot : Slot) : next.restingQty slot + (if slot = order.slot then order.quantity.toNat else 0) =
      ledger.restingQty slot + if slot = order.slot then changed.quantity.toNat else 0 := by
  have others (other : OrderId) (apart : other ≠ id) : next.record other = ledger.record other := by
    rw [records, if_neg apart]
  have own : next.shares id = changed.quantity.toNat :=
    shares_of_record (by rw [records, if_pos rfl])
  by_cases here : slot = order.slot
  · subst here
    have before := sum_shares_erase filed recorded others
    have after := List.sum_map_erase next.shares (filed.mem recorded)
    rw [own] at after
    rw [if_pos rfl, if_pos rfl, restingQty, queues]
    omega
  · rw [if_neg here, if_neg here, restingQty, queues, sum_shares_apart filed recorded others here]

/-- The drift after a partial fill. -/
theorem drift_reduce (filed : ledger.Filed) (recorded : ledger.record id = some order)
    {qty : Quantity} (covers : qty ≤ order.quantity) (slot : Slot) :
    (ledger.reduce id order qty).drift slot = ledger.drift slot := by
  have sums := restingQty_of_record filed recorded (queue_reduce ledger id qty order)
    (fun other => record_reduce ledger id other qty order) slot
  simp only [drift, total_reduce]
  by_cases here : slot = order.slot
  · subst here
    have left : (order.fill qty).quantity.toNat = order.quantity.toNat - qty.toNat :=
      UInt32.toNat_sub_of_le _ _ covers
    rw [UInt32.le_iff_toNat_le] at covers
    rw [if_pos rfl, if_pos rfl, left] at sums
    have less : ledger.restingQty order.slot =
        (ledger.reduce id order qty).restingQty order.slot + qty.toNat := by omega
    rw [if_pos rfl, less, UInt32.ofNat_add, UInt32.ofNat_toNat]
    grind
  · rw [if_neg here, if_neg here, Nat.add_zero, Nat.add_zero] at sums
    rw [if_neg here, sums]

/-- The drift after a modification in place. -/
theorem drift_rewrite (filed : ledger.Filed) (recorded : ledger.record id = some order)
    (changed : Resting) (slot : Slot) : (ledger.rewrite id changed).drift slot =
      if slot = order.slot then ledger.drift slot + order.quantity - changed.quantity
      else ledger.drift slot := by
  have sums := restingQty_of_record filed recorded (queue_rewrite ledger id changed)
    (fun other => record_rewrite ledger id other changed) slot
  simp only [drift, total_rewrite]
  by_cases here : slot = order.slot
  · rw [if_pos here, if_pos here] at sums
    have words := congrArg UInt32.ofNat sums
    rw [UInt32.ofNat_add, UInt32.ofNat_add, UInt32.ofNat_toNat, UInt32.ofNat_toNat] at words
    rw [if_pos here]
    grind
  · rw [if_neg here, if_neg here, Nat.add_zero, Nat.add_zero] at sums
    rw [if_neg here, sums]

end Operations

/-- An empty slot has no total. -/
def Settled (ledger : Ledger) : Prop := ∀ slot, ledger.queue slot = [] → ledger.drift slot = 0

/-- The foreign shares that an order taken out at a price has. -/
def MatchEvent.takesAt (event : MatchEvent) (traderId : TraderId) (price : Price) : Nat :=
  foreignQty traderId (event.takes.toList.filter fun waiting => waiting.price = price)

/-- The foreign shares of an order taken out, at its own price. -/
theorem MatchEvent.takesAt_of_takes {event : MatchEvent} {waiting : Waiting}
    (takes : event.takes = some waiting) (traderId : TraderId) : event.takesAt traderId =
      fun price => if price = waiting.price then waiting.foreign traderId else 0 := by
  funext price
  by_cases here : price = waiting.price
  · subst here
    simp [takesAt, takes, foreignQty]
  · simp [takesAt, takes, foreignQty, here, Ne.symm here]

/-- What one iteration does to the drifts: the foreign shares of an order taken out stay in the
total of a slot that survives. -/
structure Drifts (side : BookSide) (ledger next : Ledger) (fills : Price → Nat) : Prop where
  /-- The other side does not drift. -/
  apart : ∀ slot : Slot, slot.1 ≠ side → next.drift slot = ledger.drift slot
  /-- A price that stays occupied drifts by what was filled there. -/
  occupied : ∀ price, next.queue (side, price) ≠ [] →
    next.drift (side, price) = ledger.drift (side, price) + UInt32.ofNat (fills price)
  /-- Emptied slots are settled. -/
  settled : ledger.Settled → next.Settled

/-- The order that leaves the front of a side takes `amount` off the total of its slot. -/
theorem drifts_drop {ledger : Ledger} (filed : ledger.Filed) {side : BookSide} {price : Price}
    {id : OrderId} {order : Resting} (front : ledger.Front side price id order)
    {amount : Quantity} {kept : Nat} (split : order.quantity - amount = UInt32.ofNat kept) :
    Drifts side ledger (ledger.drop (side, price) id amount)
      (fun other => if other = price then kept else 0) := by
  have waits := front.slot_eq filed
  have drifted := drift_drop filed front.recorded amount
  simp only [waits] at drifted
  constructor
  · intro slot apart
    rw [drifted, if_neg]
    rintro rfl
    exact apart rfl
  · intro other occupied
    rw [drifted]
    by_cases here : other = price
    · subst here
      rw [queue_drop, if_pos rfl] at occupied
      rw [if_pos rfl, if_neg occupied, if_pos rfl, ← split]
      grind
    · rw [if_neg fun same => here (congrArg Prod.snd same), if_neg here]
      exact (UInt32.add_zero _).symm
  · intro settled slot empty
    rw [drifted]
    by_cases here : slot = (side, price)
    · subst here
      rw [queue_drop, if_pos rfl] at empty
      rw [if_pos rfl, if_pos empty]
    · rw [queue_drop, if_neg here] at empty
      rw [if_neg here]
      exact settled slot empty

/-- One iteration leaves the foreign shares of a completely filled order in the total. -/
theorem MatchStep.drifts {side : BookSide} {incoming : OrderRequest} {ledger next : Ledger}
    {remaining after : Quantity} {event : MatchEvent}
    (step : MatchStep side incoming ledger remaining event next after) (filed : ledger.Filed) :
    Drifts side ledger next (event.takesAt incoming.m_traderId) := by
  cases step with
  | @selfTrade price id order _ front _ own =>
    have share : Waiting.foreign ⟨price, order.element id⟩ incoming.m_traderId = 0 := if_pos own
    rw [MatchEvent.takesAt_of_takes rfl, share]
    exact drifts_drop filed front (UInt32.sub_self _)
  | @full price id order _ front _ foreign _ =>
    have share : Waiting.foreign ⟨price, order.element id⟩ incoming.m_traderId =
      order.quantity.toNat := if_neg foreign
    have takes : (MatchEvent.fill price (order.element id) order.quantity).takes =
      some ⟨price, order.element id⟩ := if_pos rfl
    rw [MatchEvent.takesAt_of_takes takes, share]
    exact drifts_drop filed front (by rw [UInt32.ofNat_toNat, UInt32.sub_zero])
  | @partly price id order _ front _ foreign short =>
    have drifted := drift_reduce filed front.recorded (UInt32.le_of_lt short)
    have takes : (MatchEvent.fill price (order.element id) remaining).takes = none :=
      if_neg (UInt32.ne_of_lt short)
    refine ⟨fun slot _ => drifted slot, ?_, fun settled slot empty => ?_⟩
    · intro other _
      rw [drifted]
      simp [MatchEvent.takesAt, takes, foreignQty]
    · rw [drifted]
      exact settled slot empty

/-- A trace leaves the foreign shares of the completely filled orders in the totals. -/
theorem Sweep.drifts {side : BookSide} {incoming : OrderRequest} {ledger last : Ledger}
    {remaining final : Quantity} {events : List MatchEvent}
    (sweep : Sweep side incoming ledger remaining events last final) (filed : ledger.Filed) :
    Drifts side ledger last (fun price => foreignQty incoming.m_traderId
      ((events.filterMap MatchEvent.takes).filter fun waiting => waiting.price = price)) := by
  induction sweep with
  | done =>
    refine ⟨fun _ _ => rfl, ?_, fun settled => settled⟩
    intro price _
    exact (UInt32.add_zero _).symm
  | @step ledger next last remaining after final event events first later ih =>
    have early := first.drifts filed
    have late := ih (first.filed filed)
    refine ⟨?_, ?_, fun settled => late.settled (early.settled settled)⟩
    · intro slot apart
      rw [late.apart slot apart, early.apart slot apart]
    · intro price occupied
      have split : (event :: events).filterMap MatchEvent.takes =
          event.takes.toList ++ events.filterMap MatchEvent.takes := by
        cases takes : event.takes <;> simp [takes]
      rw [late.occupied price occupied, early.occupied price (later.ne_nil occupied), split,
        List.filter_append, foreignQty_append, UInt32.ofNat_add, UInt32.add_assoc]
      rfl

/-- When an incoming order fills a foreign order completely, it also takes out an order behind it
at the same price. Each order stands with the foreign shares ahead of it. -/
def TakesBehind (side : BookSide) (incoming : OrderRequest) (filled : Waiting) (ahead : Nat)
    (behind : Waiting) (aheadOfBehind : Nat) : Prop :=
  filled.price = behind.price →
  OrderBook.canTrade side filled.price incoming.m_price = true →
  0 < filled.foreign incoming.m_traderId →
  ahead + filled.foreign incoming.m_traderId ≤ incoming.m_quantity.toNat →
  behind.TakenOut incoming.m_traderId incoming.m_quantity.toNat aheadOfBehind

instance (side : BookSide) (incoming : OrderRequest) (filled : Waiting) (ahead : Nat)
    (behind : Waiting) (aheadOfBehind : Nat) :
    Decidable (TakesBehind side incoming filled ahead behind aheadOfBehind) :=
  inferInstanceAs (Decidable (_ → _ → _ → _ → _))

/-- An incoming order empties every level in which it fills a foreign order completely. -/
def EmptiesFilledLevels (side : BookSide) (incoming : OrderRequest) (list : List Waiting) : Prop :=
  ∀ index < list.length, ∀ later < list.length, index < later →
    ∀ filled ∈ list[index]?, ∀ behind ∈ list[later]?,
      TakesBehind side incoming filled (foreignQty incoming.m_traderId (list.take index)) behind
        (foreignQty incoming.m_traderId (list.take later))

instance (side : BookSide) (incoming : OrderRequest) (list : List Waiting) :
    Decidable (EmptiesFilledLevels side incoming list) :=
  inferInstanceAs (Decidable (∀ index < list.length, ∀ later < list.length, index < later →
    ∀ filled ∈ list[index]?, ∀ behind ∈ list[later]?, TakesBehind side incoming filled
      (foreignQty incoming.m_traderId (list.take index)) behind
        (foreignQty incoming.m_traderId (list.take later))))

/-- Nothing is filled in a price that stays occupied exactly when filled levels are emptied. -/
theorem WorkedOff.emptiesFilledLevels_iff {side : BookSide} {incoming : OrderRequest}
    {list : List Waiting} {events : List MatchEvent} {last : Ledger} {count : Nat}
    (worked : WorkedOff side incoming list incoming.m_quantity.toNat events last count) :
    (∀ price, last.queue (side, price) ≠ [] → foreignQty incoming.m_traderId
      ((list.take count).filter fun waiting => waiting.price = price) = 0) ↔
      EmptiesFilledLevels side incoming list := by
  constructor
  · intro clean index _ later _ order filled filledAt behind behindAt same crosses some covered
    have taken : index < count := by
      rw [worked.decided index filled filledAt]
      refine ⟨crosses, ?_⟩
      unfold Waiting.TakenOut
      omega
    by_contra stays
    have waits : ¬later < count := by
      rw [worked.decided later behind behindAt]
      exact fun both => stays both.2
    have occupied : last.queue (side, filled.price) ≠ [] := by
      rw [worked.left, ne_eq, List.map_eq_nil_iff, List.filter_eq_nil_iff]
      intro none
      have member : behind ∈ list.drop count := by
        rw [List.mem_iff_getElem?]
        refine ⟨later - count, ?_⟩
        rw [List.getElem?_drop, show count + (later - count) = later by omega]
        exact behindAt
      exact none behind member (by simp [same])
    have zero := foreignQty_eq_zero.mp (clean filled.price occupied) filled (by
      rw [List.mem_filter, List.mem_iff_getElem?]
      refine ⟨⟨index, ?_⟩, by simp⟩
      rw [List.getElem?_take_of_lt taken]
      exact filledAt)
    omega
  · intro empties price occupied
    rw [foreignQty_eq_zero]
    intro filled member
    rw [List.mem_filter, List.mem_iff_getElem?] at member
    obtain ⟨⟨index, found⟩, here⟩ := member
    have taken : index < count := by
      by_contra beyond
      rw [List.getElem?_take_eq_none (by omega)] at found
      contradiction
    rw [List.getElem?_take_of_lt taken] at found
    rw [worked.left, ne_eq, List.map_eq_nil_iff, List.filter_eq_nil_iff] at occupied
    push Not at occupied
    obtain ⟨behind, stays, there⟩ := occupied
    obtain ⟨offset, behindAt⟩ := List.mem_iff_getElem?.mp stays
    rw [List.getElem?_drop] at behindAt
    by_contra positive
    have decided := (worked.decided index filled found).mp taken
    have same : filled.price = behind.price := by
      simp only [decide_eq_true_eq] at here there
      rw [here, there]
    have out := empties index (List.getElem?_eq_some_iff.mp found).1 (count + offset)
      (List.getElem?_eq_some_iff.mp behindAt).1 (by omega) filled found behind behindAt same
      decided.1 (by omega) decided.2.2
    have crosses : OrderBook.canTrade side behind.price incoming.m_price = true := by
      rw [← same]
      exact decided.1
    have gone := (worked.decided (count + offset) behind behindAt).mpr ⟨crosses, out⟩
    omega

/-- The matcher keeps exact totals exact exactly when it empties the levels it fills in. -/
theorem Sweep.exact_iff {side : BookSide} {incoming : OrderRequest} {ledger last : Ledger}
    {final : Quantity} {events : List MatchEvent}
    (sweep : Sweep side incoming ledger incoming.m_quantity events last final)
    (exhausted : Exhausted side incoming.m_price last final) (filed : ledger.Filed)
    (exact : ledger.Exact) {list : List Waiting} (priority : ledger.InPriority side list) :
    last.Exact ↔ EmptiesFilledLevels side incoming list := by
  obtain ⟨count, worked⟩ := sweep.workedOff exhausted filed priority
  have drifts := sweep.drifts filed
  rw [worked.taken] at drifts
  rw [← worked.emptiesFilledLevels_iff]
  have settled : last.Settled := drifts.settled fun slot _ => exact slot
  have drift (price : Price) (occupied : last.queue (side, price) ≠ []) :
      last.drift (side, price) = 0 ↔ foreignQty incoming.m_traderId
        ((list.take count).filter fun waiting => waiting.price = price) = 0 := by
    have small : foreignQty incoming.m_traderId
        ((list.take count).filter fun waiting => waiting.price = price) < 2 ^ 32 := by
      have part := foreignQty_filter_le incoming.m_traderId
        (fun waiting => waiting.price = price) (list.take count)
      have whole := worked.within
      have word := incoming.m_quantity.toNat_lt
      omega
    rw [drifts.occupied price occupied, exact, UInt32.zero_add]
    constructor
    · intro zero
      have value := congrArg UInt32.toNat zero
      rwa [UInt32.toNat_ofNat_of_lt' small] at value
    · intro zero
      rw [zero]
      rfl
  constructor
  · intro lastExact price occupied
    exact (drift price occupied).mp (lastExact (side, price))
  · intro clean slot
    obtain ⟨other, price⟩ := slot
    by_cases here : other = side
    · subst here
      by_cases occupied : last.queue (other, price) = []
      · exact settled _ occupied
      · exact (drift price occupied).mpr (clean price occupied)
    · rw [drifts.apart _ here]
      exact exact _

/-- A new order empties the levels it fills in, and a modification in place asks for the quantity
the order has. -/
def KeepsTotals (ledger : Ledger) (sides : BookSide → List Waiting) : BookRequest → Prop
  | .add incoming => EmptiesFilledLevels incoming.m_side.book.opposite incoming
      (sides incoming.m_side.book.opposite)
  | .cancel _ _ => True
  | .modify id traderId newPrice newQty => ∀ order ∈ ledger.record id, order.traderId = traderId →
      newPrice = order.price → newQty < order.cachedQty → newQty = order.quantity

/-- An order that leaves with its quantity keeps exact totals exact. -/
theorem Exact.drop {ledger : Ledger} (exact : ledger.Exact) (filed : ledger.Filed) {id : OrderId}
    {order : Resting} (recorded : ledger.record id = some order) :
    (ledger.drop order.slot id order.quantity).Exact := by
  intro slot
  rw [drift_drop filed recorded, exact, exact]
  split
  · split
    · rfl
    · grind
  · rfl

/-- An order that comes to rest leaves totals as exact as they are. -/
theorem exact_rest_iff {ledger : Ledger} (filed : ledger.Filed) {id : OrderId}
    (missing : ledger.record id = none) (order : Resting) :
    (ledger.rest id order).Exact ↔ ledger.Exact := by
  simp only [Exact, drift_rest filed missing]

/-- A call keeps exact totals exact exactly under its condition. -/
theorem LedgerStep.exact_iff {symbol : SymbolId} {ledger next : Ledger} {request : BookRequest}
    {out : Outputs} (step : LedgerStep symbol ledger request out next) (filed : ledger.Filed)
    (fresh : ledger.Fresh request) (exact : ledger.Exact) {sides : BookSide → List Waiting}
    (priority : ∀ side, ledger.InPriority side (sides side)) :
    next.Exact ↔ ledger.KeepsTotals sides request := by
  cases step with
  | filled sweep => exact sweep.exact_iff (Or.inl rfl) filed exact (priority _)
  | rested sweep _ uncrossed =>
    rw [exact_rest_iff (sweep.filed filed) (sweep.record_none fresh)]
    exact sweep.exact_iff (Or.inr uncrossed) filed exact (priority _)
  | cancelled recorded _ => exact iff_of_true (exact.drop filed recorded) trivial
  | cancelRejected => exact iff_of_true exact trivial
  | @rewritten id traderId newPrice newQty order recorded own stays smaller =>
    have drifted := drift_rewrite filed recorded (order.modify newPrice newQty)
    have changed : (order.modify newPrice newQty).quantity = newQty := rfl
    constructor
    · intro after found foundRecord _ _ _
      rw [Option.mem_def, recorded] at foundRecord
      cases foundRecord
      have zero := after order.slot
      rw [drifted, if_pos rfl, exact, changed] at zero
      grind
    · intro keeps slot
      have same := keeps order recorded own stays.symm smaller
      rw [drifted, exact, changed, same]
      split
      · grind
      · rfl
  | @requeued id traderId newPrice newQty order recorded own moves =>
    have gone : (ledger.drop order.slot id order.quantity).record id = none := by
      rw [record_drop, if_pos rfl]
    refine iff_of_true ?_ ?_
    · rw [requeue, exact_rest_iff (filed.drop recorded _) gone]
      exact exact.drop filed recorded
    · intro found foundRecord _ same smaller
      rw [Option.mem_def, recorded] at foundRecord
      cases foundRecord
      exact absurd ⟨same.symm, smaller⟩ moves
  | modifyRejected foreign =>
    refine iff_of_true exact ?_
    intro order recorded own
    exact absurd own (foreign order recorded)

end Ledger

namespace OrderBook

/-- The shares behind a pointer. -/
def qtyAt (book : OrderBook) (elem : Addr) : Nat :=
  match book.heap.read elem with
  | none => 0
  | some element => element.m_quantity.toNat

/-- The shares queued in a level. -/
def queuedQty (book : OrderBook) (level : PriceLevel) : Nat := (level.mOrders.map book.qtyAt).sum

/-- Every level's total is the sum of the queued quantities, modulo 2³². -/
def TotalsExact (book : OrderBook) : Prop :=
  ∀ level ∈ book.levels, level.mTotalQty.toNat = book.queuedQty level % 2 ^ 32

instance (book : OrderBook) : Decidable book.TotalsExact :=
  inferInstanceAs (Decidable (∀ level ∈ book.levels,
    level.mTotalQty.toNat = book.queuedQty level % 2 ^ 32))

/-- The ledger counts the shares of a level as the book does. -/
theorem Sound.restingQty_of_level {book : OrderBook} (sound : book.Sound) {side : BookSide}
    {price : Price} {level : PriceLevel} (present : book.level side price = some level) :
    book.ledger.restingQty (side, price) = book.queuedQty level := by
  have queue : book.ledger.queue (side, price) = level.mOrders.map book.idAt := by
    rw [← queueAt_of_level present]
    rfl
  rw [Ledger.restingQty, queue, List.map_map, queuedQty]
  congr 1
  apply List.map_congr_left
  intro elem member
  rw [← queueAt_of_level present] at member
  obtain ⟨element, order, read, resting, same⟩ := sound.queued_resting member
  have recorded : book.ledger.record element.m_id = some order := resting
  rw [Function.comp_apply, idAt_of_read read, Ledger.shares_of_record recorded]
  simp only [qtyAt, read]
  exact congrArg (fun element => element.m_quantity.toNat) same

/-- A word equals a natural number modulo 2³² exactly when it is the number as a word. -/
theorem toNat_eq_mod_iff (word : Quantity) (value : Nat) :
    word.toNat = value % 2 ^ 32 ↔ word - UInt32.ofNat value = 0 := by
  rw [← UInt32.toNat_ofNat', UInt32.toNat_inj]
  grind

/-- The totals of a sound book are exact exactly when those of its ledger are. -/
theorem Sound.totalsExact_iff {book : OrderBook} (sound : book.Sound) :
    book.TotalsExact ↔ book.ledger.Exact := by
  have drift {side : BookSide} {price : Price} {level : PriceLevel}
      (present : book.level side price = some level) :
      level.mTotalQty.toNat = book.queuedQty level % 2 ^ 32 ↔
        book.ledger.drift (side, price) = 0 := by
    rw [toNat_eq_mod_iff, Ledger.drift, sound.restingQty_of_level present,
      ← totalAt_of_level present]
    rfl
  constructor
  · intro exact slot
    obtain ⟨side, price⟩ := slot
    cases present : book.level side price with
    | none =>
      have total : book.ledger.total (side, price) = 0 := by
        change book.totalAt (side, price) = 0
        simp only [totalAt, present]
      have queue : book.ledger.queue (side, price) = [] := by
        change (book.queueAt (side, price)).map book.idAt = []
        simp only [queueAt, present, List.map_nil]
      rw [Ledger.drift, Ledger.restingQty, total, queue, List.map_nil, List.sum_nil]
      decide
    | some level => exact (drift present).mp (exact level (mem_levels.mpr ⟨side, price, present⟩))
  · intro exact level member
    obtain ⟨side, price, present⟩ := mem_levels.mp member
    exact (drift present).mpr (exact (side, price))

/-- The shares queued at the best price of a side. -/
def bestQueuedQty (book : OrderBook) (side : BookSide) : Nat :=
  match (book.getBook side).begin? with
  | none => 0
  | some (_, level) => book.queuedQty level

/-- The level totals, the best quantities and the volumes published for an instrument with this
book are what rests in it, modulo 2³². -/
structure ShowsTrueTotals (book : OrderBook) : Prop where
  /-- Every level's total. -/
  levels : book.TotalsExact
  /-- The quantity at the best bid. -/
  bid : book.getBestBidQty.toNat = book.bestQueuedQty .Buy % 2 ^ 32
  /-- The quantity at the best ask. -/
  ask : book.getBestAskQty.toNat = book.bestQueuedQty .Sell % 2 ^ 32
  /-- The volumes published after a request. -/
  published : ∀ (engine : MatchingEngine) (market : MarketState) (sym : SymbolId)
    (confirms : List OrderConfirm), engine.books sym = some book →
      sym.toNat < MAX_INSTRUMENTS →
        ((engine.publish market sym confirms).get sym).bidVolume.toNat =
          book.bestQueuedQty .Buy % 2 ^ 32 ∧
        ((engine.publish market sym confirms).get sym).askVolume.toNat =
          book.bestQueuedQty .Sell % 2 ^ 32

/-- The total of the best level of a side, or no total without levels. -/
theorem TotalsExact.best {book : OrderBook} (exact : book.TotalsExact) {side : BookSide}
    {shown : Quantity} (absent : (book.getBook side).begin? = none → shown = 0)
    (present : ∀ price level, (book.getBook side).begin? = some (price, level) →
      shown = level.mTotalQty) : shown.toNat = book.bestQueuedQty side % 2 ^ 32 := by
  cases front : (book.getBook side).begin? with
  | none =>
    rw [absent front, bestQueuedQty, front]
    rfl
  | some first =>
    obtain ⟨price, level⟩ := first
    have found : book.level side price = some level := OrderedMap.find?_of_begin? front
    rw [present price level front, bestQueuedQty, front]
    exact exact level (mem_levels.mpr ⟨side, price, found⟩)

/-- Exact level totals are all that is shown. -/
theorem showsTrueTotals_iff (book : OrderBook) : book.ShowsTrueTotals ↔ book.TotalsExact := by
  refine ⟨ShowsTrueTotals.levels, fun exact => ?_⟩
  have bid : book.getBestBidQty.toNat = book.bestQueuedQty .Buy % 2 ^ 32 := by
    apply exact.best
    · intro front
      change book.bids.begin? = none at front
      simp only [getBestBidQty, front]
    · intro price level front
      change book.bids.begin? = some (price, level) at front
      simp only [getBestBidQty, front]
  have ask : book.getBestAskQty.toNat = book.bestQueuedQty .Sell % 2 ^ 32 := by
    apply exact.best
    · intro front
      change book.asks.begin? = none at front
      simp only [getBestAskQty, front]
    · intro price level front
      change book.asks.begin? = some (price, level) at front
      simp only [getBestAskQty, front]
  refine ⟨exact, bid, ask, ?_⟩
  intro engine market sym confirms present inRange
  rw [MatchingEngine.publish, MarketState.get_update market inRange]
  simp only [MatchingEngine.getBestBidQty, MatchingEngine.getBestAskQty, present]
  exact ⟨bid, ask⟩

/-- A new order empties the levels it fills in, and a modification in place asks for the quantity
the order has. -/
def KeepsTotals (book : OrderBook) (request : BookRequest) : Prop :=
  book.ledger.KeepsTotals book.waiting request

instance (book : OrderBook) (request : BookRequest) : Decidable (book.KeepsTotals request) :=
  match request with
  | .add incoming => inferInstanceAs (Decidable (Ledger.EmptiesFilledLevels
      incoming.m_side.book.opposite incoming (book.waiting incoming.m_side.book.opposite)))
  | .cancel _ _ => inferInstanceAs (Decidable True)
  | .modify id traderId newPrice newQty => inferInstanceAs (Decidable (∀ order ∈ book.resting id,
      order.traderId = traderId → newPrice = order.price → newQty < order.cachedQty →
        newQty = order.quantity))

/-- A run of fresh calls from an empty book returns. All totals it shows are true exactly when
each of its new orders empties the levels it fills in and each of its modifications in place asks
for the quantity the order has. -/
theorem run_totals_iff (sym : SymbolId) (requests : List BookRequest)
    (fresh : Guarded OrderBook.step OrderBook.Fresh (OrderBook.new sym) requests) :
    (∃ last outs, run OrderBook.step (OrderBook.new sym) requests = some (last, outs)) ∧
      (Always OrderBook.step ShowsTrueTotals (fun _ => True) (OrderBook.new sym) requests ↔
        Guarded OrderBook.step KeepsTotals (OrderBook.new sym) requests) := by
  refine always_iff ?_ sym ?_ requests fresh
  · intro book request out next good nextGood exact freshRequest step
    rw [and_true, showsTrueTotals_iff, nextGood.sound.totalsExact_iff]
    rw [showsTrueTotals_iff, good.sound.totalsExact_iff] at exact
    exact step.exact_iff good.filed (good.sound.fresh freshRequest) exact good.inPriority
  · rw [showsTrueTotals_iff]
    intro level member
    contradiction

/-- A run in which a sell order takes out the whole best bid level and part of the next, and one
bid moves. -/
theorem run_totals_iff_swept :
    Always OrderBook.step ShowsTrueTotals (fun _ => True) (OrderBook.new 0)
      [place 1 1 Side.Buy 100 5, place 2 2 Side.Buy 100 3, place 3 2 Side.Buy 99 7,
        place 4 3 Side.Sell 99 10, .modify 3 2 98 4] :=
  (run_totals_iff 0 [place 1 1 Side.Buy 100 5, place 2 2 Side.Buy 100 3, place 3 2 Side.Buy 99 7,
    place 4 3 Side.Sell 99 10, .modify 3 2 98 4] (by decide)).2.mpr (by decide)

/-- A bid that is filled completely leaves its shares in the total of the level that its neighbour
keeps alive, and a bid that is reduced in place leaves the shares it gave up. -/
theorem totals_fail_on_fill_and_modify :
    Guarded OrderBook.step OrderBook.Fresh (OrderBook.new 0)
      [place 1 1 Side.Buy 100 5, place 2 2 Side.Buy 100 3, place 3 3 Side.Sell 100 5] ∧
    ¬Always OrderBook.step TotalsExact (fun _ => True) (OrderBook.new 0)
      [place 1 1 Side.Buy 100 5, place 2 2 Side.Buy 100 3, place 3 3 Side.Sell 100 5] ∧
    Guarded OrderBook.step OrderBook.Fresh (OrderBook.new 0)
      [place 1 1 Side.Buy 100 5, .modify 1 1 100 2] ∧
    ¬Always OrderBook.step TotalsExact (fun _ => True) (OrderBook.new 0)
      [place 1 1 Side.Buy 100 5, .modify 1 1 100 2] := by
  decide

end OrderBook

end Exchange
