import Mathlib.Algebra.GroupWithZero.Nat
import ExchangeSimulator.Verif.Operations

/-!
# Price-time priority

The passive side of a book as one list: best price first, and first come first
served within a price. The matcher works this list off from the front. Which
orders it takes out is decided by quantities alone: an order goes when the
foreign shares ahead of it do not use up the incoming order and, unless it
belongs to the incoming trader, the incoming order also covers its own shares.
-/

namespace Exchange

open Library

/-- An order waiting on one side. -/
structure Waiting where
  /-- The price of its level. -/
  price : Price
  /-- Its element. -/
  element : BookElement
deriving DecidableEq, Repr

namespace Waiting

/-- The shares an incoming order of a trader would trade with this one: none with an own order. -/
def foreign (waiting : Waiting) (traderId : TraderId) : Nat :=
  if waiting.element.m_traderId = traderId then 0 else waiting.element.m_quantity.toNat

/-- The incoming order takes this one out, with `ahead` foreign shares before it. -/
def TakenOut (waiting : Waiting) (traderId : TraderId) (qty ahead : Nat) : Prop :=
  ahead < qty ∧ ahead + waiting.foreign traderId ≤ qty

instance (waiting : Waiting) (traderId : TraderId) (qty ahead : Nat) :
    Decidable (waiting.TakenOut traderId qty ahead) :=
  inferInstanceAs (Decidable (ahead < qty ∧ ahead + waiting.foreign traderId ≤ qty))

/-- Shares traded before move the incoming order and what is ahead alike. -/
theorem takenOut_add (waiting : Waiting) (traderId : TraderId) (traded qty ahead : Nat) :
    waiting.TakenOut traderId (traded + qty) (traded + ahead) ↔
      waiting.TakenOut traderId qty ahead := by
  unfold TakenOut
  omega

end Waiting

/-- The foreign shares of a list of waiting orders. -/
def foreignQty (traderId : TraderId) (side : List Waiting) : Nat :=
  (side.map fun waiting => waiting.foreign traderId).sum

/-- The foreign shares of a list and its first order. -/
theorem foreignQty_cons (traderId : TraderId) (first : Waiting) (rest : List Waiting) :
    foreignQty traderId (first :: rest) = first.foreign traderId + foreignQty traderId rest := by
  simp only [foreignQty, List.map_cons, List.sum_cons]

/-- The foreign shares of two lists. -/
theorem foreignQty_append (traderId : TraderId) (first second : List Waiting) :
    foreignQty traderId (first ++ second) =
      foreignQty traderId first + foreignQty traderId second := by
  simp only [foreignQty, List.map_append, List.sum_append]

/-- A part of a list has no more foreign shares than the list. -/
theorem foreignQty_filter_le (traderId : TraderId) (select : Waiting → Bool)
    (list : List Waiting) :
    foreignQty traderId (list.filter select) ≤ foreignQty traderId list := by
  induction list with
  | nil => exact Nat.le_refl _
  | cons first rest ih =>
    by_cases selected : select first = true
    · rw [List.filter_cons_of_pos selected, foreignQty_cons, foreignQty_cons]
      omega
    · rw [List.filter_cons_of_neg selected, foreignQty_cons]
      omega

/-- A list has no foreign shares exactly when none of its orders has. -/
theorem foreignQty_eq_zero {traderId : TraderId} {list : List Waiting} :
    foreignQty traderId list = 0 ↔ ∀ waiting ∈ list, waiting.foreign traderId = 0 := by
  induction list with
  | nil => simp [foreignQty]
  | cons first rest ih =>
    rw [foreignQty_cons, Nat.add_eq_zero_iff, ih, List.forall_mem_cons]

namespace Ledger

/-- A list holds the orders of one side in price-time priority. -/
structure InPriority (ledger : Ledger) (side : BookSide) (list : List Waiting) : Prop where
  /-- Every listed order rests with its element. -/
  recorded : ∀ waiting ∈ list, ∃ order, ledger.record waiting.element.m_id = some order ∧
    order.element waiting.element.m_id = waiting.element
  /-- The orders of a price are its queue. -/
  queues : ∀ price, ledger.queue (side, price) =
    (list.filter fun waiting => waiting.price = price).map fun waiting => waiting.element.m_id
  /-- Better prices come first. -/
  sorted : list.Pairwise fun first second =>
    first.price = second.price ∨ side.before first.price second.price

/-- A listed order waits at its price. -/
theorem InPriority.mem_queue {ledger : Ledger} {side : BookSide} {list : List Waiting}
    (priority : ledger.InPriority side list) {waiting : Waiting} (member : waiting ∈ list) :
    waiting.element.m_id ∈ ledger.queue (side, waiting.price) := by
  rw [priority.queues]
  exact List.mem_map_of_mem (List.mem_filter.mpr ⟨member, by simp⟩)

/-- A price is occupied exactly when an order of it is listed. -/
theorem InPriority.occupied_iff {ledger : Ledger} {side : BookSide} {list : List Waiting}
    (priority : ledger.InPriority side list) (price : Price) :
    ledger.queue (side, price) ≠ [] ↔ ∃ waiting ∈ list, waiting.price = price := by
  rw [priority.queues, ne_eq, List.map_eq_nil_iff, List.filter_eq_nil_iff]
  simp

/-- The front order of a side heads the list. -/
theorem InPriority.front {ledger : Ledger} {side : BookSide} {list : List Waiting}
    (priority : ledger.InPriority side list) {price : Price} {id : OrderId} {order : Resting}
    (front : ledger.Front side price id order) :
    ∃ rest, list = ⟨price, order.element id⟩ :: rest := by
  have occupied : ledger.queue (side, price) ≠ [] := List.ne_nil_of_mem front.mem
  obtain ⟨waiting, member, same⟩ := (priority.occupied_iff price).mp occupied
  cases list with
  | nil => contradiction
  | cons head rest =>
    have first : head.price = price := by
      have headOccupied := (priority.occupied_iff head.price).mpr ⟨head, List.mem_cons_self, rfl⟩
      rcases front.best head.price headOccupied with equal | later
      · exact equal
      · rcases List.mem_cons.mp member with rfl | behind
        · exact same
        · rcases (List.pairwise_cons.mp priority.sorted).1 waiting behind with equal | earlier
          · rw [equal, same]
          · rw [same] at earlier
            exact absurd later (asymm_of side.before earlier)
    have heads := front.heads
    rw [priority.queues, List.filter_cons_of_pos (by simp [first]), List.map_cons,
      List.head?_cons] at heads
    cases heads
    obtain ⟨found, recorded, element⟩ := priority.recorded head List.mem_cons_self
    rw [front.recorded] at recorded
    cases recorded
    refine ⟨rest, ?_⟩
    rw [element, ← first]

/-- The first order of the list is listed once. -/
theorem InPriority.head_not_mem {ledger : Ledger} (filed : ledger.Filed) {side : BookSide}
    {head : Waiting} {rest : List Waiting} (priority : ledger.InPriority side (head :: rest))
    {waiting : Waiting} (member : waiting ∈ rest) : waiting.element.m_id ≠ head.element.m_id := by
  intro same
  have inHead := priority.mem_queue (List.mem_cons_self : head ∈ head :: rest)
  have inOwn := priority.mem_queue (List.mem_cons_of_mem head member)
  obtain ⟨order, recorded, waits⟩ := filed.recorded inHead
  rw [same] at inOwn
  have price : waiting.price = head.price := by
    have slots := (filed.slot_eq inOwn recorded).symm.trans waits
    exact congrArg Prod.snd slots
  have distinct := filed.distinct (side, head.price)
  rw [priority.queues, List.filter_cons_of_pos (by simp), List.map_cons, List.nodup_cons]
    at distinct
  apply distinct.1
  rw [← same]
  exact List.mem_map_of_mem (List.mem_filter.mpr ⟨member, by simp [price]⟩)

/-- When the first order of the list leaves, the rest is in priority. -/
theorem InPriority.drop {ledger : Ledger} (filed : ledger.Filed) {side : BookSide}
    {head : Waiting} {rest : List Waiting} (priority : ledger.InPriority side (head :: rest))
    (amount : Quantity) :
    (ledger.drop (side, head.price) head.element.m_id amount).InPriority side rest where
  recorded := by
    intro waiting member
    rw [record_drop, if_neg (priority.head_not_mem filed member)]
    exact priority.recorded waiting (List.mem_cons_of_mem head member)
  queues := by
    intro price
    rw [queue_drop]
    by_cases here : price = head.price
    · subst here
      rw [if_pos rfl, priority.queues, List.filter_cons_of_pos (by simp), List.map_cons,
        List.erase_cons_head]
    · rw [if_neg fun slots => here (congrArg Prod.snd slots), priority.queues,
        List.filter_cons_of_neg (by simpa using Ne.symm here)]
  sorted := (List.pairwise_cons.mp priority.sorted).2

/-- The order an iteration takes out, unless it only takes a part of its shares. -/
def MatchEvent.takes : MatchEvent → Option Waiting
  | .selfTrade price passive => some ⟨price, passive⟩
  | .fill price passive qty => if qty = passive.m_quantity then some ⟨price, passive⟩ else none

/-- The matcher has worked off the first `count` orders of the passive side. -/
structure WorkedOff (side : BookSide) (incoming : OrderRequest) (list : List Waiting) (qty : Nat)
    (events : List MatchEvent) (last : Ledger) (count : Nat) : Prop where
  /-- These are the orders its events take out. -/
  taken : events.filterMap MatchEvent.takes = list.take count
  /-- They are those that trade with the limit and are taken out by quantity. -/
  decided : ∀ index waiting, list[index]? = some waiting → (index < count ↔
    OrderBook.canTrade side waiting.price incoming.m_price = true ∧
      waiting.TakenOut incoming.m_traderId qty
        (foreignQty incoming.m_traderId (list.take index)))
  /-- The others are still queued. -/
  left : ∀ price, last.queue (side, price) =
    ((list.drop count).filter fun waiting => waiting.price = price).map
      fun waiting => waiting.element.m_id
  /-- Their foreign shares do not exceed the incoming order. -/
  within : foreignQty incoming.m_traderId (list.take count) ≤ qty

/-- The first order is taken out and the rest is worked off with what is left. -/
theorem WorkedOff.cons {side : BookSide} {incoming : OrderRequest} {rest : List Waiting}
    {qty count : Nat} {events : List MatchEvent} {last : Ledger} {event : MatchEvent}
    {head : Waiting} (later : WorkedOff side incoming rest qty events last count)
    (takes : event.takes = some head)
    (crosses : OrderBook.canTrade side head.price incoming.m_price = true) {before : Nat}
    (split : before = head.foreign incoming.m_traderId + qty) (positive : 0 < before) :
    WorkedOff side incoming (head :: rest) before (event :: events) last (count + 1) where
  taken := by
    rw [List.filterMap_cons_some takes, later.taken, List.take_succ_cons]
  decided := by
    intro index waiting found
    cases index with
    | zero =>
      rw [List.getElem?_cons_zero, Option.some.injEq] at found
      subst found
      refine iff_of_true (Nat.succ_pos count) ⟨crosses, ?_⟩
      simp only [List.take_zero, foreignQty, List.map_nil, List.sum_nil, Waiting.TakenOut]
      omega
    | succ index =>
      rw [List.getElem?_cons_succ] at found
      rw [List.take_succ_cons, foreignQty_cons, split, Waiting.takenOut_add,
        ← later.decided index waiting found]
      omega
  left := later.left
  within := by
    have bound := later.within
    rw [List.take_succ_cons, foreignQty_cons]
    omega

/-- Whatever trace the matcher makes until it is exhausted, it works off the passive side. -/
theorem Sweep.workedOff {side : BookSide} {incoming : OrderRequest} {ledger last : Ledger}
    {remaining final : Quantity} {events : List MatchEvent}
    (sweep : Sweep side incoming ledger remaining events last final)
    (exhausted : Exhausted side incoming.m_price last final) (filed : ledger.Filed)
    {list : List Waiting} (priority : ledger.InPriority side list) :
    ∃ count, WorkedOff side incoming list remaining.toNat events last count := by
  induction sweep generalizing list with
  | done ledger remaining =>
    refine ⟨0, rfl, ?_, priority.queues, Nat.zero_le _⟩
    intro index waiting found
    refine iff_of_false (Nat.not_lt_zero index) ?_
    rintro ⟨crosses, some, _⟩
    rcases exhausted with zero | refused
    · rw [zero] at some
      exact absurd some (Nat.not_lt_zero _)
    · have member := List.mem_of_getElem? found
      rw [refused waiting.price ((priority.occupied_iff _).mpr ⟨waiting, member, rfl⟩)] at crosses
      contradiction
  | @step ledger next last remaining after final event events first later ih =>
    have nextFiled := first.filed filed
    cases first with
    | @selfTrade price id order positive front crosses own =>
      obtain ⟨rest, rfl⟩ := priority.front front
      obtain ⟨count, worked⟩ := ih exhausted nextFiled (priority.drop filed order.quantity)
      refine ⟨count + 1, worked.cons rfl crosses ?_ positive⟩
      simp [Waiting.foreign, Resting.element, own]
    | @full price id order positive front crosses foreign covers =>
      obtain ⟨rest, rfl⟩ := priority.front front
      obtain ⟨count, worked⟩ := ih exhausted nextFiled (priority.drop filed 0)
      have takes : (MatchEvent.fill price (order.element id) order.quantity).takes =
          some ⟨price, order.element id⟩ := if_pos rfl
      have shares : Waiting.foreign ⟨price, order.element id⟩ incoming.m_traderId =
          order.quantity.toNat := if_neg foreign
      refine ⟨count + 1, worked.cons takes crosses ?_ positive⟩
      rw [shares, UInt32.toNat_sub_of_le _ _ covers]
      rw [UInt32.le_iff_toNat_le] at covers
      omega
    | @partly price id order positive front crosses foreign short =>
      obtain ⟨rest, rfl⟩ := priority.front front
      obtain ⟨rfl, rfl⟩ := later.of_zero rfl
      have shares : Waiting.foreign ⟨price, order.element id⟩ incoming.m_traderId =
          order.quantity.toNat := if_neg foreign
      rw [UInt32.lt_iff_toNat_lt] at short
      refine ⟨0, ?_, ?_, priority.queues, Nat.zero_le _⟩
      · have apart : remaining ≠ order.quantity := UInt32.ne_of_lt short
        simp [MatchEvent.takes, Resting.element, apart]
      · intro index waiting found
        refine iff_of_false (Nat.not_lt_zero index) ?_
        rintro ⟨_, room, fits⟩
        cases index with
        | zero =>
          rw [List.getElem?_cons_zero, Option.some.injEq] at found
          subst found
          omega
        | succ index =>
          rw [List.take_succ_cons, foreignQty_cons] at room
          omega

end Ledger

namespace OrderBook

/-- The orders of one level with their elements. -/
def waitingAt (book : OrderBook) (price : Price) (level : PriceLevel) : List Waiting :=
  level.mOrders.filterMap fun elem => (book.heap.read elem).map (Waiting.mk price)

/-- The orders of one side in price-time priority. -/
def waiting (book : OrderBook) (side : BookSide) : List Waiting :=
  (book.getBook side).entries.flatMap fun entry => book.waitingAt entry.1 entry.2

/-- The orders of a level wait at its price. -/
theorem price_of_waitingAt {book : OrderBook} {price : Price} {level : PriceLevel}
    {waiting : Waiting} (member : waiting ∈ book.waitingAt price level) :
    waiting.price = price := by
  obtain ⟨elem, _, found⟩ := List.mem_filterMap.mp member
  obtain ⟨element, _, rfl⟩ := Option.map_eq_some_iff.mp found
  rfl

/-- The ids of a level whose pointers lead to elements. -/
theorem ids_waitingAt {book : OrderBook} (price : Price) {level : PriceLevel}
    (valid : ∀ elem ∈ level.mOrders, ∃ element, book.heap.read elem = some element) :
    (book.waitingAt price level).map (fun waiting => waiting.element.m_id) =
      level.mOrders.map book.idAt := by
  unfold waitingAt
  generalize level.mOrders = orders at valid ⊢
  induction orders with
  | nil => rfl
  | cons elem rest ih =>
    obtain ⟨element, read⟩ := valid elem List.mem_cons_self
    rw [List.filterMap_cons_some (by rw [read]; rfl), List.map_cons, List.map_cons,
      ih fun other member => valid other (List.mem_cons_of_mem elem member), idAt_of_read read]

/-- The orders of one price among sorted levels are those of its level. -/
theorem filter_waiting (book : OrderBook) {side : BookSide} (price : Price)
    (entries : List (Price × PriceLevel))
    (sorted : entries.Pairwise fun left right => side.before left.1 right.1) :
    (entries.flatMap fun entry => book.waitingAt entry.1 entry.2).filter
        (fun waiting => waiting.price = price) =
      match OrderedMap.findIn price entries with
      | none => []
      | some level => book.waitingAt price level := by
  induction entries with
  | nil => rfl
  | cons entry rest ih =>
    obtain ⟨key, level⟩ := entry
    have later := ih (List.pairwise_cons.mp sorted).2
    rw [List.flatMap_cons, List.filter_append, later]
    by_cases here : key = price
    · subst here
      have absent : OrderedMap.findIn key rest = none := by
        cases found : OrderedMap.findIn key rest with
        | none => rfl
        | some other =>
          have after := (List.pairwise_cons.mp sorted).1 _ (OrderedMap.mem_of_findIn found)
          exact absurd after (irrefl_of side.before key)
      have all : (book.waitingAt key level).filter (fun waiting => waiting.price = key) =
          book.waitingAt key level := by
        rw [List.filter_eq_self]
        intro waiting member
        simp [price_of_waitingAt member]
      rw [absent, all]
      simp [OrderedMap.findIn]
    · have none : (book.waitingAt key level).filter
          (fun waiting => waiting.price = price) = [] := by
        rw [List.filter_eq_nil_iff]
        intro waiting member
        simp [price_of_waitingAt member, here]
      rw [none, List.nil_append]
      simp [OrderedMap.findIn, here]

/-- The orders of one side of a good book are in price-time priority. -/
theorem Good.inPriority {book : OrderBook} (good : book.Good) (side : BookSide) :
    book.ledger.InPriority side (book.waiting side) where
  recorded := by
    intro waiting member
    obtain ⟨entry, present, queued⟩ := List.mem_flatMap.mp member
    obtain ⟨elem, inLevel, found⟩ := List.mem_filterMap.mp queued
    obtain ⟨element, read, rfl⟩ := Option.map_eq_some_iff.mp found
    have level : book.level side entry.1 = some entry.2 :=
      OrderedMap.findIn_of_mem (book.getBook side).sorted present
    rw [← queueAt_of_level level] at inLevel
    obtain ⟨twin, order, twinRead, resting, same⟩ := good.sound.queued_resting inLevel
    rw [read] at twinRead
    cases twinRead
    exact ⟨order, resting, same⟩
  queues := by
    intro price
    rw [waiting, filter_waiting book price _ (book.getBook side).sorted]
    change (book.queueAt (side, price)).map book.idAt = _
    cases present : OrderedMap.findIn price (book.getBook side).entries with
    | none =>
      have absent : book.level side price = none := present
      simp only [queueAt, absent, List.map_nil]
    | some level =>
      have found : book.level side price = some level := present
      rw [queueAt_of_level found]
      refine (ids_waitingAt price ?_).symm
      intro elem member
      rw [← queueAt_of_level found] at member
      obtain ⟨element, read, _⟩ := good.sound.queued _ elem member
      exact ⟨element, read⟩
  sorted := by
    rw [waiting, List.pairwise_flatMap]
    constructor
    · intro entry _
      rw [List.pairwise_iff_forall_sublist]
      intro first second sublist
      left
      have members := sublist.subset
      rw [price_of_waitingAt (members (by simp)), price_of_waitingAt (members (by simp))]
    · refine (book.getBook side).sorted.imp ?_
      intro entry other earlier first inFirst second inSecond
      right
      rw [price_of_waitingAt inFirst, price_of_waitingAt inSecond]
      exact earlier

end OrderBook

end Exchange
