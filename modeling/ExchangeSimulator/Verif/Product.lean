import Mathlib.Logic.Equiv.Basic
import ExchangeSimulator.Library.Routing
import ExchangeSimulator.Verif.Engine
import ExchangeSimulator.Verif.Symmetry

/-!
# The engine as a product of books

The engine routes each request to the book of its instrument and lets every new
order take the next id. Apart from the ids the books have nothing to do with one
another: each is what a lone book makes of the requests for its instrument. Two
requests for different instruments therefore change places, and if both are new
orders their ids do too. A live order is in one book only, so a request that
looks for it in another one is rejected.
-/

namespace Exchange

open Library

/-- A call on a book that may be missing; without a book it is dropped. -/
def OrderBook.stepIfAny (book : Option OrderBook) (request : BookRequest) :
    Option (Option OrderBook × Outputs) :=
  match book with
  | none => some (none, Outputs.none)
  | some book => (book.step request).map (Prod.map some id)

/-- A run of calls on a present book. -/
theorem OrderBook.run_stepIfAny (book : OrderBook) (requests : List BookRequest) :
    run stepIfAny (some book) requests =
      (run OrderBook.step book requests).map (Prod.map some id) := by
  have shows (book : OrderBook) (request : BookRequest) :
      (book.step request).map (Prod.map some id) = stepIfAny (some book) (id request) := rfl
  have same := run_map some id id shows requests book
  rw [List.map_id, List.map_id_fun] at same
  exact same.symm

/-- Without a book there is none after any calls. -/
theorem OrderBook.run_stepIfAny_none (requests : List BookRequest) (last : Option OrderBook)
    (outs : List Outputs) (ran : run stepIfAny none requests = some (last, outs)) :
    last = none := by
  induction requests generalizing outs with
  | nil =>
    cases ran
    rfl
  | cons request requests ih =>
    obtain ⟨next, output, later, dropped, rest, rfl⟩ := run_cons_eq_some ran
    cases dropped
    exact ih later rest

/-- The counter of order ids after a request. -/
def Request.nextId (next : OrderId) : Request → OrderId
  | .onOrder _ => next + 1
  | _ => next

/-- The engine as a router: by instrument, with the ids it gives out. -/
def engineRouter : Router SymbolId OrderId Request BookRequest where
  key := Request.symbolId
  call := Request.onBook
  tick := Request.nextId

namespace MatchingEngine

/-- The books and the counter. -/
def parts (engine : MatchingEngine) : (SymbolId → Option OrderBook) × OrderId :=
  (engine.books, engine.nextOrderId)

/-- The engine routes each request to a book that may be missing. -/
theorem step_parts (engine : MatchingEngine) (request : Request) :
    (engine.step request).map (Prod.map parts id) =
      engineRouter.step OrderBook.stepIfAny engine.parts request := by
  have counter : (engine.advance request).nextOrderId = request.nextId engine.nextOrderId := by
    cases request <;> rfl
  rw [step_eq, onBook, books_advance, Router.step]
  simp only [engineRouter, parts, OrderBook.stepIfAny]
  cases present : engine.books request.symbolId with
  | none =>
    simp only [Option.map_some, Prod.map_apply, parts, books_advance, counter, id_eq,
      ← present, Function.update_eq_self]
  | some book =>
    simp only [bind]
    cases book.step (request.onBook engine.nextOrderId) with
    | none => rfl
    | some taken =>
      simp only [Option.bind_some, Option.map_some, Prod.map_apply, parts, counter, id_eq]
      rfl

/-- A run of the engine in parts. -/
theorem run_parts (engine : MatchingEngine) (requests : List Request) :
    (run step engine requests).map (Prod.map parts id) =
      run (engineRouter.step OrderBook.stepIfAny) engine.parts requests := by
  have same := run_map parts id id step_parts requests engine
  rw [List.map_id, List.map_id_fun] at same
  exact same

/-- The calls for one instrument among some requests, with the ids given out from `next` on. -/
def callsFor (sym : SymbolId) (next : OrderId) (requests : List Request) : List BookRequest :=
  engineRouter.callsFor sym next requests

/-- What the engine emitted for the requests for one instrument. -/
def outputsFor (sym : SymbolId) (requests : List Request) (outs : List Outputs) : List Outputs :=
  engineRouter.outputsFor sym requests outs

/-- Each book was there from the start and ends where it would end alone on the requests for its
instrument. -/
theorem run_book {engine last : MatchingEngine} {requests : List Request} {outs : List Outputs}
    (ran : run step engine requests = some (last, outs)) {sym : SymbolId} {book : OrderBook}
    (after : last.books sym = some book) : ∃ start, engine.books sym = some start ∧
      run OrderBook.step start (callsFor sym engine.nextOrderId requests) =
        some (book, outputsFor sym requests outs) := by
  have whole := run_parts engine requests
  rw [ran, Option.map_some] at whole
  have alone := Router.run_component sym requests engine.parts last.parts outs whole.symm
  simp only [parts, after] at alone
  cases before : engine.books sym with
  | none =>
    rw [before] at alone
    exact absurd (OrderBook.run_stepIfAny_none _ _ _ alone) (by simp)
  | some start =>
    rw [before, OrderBook.run_stepIfAny, Option.map_eq_some_iff] at alone
    obtain ⟨⟨reached, emitted⟩, lone, same⟩ := alone
    cases same
    exact ⟨start, rfl, lone⟩

/-- The counter after a run. -/
theorem counter_of_run {engine last : MatchingEngine} {requests : List Request}
    {outs : List Outputs} (ran : run step engine requests = some (last, outs)) :
    last.nextOrderId.toNat = (engine.nextOrderId.toNat + orderCount requests) % 2 ^ 64 := by
  have counts (next : OrderId) : (requests.foldl Request.nextId next).toNat =
      (next.toNat + orderCount requests) % 2 ^ 64 := by
    clear ran
    induction requests generalizing next with
    | nil => exact (Nat.mod_eq_of_lt next.toNat_lt).symm
    | cons request requests ih =>
      have one : (request.nextId next).toNat = (next.toNat + request.ids) % 2 ^ 64 := by
        cases request with
        | onOrder => exact UInt64.toNat_add _ _
        | onCancel => exact (Nat.mod_eq_of_lt next.toNat_lt).symm
        | onModify => exact (Nat.mod_eq_of_lt next.toNat_lt).symm
      rw [List.foldl_cons, ih, one]
      simp only [orderCount, List.map_cons, List.sum_cons]
      omega
  have whole := run_parts engine requests
  rw [ran, Option.map_some] at whole
  have counter := Router.run_counter requests engine.parts last.parts outs whole.symm
  exact (congrArg UInt64.toNat counter).trans (counts engine.nextOrderId)

end MatchingEngine

/-! ## Requests change places -/

/-- How the ids change when two requests change places: those of two new orders are exchanged. -/
def exchangedIds (next : OrderId) : Request → Request → Equiv.Perm OrderId
  | .onOrder _, .onOrder _ => Equiv.swap next (next + 1)
  | _, _ => 1

/-- The call of the first request, made second. -/
theorem request_first (next : OrderId) (first second : Request) :
    (Symmetry.rename (exchangedIds next first second)).request (first.onBook next) =
      first.onBook (second.nextId next) := by
  cases first with
  | onOrder order =>
    cases second with
    | onOrder other =>
      have id : (Symmetry.rename (Equiv.swap next (next + 1))).ids next = next + 1 :=
        Equiv.swap_apply_left _ _
      exact congrArg (fun id => BookRequest.add { order with m_orderId := id }) id
    | onCancel => rfl
    | onModify => rfl
  | onCancel => cases second <;> rfl
  | onModify => cases second <;> rfl

/-- The call of the second request, made first. -/
theorem request_second (next : OrderId) (first second : Request) :
    (Symmetry.rename (exchangedIds next first second)).request
      (second.onBook (first.nextId next)) = second.onBook next := by
  cases second with
  | onOrder order =>
    cases first with
    | onOrder other =>
      have id : (Symmetry.rename (Equiv.swap next (next + 1))).ids (next + 1) = next :=
        Equiv.swap_apply_right _ _
      exact congrArg (fun id => BookRequest.add { order with m_orderId := id }) id
    | onCancel => rfl
    | onModify => rfl
  | onCancel => cases first <;> rfl
  | onModify => cases first <;> rfl

/-- A call on the image of a book that may be missing. -/
theorem Symmetry.stepIfAny_book (sym : Symmetry) {book : Option OrderBook}
    (fixed : book.map sym.book = book) (request : BookRequest) :
    OrderBook.stepIfAny book (sym.request request) =
      (OrderBook.stepIfAny book request).map (Prod.map (Option.map sym.book) sym.outputs) := by
  cases book with
  | none => rfl
  | some book =>
    rw [Option.map_some, Option.some.injEq] at fixed
    have image := sym.step_book book request
    rw [fixed] at image
    simp only [OrderBook.stepIfAny, image]
    cases book.step request <;> rfl

namespace MatchingEngine

/-- The engine with the order ids renamed in every book. -/
def rename (ids : Equiv.Perm OrderId) (engine : MatchingEngine) : MatchingEngine :=
  { engine with books := fun sym => (engine.books sym).map (Symmetry.rename ids).book }

/-- Exchanging ids that have not been given out leaves every book of a good engine as it is. -/
theorem Good.books_exchanged {engine : MatchingEngine} (good : engine.Good) {first second : Request}
    (room : engine.nextOrderId.toNat + first.ids + second.ids < 2 ^ 64) (sym : SymbolId) :
    (engine.books sym).map
      (Symmetry.rename (exchangedIds engine.nextOrderId first second)).book = engine.books sym := by
  cases present : engine.books sym with
  | none => rfl
  | some book =>
    obtain ⟨bookGood, -⟩ := good.books sym book present
    refine congrArg some (Symmetry.book_rename bookGood.sound ?_)
    intro id elem mapped
    obtain ⟨element, detail, _, _, _, resting⟩ := bookGood.sound.parts mapped
    have low := good.below sym id ⟨book, _, present, resting⟩
    rw [UInt64.lt_iff_toNat_lt] at low
    cases first with
    | onOrder =>
      cases second with
      | onOrder =>
        simp only [Request.ids] at room
        refine Equiv.swap_apply_of_ne_of_ne ?_ ?_
        · rintro rfl
          omega
        · rintro rfl
          rw [UInt64.toNat_add, UInt64.toNat_one, Nat.mod_eq_of_lt (by omega)] at low
          omega
      | onCancel => rfl
      | onModify => rfl
    | onCancel => rfl
    | onModify => rfl

/-- A step of the parts of an engine is a step of the engine. -/
theorem step_of_parts {engine : MatchingEngine} {request : Request}
    {next : (SymbolId → Option OrderBook) × OrderId} {out : Outputs}
    (stepped : engineRouter.step OrderBook.stepIfAny engine.parts request = some (next, out)) :
    engine.step request = some (⟨next.1, next.2⟩, out) := by
  rw [← step_parts, Option.map_eq_some_iff] at stepped
  obtain ⟨⟨reached, emitted⟩, ran, same⟩ := stepped
  cases same
  exact ran

/-- Two requests for different instruments change places: afterwards the books are the same and
the same has been emitted, but for the ids of two new orders, which are exchanged. -/
theorem Good.commutes {engine : MatchingEngine} (good : engine.Good) {first second : Request}
    (apart : first.symbolId ≠ second.symbolId)
    (room : engine.nextOrderId.toNat + first.ids + second.ids < 2 ^ 64) :
    ∃ last firstOut secondOut,
      run step engine [first, second] = some (last, [firstOut, secondOut]) ∧
      run step engine [second, first] =
        some (last.rename (exchangedIds engine.nextOrderId first second),
          [(Symmetry.rename (exchangedIds engine.nextOrderId first second)).outputs secondOut,
            (Symmetry.rename (exchangedIds engine.nextOrderId first second)).outputs
              firstOut]) := by
  let sym := Symmetry.rename (exchangedIds engine.nextOrderId first second)
  have firstRoom : engine.Room first := by
    unfold Room
    omega
  obtain ⟨between, firstOut, firstStep, engineStep⟩ := good.steps first
  obtain ⟨last, secondOut, secondStep, -⟩ := (good.next firstRoom engineStep).steps second
  have firstParts := (engine.step_parts first).symm
  have secondParts := (between.step_parts second).symm
  rw [firstStep] at firstParts
  rw [secondStep] at secondParts
  have fixed := good.books_exchanged room
  have firstCall := sym.stepIfAny_book (fixed first.symbolId) (first.onBook engine.nextOrderId)
  have secondCall := sym.stepIfAny_book (fixed second.symbolId)
    (second.onBook (first.nextId engine.nextOrderId))
  rw [request_first] at firstCall
  rw [request_second] at secondCall
  have ticks : first.nextId (second.nextId engine.nextOrderId) =
      second.nextId (first.nextId engine.nextOrderId) := by
    cases first <;> cases second <;> rfl
  obtain ⟨middle, early, late⟩ := Router.step_swap apart (Option.map sym.book) sym.outputs ticks
    (fun key _ _ => fixed key) firstCall secondCall firstParts secondParts
  refine ⟨last, firstOut, secondOut, ?_, ?_⟩
  · rw [run_cons_of_step firstStep, run_cons_of_step secondStep]
    rfl
  · have lateStep := @step_of_parts ⟨middle.1, middle.2⟩ _ _ _ late
    rw [run_cons_of_step (step_of_parts early), run_cons_of_step lateStep]
    rfl

/-! ## Ids of another instrument -/

/-- A cancel or modification that looks for a live order in the book of another instrument is
rejected and changes nothing. -/
theorem Good.rejects_elsewhere {engine : MatchingEngine} (good : engine.Good)
    {sym other : SymbolId} {id : OrderId} {book : OrderBook} (lives : engine.Lives sym id)
    (apart : other ≠ sym) (present : engine.books other = some book) (traderId : TraderId) :
    engine.step (.onCancel id other traderId) =
        some (engine, OrderBook.rejectOutputs other id traderId) ∧
      ∀ newPrice newQty, engine.step (.onModify id other traderId newPrice newQty) =
        some (engine, OrderBook.rejectOutputs other id traderId) := by
  obtain ⟨bookGood, symbol⟩ := good.books other book present
  have missing : book.orderMap id = none := by
    rw [← bookGood.sound.resting_eq_none]
    cases resting : book.resting id with
    | none => rfl
    | some order =>
      exact absurd (good.apart other sym id ⟨book, order, present, resting⟩ lives) apart
  have unchanged : Function.update engine.books other (some book) = engine.books := by
    rw [← present, Function.update_eq_self]
  constructor
  · simp only [step, onCancel, onBook, present, OrderBook.cancelOrder, missing, bind, Option.bind,
      unchanged, symbol]
  · intro newPrice newQty
    simp only [step, onModify, onBook, present, OrderBook.modifyOrder, missing, bind, Option.bind,
      unchanged, symbol]

/-- The engine is a product of independent books: over every run with fewer than 2⁶⁴ − 1 new
orders each book is what a lone book makes of the requests for its instrument, two more requests
for different instruments change places, and an id is found in the book of its instrument only. -/
theorem run_product (symbols : List SymbolId) (requests : List Request)
    (few : orderCount requests < 2 ^ 64 - 1) :
    ∃ engine outs, run step (initializeBooks symbols) requests = some (engine, outs) ∧
      (∀ sym book, engine.books sym = some book →
        run OrderBook.step (OrderBook.new sym)
            (callsFor sym (initializeBooks symbols).nextOrderId requests) =
          some (book, outputsFor sym requests outs)) ∧
      (∀ first second : Request, first.symbolId ≠ second.symbolId →
        orderCount (requests ++ [first, second]) < 2 ^ 64 - 1 →
        ∃ last firstOut secondOut,
          run step engine [first, second] = some (last, [firstOut, secondOut]) ∧
          run step engine [second, first] =
            some (last.rename (exchangedIds engine.nextOrderId first second),
              [(Symmetry.rename (exchangedIds engine.nextOrderId first second)).outputs secondOut,
                (Symmetry.rename (exchangedIds engine.nextOrderId first second)).outputs
                  firstOut])) ∧
      ∀ sym other id book, engine.Lives sym id → other ≠ sym → engine.books other = some book →
        ∀ traderId, engine.step (.onCancel id other traderId) =
            some (engine, OrderBook.rejectOutputs other id traderId) ∧
          ∀ newPrice newQty, engine.step (.onModify id other traderId newPrice newQty) =
            some (engine, OrderBook.rejectOutputs other id traderId) := by
  obtain ⟨engine, outs, ran, good⟩ := run_good symbols requests few
  refine ⟨engine, outs, ran, ?_, ?_, ?_⟩
  · intro sym book present
    obtain ⟨start, before, alone⟩ := run_book ran present
    rw [books_initializeBooks symbols sym start before] at alone
    exact alone
  · intro first second apart fewer
    refine good.commutes apart ?_
    have start : (initializeBooks symbols).nextOrderId.toNat = 1 := rfl
    rw [counter_of_run ran, start]
    simp only [orderCount, List.map_append, List.sum_append, List.map_cons, List.map_nil,
      List.sum_cons, List.sum_nil] at fewer few ⊢
    omega
  · intro sym other id book lives apart present traderId
    exact good.rejects_elsewhere lives apart present traderId

/-- The books of the sample day. -/
theorem run_product_sample : ∃ engine outs,
    run step (initializeBooks [0, 1]) sampleRequests = some (engine, outs) ∧
      ∀ sym book, engine.books sym = some book →
        run OrderBook.step (OrderBook.new sym) (callsFor sym 1 sampleRequests) =
          some (book, outputsFor sym sampleRequests outs) := by
  obtain ⟨engine, outs, ran, alone, -⟩ := run_product [0, 1] sampleRequests (by decide)
  exact ⟨engine, outs, ran, alone⟩

end MatchingEngine

end Exchange
