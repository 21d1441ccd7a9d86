import ExchangeSimulator.Containers.SpscQueue
import ExchangeSimulator.Library.Ring
import ExchangeSimulator.Library.Run

/-!
# The queue is a bounded channel

An index of the queue is a counter seen through the mask: `head_` counts the
items pushed and `tail_` the items popped, both modulo the number of slots.
Between its load and its store each thread works with a copy of the other
thread's index that may be out of date, and it is out of date on the safe side:
the producer may see too many items waiting and the consumer too few. `Follows`
states this for every point of both calls, every atomic step keeps it, and so
does every interleaving.
-/

namespace Exchange

open Library

namespace Capacity

/-- The number of slots is a power of two. -/
theorem isPowerOfTwo (cap : Capacity) : cap.value.toNat.isPowerOfTwo := by
  have large : 2 ≤ cap.value.toNat := UInt64.le_iff_toNat_le.mp cap.large
  have masked := congrArg UInt64.toNat cap.power
  rw [UInt64.toNat_and, UInt64.toNat_sub_of_le _ _ (by
    rw [UInt64.le_iff_toNat_le]
    exact Nat.le_of_succ_le large)] at masked
  exact (Nat.and_sub_one_eq_zero_iff_isPowerOfTwo (by omega)).mp masked

/-- Masking an index takes it modulo the number of slots. -/
theorem toNat_and_mask (cap : Capacity) (index : UInt64) :
    (index &&& SPSCQueue.MASK cap).toNat = index.toNat % cap.value.toNat := by
  have large : 2 ≤ cap.value.toNat := UInt64.le_iff_toNat_le.mp cap.large
  obtain ⟨bits, power⟩ := cap.isPowerOfTwo
  rw [UInt64.toNat_and, SPSCQueue.MASK, UInt64.toNat_sub_of_le _ _ (by
    rw [UInt64.le_iff_toNat_le]
    exact Nat.le_of_succ_le large)]
  change index.toNat &&& (cap.value.toNat - 1) = _
  rw [power, Nat.and_two_pow_sub_one_eq_mod]

/-- Words wrap at a multiple of the number of slots. -/
theorem dvd_word (cap : Capacity) : cap.value.toNat ∣ 2 ^ 64 := by
  obtain ⟨bits, power⟩ := cap.isPowerOfTwo
  have word := cap.value.toNat_lt
  rw [power] at word ⊢
  have few : bits < 64 := (Nat.pow_lt_pow_iff_right (by decide)).mp word
  exact Nat.pow_dvd_pow 2 (Nat.le_of_lt few)

end Capacity

namespace SPSCQueue

variable {T : Type} {cap : Capacity}

/-- An index is a counter modulo the number of slots. -/
def Counts (cap : Capacity) (index : UInt64) (count : Nat) : Prop :=
  index.toNat = count % cap.value.toNat

/-- The masked next index counts one more. -/
theorem Counts.next {index : UInt64} {count : Nat} (counts : Counts cap index count) :
    Counts cap ((index + 1) &&& MASK cap) (count + 1) := by
  rw [Counts, cap.toNat_and_mask, UInt64.toNat_add, Nat.mod_mod_of_dvd _ cap.dvd_word]
  change (index.toNat + 1) % cap.value.toNat = _
  rw [show index.toNat = count % cap.value.toNat from counts, Nat.mod_add_mod]

/-- The masked difference of two indices is the difference of their counters. -/
theorem Counts.sub {high low : UInt64} {more less : Nat} (above : Counts cap high more)
    (below : Counts cap low less) (ordered : less ≤ more)
    (near : more < less + cap.value.toNat) :
    ((high - low) &&& MASK cap).toNat = more - less := by
  have highLow : high.toNat = more % cap.value.toNat := above
  have lowLow : low.toNat = less % cap.value.toNat := below
  obtain ⟨turns, word⟩ := cap.dvd_word
  rw [cap.toNat_and_mask, UInt64.toNat_sub, Nat.mod_mod_of_dvd _ cap.dvd_word]
  have small : low.toNat < 2 ^ 64 := low.toNat_lt
  -- modulo the number of slots, the difference of the indices is that of the counters
  have congruent : 2 ^ 64 - low.toNat + high.toNat ≡ more - less [MOD cap.value.toNat] := by
    apply Nat.ModEq.add_right_cancel' low.toNat
    have whole : 2 ^ 64 - low.toNat + high.toNat + low.toNat = 2 ^ 64 + high.toNat := by omega
    have parts : more - less + low.toNat ≡ more - less + less [MOD cap.value.toNat] := by
      rw [lowLow]
      exact Nat.ModEq.add_left _ (Nat.mod_modEq _ _)
    rw [whole]
    refine Nat.ModEq.trans ?_ parts.symm
    rw [Nat.sub_add_cancel ordered, highLow, word]
    refine Nat.ModEq.trans ?_ (Nat.mod_modEq _ _)
    rw [Nat.ModEq, Nat.mul_add_mod]
  rw [congruent]
  exact Nat.mod_eq_of_lt (by omega)

/-- The slot a counter points to. -/
theorem Counts.eq {high low : UInt64} {more less : Nat} (above : Counts cap high more)
    (below : Counts cap low less) (ordered : less ≤ more)
    (near : more < less + cap.value.toNat) : high = low ↔ more = less := by
  rw [← UInt64.toNat_inj, show high.toNat = _ from above, show low.toNat = _ from below]
  exact mod_eq_iff ordered near

/-- The producer finds the queue full exactly when all slots but one are waiting. -/
theorem Counts.full {high low : UInt64} {more less : Nat} (above : Counts cap high more)
    (below : Counts cap low less) (ordered : less ≤ more)
    (near : more < less + cap.value.toNat) :
    (high + 1) &&& MASK cap = low ↔ more + 1 = less + cap.value.toNat := by
  rw [← UInt64.toNat_inj, show ((high + 1) &&& MASK cap).toNat = _ from above.next,
    show low.toNat = _ from below]
  exact succ_mod_eq_iff ordered near

/-- The queue holds one item fewer than it has slots. -/
theorem capacity_toNat (queue : SPSCQueue T cap) : queue.capacity.toNat = cap.value.toNat - 1 := by
  have large : 2 ≤ cap.value.toNat := UInt64.le_iff_toNat_le.mp cap.large
  exact UInt64.toNat_sub_of_le _ _ (UInt64.le_iff_toNat_le.mpr (Nat.le_of_succ_le large))

/-- The slots as cells of a ring. -/
def cells (queue : SPSCQueue T cap) (cell : Nat) : T := queue.buffer_ (UInt64.ofNat cell)

/-- The cell an index points to. -/
theorem Counts.cell {index : UInt64} {count : Nat} (counts : Counts cap index count)
    (queue : SPSCQueue T cap) : queue.cells (count % cap.value.toNat) = queue.buffer_ index := by
  rw [cells, ← show index.toNat = _ from counts, UInt64.ofNat_toNat]

/-- What the producer knows at its point of a call. -/
def Producer.Knows (producer : Producer T) (queue : SPSCQueue T cap) (pushed popped : Nat) : Prop :=
  match producer with
  | .idle => True
  | .loaded _ head => head = queue.head_
  | .checked _ head => head = queue.head_ ∧ pushed + 1 < popped + cap.value.toNat
  | .written item head => head = queue.head_ ∧ pushed + 1 < popped + cap.value.toNat ∧
      queue.buffer_ queue.head_ = item

/-- What the consumer knows at its point of a call. -/
def Consumer.Knows (consumer : Consumer T) (queue : SPSCQueue T cap) (pushed : List T)
    (popped : Nat) : Prop :=
  match consumer with
  | .idle => True
  | .loaded tail => tail = queue.tail_
  | .checked tail => tail = queue.tail_ ∧ popped < pushed.length
  | .taken tail item => tail = queue.tail_ ∧ pushed[popped]? = some item

/-- What the producer knows stays good when another item is popped. -/
theorem Producer.Knows.pop {producer : Producer T} {queue next : SPSCQueue T cap}
    {pushed popped : Nat} (knows : producer.Knows queue pushed popped)
    (head : next.head_ = queue.head_) (slots : next.buffer_ = queue.buffer_) :
    producer.Knows next pushed (popped + 1) := by
  cases producer with
  | idle => trivial
  | loaded item own => exact Eq.trans knows head.symm
  | checked item own =>
    obtain ⟨same, room⟩ := knows
    exact ⟨same.trans head.symm, by omega⟩
  | written item own =>
    obtain ⟨same, room, slot⟩ := knows
    exact ⟨same.trans head.symm, by omega, by rw [slots, head]; exact slot⟩

/-- What the consumer knows stays good when another item is pushed. -/
theorem Consumer.Knows.push {consumer : Consumer T} {queue next : SPSCQueue T cap}
    {pushed : List T} {popped : Nat} (knows : consumer.Knows queue pushed popped)
    (tail : next.tail_ = queue.tail_) (item : T) :
    consumer.Knows next (pushed ++ [item]) popped := by
  cases consumer with
  | idle => trivial
  | loaded own => exact Eq.trans knows tail.symm
  | checked own =>
    obtain ⟨same, waits⟩ := knows
    rw [Consumer.Knows, List.length_append]
    exact ⟨same.trans tail.symm, by omega⟩
  | taken own found =>
    obtain ⟨same, first⟩ := knows
    have low := (List.getElem?_eq_some_iff.mp first).1
    refine ⟨same.trans tail.symm, ?_⟩
    rw [List.getElem?_append_left low]
    exact first

/-- The slot the producer is about to write or has just written. -/
def Producer.writing : Producer T → Option UInt64
  | .checked _ head | .written _ head => some head
  | _ => none

/-- The slot the consumer is about to read or has just read. -/
def Consumer.reading : Consumer T → Option UInt64
  | .checked tail | .taken tail _ => some tail
  | _ => none

/-- The items that the completed calls have pushed. -/
def pushedItems (completed : List (Completed T)) : List T :=
  completed.filterMap fun
    | .pushed item => some item
    | _ => none

/-- The items that the completed calls have popped. -/
def poppedItems (completed : List (Completed T)) : List T :=
  completed.filterMap fun
    | .popped item => some item
    | _ => none

namespace Threads

/-- The queue and both threads agree with the items pushed and popped so far. -/
structure Follows (threads : Threads T cap) (pushed popped : List T) : Prop where
  /-- The slots are a ring of the items. -/
  ring : Ring cap.value.toNat threads.queue.cells pushed popped
  /-- `head_` counts the pushed items. -/
  head : Counts cap threads.queue.head_ pushed.length
  /-- `tail_` counts the popped items. -/
  tail : Counts cap threads.queue.tail_ popped.length
  /-- The producer's copies are good. -/
  producer : threads.producer.Knows threads.queue pushed.length popped.length
  /-- The consumer's copies are good. -/
  consumer : threads.consumer.Knows threads.queue pushed popped.length

variable {threads next : Threads T cap} {pushed popped : List T} {completed : Completed T}

/-- A fresh queue follows an empty history. -/
theorem follows_new [Inhabited T] : (new : Threads T cap).Follows [] [] where
  ring := by
    refine ⟨List.nil_prefix, ?_, by simp⟩
    have large : 2 ≤ cap.value.toNat := UInt64.le_iff_toNat_le.mp cap.large
    simp only [List.length_nil]
    omega
  head := (Nat.zero_mod _).symm
  tail := (Nat.zero_mod _).symm
  producer := trivial
  consumer := trivial

/-- A step of the producer keeps the agreement. -/
theorem Follows.producerStep (follows : threads.Follows pushed popped)
    (stepped : threads.producerStep = some (next, completed)) :
    next.Follows (pushed ++ pushedItems [completed]) (popped ++ poppedItems [completed]) := by
  obtain ⟨ring, head, tail, producer, consumer⟩ := follows
  have above := ring.le
  cases point : threads.producer with
  | idle => simp [Threads.producerStep, point] at stepped
  | loaded item own =>
    rw [point] at producer
    have own_eq : own = threads.queue.head_ := producer
    subst own_eq
    simp only [Threads.producerStep, point] at stepped
    split at stepped
    · cases stepped
      simp only [pushedItems, poppedItems, List.filterMap_cons, List.filterMap_nil,
        List.append_nil]
      exact ⟨ring, head, tail, trivial, consumer⟩
    · rename_i notFull
      cases stepped
      simp only [pushedItems, poppedItems, List.filterMap_cons, List.filterMap_nil,
        List.append_nil]
      refine ⟨ring, head, tail, ⟨rfl, ?_⟩, consumer⟩
      -- the loaded tail is current, and it can only move on from here
      have full := head.full tail above ring.room
      have room := ring.room
      have apart : pushed.length + 1 ≠ popped.length + cap.value.toNat := fun all =>
        notFull (full.mpr all)
      omega
  | checked item own =>
    rw [point] at producer
    obtain ⟨own_eq, room⟩ := producer
    subst own_eq
    simp only [Threads.producerStep, point, Option.some.injEq, Prod.mk.injEq] at stepped
    obtain ⟨rfl, rfl⟩ := stepped
    simp only [pushedItems, poppedItems, List.filterMap_cons, List.filterMap_nil, List.append_nil]
    refine ⟨?_, head, tail, ⟨rfl, room, Function.update_self _ _ _⟩, consumer⟩
    apply ring.write
    intro cell low apart
    have other : UInt64.ofNat cell ≠ threads.queue.head_ := by
      intro same
      apply apart
      have small : cell < UInt64.size := Nat.lt_trans low cap.value.toNat_lt
      rw [← show threads.queue.head_.toNat = _ from head, ← same,
        UInt64.toNat_ofNat_of_lt' small]
    exact Function.update_of_ne other _ _
  | written item own =>
    rw [point] at producer
    obtain ⟨own_eq, room, slot⟩ := producer
    subst own_eq
    simp only [Threads.producerStep, point, Option.some.injEq, Prod.mk.injEq] at stepped
    obtain ⟨rfl, rfl⟩ := stepped
    simp only [pushedItems, poppedItems, List.filterMap_cons, List.filterMap_nil, List.append_nil]
    refine ⟨ring.send ((head.cell threads.queue).trans slot) room, ?_, tail, trivial,
      consumer.push rfl item⟩
    rw [List.length_append, List.length_singleton]
    exact head.next

/-- A step of the consumer keeps the agreement. -/
theorem Follows.consumerStep (follows : threads.Follows pushed popped)
    (stepped : threads.consumerStep = some (next, completed)) :
    next.Follows (pushed ++ pushedItems [completed]) (popped ++ poppedItems [completed]) := by
  obtain ⟨ring, head, tail, producer, consumer⟩ := follows
  have above := ring.le
  cases point : threads.consumer with
  | idle => simp [Threads.consumerStep, point] at stepped
  | loaded own =>
    rw [point] at consumer
    have own_eq : own = threads.queue.tail_ := consumer
    subst own_eq
    simp only [Threads.consumerStep, point] at stepped
    split at stepped
    · cases stepped
      simp only [pushedItems, poppedItems, List.filterMap_cons, List.filterMap_nil,
        List.append_nil]
      exact ⟨ring, head, tail, producer, trivial⟩
    · rename_i notEmpty
      cases stepped
      simp only [pushedItems, poppedItems, List.filterMap_cons, List.filterMap_nil,
        List.append_nil]
      refine ⟨ring, head, tail, producer, ⟨rfl, ?_⟩⟩
      -- the loaded head is current, and it can only move on from here
      have same := head.eq tail above ring.room
      have apart : pushed.length ≠ popped.length := fun all => notEmpty (same.mpr all).symm
      omega
  | checked own =>
    rw [point] at consumer
    obtain ⟨own_eq, some_waits⟩ := consumer
    subst own_eq
    simp only [Threads.consumerStep, point, Option.some.injEq, Prod.mk.injEq] at stepped
    obtain ⟨rfl, rfl⟩ := stepped
    simp only [pushedItems, poppedItems, List.filterMap_cons, List.filterMap_nil, List.append_nil]
    refine ⟨ring, head, tail, producer, ⟨rfl, ?_⟩⟩
    rw [ring.front some_waits, tail.cell]
  | taken own item =>
    rw [point] at consumer
    obtain ⟨own_eq, first⟩ := consumer
    subst own_eq
    simp only [Threads.consumerStep, point, Option.some.injEq, Prod.mk.injEq] at stepped
    obtain ⟨rfl, rfl⟩ := stepped
    simp only [pushedItems, poppedItems, List.filterMap_cons, List.filterMap_nil, List.append_nil]
    refine ⟨ring.receive first, head, ?_, ?_, trivial⟩
    · rw [List.length_append, List.length_singleton]
      exact tail.next
    · rw [List.length_append, List.length_singleton]
      exact producer.pop rfl rfl

/-- Every atomic step keeps the agreement. -/
theorem Follows.step (follows : threads.Follows pushed popped) {turn : Turn T}
    (stepped : threads.step turn = some (next, completed)) :
    next.Follows (pushed ++ pushedItems [completed]) (popped ++ poppedItems [completed]) := by
  cases turn with
  | producer => exact follows.producerStep stepped
  | consumer => exact follows.consumerStep stepped
  | push item =>
    simp only [Threads.step] at stepped
    split at stepped
    · cases stepped
      simp only [pushedItems, poppedItems, List.filterMap_cons, List.filterMap_nil,
        List.append_nil]
      exact ⟨follows.ring, follows.head, follows.tail, rfl, follows.consumer⟩
    · contradiction
  | pop =>
    simp only [Threads.step] at stepped
    split at stepped
    · cases stepped
      simp only [pushedItems, poppedItems, List.filterMap_cons, List.filterMap_nil,
        List.append_nil]
      exact ⟨follows.ring, follows.head, follows.tail, follows.producer, rfl⟩
    · contradiction

/-- What every interleaving from a new queue keeps. -/
theorem follows_of_run [Inhabited T] {turns : List (Turn T)} {results : List (Completed T)}
    (ran : run Threads.step (new : Threads T cap) turns = some (threads, results)) :
    threads.Follows (pushedItems results) (poppedItems results) := by
  have whole := run_history
    (fun (state : Threads T cap) past => state.Follows (pushedItems past) (poppedItems past))
    (fun state turn next result past follows stepped => by
      have kept := follows.step stepped
      rwa [pushedItems, pushedItems, ← List.filterMap_append, poppedItems, poppedItems,
        ← List.filterMap_append] at kept)
    turns new threads [] results follows_new ran
  rwa [List.nil_append] at whole

/-- The producer writes inside the ring, and not where the consumer reads. -/
theorem Follows.writes_apart (follows : threads.Follows pushed popped) {slot : UInt64}
    (writes : threads.producer.writing = some slot) :
    slot < cap.value ∧ threads.consumer.reading ≠ some slot := by
  obtain ⟨ring, head, tail, producer, consumer⟩ := follows
  have large : 2 ≤ cap.value.toNat := UInt64.le_iff_toNat_le.mp cap.large
  have own : slot = threads.queue.head_ := by
    cases point : threads.producer with
    | idle => simp [point, Producer.writing] at writes
    | loaded item head => simp [point, Producer.writing] at writes
    | checked item head =>
      rw [point] at producer writes
      cases writes
      exact producer.1
    | written item head =>
      rw [point] at producer writes
      cases writes
      exact producer.1
  subst own
  constructor
  · rw [UInt64.lt_iff_toNat_lt, show threads.queue.head_.toNat = _ from head]
    exact Nat.mod_lt _ (by omega)
  · intro reads
    have waiting : threads.queue.head_ = threads.queue.tail_ ∧ popped.length < pushed.length := by
      cases point : threads.consumer with
      | idle => simp [point, Consumer.reading] at reads
      | loaded other => simp [point, Consumer.reading] at reads
      | checked other =>
        rw [point] at consumer reads
        cases reads
        exact consumer
      | taken other item =>
        rw [point] at consumer reads
        cases reads
        exact ⟨consumer.1, (List.getElem?_eq_some_iff.mp consumer.2).1⟩
    have same := (head.eq tail ring.le ring.room).mp waiting.1
    omega

/-- The observers of the queue tell the number of waiting items. -/
theorem Follows.observers (follows : threads.Follows pushed popped) :
    threads.queue.size.toNat = pushed.length - popped.length ∧
    pushed.length - popped.length ≤ threads.queue.capacity.toNat ∧
    (threads.queue.empty = true ↔ pushed.length - popped.length = 0) ∧
    (threads.queue.full = true ↔
      pushed.length - popped.length = threads.queue.capacity.toNat) := by
  obtain ⟨ring, head, tail, -, -⟩ := follows
  have large : 2 ≤ cap.value.toNat := UInt64.le_iff_toNat_le.mp cap.large
  have above := ring.le
  have room := ring.room
  have same := head.eq tail above room
  have turn := head.full tail above room
  rw [capacity_toNat]
  refine ⟨head.sub tail above room, by omega, ?_, ?_⟩
  · rw [SPSCQueue.empty, beq_iff_eq, same]
    omega
  · rw [SPSCQueue.full, beq_iff_eq, turn]
    omega

/-- A `try_push` during which the consumer takes no step does what the whole call does. -/
theorem run_push_alone (idle : threads.producer = .idle) (item : T) :
    if (threads.queue.try_push item).2 then
      run Threads.step threads [.push item, .producer, .producer, .producer] =
        some ({ threads with queue := (threads.queue.try_push item).1 },
          [.nothing, .nothing, .nothing, .pushed item])
    else run Threads.step threads [.push item, .producer] =
        some (threads, [.nothing, .pushFailed item]) := by
  obtain ⟨queue, producer, consumer⟩ := threads
  cases idle
  by_cases all : (queue.head_ + 1) &&& MASK cap = queue.tail_
  · simp [run, Threads.step, Threads.producerStep, try_push, all]
  · simp [run, Threads.step, Threads.producerStep, try_push, all]

/-- A `try_pop` during which the producer takes no step does what the whole call does. -/
theorem run_pop_alone (idle : threads.consumer = .idle) :
    match threads.queue.try_pop.2 with
    | some item => run Threads.step threads [.pop, .consumer, .consumer, .consumer] =
        some ({ threads with queue := threads.queue.try_pop.1 },
          [.nothing, .nothing, .nothing, .popped item])
    | none => run Threads.step threads [.pop, .consumer] =
        some (threads, [.nothing, .popFailed]) := by
  obtain ⟨queue, producer, consumer⟩ := threads
  cases idle
  by_cases none_waits : queue.tail_ = queue.head_
  · simp [run, Threads.step, Threads.consumerStep, try_pop, none_waits]
  · simp [run, Threads.step, Threads.consumerStep, try_pop, none_waits]

/-- A `try_push` during which the consumer takes no step fails only on a full queue. -/
theorem full_of_push_alone (idle : threads.producer = .idle) {item : T} {steps : Nat}
    {results : List (Completed T)}
    (ran : run Threads.step threads (.push item :: List.replicate steps .producer) =
      some (next, results))
    (failed : .pushFailed item ∈ results) : threads.queue.full = true := by
  obtain ⟨queue, producer, consumer⟩ := threads
  cases idle
  by_contra notFull
  have room : ¬(queue.head_ + 1) &&& MASK cap = queue.tail_ := by
    rwa [SPSCQueue.full, beq_iff_eq] at notFull
  -- the call ends after its store, so more than three further steps cannot be taken
  match steps with
  | 0 | 1 | 2 | 3 =>
    simp only [List.replicate, run, Threads.step, Threads.producerStep, room, if_false, bind,
      Option.bind, Option.some.injEq, Prod.mk.injEq] at ran
    simp [← ran.2] at failed
  | steps + 4 =>
    simp [List.replicate, run, Threads.step, Threads.producerStep, room] at ran

/-- A `try_pop` during which the producer takes no step fails only on an empty queue. -/
theorem empty_of_pop_alone (idle : threads.consumer = .idle) {steps : Nat}
    {results : List (Completed T)}
    (ran : run Threads.step threads (.pop :: List.replicate steps .consumer) =
      some (next, results))
    (failed : .popFailed ∈ results) : threads.queue.empty = true := by
  obtain ⟨queue, producer, consumer⟩ := threads
  cases idle
  by_contra notEmpty
  have some_waits : ¬queue.tail_ = queue.head_ := by
    rw [SPSCQueue.empty, beq_iff_eq] at notEmpty
    exact fun same => notEmpty same.symm
  match steps with
  | 0 | 1 | 2 | 3 =>
    simp only [List.replicate, run, Threads.step, Threads.consumerStep, some_waits, if_false, bind,
      Option.bind, Option.some.injEq, Prod.mk.injEq] at ran
    simp [← ran.2] at failed
  | steps + 4 =>
    simp [List.replicate, run, Threads.step, Threads.consumerStep, some_waits] at ran

/-- A `try_push` during which the consumer takes no step returns true on a queue that is not
full. -/
theorem pushes_alone (idle : threads.producer = .idle) (item : T)
    (room : ¬threads.queue.full = true) :
    run Threads.step threads [.push item, .producer, .producer, .producer] =
      some ({ threads with queue := (threads.queue.try_push item).1 },
        [.nothing, .nothing, .nothing, .pushed item]) := by
  have succeeds : (threads.queue.try_push item).2 = true := by
    rw [SPSCQueue.full, beq_iff_eq] at room
    simp only [try_push, if_neg room]
  have alone := run_push_alone idle item
  rwa [if_pos succeeds] at alone

/-- A `try_pop` during which the producer takes no step returns the first waiting item. -/
theorem Follows.pops_alone (follows : threads.Follows pushed popped)
    (idle : threads.consumer = .idle) (waits : popped.length < pushed.length) :
    ∃ item, pushed[popped.length]? = some item ∧
      run Threads.step threads [.pop, .consumer, .consumer, .consumer] =
        some ({ threads with queue := threads.queue.try_pop.1 },
          [.nothing, .nothing, .nothing, .popped item]) := by
  have apart : ¬threads.queue.tail_ = threads.queue.head_ := by
    intro same
    have counts := (follows.head.eq follows.tail follows.ring.le follows.ring.room).mp same.symm
    omega
  have succeeds : threads.queue.try_pop.2 = some (threads.queue.buffer_ threads.queue.tail_) := by
    simp only [try_pop, if_neg apart]
  have alone := run_pop_alone idle
  rw [succeeds] at alone
  refine ⟨threads.queue.buffer_ threads.queue.tail_, ?_, alone⟩
  rw [follows.ring.front waits, follows.tail.cell]

/-- Under every interleaving of the atomic steps of one producer and one consumer the queue is a
first-in first-out channel for one item fewer than it has slots. -/
theorem run_bounded_fifo [Inhabited T] {turns : List (Turn T)} {results : List (Completed T)}
    (ran : run Threads.step (new : Threads T cap) turns = some (threads, results)) :
    poppedItems results <+: pushedItems results ∧
    (∀ slot, threads.producer.writing = some slot →
      slot < cap.value ∧ threads.consumer.reading ≠ some slot) ∧
    (threads.producer = .idle → threads.consumer = .idle →
      threads.queue.size.toNat = (pushedItems results).length - (poppedItems results).length ∧
      (pushedItems results).length - (poppedItems results).length ≤ cap.value.toNat - 1 ∧
      (threads.queue.empty = true ↔
        (pushedItems results).length - (poppedItems results).length = 0) ∧
      (threads.queue.full = true ↔
        (pushedItems results).length - (poppedItems results).length = cap.value.toNat - 1)) ∧
    (∀ item steps next later, threads.producer = .idle → threads.consumer = .idle →
      run Threads.step threads (.push item :: List.replicate steps .producer) =
        some (next, later) → .pushFailed item ∈ later →
      (pushedItems results).length - (poppedItems results).length = cap.value.toNat - 1) ∧
    (∀ steps next later, threads.producer = .idle → threads.consumer = .idle →
      run Threads.step threads (.pop :: List.replicate steps .consumer) =
        some (next, later) → .popFailed ∈ later →
      (pushedItems results).length - (poppedItems results).length = 0) ∧
    (∀ item, threads.producer = .idle → threads.consumer = .idle →
      (pushedItems results).length - (poppedItems results).length ≠ cap.value.toNat - 1 →
      ∃ next, run Threads.step threads [.push item, .producer, .producer, .producer] =
          some (next, [.nothing, .nothing, .nothing, .pushed item]) ∧
        next.producer = .idle ∧ next.consumer = .idle) ∧
    (threads.producer = .idle → threads.consumer = .idle →
      (pushedItems results).length - (poppedItems results).length ≠ 0 →
      ∃ item next, (pushedItems results)[(poppedItems results).length]? = some item ∧
        run Threads.step threads [.pop, .consumer, .consumer, .consumer] =
          some (next, [.nothing, .nothing, .nothing, .popped item]) ∧
        next.producer = .idle ∧ next.consumer = .idle) := by
  have follows := follows_of_run ran
  obtain ⟨size, bound, empty, full⟩ := follows.observers
  rw [capacity_toNat] at bound full
  refine ⟨follows.ring.order, fun slot writes => follows.writes_apart writes,
    fun _ _ => ⟨size, bound, empty, full⟩, ?_, ?_, ?_, ?_⟩
  · intro item steps next later idle _ alone failed
    exact full.mp (full_of_push_alone idle alone failed)
  · intro steps next later _ idle alone failed
    exact empty.mp (empty_of_pop_alone idle alone failed)
  · intro item producer consumer notFull
    exact ⟨_, pushes_alone producer item fun all => notFull (full.mp all), producer, consumer⟩
  · intro producer consumer notEmpty
    obtain ⟨item, first, alone⟩ := follows.pops_alone consumer (by omega)
    exact ⟨item, _, first, alone, producer, consumer⟩

/-- A queue of two slots. The second push begins while the first item is being read, and wraps
around; a pop in between finds the queue empty, and one afterwards takes the second item. -/
theorem run_bounded_fifo_two :
    ∃ (threads : Threads Nat ⟨2, by decide, by decide⟩) (results : List (Completed Nat)),
      run Threads.step new
        [.push 7, .producer, .producer, .producer, .pop, .consumer, .push 8, .consumer, .consumer,
          .producer, .pop, .producer, .consumer, .producer] = some (threads, results) ∧
      threads.queue.head_ = 0 ∧ pushedItems results = [7, 8] ∧ poppedItems results = [7] ∧
      .popFailed ∈ results ∧ poppedItems results <+: pushedItems results ∧
      ∃ next, run Threads.step threads [.pop, .consumer, .consumer, .consumer] =
        some (next, [.nothing, .nothing, .nothing, .popped 8]) := by
  have facts : (run Threads.step (new : Threads Nat ⟨2, by decide, by decide⟩)
      [.push 7, .producer, .producer, .producer, .pop, .consumer, .push 8, .consumer, .consumer,
        .producer, .pop, .producer, .consumer, .producer]).map (fun result =>
          (result.1.queue.head_, result.1.producer, result.1.consumer, result.2)) =
      some (0, .idle, .idle, [.nothing, .nothing, .nothing, .pushed 7, .nothing, .nothing, .nothing,
        .nothing, .popped 7, .nothing, .nothing, .nothing, .popFailed, .pushed 8]) := by
    decide +kernel
  obtain ⟨⟨threads, results⟩, ran, same⟩ := Option.map_eq_some_iff.mp facts
  simp only [Prod.mk.injEq] at same
  obtain ⟨wrapped, producer, consumer, rfl⟩ := same
  obtain ⟨order, -, -, -, -, -, pops⟩ := run_bounded_fifo ran
  obtain ⟨item, next, first, popped, -⟩ := pops producer consumer (by decide)
  cases first
  exact ⟨threads, _, ran, wrapped, rfl, rfl, by decide, order, next, popped⟩

end Threads

end SPSCQueue

end Exchange
