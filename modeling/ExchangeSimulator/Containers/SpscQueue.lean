import Mathlib.Logic.Function.Basic

/-!
# The single-producer single-consumer queue

`spsc_queue.hpp`. Indices are words of `std::size_t`. The calls are given twice:
as a whole, and split into their atomic steps, so that the steps of one producer
and one consumer can be taken in any order. A step is a load, a store or an
access to a slot, and the comparison after a load belongs to it.
-/

namespace Exchange

/-- `template<std::size_t Capacity>` with its two static assertions. -/
structure Capacity where
  /-- The number of slots. -/
  value : UInt64
  /-- `Capacity must be power of 2`. -/
  power : value &&& (value - 1) = 0
  /-- `Capacity must be >= 2`. -/
  large : 2 ≤ value

/-- `SPSCQueue<T, Capacity>`. -/
structure SPSCQueue (T : Type) (cap : Capacity) where
  /-- The slot the producer writes next. -/
  head_ : UInt64
  /-- The slot the consumer reads next. -/
  tail_ : UInt64
  /-- The slots. -/
  buffer_ : UInt64 → T

namespace SPSCQueue

variable {T : Type} {cap : Capacity}

/-- `MASK`. -/
def MASK (cap : Capacity) : UInt64 := cap.value - 1

/-- `SPSCQueue()`: both indices zero and every slot value-initialised. -/
def new [Inhabited T] : SPSCQueue T cap := ⟨0, 0, fun _ => default⟩

/-- `try_push`: the queue after the call, and what it returns. -/
def try_push (queue : SPSCQueue T cap) (item : T) : SPSCQueue T cap × Bool :=
  let head := queue.head_
  let next_head := (head + 1) &&& MASK cap
  if next_head = queue.tail_ then (queue, false)
  else
    ({ queue with buffer_ := Function.update queue.buffer_ head item, head_ := next_head }, true)

/-- `try_pop`: the queue after the call, and the item it moves out if it returns true. -/
def try_pop (queue : SPSCQueue T cap) : SPSCQueue T cap × Option T :=
  let tail := queue.tail_
  if tail = queue.head_ then (queue, none)
  else ({ queue with tail_ := (tail + 1) &&& MASK cap }, some (queue.buffer_ tail))

/-- `empty`. -/
def empty (queue : SPSCQueue T cap) : Bool := queue.head_ == queue.tail_

/-- `full`. -/
def full (queue : SPSCQueue T cap) : Bool := ((queue.head_ + 1) &&& MASK cap) == queue.tail_

/-- `size`. -/
def size (queue : SPSCQueue T cap) : UInt64 := (queue.head_ - queue.tail_) &&& MASK cap

/-- `capacity`. -/
def capacity (_ : SPSCQueue T cap) : UInt64 := cap.value - 1

/-- How far the producer is in a `try_push`. -/
inductive Producer (T : Type) where
  /-- No call. -/
  | idle
  /-- `head_` has been loaded. -/
  | loaded (item : T) (head : UInt64)
  /-- `tail_` has been loaded, and the queue is not full. -/
  | checked (item : T) (head : UInt64)
  /-- The slot has been written. -/
  | written (item : T) (head : UInt64)
deriving DecidableEq, Repr

/-- How far the consumer is in a `try_pop`. -/
inductive Consumer (T : Type) where
  /-- No call. -/
  | idle
  /-- `tail_` has been loaded. -/
  | loaded (tail : UInt64)
  /-- `head_` has been loaded, and the queue is not empty. -/
  | checked (tail : UInt64)
  /-- The slot has been read. -/
  | taken (tail : UInt64) (item : T)
deriving DecidableEq, Repr

/-- The queue with its two threads. -/
structure Threads (T : Type) (cap : Capacity) where
  /-- The shared queue. -/
  queue : SPSCQueue T cap
  /-- The producing thread. -/
  producer : Producer T
  /-- The consuming thread. -/
  consumer : Consumer T

/-- Which thread takes its next step. An idle producer starts to push an item. -/
inductive Turn (T : Type) where
  /-- The producer starts `try_push(item)`. -/
  | push (item : T)
  /-- The producer goes on. -/
  | producer
  /-- The consumer starts `try_pop`. -/
  | pop
  /-- The consumer goes on. -/
  | consumer
deriving DecidableEq, Repr

/-- What a step completes. -/
inductive Completed (T : Type) where
  /-- No call. -/
  | nothing
  /-- A `try_push` that returned true. -/
  | pushed (item : T)
  /-- A `try_push` that returned false. -/
  | pushFailed (item : T)
  /-- A `try_pop` that returned true. -/
  | popped (item : T)
  /-- A `try_pop` that returned false. -/
  | popFailed
deriving DecidableEq, Repr

namespace Threads

/-- Both threads idle on a new queue. -/
def new [Inhabited T] : Threads T cap := ⟨SPSCQueue.new, .idle, .idle⟩

/-- The next step of a running `try_push`. -/
def producerStep (threads : Threads T cap) : Option (Threads T cap × Completed T) :=
  match threads.producer with
  | .idle => none
  | .loaded item head =>
    if (head + 1) &&& MASK cap = threads.queue.tail_ then
      some ({ threads with producer := .idle }, .pushFailed item)
    else some ({ threads with producer := .checked item head }, .nothing)
  | .checked item head =>
    some ({ threads with
      queue := { threads.queue with buffer_ := Function.update threads.queue.buffer_ head item }
      producer := .written item head }, .nothing)
  | .written item head =>
    some ({ threads with
      queue := { threads.queue with head_ := (head + 1) &&& MASK cap }
      producer := .idle }, .pushed item)

/-- The next step of a running `try_pop`. -/
def consumerStep (threads : Threads T cap) : Option (Threads T cap × Completed T) :=
  match threads.consumer with
  | .idle => none
  | .loaded tail =>
    if tail = threads.queue.head_ then some ({ threads with consumer := .idle }, .popFailed)
    else some ({ threads with consumer := .checked tail }, .nothing)
  | .checked tail =>
    some ({ threads with consumer := .taken tail (threads.queue.buffer_ tail) }, .nothing)
  | .taken tail item =>
    some ({ threads with
      queue := { threads.queue with tail_ := (tail + 1) &&& MASK cap }
      consumer := .idle }, .popped item)

/-- One atomic step; a thread that is busy starts no call, and one that is idle does not go on. -/
def step (threads : Threads T cap) : Turn T → Option (Threads T cap × Completed T)
  | .push item =>
    match threads.producer with
    | .idle => some ({ threads with producer := .loaded item threads.queue.head_ }, .nothing)
    | _ => none
  | .producer => threads.producerStep
  | .pop =>
    match threads.consumer with
    | .idle => some ({ threads with consumer := .loaded threads.queue.tail_ }, .nothing)
    | _ => none
  | .consumer => threads.consumerStep

end Threads

end SPSCQueue

end Exchange
