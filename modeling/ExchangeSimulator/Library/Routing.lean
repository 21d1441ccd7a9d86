import ExchangeSimulator.Library.Run
import Mathlib.Logic.Function.Basic

/-!
# Machines behind a router

One machine for each key, all of one kind, and a counter that they share. An
input is turned into a call with the help of the counter and handed to the
machine of its key. Whatever the interleaving, each machine sees exactly the
calls of its own key, so it ends where it would end alone on them, with the same
outputs. Two inputs of different keys change places when each call, made with
the counter it then meets, has the same effect up to a translation.
-/

namespace Library

variable {κ ν ι β σ ω : Type}

/-- Where an input goes, what call it becomes and how it moves the counter. -/
structure Router (κ ν ι β : Type) where
  /-- The key of an input. -/
  key : ι → κ
  /-- The call an input becomes. -/
  call : ν → ι → β
  /-- The counter after an input. -/
  tick : ν → ι → ν

namespace Router

variable [DecidableEq κ] (router : Router κ ν ι β) (component : σ → β → Option (σ × ω))

/-- One input to the machines and the counter. -/
def step (state : (κ → σ) × ν) (input : ι) : Option (((κ → σ) × ν) × ω) :=
  (component (state.1 (router.key input)) (router.call state.2 input)).map fun taken =>
    ((Function.update state.1 (router.key input) taken.1, router.tick state.2 input), taken.2)

/-- The calls that inputs become for one key, from a value of the counter on. -/
def callsFor (key : κ) : ν → List ι → List β
  | _, [] => []
  | counter, input :: inputs =>
    if router.key input = key then
      router.call counter input :: callsFor key (router.tick counter input) inputs
    else callsFor key (router.tick counter input) inputs

/-- The outputs for the inputs of one key. -/
def outputsFor (key : κ) : List ι → List ω → List ω
  | input :: inputs, output :: outputs =>
    if router.key input = key then output :: outputsFor key inputs outputs
    else outputsFor key inputs outputs
  | _, _ => []

variable {router component}

/-- A step moves the machine of its key and no other. -/
theorem step_cases {state next : (κ → σ) × ν} {input : ι} {output : ω}
    (stepped : router.step component state input = some (next, output)) :
    next.2 = router.tick state.2 input ∧
      component (state.1 (router.key input)) (router.call state.2 input) =
        some (next.1 (router.key input), output) ∧
      ∀ key, key ≠ router.key input → next.1 key = state.1 key := by
  rw [step, Option.map_eq_some_iff] at stepped
  obtain ⟨⟨after, emitted⟩, taken, same⟩ := stepped
  cases same
  refine ⟨rfl, ?_, fun key apart => Function.update_of_ne apart _ _⟩
  simp only [taken, Function.update_self]

/-- Each machine ends where it would end alone on its own calls, with the same outputs. -/
theorem run_component (key : κ) (inputs : List ι) (state last : (κ → σ) × ν) (outputs : List ω)
    (ran : run (router.step component) state inputs = some (last, outputs)) :
    run component (state.1 key) (router.callsFor key state.2 inputs) =
      some (last.1 key, router.outputsFor key inputs outputs) := by
  induction inputs generalizing state outputs with
  | nil =>
    cases ran
    rfl
  | cons input inputs ih =>
    obtain ⟨next, output, later, stepped, rest, rfl⟩ := run_cons_eq_some ran
    obtain ⟨counter, moves, others⟩ := step_cases stepped
    have alone := ih next later rest
    rw [counter] at alone
    by_cases here : router.key input = key
    · subst here
      rw [callsFor, outputsFor, if_pos rfl, if_pos rfl, run_cons_of_step moves, alone]
      rfl
    · rw [callsFor, outputsFor, if_neg here, if_neg here, ← others key (Ne.symm here), alone]

/-- The counter is moved by every input. -/
theorem run_counter (inputs : List ι) (state last : (κ → σ) × ν) (outputs : List ω)
    (ran : run (router.step component) state inputs = some (last, outputs)) :
    last.2 = inputs.foldl router.tick state.2 := by
  induction inputs generalizing state outputs with
  | nil =>
    cases ran
    rfl
  | cons input inputs ih =>
    obtain ⟨next, output, later, stepped, rest, rfl⟩ := run_cons_eq_some ran
    rw [ih next later rest, (step_cases stepped).1]
    rfl

/-- Two inputs of different keys change places, up to a translation of machines and outputs that
the two calls respect. -/
theorem step_swap {state between last : (κ → σ) × ν} {first second : ι}
    {firstOutput secondOutput : ω} (apart : router.key first ≠ router.key second)
    (states : σ → σ) (outputs : ω → ω)
    (ticks : router.tick (router.tick state.2 second) first =
      router.tick (router.tick state.2 first) second)
    (others : ∀ key, key ≠ router.key first → key ≠ router.key second →
      states (state.1 key) = state.1 key)
    (firstCall : component (state.1 (router.key first))
        (router.call (router.tick state.2 second) first) =
      (component (state.1 (router.key first)) (router.call state.2 first)).map
        (Prod.map states outputs))
    (secondCall : component (state.1 (router.key second)) (router.call state.2 second) =
      (component (state.1 (router.key second))
        (router.call (router.tick state.2 first) second)).map (Prod.map states outputs))
    (firstStep : router.step component state first = some (between, firstOutput))
    (secondStep : router.step component between second = some (last, secondOutput)) :
    ∃ middle, router.step component state second = some (middle, outputs secondOutput) ∧
      router.step component middle first =
        some ((fun key => states (last.1 key), last.2), outputs firstOutput) := by
  obtain ⟨counter, moves, still⟩ := step_cases firstStep
  obtain ⟨lastCounter, lastMoves, lastStill⟩ := step_cases secondStep
  rw [still _ apart.symm, counter] at lastMoves
  rw [moves] at firstCall
  rw [lastMoves] at secondCall
  refine ⟨(Function.update state.1 (router.key second) (states (last.1 (router.key second))),
    router.tick state.2 second), ?_, ?_⟩
  · rw [step, secondCall]
    rfl
  · simp only [step, Function.update_of_ne apart, firstCall, Option.map_some, Prod.map_apply,
      Option.some.injEq, Prod.mk.injEq, and_true, ticks, lastCounter, counter]
    funext key
    by_cases here : key = router.key first
    · subst here
      rw [Function.update_self, lastStill _ apart]
    · rw [Function.update_of_ne here]
      by_cases there : key = router.key second
      · subst there
        rw [Function.update_self]
      · rw [Function.update_of_ne there, lastStill _ there, still _ here, others key here there]

end Router

end Library
