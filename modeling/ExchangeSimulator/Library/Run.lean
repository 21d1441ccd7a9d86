import Mathlib.Data.List.Basic

/-!
# Runs of a partial transition function

A step takes a state and an input to a next state and an output, or gets
stuck. A run takes a list of inputs. `Guarded` says that every step of the run
meets a condition on the state before it and on its input, `Always` that every
state on the way and every output is as wanted. The rules here turn a fact about
one step into the same fact about every run: an invariant with a predicate on
the outputs, the exact condition under which a run stays as wanted, a second
machine, the observer, that reads only inputs and outputs and stays related to
the state, and a specification that answers every step with the same output.
`Leads` is a run whose inputs are of one kind.
-/

namespace Library

variable {σ ι ω τ ι' ω' : Type}

/-- Take the inputs in order, collecting one output for each. -/
def run (step : σ → ι → Option (σ × ω)) : σ → List ι → Option (σ × List ω)
  | state, [] => some (state, [])
  | state, input :: inputs => do
    let (next, output) ← step state input
    let (last, outputs) ← run step next inputs
    some (last, output :: outputs)

/-- What an observer keeps of the outputs so far grows by what it keeps of the next one. -/
theorem filterMap_snoc (keeps : ω → Option τ) (past : List ω) (output : ω) :
    (past ++ [output]).filterMap keeps = past.filterMap keeps ++ (keeps output).toList := by
  cases kept : keeps output <;> simp [kept]

/-- Every step taken from a state meets the guard. -/
def Guarded (step : σ → ι → Option (σ × ω)) (guard : σ → ι → Prop) : σ → List ι → Prop
  | _, [] => True
  | state, input :: inputs => guard state input ∧
    ∀ next output, step state input = some (next, output) → Guarded step guard next inputs

/-- The start of a guarded run is guarded. -/
theorem Guarded.of_append {step : σ → ι → Option (σ × ω)} {guard : σ → ι → Prop} {state : σ}
    {inputs later : List ι} (guarded : Guarded step guard state (inputs ++ later)) :
    Guarded step guard state inputs := by
  induction inputs generalizing state with
  | nil => trivial
  | cons input inputs ih =>
    exact ⟨guarded.1, fun next output stepped => ih (guarded.2 next output stepped)⟩

/-- A guarded run may go on with inputs that meet the guard in every state. -/
theorem Guarded.append {step : σ → ι → Option (σ × ω)} {guard : σ → ι → Prop} {state : σ}
    {inputs later : List ι} (guarded : Guarded step guard state inputs)
    (free : ∀ input ∈ later, ∀ state, guard state input) :
    Guarded step guard state (inputs ++ later) := by
  induction inputs generalizing state with
  | nil =>
    induction later generalizing state with
    | nil => trivial
    | cons input later ih =>
      refine ⟨free input List.mem_cons_self state, ?_⟩
      intro next output _
      exact ih (fun other member => free other (List.mem_cons_of_mem input member)) trivial
  | cons input inputs ih =>
    exact ⟨guarded.1, fun next output stepped => ih (guarded.2 next output stepped)⟩

/-- A decidable guard is decided along the run. -/
instance decidableGuarded (step : σ → ι → Option (σ × ω)) (guard : σ → ι → Prop)
    [∀ state input, Decidable (guard state input)] :
    ∀ state inputs, Decidable (Guarded step guard state inputs)
  | _, [] => isTrue trivial
  | state, input :: inputs =>
    match stepped : step state input with
    | none => decidable_of_iff (guard state input) (by simp [Guarded, stepped])
    | some (next, _) =>
      have := decidableGuarded step guard next inputs
      decidable_of_iff (guard state input ∧ Guarded step guard next inputs)
        (by simp [Guarded, stepped])

/-- A run whose first step succeeds goes on from the next state. -/
theorem run_cons_of_step {step : σ → ι → Option (σ × ω)} {state next : σ} {input : ι}
    {output : ω} (stepped : step state input = some (next, output)) (inputs : List ι) :
    run step state (input :: inputs) =
      (run step next inputs).map fun last => (last.1, output :: last.2) := by
  simp only [run, stepped, bind, Option.bind]
  cases run step next inputs <;> rfl

/-- A run that returns took its first step and went on from there. -/
theorem run_cons_eq_some {step : σ → ι → Option (σ × ω)} {state last : σ} {input : ι}
    {inputs : List ι} {outputs : List ω}
    (ran : run step state (input :: inputs) = some (last, outputs)) :
    ∃ next output later, step state input = some (next, output) ∧
      run step next inputs = some (last, later) ∧ outputs = output :: later := by
  cases stepped : step state input with
  | none => simp [run, stepped] at ran
  | some taken =>
    obtain ⟨next, output⟩ := taken
    rw [run_cons_of_step stepped, Option.map_eq_some_iff] at ran
    obtain ⟨⟨reached, later⟩, rest, same⟩ := ran
    cases same
    exact ⟨next, output, later, rfl, rest, rfl⟩

/-- A run goes on by one more step. -/
theorem run_snoc {step : σ → ι → Option (σ × ω)} {state last next : σ} {inputs : List ι}
    {outputs : List ω} {input : ι} {output : ω}
    (ran : run step state inputs = some (last, outputs))
    (stepped : step last input = some (next, output)) :
    run step state (inputs ++ [input]) = some (next, outputs ++ [output]) := by
  induction inputs generalizing state outputs with
  | nil =>
    cases ran
    rw [List.nil_append, run_cons_of_step stepped]
    rfl
  | cons first inputs ih =>
    obtain ⟨between, early, later, begun, rest, rfl⟩ := run_cons_eq_some ran
    rw [List.cons_append, run_cons_of_step begun, ih rest]
    rfl

/-- A machine that shows each step of another one shows each run of it. -/
theorem run_map {step : σ → ι → Option (σ × ω)} {shown : τ → ι' → Option (τ × ω')}
    (states : σ → τ) (inputsTo : ι → ι') (outputsTo : ω → ω')
    (shows : ∀ state input, (step state input).map (Prod.map states outputsTo) =
      shown (states state) (inputsTo input)) (inputs : List ι) (state : σ) :
    (run step state inputs).map (Prod.map states (List.map outputsTo)) =
      run shown (states state) (inputs.map inputsTo) := by
  induction inputs generalizing state with
  | nil => rfl
  | cons input inputs ih =>
    have here := shows state input
    cases stepped : step state input with
    | none =>
      rw [stepped, Option.map_none] at here
      simp [run, stepped, ← here]
    | some taken =>
      obtain ⟨next, output⟩ := taken
      rw [stepped, Option.map_some] at here
      rw [List.map_cons, run_cons_of_step stepped, run_cons_of_step here.symm, ← ih next]
      cases run step next inputs <;> rfl

/-- A guarded run keeps an invariant that each guarded step keeps, and each of
its outputs has the property that each guarded step gives its output. -/
theorem run_invariant {step : σ → ι → Option (σ × ω)} {guard : σ → ι → Prop}
    (invariant : σ → Prop) (property : ω → Prop)
    (preserved : ∀ state input, invariant state → guard state input →
      ∃ next output, step state input = some (next, output) ∧ invariant next ∧ property output)
    (inputs : List ι) (state : σ) (holds : invariant state)
    (guarded : Guarded step guard state inputs) :
    ∃ last outputs, run step state inputs = some (last, outputs) ∧ invariant last ∧
      ∀ output ∈ outputs, property output := by
  induction inputs generalizing state with
  | nil => exact ⟨state, [], rfl, holds, by simp⟩
  | cons input inputs ih =>
    obtain ⟨meets, later⟩ := guarded
    obtain ⟨next, output, stepped, nextHolds, outputHas⟩ := preserved state input holds meets
    obtain ⟨last, outputs, ran, lastHolds, outputsHave⟩ :=
      ih next nextHolds (later next output stepped)
    refine ⟨last, output :: outputs, ?_, lastHolds, ?_⟩
    · rw [run_cons_of_step stepped, ran]
      rfl
    · intro other member
      rcases List.mem_cons.mp member with rfl | member
      · exact outputHas
      · exact outputsHave other member

/-- What each step keeps between the state and the outputs so far, a whole run keeps. -/
theorem run_history {step : σ → ι → Option (σ × ω)} (holds : σ → List ω → Prop)
    (kept : ∀ state input next output past, holds state past →
      step state input = some (next, output) → holds next (past ++ [output]))
    (inputs : List ι) (state last : σ) (past outputs : List ω) (start : holds state past)
    (ran : run step state inputs = some (last, outputs)) : holds last (past ++ outputs) := by
  induction inputs generalizing state past outputs with
  | nil =>
    cases ran
    rwa [List.append_nil]
  | cons input inputs ih =>
    obtain ⟨next, output, later, stepped, rest, rfl⟩ := run_cons_eq_some ran
    have whole := ih next (past ++ [output]) later (kept state input next output past start stepped)
      rest
    rwa [List.append_assoc, List.singleton_append] at whole

/-- What each guarded step gives and keeps between the state and the outputs so far, a whole
guarded run gives and keeps. -/
theorem run_guarded_history {step : σ → ι → Option (σ × ω)} {guard : σ → ι → Prop}
    (holds : σ → List ω → Prop)
    (kept : ∀ state input past, holds state past → guard state input →
      ∃ next output, step state input = some (next, output) ∧ holds next (past ++ [output]))
    (inputs : List ι) (state : σ) (past : List ω) (start : holds state past)
    (guarded : Guarded step guard state inputs) :
    ∃ last outputs, run step state inputs = some (last, outputs) ∧
      holds last (past ++ outputs) := by
  induction inputs generalizing state past with
  | nil => exact ⟨state, [], rfl, by rwa [List.append_nil]⟩
  | cons input inputs ih =>
    obtain ⟨meets, later⟩ := guarded
    obtain ⟨next, output, stepped, nextHolds⟩ := kept state input past start meets
    obtain ⟨last, outputs, ran, lastHolds⟩ :=
      ih next (past ++ [output]) nextHolds (later next output stepped)
    rw [List.append_assoc, List.singleton_append] at lastHolds
    refine ⟨last, output :: outputs, ?_, lastHolds⟩
    rw [run_cons_of_step stepped, ran]
    rfl

/-- What each guarded step gives and keeps between the state and the inputs so far, a whole
guarded run gives and keeps. -/
theorem run_guarded_inputs {step : σ → ι → Option (σ × ω)} {guard : σ → ι → Prop}
    (holds : σ → List ι → Prop)
    (kept : ∀ state input past, holds state past → guard state input →
      ∃ next output, step state input = some (next, output) ∧ holds next (past ++ [input]))
    (inputs : List ι) (state : σ) (past : List ι) (start : holds state past)
    (guarded : Guarded step guard state inputs) :
    ∃ last outputs, run step state inputs = some (last, outputs) ∧
      holds last (past ++ inputs) := by
  induction inputs generalizing state past with
  | nil => exact ⟨state, [], rfl, by rwa [List.append_nil]⟩
  | cons input inputs ih =>
    obtain ⟨meets, later⟩ := guarded
    obtain ⟨next, output, stepped, nextHolds⟩ := kept state input past start meets
    obtain ⟨last, outputs, ran, lastHolds⟩ :=
      ih next (past ++ [input]) nextHolds (later next output stepped)
    rw [List.append_assoc, List.singleton_append] at lastHolds
    refine ⟨last, output :: outputs, ?_, lastHolds⟩
    rw [run_cons_of_step stepped, ran]
    rfl

/-- Every state on the way and every output is as wanted. -/
def Always (step : σ → ι → Option (σ × ω)) (wanted : σ → Prop) (emitted : ω → Prop) :
    σ → List ι → Prop
  | state, [] => wanted state
  | state, input :: inputs => wanted state ∧
    ∀ next output, step state input = some (next, output) →
      emitted output ∧ Always step wanted emitted next inputs

/-- Decidable wishes are decided along the run. -/
instance decidableAlways (step : σ → ι → Option (σ × ω)) (wanted : σ → Prop) (emitted : ω → Prop)
    [DecidablePred wanted] [DecidablePred emitted] :
    ∀ state inputs, Decidable (Always step wanted emitted state inputs)
  | state, [] => inferInstanceAs (Decidable (wanted state))
  | state, input :: inputs =>
    match stepped : step state input with
    | none => decidable_of_iff (wanted state) (by simp [Always, stepped])
    | some (next, output) =>
      have := decidableAlways step wanted emitted next inputs
      decidable_of_iff (wanted state ∧ emitted output ∧ Always step wanted emitted next inputs)
        (by simp [Always, stepped])

/-- What is always wanted is so at the start. -/
theorem Always.start {step : σ → ι → Option (σ × ω)} {wanted : σ → Prop} {emitted : ω → Prop}
    {state : σ} {inputs : List ι} (always : Always step wanted emitted state inputs) :
    wanted state := by
  cases inputs with
  | nil => exact always
  | cons input inputs => exact always.1

/-- A weaker wish. -/
theorem Always.imp {step : σ → ι → Option (σ × ω)} {wanted weaker : σ → Prop}
    {emitted weakerEmitted : ω → Prop} (states : ∀ state, wanted state → weaker state)
    (outputs : ∀ output, emitted output → weakerEmitted output) {inputs : List ι} {state : σ}
    (always : Always step wanted emitted state inputs) :
    Always step weaker weakerEmitted state inputs := by
  induction inputs generalizing state with
  | nil => exact states state always
  | cons input inputs ih =>
    refine ⟨states state always.1, ?_⟩
    intro next output stepped
    obtain ⟨asWanted, later⟩ := always.2 next output stepped
    exact ⟨outputs output asWanted, ih later⟩

/-- What each guarded step keeps and emits holds along every guarded run, stuck or not. -/
theorem always_of_guarded {step : σ → ι → Option (σ × ω)} {guard : σ → ι → Prop}
    (invariant : σ → Prop) (emitted : ω → Prop)
    (kept : ∀ state input next output, invariant state → guard state input →
      step state input = some (next, output) → invariant next ∧ emitted output)
    (inputs : List ι) (state : σ) (holds : invariant state)
    (guarded : Guarded step guard state inputs) : Always step invariant emitted state inputs := by
  induction inputs generalizing state with
  | nil => exact holds
  | cons input inputs ih =>
    obtain ⟨meets, later⟩ := guarded
    refine ⟨holds, ?_⟩
    intro next output stepped
    obtain ⟨nextHolds, asWanted⟩ := kept state input next output holds meets stepped
    exact ⟨asWanted, ih next nextHolds (later next output stepped)⟩

/-- When a step from a wanted state is as wanted exactly under a condition, a run stays as
wanted exactly when each of its steps meets the condition. -/
theorem always_iff_guarded {step : σ → ι → Option (σ × ω)} {guard : σ → ι → Prop}
    (invariant : σ → Prop) (wanted : σ → Prop) (emitted : ω → Prop) (condition : σ → ι → Prop)
    (exactly : ∀ state input, invariant state → wanted state → guard state input →
      ∃ next output, step state input = some (next, output) ∧ invariant next ∧
        (wanted next ∧ emitted output ↔ condition state input))
    (inputs : List ι) (state : σ) (holds : invariant state) (start : wanted state)
    (guarded : Guarded step guard state inputs) :
    Always step wanted emitted state inputs ↔ Guarded step condition state inputs := by
  induction inputs generalizing state with
  | nil => simp only [Always, Guarded, start]
  | cons input inputs ih =>
    obtain ⟨meets, later⟩ := guarded
    obtain ⟨next, output, stepped, nextHolds, exact⟩ := exactly state input holds start meets
    have rest (nextWanted : wanted next) := ih next nextHolds nextWanted (later next output stepped)
    simp only [Always, Guarded, stepped, Option.some.injEq, Prod.mk.injEq]
    constructor
    · rintro ⟨_, on⟩
      obtain ⟨asWanted, always⟩ := on next output ⟨rfl, rfl⟩
      refine ⟨exact.mp ⟨always.start, asWanted⟩, ?_⟩
      rintro _ _ ⟨rfl, rfl⟩
      exact (rest always.start).mp always
    · rintro ⟨condition, on⟩
      obtain ⟨nextWanted, asWanted⟩ := exact.mpr condition
      refine ⟨start, ?_⟩
      rintro _ _ ⟨rfl, rfl⟩
      exact ⟨asWanted, (rest nextWanted).mpr (on next output ⟨rfl, rfl⟩)⟩

/-- When a step from a wanted state is as wanted exactly under a condition, the states after all
prefixes of the inputs are as wanted, given the outputs so far, exactly when each step that is
taken meets the condition. -/
theorem prefixes_iff_guarded {step : σ → ι → Option (σ × ω)} (invariant : σ → List ω → Prop)
    (wanted : σ → List ω → Prop) (condition : σ → ι → Prop)
    (exactly : ∀ state input next output past, invariant state past → wanted state past →
      step state input = some (next, output) → invariant next (past ++ [output]) ∧
        (wanted next (past ++ [output]) ↔ condition state input))
    (inputs : List ι) (state : σ) (past : List ω) (holds : invariant state past)
    (start : wanted state past) :
    (∀ early, early <+: inputs → ∀ last outputs, run step state early = some (last, outputs) →
      wanted last (past ++ outputs)) ↔
      Guarded step (fun state input => step state input ≠ none → condition state input) state
        inputs := by
  induction inputs generalizing state past with
  | nil =>
    refine iff_of_true ?_ trivial
    intro early here last outputs ran
    cases List.prefix_nil.mp here
    cases ran
    rwa [List.append_nil]
  | cons input inputs ih =>
    constructor
    · intro always
      have first (next : σ) (output : ω) (stepped : step state input = some (next, output)) :
          wanted next (past ++ [output]) := by
        refine always [input] (by simp) next [output] ?_
        rw [run_cons_of_step stepped]
        rfl
      refine ⟨?_, ?_⟩
      · intro taken
        obtain ⟨⟨next, output⟩, stepped⟩ := Option.ne_none_iff_exists'.mp taken
        exact (exactly state input next output past holds start stepped).2.mp
          (first next output stepped)
      · intro next output stepped
        obtain ⟨nextHolds, -⟩ := exactly state input next output past holds start stepped
        refine (ih next (past ++ [output]) nextHolds (first next output stepped)).mp ?_
        intro early here last outputs ran
        rw [List.append_assoc, List.singleton_append]
        refine always (input :: early) (by simpa using here) last (output :: outputs) ?_
        rw [run_cons_of_step stepped, ran]
        rfl
    · rintro ⟨meets, later⟩ early here last outputs ran
      cases early with
      | nil =>
        cases ran
        rwa [List.append_nil]
      | cons other early =>
        obtain ⟨rfl, behind⟩ := List.cons_prefix_cons.mp here
        obtain ⟨next, output, others, stepped, rest, rfl⟩ := run_cons_eq_some ran
        obtain ⟨nextHolds, exact⟩ := exactly state other next output past holds start stepped
        have nextWanted := exact.mpr (meets (by simp [stepped]))
        have whole := (ih next (past ++ [output]) nextHolds nextWanted).mpr
          (later next output stepped) early behind last others rest
        rwa [List.append_assoc, List.singleton_append] at whole

/-! ## Observers -/

/-- What an observer knows after it has read the inputs with their outputs. -/
def replay (observe : τ → ι → ω → τ) : τ → List ι → List ω → τ
  | known, input :: inputs, output :: outputs =>
    replay observe (observe known input output) inputs outputs
  | known, _, _ => known

/-- Each output is accepted by what the observer knows when it reads it. -/
def Accepted (observe : τ → ι → ω → τ) (accept : τ → ι → ω → Prop) : τ → List ι → List ω → Prop
  | known, input :: inputs, output :: outputs => accept known input output ∧
    Accepted observe accept (observe known input output) inputs outputs
  | _, _, _ => True

/-- An observer that each guarded step keeps related to the state, and whose step it accepts,
stays related over every guarded run and accepts all of it. -/
theorem run_observed {step : σ → ι → Option (σ × ω)} {guard : σ → ι → Prop}
    (observe : τ → ι → ω → τ) (accept : τ → ι → ω → Prop) (related : σ → τ → Prop)
    (preserved : ∀ state known input, related state known → guard state input →
      ∃ next output, step state input = some (next, output) ∧ accept known input output ∧
        related next (observe known input output))
    (inputs : List ι) (state : σ) (known : τ) (start : related state known)
    (guarded : Guarded step guard state inputs) :
    ∃ last outputs, run step state inputs = some (last, outputs) ∧
      Accepted observe accept known inputs outputs ∧
      related last (replay observe known inputs outputs) := by
  induction inputs generalizing state known with
  | nil => exact ⟨state, [], rfl, trivial, start⟩
  | cons input inputs ih =>
    obtain ⟨meets, later⟩ := guarded
    obtain ⟨next, output, stepped, accepted, nextRelated⟩ := preserved state known input start meets
    obtain ⟨last, outputs, ran, allAccepted, lastRelated⟩ :=
      ih next _ nextRelated (later next output stepped)
    refine ⟨last, output :: outputs, ?_, ⟨accepted, allAccepted⟩, lastRelated⟩
    rw [run_cons_of_step stepped, ran]
    rfl

/-! ## Simulation -/

/-- If each step of a machine is a step of another one that shows the same, or shows nothing and
leaves the other one where it is, then each run of the first is matched by a run of the second that
shows the same. -/
theorem run_observed_stuttering {step : σ → ι → Option (σ × ω)}
    {spec : τ → ι' → Option (τ × ω')} {α : Type*} (seen : ω → Option α) (shown : ω' → Option α)
    (related : σ → τ → Prop)
    (answers : ∀ state abstract input next output, related state abstract →
      step state input = some (next, output) →
        (related next abstract ∧ seen output = none) ∨
        ∃ event after told, spec abstract event = some (after, told) ∧ related next after ∧
          shown told = seen output)
    (inputs : List ι) (state last : σ) (abstract : τ) (outputs : List ω)
    (start : related state abstract) (ran : run step state inputs = some (last, outputs)) :
    ∃ events after told, run spec abstract events = some (after, told) ∧ related last after ∧
      told.filterMap shown = outputs.filterMap seen := by
  induction inputs generalizing state abstract outputs with
  | nil =>
    cases ran
    exact ⟨[], abstract, [], rfl, start, rfl⟩
  | cons input inputs ih =>
    obtain ⟨next, output, later, stepped, rest, rfl⟩ := run_cons_eq_some ran
    rcases answers state abstract input next output start stepped with ⟨same, quiet⟩ | matched
    · obtain ⟨events, reached, told, matchedRest, lastRelated, observed⟩ :=
        ih next abstract later same rest
      refine ⟨events, reached, told, matchedRest, lastRelated, ?_⟩
      rw [observed, List.filterMap_cons_none quiet]
    · obtain ⟨event, after, first, taken, nextRelated, observedFirst⟩ := matched
      obtain ⟨events, reached, told, matchedRest, lastRelated, observed⟩ :=
        ih next after later nextRelated rest
      refine ⟨event :: events, reached, first :: told, ?_, lastRelated, ?_⟩
      · rw [run_cons_of_step taken, matchedRest]
        rfl
      · rw [List.filterMap_cons, List.filterMap_cons, observed, observedFirst]

/-- The same when only the states matter. -/
theorem run_stuttering {step : σ → ι → Option (σ × ω)} {spec : τ → ι' → Option (τ × ω')}
    (related : σ → τ → Prop)
    (answers : ∀ state abstract input next output, related state abstract →
      step state input = some (next, output) → related next abstract ∨
        ∃ event after shown, spec abstract event = some (after, shown) ∧ related next after)
    (inputs : List ι) (state last : σ) (abstract : τ) (outputs : List ω)
    (start : related state abstract) (ran : run step state inputs = some (last, outputs)) :
    ∃ events after shown, run spec abstract events = some (after, shown) ∧ related last after := by
  obtain ⟨events, after, told, matched, lastRelated, -⟩ :=
    run_observed_stuttering (fun _ => (none : Option Unit)) (fun _ => none) related (by
      intro state abstract input next output start stepped
      rcases answers state abstract input next output start stepped with same | matched
      · exact .inl ⟨same, rfl⟩
      · obtain ⟨event, after, shown, taken, nextRelated⟩ := matched
        exact .inr ⟨event, after, shown, taken, nextRelated, rfl⟩)
      inputs state last abstract outputs start ran
  exact ⟨events, after, told, matched, lastRelated⟩

/-- A machine whose guarded steps another one answers with the same outputs, from related states
to related states, is answered over every guarded run. -/
theorem run_simulated {step : σ → ι → Option (σ × ω)} {spec : τ → ι → Option (τ × ω)}
    {guard : σ → ι → Prop} (related : σ → τ → Prop)
    (answers : ∀ state abstract input, related state abstract → guard state input →
      ∃ next after output, step state input = some (next, output) ∧
        spec abstract input = some (after, output) ∧ related next after)
    (inputs : List ι) (state : σ) (abstract : τ) (start : related state abstract)
    (guarded : Guarded step guard state inputs) :
    ∃ last final outputs, run step state inputs = some (last, outputs) ∧
      run spec abstract inputs = some (final, outputs) ∧ related last final := by
  induction inputs generalizing state abstract with
  | nil => exact ⟨state, abstract, [], rfl, rfl, start⟩
  | cons input inputs ih =>
    obtain ⟨meets, later⟩ := guarded
    obtain ⟨next, after, output, stepped, answered, nextRelated⟩ :=
      answers state abstract input start meets
    obtain ⟨last, final, outputs, ran, specRan, lastRelated⟩ :=
      ih next after nextRelated (later next output stepped)
    refine ⟨last, final, output :: outputs, ?_, ?_, lastRelated⟩
    · rw [run_cons_of_step stepped, ran]
      rfl
    · rw [run_cons_of_step answered, specRan]
      rfl

/-! ## Runs that lead somewhere -/

/-- A run on allowed inputs leads from one state to another. -/
inductive Leads (step : σ → ι → Option (σ × ω)) (allowed : ι → Prop) : σ → List ω → σ → Prop where
  /-- No step. -/
  | here {state : σ} : Leads step allowed state [] state
  /-- A step, then the rest. -/
  | step {state next last : σ} {input : ι} {output : ω} {outputs : List ω} (may : allowed input)
      (stepped : step state input = some (next, output))
      (later : Leads step allowed next outputs last) :
      Leads step allowed state (output :: outputs) last

namespace Leads

variable {step : σ → ι → Option (σ × ω)} {allowed : ι → Prop} {state between last : σ}
  {outputs more : List ω}

/-- One allowed step. -/
theorem single {input : ι} {output : ω} (may : allowed input)
    (stepped : step state input = some (last, output)) : Leads step allowed state [output] last :=
  .step may stepped .here

/-- What leads on some inputs leads on more of them. -/
theorem imp {wider : ι → Prop} (weaker : ∀ input, allowed input → wider input)
    (leads : Leads step allowed state outputs last) : Leads step wider state outputs last := by
  induction leads with
  | here => exact .here
  | step may stepped _ ih => exact .step (weaker _ may) stepped ih

/-- One run after another. -/
theorem trans (first : Leads step allowed state outputs between)
    (second : Leads step allowed between more last) :
    Leads step allowed state (outputs ++ more) last := by
  induction first with
  | here => exact second
  | step may stepped _ ih => exact .step may stepped (ih second)

/-- The inputs of the run. -/
theorem run (leads : Leads step allowed state outputs last) :
    ∃ inputs, (∀ input ∈ inputs, allowed input) ∧
      Library.run step state inputs = some (last, outputs) := by
  induction leads with
  | here => exact ⟨[], by simp, rfl⟩
  | @step _ _ _ input _ _ may stepped _ ih =>
    obtain ⟨inputs, all, ran⟩ := ih
    refine ⟨input :: inputs, ?_, ?_⟩
    · intro other member
      rcases List.mem_cons.mp member with rfl | member
      · exact may
      · exact all other member
    · rw [run_cons_of_step stepped, ran]
      rfl

/-- Where a run on allowed inputs leads. -/
theorem of_run {inputs : List ι} (all : ∀ input ∈ inputs, allowed input)
    (ran : Library.run step state inputs = some (last, outputs)) :
    Leads step allowed state outputs last := by
  induction inputs generalizing state outputs with
  | nil =>
    cases ran
    exact .here
  | cons input inputs ih =>
    obtain ⟨next, output, later, stepped, rest, rfl⟩ := run_cons_eq_some ran
    exact .step (all input List.mem_cons_self) stepped
      (ih (fun other member => all other (List.mem_cons_of_mem _ member)) rest)

/-- What each allowed step keeps between the state and the outputs so far, the run keeps. -/
theorem kept (holds : σ → List ω → Prop)
    (keeps : ∀ state input next output past, holds state past → allowed input →
      step state input = some (next, output) → holds next (past ++ [output]))
    (leads : Leads step allowed state outputs last) {past : List ω} (start : holds state past) :
    holds last (past ++ outputs) := by
  induction leads generalizing past with
  | here => rwa [List.append_nil]
  | step may stepped _ ih =>
    have whole := ih (keeps _ _ _ _ past start may stepped)
    rwa [List.append_assoc, List.singleton_append] at whole

/-- If every state leads to one in which a key is done, and what was done stays done, then every
state leads to one in which all keys of a list are done. -/
theorem each {κ : Type} (holds : σ → Prop) (done : σ → κ → Prop)
    (one : ∀ state key, holds state → ∃ outputs next, Leads step allowed state outputs next ∧
      holds next ∧ done next key ∧ ∀ other, done state other → done next other)
    (keys : List κ) (start : holds state) :
    ∃ outputs last, Leads step allowed state outputs last ∧ holds last ∧
      ∀ key, key ∈ keys ∨ done state key → done last key := by
  induction keys generalizing state with
  | nil => exact ⟨[], state, .here, start, by simp⟩
  | cons key keys ih =>
    obtain ⟨first, between, leads, holdsNow, here, kept⟩ := one state key start
    obtain ⟨second, last, rest, holdsLast, all⟩ := ih holdsNow
    refine ⟨first ++ second, last, leads.trans rest, holdsLast, ?_⟩
    rintro other (member | before)
    · rcases List.mem_cons.mp member with rfl | later
      · exact all other (.inr here)
      · exact all other (.inl later)
    · exact all other (.inr (kept other before))

end Leads

end Library
