import Mathlib.Data.List.Basic

/-!
# Machines that answer

A machine has states, operations and results: `exec op s` is the result of an operation and the
next state.  `runAll` runs a list of operations.  A relation that every step keeps, with equal
results, gives equal results along every run (`runAll_simulates`).

Where the results do not matter, a machine is its step function: `trace` lists the steps of a run,
each with the state before it.
-/

namespace TgCli.Lib

variable {O R S V : Type*}

def runAll (exec : O → S → R × S) : List O → S → List R × S
  | [], s => ([], s)
  | op :: ops, s =>
    let x := exec op s
    let rest := runAll exec ops x.2
    (x.1 :: rest.1, rest.2)

/-- **Simulation rule.** -/
theorem runAll_simulates {exec : O → S → R × S} {spec : O → V → R × V} {Valid : O → Prop}
    {Rel : V → S → Prop}
    (hstep : ∀ op s v, Valid op → Rel v s →
      (exec op s).1 = (spec op v).1 ∧ Rel (spec op v).2 (exec op s).2)
    {ops : List O} (hops : ∀ op ∈ ops, Valid op) {s : S} {v : V} (h : Rel v s) :
    (runAll exec ops s).1 = (runAll spec ops v).1 ∧
      Rel (runAll spec ops v).2 (runAll exec ops s).2 := by
  induction ops generalizing s v with
  | nil => exact ⟨rfl, h⟩
  | cons op ops ih =>
    rw [List.forall_mem_cons] at hops
    obtain ⟨hres, hrel⟩ := hstep op s v hops.1 h
    obtain ⟨hrest, hend⟩ := ih hops.2 hrel
    refine ⟨?_, hend⟩
    show (exec op s).1 :: _ = (spec op v).1 :: _
    rw [hres, hrest]

def trace (step : S → O → S) : S → List O → List (S × O)
  | _, [] => []
  | s, op :: ops => (s, op) :: trace step (step s op) ops

/-- **Invariant rule**: what every step keeps holds before every step. -/
theorem trace_invariant {step : S → O → S} {Inv : S → Prop} {Valid : O → Prop}
    (hstep : ∀ s op, Valid op → Inv s → Inv (step s op)) {s : S} (h : Inv s) {ops : List O}
    (hops : ∀ op ∈ ops, Valid op) : ∀ x ∈ trace step s ops, Inv x.1 ∧ Valid x.2 := by
  induction ops generalizing s with
  | nil =>
    intro x hx
    exact absurd hx List.not_mem_nil
  | cons op ops ih =>
    rw [List.forall_mem_cons] at hops
    rw [trace, List.forall_mem_cons]
    exact ⟨⟨h, hops.1⟩, ih (hstep s op hops.1 h) hops.2⟩

/-- **Step conditions along a run**: where a condition on a state and the next operation says
exactly when the step is a good one, and then keeps an invariant, a run has only good steps exactly
if the condition holds before every step. -/
theorem trace_forall_iff {step : S → O → S} {Inv : S → Prop} {Good Cond : S → O → Prop}
    (hgood : ∀ s op, Inv s → (Good s op ↔ Cond s op))
    (hkeep : ∀ s op, Inv s → Cond s op → Inv (step s op)) {s : S} (h : Inv s) (ops : List O) :
    (∀ x ∈ trace step s ops, Good x.1 x.2) ↔ ∀ x ∈ trace step s ops, Cond x.1 x.2 := by
  induction ops generalizing s with
  | nil => simp [trace]
  | cons op ops ih =>
    rw [trace, List.forall_mem_cons, List.forall_mem_cons]
    rw [hgood s op h]
    refine and_congr_right fun hcond => ?_
    exact ih (hkeep s op h hcond)

end TgCli.Lib
