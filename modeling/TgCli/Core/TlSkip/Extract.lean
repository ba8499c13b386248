import TgCli.Lib.Prog
import TgCli.Core.TlSkip.Walk

/-!
# `core/tl_skip.c`: functions with an `out` parameter

Some functions note down what they walk over when the caller gives them a place for it.  They write
as they go, so a function that fails half way leaves what it has written; such an extractor is a
program (`Lib.Prog`) on the cursor and the place, which may be `NULL`.

What is noted never has an influence on the walk.  An `Extractor` carries the walk that its cursor
follows, so that the call with a place and the call with `NULL` are known to be one walk
(`Extractor.call_eq`).
-/

namespace TgCli.Core

open Lib

/-- What a function with an `out` parameter works on; `none` is `NULL`. -/
structure Ext (Ω : Type) where
  reader : TlReader
  out : Option Ω

namespace Ext

variable {Ω α β : Type}

def walk (w : Walk α) : Prog (Ext Ω) α :=
  fun st =>
    match w st.reader with
    | some (a, r) => (some a, { st with reader := r })
    | none => (none, st)

theorem walk_of_some {w : Walk α} {r r' : TlReader} {a : α} (h : w r = some (a, r'))
    (out : Option Ω) : walk w ⟨r, out⟩ = (some a, ⟨r', out⟩) := by
  rw [walk, h]

theorem walk_of_none {w : Walk α} {r : TlReader} (h : w r = none) (out : Option Ω) :
    walk w ⟨r, out⟩ = (none, ⟨r, out⟩) := by
  rw [walk, h]

theorem walk_eq_some {w : Walk α} {st st' : Ext Ω} {a : α} :
    walk w st = (some a, st') ↔ ∃ r, w st.reader = some (a, r) ∧ st' = ⟨r, st.out⟩ := by
  rw [walk]
  rcases w st.reader with _ | ⟨a', r⟩
  · simp
  · simp only [Prod.mk.injEq, Option.some.injEq]
    constructor
    · rintro ⟨rfl, rfl⟩
      exact ⟨r, ⟨rfl, rfl⟩, rfl⟩
    · rintro ⟨_, ⟨rfl, rfl⟩, rfl⟩
      exact ⟨rfl, rfl⟩

/-- `if (out) out->… = …;`. -/
def set (f : Ω → Ω) : Prog (Ext Ω) Unit :=
  Prog.update fun st => { st with out := st.out.map f }

/-- `if (out) { read_string_into(…) } else { tl_skip_string(r) }`, with what an assignment of the
string does.  A string that cannot be read leaves the empty string. -/
def stringInto (f : Bytes → Ω → Ω) : Prog (Ext Ω) Unit :=
  fun st =>
    match st.out with
    | none => walk (Walk.skip tlSkipString) st
    | some o =>
      match tlReadString st.reader with
      | (some s, r) => (some (), ⟨r, some (f s o)⟩)
      | (none, r) => (none, ⟨r, some (f [] o)⟩)

/-- `if (c) { … }`. -/
def opt (c : Bool) (m : Prog (Ext Ω) Unit) : Prog (Ext Ω) Unit :=
  if c then m else pure ()

/-- `for (uint32_t i = 0; i < n; i++) { … }`. -/
def rep (m : Prog (Ext Ω) Unit) : ℕ → Prog (Ext Ω) Unit
  | 0 => pure ()
  | n + 1 => m >>= fun _ => rep m n

def vector (item : Prog (Ext Ω) Unit) : Prog (Ext Ω) Unit := do
  walk (Walk.need 8)
  let vec ← walk Walk.u32
  walk (Walk.ensure (vec = tlVector))
  let n ← walk Walk.u32
  rep item n.toNat

/-- The extractor moves the cursor as the walk does, whatever `out` is. -/
abbrev Follows (m : Prog (Ext Ω) α) (w : outParam (Walk α)) : Prop :=
  Prog.Follows Ext.reader m w

instance followsWalk (w : Walk α) : Follows (walk w : Prog (Ext Ω) α) w := by
  refine ⟨fun st => ?_⟩
  rw [walk]
  cases w st.reader <;> rfl

instance followsSet (f : Ω → Ω) : Follows (set f) (pure ()) :=
  ⟨fun _ => rfl⟩

instance followsOpt (c : Bool) {m : Prog (Ext Ω) Unit} {w : Walk Unit} [h : Follows m w] :
    Follows (opt c m) (Walk.opt c w) := by
  rw [opt, Walk.opt]
  infer_instance

instance followsRep {m : Prog (Ext Ω) Unit} {w : Walk Unit} [h : Follows m w] (n : ℕ) :
    Follows (rep m n) (Walk.rep w n) := by
  induction n with
  | zero => exact Prog.Follows.pure ()
  | succ n ih =>
    rw [rep, Walk.rep]
    infer_instance

instance followsVector {m : Prog (Ext Ω) Unit} {w : Walk Unit} [h : Follows m w] :
    Follows (vector m) (Walk.vector w) := by
  rw [vector, Walk.vector]
  infer_instance

instance followsStringInto (f : Bytes → Ω → Ω) :
    Follows (stringInto f) (Walk.skip tlSkipString) := by
  refine ⟨fun st => ?_⟩
  obtain ⟨r, _ | o⟩ := st
  · exact (followsWalk (Walk.skip tlSkipString)).eq _
  · rw [Guarded.skip_tlSkipString_eq, stringInto]
    rcases tlReadString r with ⟨_ | s, r'⟩ <;> rfl

/-! ### What a step leaves as noted -/

section Keeps

variable {T : Type} (f : Ω → T)

def noted (st : Ext Ω) : Option T :=
  st.out.map f

instance keepsWalk (w : Walk α) : Prog.Keeps (noted f) (walk w) := by
  refine ⟨fun st => ?_⟩
  rw [walk]
  cases w st.reader <;> rfl

instance keepsOpt (c : Bool) {m : Prog (Ext Ω) Unit} [Prog.Keeps (noted f) m] :
    Prog.Keeps (noted f) (opt c m) := by
  rw [opt]
  split <;> infer_instance

variable {f}

theorem keepsSet {g : Ω → Ω} (h : ∀ o, f (g o) = f o) : Prog.Keeps (noted f) (set g) := by
  refine Prog.Keeps.update fun st => ?_
  obtain ⟨r, _ | o⟩ := st
  · rfl
  · exact congrArg some (h o)

theorem keepsStringInto {g : Bytes → Ω → Ω} (h : ∀ s o, f (g s o) = f o) :
    Prog.Keeps (noted f) (stringInto g) := by
  refine ⟨fun st => ?_⟩
  obtain ⟨r, _ | o⟩ := st
  · exact (keepsWalk f _).eq _
  · rw [stringInto]
    rcases tlReadString r with ⟨_ | s, r'⟩
    · exact congrArg some (h [] o)
    · exact congrArg some (h s o)

end Keeps

end Ext

theorem Walk.skip_injective : Function.Injective Walk.skip := by
  intro f g h
  funext r
  have hr := congrFun h r
  rw [Walk.skip, Walk.skip] at hr
  exact Option.map_injective (fun _ _ h => (Prod.mk.inj h).2) hr

structure Extractor (Ω : Type) where
  run : Prog (Ext Ω) Unit
  walks : ∃ w, Ext.Follows run w ∧ Guarded 0 0 w

namespace Extractor

variable {Ω : Type}

theorem walks_of (m : Prog (Ext Ω) Unit) {w : Walk Unit} [h : Ext.Follows m w]
    [h' : Guarded 0 0 w] :
    ∃ w, Ext.Follows m w ∧ Guarded 0 0 w :=
  ⟨w, h, h'⟩

def of (m : Prog (Ext Ω) Unit) {w : Walk Unit} [Ext.Follows m w] [Guarded 0 0 w] : Extractor Ω :=
  ⟨m, walks_of m⟩

def call (x : Extractor Ω) (out : Option Ω) (r : TlReader) : Option TlReader :=
  (x.run ⟨r, out⟩).1.map fun _ => (x.run ⟨r, out⟩).2.reader

theorem skip_call_eq {x : Extractor Ω} {w : Walk Unit} (h : Ext.Follows x.run w) (out : Option Ω) :
    Walk.skip (x.call out) = w := by
  funext r
  rw [← h.eq ⟨r, out⟩, Walk.skip, call, Option.map_map]
  rfl

/-- **The cursor does not depend on `out`.** -/
theorem call_eq (x : Extractor Ω) (out out' : Option Ω) : x.call out = x.call out' := by
  obtain ⟨w, hw, -⟩ := x.walks
  exact Walk.skip_injective ((skip_call_eq hw out).trans (skip_call_eq hw out').symm)

theorem guarded_call (x : Extractor Ω) (out : Option Ω) : Guarded 0 0 (Walk.skip (x.call out)) := by
  obtain ⟨w, hw, hg⟩ := x.walks
  rwa [skip_call_eq hw out]

def skipper (x : Extractor Ω) (out : Option Ω) : Skipper :=
  ⟨x.call out, x.guarded_call out⟩

/-- Inside another extractor of the same kind, `out` is passed on. -/
instance follows (x : Extractor Ω) : Ext.Follows x.run (Walk.skip (x.call none)) := by
  obtain ⟨w, hw, -⟩ := x.walks
  rwa [skip_call_eq hw none]

instance (x : Extractor Ω) (out : Option Ω) : Guarded 0 0 (Walk.skip (x.call out)) :=
  x.guarded_call out

end Extractor

end TgCli.Core
