import Mathlib.Data.Option.Basic
import Mathlib.Tactic.SplitIfs

/-!
# Programs that may give up

The shape of a C function that works on a state and returns 0 or -1: it ends with a value or
without one, and in both cases with a state.  Giving up does not undo anything.

`Triple P m Q E` is partial correctness with a postcondition for each way to end: from a state in
`P`, a value `a` comes with a state in `Q a`, and giving up leaves a state in `E`.  Programs here
always end, so nothing is lost by it.
-/

namespace TgCli.Lib

variable {S α β : Type}

/-- A program on states `S` with values in `α`. -/
def Prog (S α : Type) : Type :=
  S → Option α × S

namespace Prog

instance : Monad (Prog S) where
  pure a s := (some a, s)
  bind m f s :=
    match m s with
    | (some a, s') => f a s'
    | (none, s') => (none, s')

def fail : Prog S α :=
  fun s => (none, s)

def act (f : S → α × S) : Prog S α :=
  fun s => (some (f s).1, (f s).2)

def ask (f : S → α) : Prog S α :=
  act fun s => (f s, s)

def update (f : S → S) : Prog S Unit :=
  act fun s => ((), f s)

variable {m : Prog S α} {f : α → Prog S β}

theorem bind_of_some {s s' : S} {a : α} (h : m s = (some a, s')) :
    (m >>= f) s = f a s' := by
  show (match m s with | (some a, s') => f a s' | (none, s') => (none, s')) = f a s'
  rw [h]

theorem bind_of_none {s s' : S} (h : m s = (none, s')) :
    (m >>= f) s = (none, s') := by
  show (match m s with | (some a, s') => f a s' | (none, s') => (none, s')) = (none, s')
  rw [h]

theorem bind_congr_at {m' : Prog S α} {s : S} (h : m s = m' s) (f : α → Prog S β) :
    (m >>= f) s = (m' >>= f) s := by
  rcases hm : m' s with ⟨_ | a, s'⟩
  · rw [bind_of_none hm, bind_of_none (h.trans hm)]
  · rw [bind_of_some hm, bind_of_some (h.trans hm)]

theorem bind_eq_some {s s' : S} {b : β} :
    (m >>= f) s = (some b, s') ↔ ∃ a s₁, m s = (some a, s₁) ∧ f a s₁ = (some b, s') := by
  refine ⟨fun h => ?_, fun ⟨a, s₁, h, h'⟩ => (bind_of_some h).trans h'⟩
  rcases hms : m s with ⟨_ | a, s₁⟩
  · rw [bind_of_none hms] at h
    exact absurd (congrArg Prod.fst h).symm (Option.some_ne_none b)
  · rw [bind_of_some hms] at h
    exact ⟨a, s₁, rfl, h⟩

/-! ## Rules -/

def Triple (P : S → Prop) (m : Prog S α) (Q : α → S → Prop) (E : S → Prop) : Prop :=
  ∀ s, P s → (∀ a, (m s).1 = some a → Q a (m s).2) ∧ ((m s).1 = none → E (m s).2)

section Rules

variable {P P' : S → Prop} {Q Q' : α → S → Prop} {R : β → S → Prop} {E E' : S → Prop}

theorem Triple.conseq {m : Prog S α} (h : Triple P' m Q' E') (hP : ∀ s, P s → P' s)
    (hQ : ∀ a s, Q' a s → Q a s) (hE : ∀ s, E' s → E s) : Triple P m Q E :=
  fun s hs => ⟨fun a ha => hQ a _ ((h s (hP s hs)).1 a ha), fun hn => hE _ ((h s (hP s hs)).2 hn)⟩

theorem triple_pure {a : α} (h : ∀ s, P s → Q a s) : Triple P (pure a) Q E := by
  intro s hs
  refine ⟨fun a' ha => ?_, fun hn => absurd hn (Option.some_ne_none a)⟩
  obtain rfl : a = a' := Option.some_inj.mp ha
  exact h s hs

theorem triple_fail (h : ∀ s, P s → E s) : Triple P (fail : Prog S α) Q E :=
  fun s hs => ⟨fun _ ha => absurd ha.symm (Option.some_ne_none _), fun _ => h s hs⟩

theorem triple_act {f : S → α × S} (h : ∀ s, P s → Q (f s).1 (f s).2) : Triple P (act f) Q E := by
  intro s hs
  refine ⟨fun a ha => ?_, fun hn => absurd hn (Option.some_ne_none _)⟩
  obtain rfl : (f s).1 = a := Option.some_inj.mp ha
  exact h s hs

theorem triple_ask {f : S → α} (h : ∀ s, P s → Q (f s) s) : Triple P (ask f) Q E :=
  triple_act h

theorem triple_update {f : S → S} {Q : Unit → S → Prop} (h : ∀ s, P s → Q () (f s)) :
    Triple P (update f) Q E :=
  triple_act h

theorem Triple.bind {m : Prog S α} {f : α → Prog S β} (hm : Triple P m Q E)
    (hf : ∀ a, Triple (Q a) (f a) R E) : Triple P (m >>= f) R E := by
  intro s hs
  obtain ⟨hsome, hnone⟩ := hm s hs
  rcases hms : m s with ⟨_ | a, s'⟩
  · rw [hms] at hnone
    rw [bind_of_none hms]
    exact ⟨fun b hb => absurd hb.symm (Option.some_ne_none b), fun _ => hnone rfl⟩
  · rw [hms] at hsome
    rw [bind_of_some hms]
    exact hf a s' (hsome a rfl)

end Rules

/-! ## Following a part of the state -/

section Follows

variable {T : Type} {π : S → T}

/-- The program does to the part `π` of the state what the partial function `w` does to it. -/
class Follows (π : S → T) (m : Prog S α) (w : outParam (StateT T Option α)) : Prop where
  eq : ∀ s, (m s).1.map (fun a => (a, π (m s).2)) = w (π s)

namespace Follows

instance pure (a : α) : Follows π (Pure.pure a : Prog S α) (Pure.pure a) :=
  ⟨fun _ => rfl⟩

instance bind {m : Prog S α} {f : α → Prog S β} {w : StateT T Option α} {g : α → StateT T Option β}
    [hm : Follows π m w] [hf : ∀ a, Follows π (f a) (g a)] : Follows π (m >>= f) (w >>= g) := by
  refine ⟨fun s => ?_⟩
  show _ = (w (π s)).bind (fun x => g x.1 x.2)
  rw [← hm.eq]
  rcases hms : m s with ⟨_ | a, s'⟩
  · rw [bind_of_none hms]
    rfl
  · rw [bind_of_some hms]
    exact (hf a).eq s'

instance ite {c : Prop} [Decidable c] {m m' : Prog S α} {w w' : StateT T Option α}
    [h : Follows π m w] [h' : Follows π m' w'] :
    Follows π (if c then m else m') (if c then w else w') := by
  split_ifs
  · exact h
  · exact h'

theorem of_eq {m : Prog S α} {w w' : StateT T Option α} (h : Follows π m w) (e : w = w') :
    Follows π m w' :=
  e ▸ h

end Follows

end Follows

/-! ## Leaving a part of the state alone -/

section Keeps

variable {T : Type} {π : S → T}

/-- However the program ends, the part `π` of the state is what it was. -/
class Keeps (π : S → T) (m : Prog S α) : Prop where
  eq : ∀ s, π (m s).2 = π s

namespace Keeps

instance pure (a : α) : Keeps π (Pure.pure a : Prog S α) :=
  ⟨fun _ => rfl⟩

instance bind {m : Prog S α} {f : α → Prog S β} [hm : Keeps π m] [hf : ∀ a, Keeps π (f a)] :
    Keeps π (m >>= f) := by
  refine ⟨fun s => ?_⟩
  have h := hm.eq s
  rcases hms : m s with ⟨_ | a, s'⟩ <;> rw [hms] at h
  · rw [bind_of_none hms]
    exact h
  · rw [bind_of_some hms, (hf a).eq s']
    exact h

instance fail : Keeps π (Prog.fail : Prog S α) :=
  ⟨fun _ => rfl⟩

instance ask (f : S → α) : Keeps π (Prog.ask f) :=
  ⟨fun _ => rfl⟩

instance ite {c : Prop} [Decidable c] {m m' : Prog S α} [h : Keeps π m] [h' : Keeps π m'] :
    Keeps π (if c then m else m') := by
  split_ifs
  · exact h
  · exact h'

theorem update {f : S → S} (h : ∀ s, π (f s) = π s) : Keeps π (Prog.update f) :=
  ⟨h⟩

theorem bind_eq (m : Prog S α) {f : α → Prog S β} [hf : ∀ a, Keeps π (f a)] (s : S) :
    π ((m >>= f) s).2 = π (m s).2 := by
  rcases hms : m s with ⟨_ | a, s'⟩
  · rw [bind_of_none hms]
  · rw [bind_of_some hms, (hf a).eq s']

end Keeps

end Keeps

/-! ## Two programs side by side -/

/-- What a program leaves behind is changed by `f`, whether it succeeds or not. -/
def after (m : Prog S α) (f : S → S) : Prog S α :=
  fun s => ((m s).1, f (m s).2)

theorem Keeps.after {T : Type} {π : S → T} {f : S → S} (hm : Keeps π m)
    (hf : ∀ s, π (f s) = π s) : Keeps π (m.after f) :=
  ⟨fun s => (hf (m s).2).trans (hm.eq s)⟩

section Alike

variable {R Q P E : S → S → Prop}

/-- From states that `R` relates, the programs do the same: both succeed, with one value and in
states that `Q` relates, or both fail, in states that `E` relates. -/
class Alike (R Q E : S → S → Prop) (m m' : Prog S α) : Prop where
  rel : ∀ {s s'}, R s s' →
    (∃ a t t', m s = (some a, t) ∧ m' s' = (some a, t') ∧ Q t t') ∨
      ∃ t t', m s = (none, t) ∧ m' s' = (none, t') ∧ E t t'

namespace Alike

instance pure (a : α) : Alike R R E (Pure.pure a) (Pure.pure a) :=
  ⟨fun h => .inl ⟨a, _, _, rfl, rfl, h⟩⟩

theorem seq {m m' : Prog S α} {f f' : α → Prog S β} (hm : Alike R Q E m m')
    (hf : ∀ a, Alike Q P E (f a) (f' a)) : Alike R P E (m >>= f) (m' >>= f') := by
  refine ⟨fun h => ?_⟩
  obtain ⟨a, t, t', hs, hs', ht⟩ | ⟨t, t', hs, hs', ht⟩ := hm.rel h
  · rw [bind_of_some hs, bind_of_some hs']
    exact (hf a).rel ht
  · rw [bind_of_none hs, bind_of_none hs']
    exact .inr ⟨t, t', rfl, rfl, ht⟩

/-- A relation that every step keeps is kept by the whole. -/
instance bind {m m' : Prog S α} {f f' : α → Prog S β} [hm : Alike R R E m m']
    [hf : ∀ a, Alike R R E (f a) (f' a)] : Alike R R E (m >>= f) (m' >>= f') :=
  seq hm hf

theorem choose {c : Prop} [Decidable c] {m₁ m₁' m₂ m₂' : Prog S α} (h₁ : Alike R Q E m₁ m₁')
    (h₂ : Alike R Q E m₂ m₂') : Alike R Q E (if c then m₁ else m₂) (if c then m₁' else m₂') := by
  split_ifs
  · exact h₁
  · exact h₂

instance ite {c : Prop} [Decidable c] {m₁ m₁' m₂ m₂' : Prog S α} [h₁ : Alike R Q E m₁ m₁']
    [h₂ : Alike R Q E m₂ m₂'] : Alike R Q E (if c then m₁ else m₂) (if c then m₁' else m₂') :=
  choose h₁ h₂

theorem weaken {m m' : Prog S α} (h : Alike Q P E m m') (hR : ∀ {s s'}, R s s' → Q s s') :
    Alike R P E m m' :=
  ⟨fun hs => h.rel (hR hs)⟩

theorem act {f f' : S → α × S} (h : ∀ {s s'}, R s s' → (f s).1 = (f' s').1 ∧ Q (f s).2 (f' s').2) :
    Alike R Q E (Prog.act f) (Prog.act f') := by
  refine ⟨fun {s s'} hs => .inl ⟨(f s).1, (f s).2, (f' s').2, rfl, ?_, (h hs).2⟩⟩
  rw [(h hs).1]
  rfl

theorem fail (h : ∀ {s s'}, R s s' → E s s') : Alike R Q E (Prog.fail : Prog S α) Prog.fail :=
  ⟨fun hs => .inr ⟨_, _, rfl, rfl, h hs⟩⟩

theorem after {m m' : Prog S α} {f : S → S} (hm : Alike R Q E m m')
    (hQ : ∀ {s s'}, Q s s' → Q (f s) (f s')) (hE : ∀ {s s'}, E s s' → E (f s) (f s')) :
    Alike R Q E (m.after f) (m'.after f) := by
  refine ⟨fun h => ?_⟩
  obtain ⟨a, t, t', hs, hs', ht⟩ | ⟨t, t', hs, hs', ht⟩ := hm.rel h
  · exact .inl ⟨a, f t, f t', by rw [Prog.after, hs], by rw [Prog.after, hs'], hQ ht⟩
  · exact .inr ⟨f t, f t', by rw [Prog.after, hs], by rw [Prog.after, hs'], hE ht⟩

end Alike

end Alike

end Prog

end TgCli.Lib
