import TgCli.Lib.Prog

/-!
# Programs that read

A parser as a program: a part `rest` of its state is the input that is left, and a part `view` is
what the parser has found so far, as much of it as is of interest.

`Takes m b o v v'` says what `m` makes of an input that begins with `b`, whatever follows: it comes
to the outcome `o`, and leads from what is seen in `v` to `v'`.  Where the outcome is a value, `m`
has taken exactly `b` off its input (`Reads`); where there is none, it has given up (`Breaks`).
Both follow the program: `Takes.bind` puts one piece behind another, and a program breaks where its
first part does (`Takes.first`).
-/

namespace TgCli.Lib
namespace Prog

variable {S U V α β : Type} (rest : S → List U) (view : S → V)

def Takes (m : Prog S α) (b : List U) (o : Option α) (v v' : V) : Prop :=
  ∀ s t, rest s = b ++ t → view s = v →
    ∃ s', m s = (o, s') ∧ (o.isSome → rest s' = t) ∧ view s' = v'

abbrev Reads (m : Prog S α) (b : List U) (a : α) (v v' : V) : Prop :=
  Takes rest view m b (some a) v v'

abbrev Breaks (m : Prog S α) (b : List U) (v v' : V) : Prop :=
  Takes rest view m b none v v'

variable {rest view} {m : Prog S α} {k : α → Prog S β} {b b' : List U} {a : α} {o : Option α}
  {o' : Option β} {v v₁ v₂ : V}

namespace Takes

theorem pure : Reads rest view (Pure.pure a : Prog S α) [] a v v :=
  fun s _ hs hv => ⟨s, rfl, fun _ => hs, hv⟩

/-- **One piece after the other.** -/
theorem bind (hm : Reads rest view m b a v v₁) (hk : Takes rest view (k a) b' o' v₁ v₂) :
    Takes rest view (m >>= k) (b ++ b') o' v v₂ := by
  intro s t hs hv
  rw [List.append_assoc] at hs
  obtain ⟨s₁, hm, hs₁, hv₁⟩ := hm s _ hs hv
  rw [bind_of_some hm]
  exact hk s₁ t (hs₁ rfl) hv₁

/-- A first part that takes nothing off the input. -/
theorem step (hm : Reads rest view m [] a v v₁) (hk : Takes rest view (k a) b' o' v₁ v₂) :
    Takes rest view (m >>= k) b' o' v v₂ :=
  bind hm hk

/-- A second part that takes nothing off the input. -/
theorem last (hm : Reads rest view m b a v v₁) (hk : Takes rest view (k a) [] o' v₁ v₂) :
    Takes rest view (m >>= k) b o' v v₂ := by
  rw [← List.append_nil b]
  exact bind hm hk

theorem first (hm : Breaks rest view m b v v₁) : Breaks rest view (m >>= k) b v v₁ := by
  intro s t hs hv
  obtain ⟨s₁, hm, -, hv₁⟩ := hm s t hs hv
  exact ⟨s₁, bind_of_none hm, fun h => absurd h Bool.false_ne_true, hv₁⟩

/-- A look at the state: what is known of it may be used for what follows. -/
theorem look {f : S → α} (hk : ∀ s t, rest s = b ++ t → view s = v →
    Takes rest view (k (f s)) b o' v v₁) : Takes rest view (ask f >>= k) b o' v v₁ := by
  intro s t hs hv
  rw [bind_of_some (show ask f s = (some (f s), s) from rfl)]
  exact hk s t hs hv s t hs hv

theorem after {f : S → S} (hm : Takes rest view m b o v v₁) (hrest : ∀ s, rest (f s) = rest s)
    (hview : ∀ s, view s = v₁ → view (f s) = v₂) : Takes rest view (m.after f) b o v v₂ := by
  intro s t hs hv
  obtain ⟨s', hm, hs', hv'⟩ := hm s t hs hv
  exact ⟨f s', by rw [Prog.after, hm], fun h => (hrest s').trans (hs' h), hview s' hv'⟩

/-- A parser that gives up does so whatever follows. -/
theorem append (hm : Breaks rest view m b v v₁) (b' : List U) :
    Breaks rest view m (b ++ b') v v₁ := by
  intro s t hs hv
  rw [List.append_assoc] at hs
  obtain ⟨s', hm, -, hv'⟩ := hm s _ hs hv
  exact ⟨s', hm, fun h => absurd h Bool.false_ne_true, hv'⟩

end Takes

end Prog
end TgCli.Lib
