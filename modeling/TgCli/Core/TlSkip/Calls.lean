import Mathlib.Data.ENat.Lattice
import TgCli.Core.TlSkip.Extract
import TgCli.Core.TlSkip.Recursion

/-!
# `core/tl_skip.c`: how deep its calls are nested

A walk is a function from readers, so it does not say how the source comes to its result.  How it is
written does: a `Walk` is put together from a few pieces, and `Calls.depth` follows the pieces.  It
is the number of functions of the file that are active at the deepest point, from a given reader,
and it counts the calls of a run that fails as well.  A string counts as one call, however it is
read.

The functions that call themselves are modelled by levels (`Skipper.nest`).  A call for which no
level is left counts as one that never returns, `⊤`; so a call that comes to an end by itself is one
with a finite depth.  `Ends` says this of the readers behind some place of a buffer, which is what
the induction over the levels needs: a body is entered behind its constructor.

Both are classes, so that a definition finds its own depth and the proof that it is finite.
-/

namespace TgCli.Core

open Lib Walk

noncomputable section

/-! ## The depth of a walk -/

/-- The calls of a piece of a walker: how many functions are active at the deepest point. -/
class Calls {α : Type} (w : Walk α) where
  depth : TlReader → ℕ∞

/-- A call of a function: how many functions are active at the deepest point, itself among them. -/
class Call (f : TlReader → Option TlReader) where
  depth : TlReader → ℕ∞

namespace Calls

variable {α β : Type}

instance pure (a : α) : Calls (Pure.pure a : Walk α) := ⟨fun _ => 0⟩
instance fail : Calls (Walk.fail : Walk α) := ⟨fun _ => 0⟩
instance enter (n : ℕ) : Calls (Walk.enter n) := ⟨fun _ => 0⟩
instance need (n : ℕ) : Calls (Walk.need n) := ⟨fun _ => 0⟩
instance ensure (c : Prop) [Decidable c] : Calls (Walk.ensure c) := ⟨fun _ => 0⟩
instance u32 : Calls Walk.u32 := ⟨fun _ => 0⟩
instance i32 : Calls Walk.i32 := ⟨fun _ => 0⟩
instance i64 : Calls Walk.i64 := ⟨fun _ => 0⟩
instance drop32 : Calls Walk.drop32 := ⟨fun _ => 0⟩
instance drop64 : Calls Walk.drop64 := ⟨fun _ => 0⟩
instance vector32 : Calls Walk.vector32 := ⟨fun _ => 0⟩
instance vector64 : Calls Walk.vector64 := ⟨fun _ => 0⟩
instance str : Calls Walk.str := ⟨fun _ => 1⟩

instance bind {w : Walk α} {f : α → Walk β} [Calls w] [∀ a, Calls (f a)] : Calls (w >>= f) :=
  ⟨fun r => max (depth w r) ((w r).elim 0 fun x => depth (f x.1) x.2)⟩

instance ite {c : Prop} [Decidable c] {w v : Walk α} [Calls w] [Calls v] :
    Calls (if c then w else v) :=
  ⟨fun r => if c then depth w r else depth v r⟩

instance sndIte {κ : Type} {c : Prop} [Decidable c] {x y : κ × Walk Unit} [Calls x.2] [Calls y.2] :
    Calls (if c then x else y).2 :=
  ⟨fun r => if c then depth x.2 r else depth y.2 r⟩

instance opt {c : Bool} {w : Walk Unit} [Calls w] : Calls (Walk.opt c w) :=
  ⟨fun r => if c then depth w r else 0⟩

instance rep {w : Walk Unit} [h : Calls w] : ∀ n, Calls (Walk.rep w n)
  | 0 => ⟨fun _ => 0⟩
  | n + 1 => @bind _ _ w (fun _ => Walk.rep w n) h fun _ => rep n

instance vector {w : Walk Unit} [Calls w] : Calls (Walk.vector w) := by
  delta Walk.vector
  infer_instance

instance enterVector {w : Walk Unit} [Calls w] : Calls (Walk.enterVector w) := by
  delta Walk.enterVector
  infer_instance

instance skip (f : TlReader → Option TlReader) [Call f] : Calls (Walk.skip f) := ⟨Call.depth f⟩

theorem le_bind {w : Walk α} {f : α → Walk β} [Calls w] [∀ a, Calls (f a)] {r r' : TlReader} {a : α}
    (h : w r = some (a, r')) : depth (f a) r' ≤ depth (w >>= f) r := by
  refine le_trans ?_ (le_max_right _ _)
  rw [h]
  exact le_rfl

end Calls

namespace Call

instance skipString : Call tlSkipString := ⟨fun _ => 1⟩
instance skipPeer : Call tlSkipPeer := ⟨fun _ => 1⟩

instance of (w : Walk Unit) [Guarded 0 0 w] [Calls w] : Call (Skipper.of w).run :=
  ⟨fun r => 1 + Calls.depth w r⟩

section Extractor

variable {Ω : Type} {m : Prog (Ext Ω) Unit} {w : Walk Unit} [Ext.Follows m w] [Guarded 0 0 w]
  [Calls w]

instance extractor (out : Option Ω) : Call ((Extractor.of m).call out) :=
  ⟨fun r => 1 + Calls.depth w r⟩

@[reducible] def part (out : Option Ω) : Call ((Extractor.of m).call out) :=
  ⟨Calls.depth w⟩

end Extractor

instance skipper {Ω : Type} (x : Extractor Ω) (out : Option Ω) [h : Call (x.call out)] :
    Call (x.skipper out).run :=
  ⟨h.depth⟩

@[reducible] def wrapper {Ω : Type} (x : Extractor Ω) (out : Option Ω) [Call (x.call out)] :
    Call (x.skipper out).run :=
  ⟨fun r => 1 + Call.depth (x.call out) r⟩

end Call

/-! ## Calls that come to an end -/

instance (priority := low) {α : Type} {w : Walk α} [h : Guarded 0 0 w] : Onward w :=
  h.onward

instance (priority := low) {α β : Type} {w : Walk α} {f : α → Walk β} [hw : Onward w]
    [hf : ∀ a, Onward (f a)] : Onward (w >>= f) where
  data_eq h := by
    obtain ⟨a, r₁, h1, h2⟩ := bind_eq_some.mp h
    exact ((hf a).data_eq h2).trans (hw.data_eq h1)
  past h hm hlen := by
    obtain ⟨a, r₁, h1, h2⟩ := bind_eq_some.mp h
    exact (hf a).past h2 (hw.past h1 hm hlen) (by rwa [hw.data_eq h1])

instance : Onward Walk.i32 :=
  (Guarded.i32 (n := 0)).onward

instance : Onward Walk.i64 :=
  (Guarded.i64 (n := 0)).onward

theorem Onward.le {α : Type} {w : Walk α} (h : Onward w) {r r' : TlReader} {a : α} {m : ℕ}
    (hw : w r = some (a, r')) (hm : m ≤ r.pos) (hlen : m ≤ r.data.length) : m ≤ r'.pos := by
  cases m with
  | zero => exact Nat.zero_le _
  | succ m => exact h.past hw hm hlen

/-- Behind the place `m` of the buffer `d` the calls come to an end. -/
class Ends {α : Type} (d : Bytes) (m : ℕ) (w : Walk α) [Calls w] : Prop where
  ne_top : ∀ {r}, m ≤ d.length → r.data = d → m ≤ r.pos → Calls.depth w r ≠ ⊤

namespace Ends

variable {α β : Type} {d : Bytes} {m : ℕ}

theorem of_zero {w : Walk α} [Calls w] (h : ∀ r, Calls.depth w r = 0) : Ends d m w :=
  ⟨fun _ _ _ => by rw [h]; exact ENat.zero_ne_top⟩

instance pure (a : α) : Ends d m (Pure.pure a : Walk α) := of_zero fun _ => rfl
instance fail : Ends d m (Walk.fail : Walk α) := of_zero fun _ => rfl
instance enter (n : ℕ) : Ends d m (Walk.enter n) := of_zero fun _ => rfl
instance need (n : ℕ) : Ends d m (Walk.need n) := of_zero fun _ => rfl
instance ensure (c : Prop) [Decidable c] : Ends d m (Walk.ensure c) := of_zero fun _ => rfl
instance u32 : Ends d m Walk.u32 := of_zero fun _ => rfl
instance i32 : Ends d m Walk.i32 := of_zero fun _ => rfl
instance i64 : Ends d m Walk.i64 := of_zero fun _ => rfl
instance drop32 : Ends d m Walk.drop32 := of_zero fun _ => rfl
instance drop64 : Ends d m Walk.drop64 := of_zero fun _ => rfl
instance vector32 : Ends d m Walk.vector32 := of_zero fun _ => rfl
instance vector64 : Ends d m Walk.vector64 := of_zero fun _ => rfl
instance str : Ends d m Walk.str := ⟨fun _ _ _ => ENat.one_ne_top⟩

instance bind {w : Walk α} {f : α → Walk β} [Calls w] [∀ a, Calls (f a)] [ho : Onward w]
    [hw : Ends d m w] [hf : ∀ a, Ends d m (f a)] : Ends d m (w >>= f) := by
  refine ⟨fun {r} hm hd hpos => ?_⟩
  refine ne_of_lt (max_lt ((hw.ne_top hm hd hpos).lt_top) ?_)
  rcases hr : w r with _ | ⟨a, r'⟩
  · exact ENat.zero_ne_top.lt_top
  · exact ((hf a).ne_top hm ((ho.data_eq hr).trans hd) (ho.le hr hpos (hd ▸ hm))).lt_top

instance ite {c : Prop} [Decidable c] {w v : Walk α} [Calls w] [Calls v] [hw : Ends d m w]
    [hv : Ends d m v] : Ends d m (if c then w else v) := by
  refine ⟨fun {r} hm hd hpos => ?_⟩
  show (if c then _ else _) ≠ _
  split_ifs
  · exact hw.ne_top hm hd hpos
  · exact hv.ne_top hm hd hpos

instance sndIte {κ : Type} {c : Prop} [Decidable c] {x y : κ × Walk Unit} [Calls x.2] [Calls y.2]
    [hx : Ends d m x.2] [hy : Ends d m y.2] : Ends d m (if c then x else y).2 := by
  refine ⟨fun {r} hm hd hpos => ?_⟩
  show (if c then _ else _) ≠ _
  split_ifs
  · exact hx.ne_top hm hd hpos
  · exact hy.ne_top hm hd hpos

instance opt {c : Bool} {w : Walk Unit} [Calls w] [hw : Ends d m w] : Ends d m (Walk.opt c w) := by
  refine ⟨fun {r} hm hd hpos => ?_⟩
  show (if c then _ else _) ≠ _
  split_ifs
  · exact hw.ne_top hm hd hpos
  · exact ENat.zero_ne_top

instance rep {w : Walk Unit} [Calls w] [Onward w] [Ends d m w] (n : ℕ) :
    Ends d m (Walk.rep w n) := by
  induction n with
  | zero => exact of_zero fun _ => rfl
  | succ n ih => exact Ends.bind (f := fun _ => Walk.rep w n)

instance vector {w : Walk Unit} [Calls w] [Onward w] [Ends d m w] : Ends d m (Walk.vector w) := by
  delta Walk.vector
  infer_instance

instance enterVector {w : Walk Unit} [Calls w] [Onward w] [Ends d m w] :
    Ends d m (Walk.enterVector w) := by
  delta Walk.enterVector
  infer_instance

instance skipString : Ends d m (Walk.skip tlSkipString) := ⟨fun _ _ _ => ENat.one_ne_top⟩
instance skipPeer : Ends d m (Walk.skip tlSkipPeer) := ⟨fun _ _ _ => ENat.one_ne_top⟩

theorem one_add_ne_top {n : ℕ∞} (h : n ≠ ⊤) : 1 + n ≠ ⊤ :=
  WithTop.add_ne_top.mpr ⟨ENat.one_ne_top, h⟩

instance of {w : Walk Unit} [Guarded 0 0 w] [Calls w] [hw : Ends d m w] :
    Ends d m (Walk.skip (Skipper.of w).run) :=
  ⟨fun hm hd hpos => one_add_ne_top (hw.ne_top hm hd hpos)⟩

section Extractor

variable {Ω : Type} {p : Prog (Ext Ω) Unit} {w : Walk Unit} [Ext.Follows p w] [Guarded 0 0 w]
  [Calls w] [hw : Ends d m w]

instance extractor (out : Option Ω) : Ends d m (Walk.skip ((Extractor.of p).call out)) :=
  ⟨fun hm hd hpos => one_add_ne_top (hw.ne_top hm hd hpos)⟩

theorem part (out : Option Ω) : @Ends _ d m (Walk.skip ((Extractor.of p).call out))
    (@Calls.skip _ (Call.part out)) :=
  @Ends.mk _ _ _ _ (_) fun hm hd hpos => hw.ne_top hm hd hpos

end Extractor

instance skipper {Ω : Type} (x : Extractor Ω) (out : Option Ω) [Call (x.call out)]
    [h : Ends d m (Walk.skip (x.call out))] : Ends d m (Walk.skip (x.skipper out).run) :=
  ⟨fun hm hd hpos => h.ne_top hm hd hpos⟩

theorem wrapper {Ω : Type} (x : Extractor Ω) (out : Option Ω) [Call (x.call out)]
    [h : Ends d m (Walk.skip (x.call out))] :
    @Ends _ d m (Walk.skip (x.skipper out).run) (@Calls.skip _ (Call.wrapper x out)) :=
  @Ends.mk _ _ _ _ (_) fun hm hd hpos => one_add_ne_top (h.ne_top hm hd hpos)

end Ends

/-! ## Functions that call themselves -/

/-- The calls of a recursive function, in terms of itself. -/
class BodyCalls (body : Skipper.Body) where
  calls : ∀ (s : Skipper) [Call s.run] (crc : UInt32), Calls (body.run s crc)

instance (body : Skipper.Body) [h : BodyCalls body] (s : Skipper) [Call s.run] (crc : UInt32) :
    Calls (body.run s crc) :=
  h.calls s crc

/-- The calls of a body come to an end where those of the function do. -/
class BodyEnds (body : Skipper.Body) [BodyCalls body] : Prop where
  ends : ∀ (s : Skipper) [Call s.run] (d : Bytes) (m : ℕ) [Ends d m (skip s.run)] (crc : UInt32),
    Ends d m (body.run s crc)

section Recursion

variable (body : Skipper.Body) [BodyCalls body]

instance Call.level (s : Skipper) [Call s.run] : Call (Skipper.level body s).run :=
  Call.of _

/-- Where no level is left, the call does not return. -/
instance Call.nest : ∀ n, Call (Skipper.nest body n).run
  | 0 => ⟨fun _ => ⊤⟩
  | n + 1 => @Call.level body _ _ (Call.nest n)

instance Call.fix : Call (Skipper.fix body).run :=
  ⟨fun r => (Call.nest body (r.data.length + 1)).depth r⟩

variable {body} [hends : BodyEnds body]

theorem level_ne_top {s : Skipper} [Call s.run] {r : TlReader}
    (h : ∀ r' : TlReader, r'.data = r.data → r.pos < r'.pos → Call.depth s.run r' ≠ ⊤) :
    Call.depth (Skipper.level body s).run r ≠ ⊤ := by
  refine Ends.one_add_ne_top (ne_of_lt (max_lt ENat.zero_ne_top.lt_top ?_))
  rcases he : Walk.enter 4 r with _ | ⟨u, r₀⟩
  · exact ENat.zero_ne_top.lt_top
  obtain ⟨hok, hleft, rfl⟩ := Guarded.enter_eq_some.mp he
  have hread : r₀.pos + 4 ≤ r₀.data.length := by omega
  have hnext : (tlReadUint32 r₀).2 = r₀.advance 4 := by
    show (readFixed r₀ 4).2 = _
    rw [readFixed_of_le hread]
  have hself : Ends r₀.data (r₀.pos + 4) (skip s.run) :=
    ⟨fun _ hd hpos => h _ hd (by omega)⟩
  refine max_lt ENat.zero_ne_top.lt_top ?_
  show Calls.depth (body.run s (tlReadUint32 r₀).1) (tlReadUint32 r₀).2 < ⊤
  rw [hnext]
  exact ((hends.ends s r₀.data (r₀.pos + 4) _).ne_top (r := r₀.advance 4) hread rfl le_rfl).lt_top

theorem nest_ne_top {n : ℕ} {r : TlReader} (h : r.data.length - r.pos < n) :
    Call.depth (Skipper.nest body n).run r ≠ ⊤ := by
  induction n generalizing r with
  | zero => exact absurd h (Nat.not_lt_zero _)
  | succ n ih =>
    by_cases hend : r.data.length ≤ r.pos
    · refine Ends.one_add_ne_top (ne_of_lt (max_lt ENat.zero_ne_top.lt_top ?_))
      rw [Guarded.enter_of_end hend]
      exact ENat.zero_ne_top.lt_top
    · refine level_ne_top fun r' hd hpos => ih ?_
      rw [hd]
      omega

instance Ends.fix {d : Bytes} {m : ℕ} : Ends d m (skip (Skipper.fix body).run) :=
  ⟨fun _ _ _ => nest_ne_top (Nat.lt_succ_of_le (Nat.sub_le _ _))⟩

end Recursion

/-! ## Functions whose calls come to an end -/

/-- A function whose calls come to an end from every reader. -/
class Returns (f : TlReader → Option TlReader) extends Call f where
  ends : ∀ (d : Bytes) (m : ℕ), Ends d m (skip f)

instance {f : TlReader → Option TlReader} [h : Returns f] {d : Bytes} {m : ℕ} :
    Ends d m (skip f) :=
  h.ends d m

namespace Returns

@[reducible] def of {w : Walk Unit} [Guarded 0 0 w] [Calls w] [∀ d m, Ends d m w] :
    Returns (Skipper.of w).run :=
  ⟨fun _ _ => Ends.of⟩

@[reducible] def fix {body : Skipper.Body} [BodyCalls body] [BodyEnds body] :
    Returns (Skipper.fix body).run :=
  ⟨fun _ _ => Ends.fix⟩

variable {Ω : Type}

section Extractor

variable {p : Prog (Ext Ω) Unit} {w : Walk Unit} [Ext.Follows p w] [Guarded 0 0 w] [Calls w]
  [∀ d m, Ends d m w] {out : Option Ω}

@[reducible] def extractor : Returns ((Extractor.of p).call out) :=
  ⟨fun _ _ => Ends.extractor out⟩

@[reducible] def part : Returns ((Extractor.of p).call out) :=
  @Returns.mk _ (Call.part out) fun _ _ => Ends.part out

end Extractor

@[reducible] def wrapper (x : Extractor Ω) {out : Option Ω} [Returns (x.call out)] :
    Returns (x.skipper out).run :=
  @Returns.mk _ (Call.wrapper x out) fun _ _ => Ends.wrapper x out

end Returns

end

end TgCli.Core
