import TgCli.Core.TlSkip.Walk

/-!
# `core/tl_skip.c`: functions that call themselves

`skip_rich_text` and `skip_page_block` call themselves, without a limit.  The model of a recursive
function is its `nest`ing to as many levels as there are bytes in the buffer, and the fact that
makes it one is `Skipper.fix_run`: the function is its own body in terms of itself, so the levels
never run out.

The reason is that each call stands behind the constructor that its caller has read.  A body
therefore only depends on what the function does further on in the buffer (`Same`), which is what a
`Skipper.Body` has to show.
-/

namespace TgCli.Core

open Walk Lib

/-- The two fields of `Guarded` that do not count bytes. -/
class Onward {α : Type} (w : Walk α) : Prop where
  data_eq : ∀ {r a r'}, w r = some (a, r') → r'.data = r.data
  past : ∀ {r a r' m}, w r = some (a, r') → m < r.pos → m < r.data.length → m < r'.pos

/-- Two walks do the same in the buffer `d` behind its place `m`. -/
class Same {α : Type} (d : Bytes) (m : ℕ) (w v : Walk α) : Prop where
  eq : ∀ {r}, m < d.length → r.data = d → m < r.pos → w r = v r

section Recursion

variable {α β : Type} {d : Bytes} {m n k : ℕ}

theorem Guarded.onward {w : Walk α} (h : Guarded n k w) : Onward w :=
  ⟨h.data_eq, h.past⟩

instance (n : ℕ) : Onward (Walk.need n) :=
  (Guarded.need n).onward

instance (n : ℕ) : Onward (Walk.enter (n + 1)) :=
  (Guarded.enter n).onward

instance : Onward Walk.u32 :=
  (Guarded.u32 (n := 0)).onward

instance : Onward Walk.drop32 :=
  (Guarded.drop32 (n := 0)).onward

instance : Onward Walk.drop64 :=
  (Guarded.drop64 (n := 0)).onward

instance (c : Prop) [Decidable c] : Onward (Walk.ensure c) :=
  (Guarded.ensure (n := 0) c).onward

instance (c : Bool) (w : Walk Unit) [Guarded 0 0 w] : Onward (Walk.opt c w) :=
  (Guarded.opt (c := c) (w := w)).onward

instance : Onward (Walk.skip tlSkipString) :=
  Guarded.skipString.onward

instance (s : Skipper) : Onward (Walk.skip s.run) :=
  s.guarded.onward

namespace Same

instance (priority := high) refl (w : Walk α) : Same d m w w :=
  ⟨fun _ _ _ => rfl⟩

instance bind {w v : Walk α} {f g : α → Walk β} [hw : Onward w] [hwv : Same d m w v]
    [hfg : ∀ a, Same d m (f a) (g a)] : Same d m (w >>= f) (v >>= g) := by
  refine ⟨fun {r} hm hd hpos => ?_⟩
  show (w r).bind (fun x => f x.1 x.2) = (v r).bind (fun x => g x.1 x.2)
  rw [← hwv.eq hm hd hpos]
  cases hwr : w r with
  | none => rfl
  | some x =>
    obtain ⟨a, r₁⟩ := x
    exact (hfg a).eq hm ((hw.data_eq hwr).trans hd) (hw.past hwr hpos (hd ▸ hm))

instance ite {c : Prop} [Decidable c] {w v w' v' : Walk α} [h : Same d m w w']
    [h' : Same d m v v'] : Same d m (if c then w else v) (if c then w' else v') := by
  split_ifs
  · exact h
  · exact h'

instance rep {w v : Walk Unit} [hw : Onward w] [h : Same d m w v] (n : ℕ) :
    Same d m (Walk.rep w n) (Walk.rep v n) := by
  induction n with
  | zero => exact Same.refl _
  | succ n ih =>
    rw [Walk.rep, Walk.rep]
    infer_instance

instance vector {w v : Walk Unit} [hw : Onward w] [h : Same d m w v] :
    Same d m (Walk.vector w) (Walk.vector v) := by
  rw [Walk.vector, Walk.vector]
  infer_instance

instance enterVector {w v : Walk Unit} [hw : Onward w] [h : Same d m w v] :
    Same d m (Walk.enterVector w) (Walk.enterVector v) := by
  rw [Walk.enterVector, Walk.enterVector]
  infer_instance

end Same

namespace Skipper

/-- A recursive function: what it does behind its constructor, in terms of itself. -/
structure Body where
  run : Skipper → UInt32 → Walk Unit
  guarded : ∀ s crc, Guarded 0 0 (run s crc)
  /-- It calls itself only further on. -/
  same : ∀ {s t : Skipper} {d m}, Same d m (Walk.skip s.run) (Walk.skip t.run) →
    ∀ crc, Same d m (run s crc) (run t crc)

instance (body : Body) (s : Skipper) (crc : UInt32) : Guarded 0 0 (body.run s crc) :=
  body.guarded s crc

def level (body : Body) (self : Skipper) : Skipper := .of do
  Walk.enter 4
  let crc ← Walk.u32
  body.run self crc

def nest (body : Body) : ℕ → Skipper
  | 0 => .of Walk.fail
  | n + 1 => level body (nest body n)

variable {body : Body} {r : TlReader}

theorem level_of_end {s : Skipper} (h : r.data.length ≤ r.pos) :
    (level body s).run r = none := by
  show ((enter 4 r).bind _).map Prod.snd = none
  rw [Guarded.enter_of_end h]
  rfl

theorem level_congr {s t : Skipper}
    (h : ∀ r' : TlReader, r'.data = r.data → r.pos < r'.pos → s.run r' = t.run r') :
    (level body s).run r = (level body t).run r := by
  by_cases hend : r.data.length ≤ r.pos
  · rw [level_of_end hend, level_of_end hend]
  · have hsame : Same r.data r.pos (skip s.run) (skip t.run) :=
      ⟨fun _ hd hpos => by rw [skip, skip, h _ hd hpos]⟩
    show ((enter 4 r).bind _).map Prod.snd = ((enter 4 r).bind _).map Prod.snd
    cases he : enter 4 r with
    | none => rfl
    | some x =>
      obtain ⟨u, r₀⟩ := x
      obtain ⟨hok, hleft, rfl⟩ := Guarded.enter_eq_some.mp he
      have hread : r₀.pos + 4 ≤ r₀.data.length := by omega
      refine congrArg (Option.map Prod.snd) ?_
      refine (body.same hsame _).eq hok (data_tlReadUint32 r₀) ?_
      show r₀.pos < (readFixed r₀ 4).2.pos
      rw [readFixed_of_le hread, TlReader.pos_advance]
      omega

theorem nest_run_eq {n n' : ℕ} (hn : r.data.length - r.pos < n)
    (hn' : r.data.length - r.pos < n') : (nest body n).run r = (nest body n').run r := by
  induction n generalizing n' r with
  | zero => omega
  | succ n ih =>
    obtain ⟨n', rfl⟩ := Nat.exists_eq_succ_of_ne_zero (n := n') (by omega)
    by_cases hend : r.data.length ≤ r.pos
    · rw [nest, nest, level_of_end hend, level_of_end hend]
    · refine level_congr fun r' hd hpos => ih ?_ ?_
      · rw [hd]
        omega
      · rw [hd]
        omega

theorem skip_nest_eq {n n' : ℕ} (hn : r.data.length - r.pos < n)
    (hn' : r.data.length - r.pos < n') :
    skip (nest body n).run r = skip (nest body n').run r := by
  rw [skip, skip, nest_run_eq hn hn']

theorem guarded_nest (body : Body) :
    Guarded 0 0 (skip fun r => (nest body (r.data.length + 1)).run r) where
  data_eq {r _ _} h := (nest body (r.data.length + 1)).guarded.data_eq h
  past {r _ _ _} h := (nest body (r.data.length + 1)).guarded.past h
  words {r _ _} h := (nest body (r.data.length + 1)).guarded.words h
  whole {b p a r'} hn h4 h := by
    have hlong : ∀ s : Bytes, skip (nest body ((b ++ s).length + 1)).run ⟨b, p⟩ = some (a, r') :=
      fun s => (skip_nest_eq (by show b.length - p < _; rw [List.length_append]; omega)
        (by show b.length - p < b.length + 1; omega)).trans h
    obtain ⟨hk, h4', -⟩ := (nest body (b.length + 1)).guarded.whole hn h4 h
    exact ⟨hk, h4', fun s => ((nest body _).guarded.whole hn h4 (hlong s)).2.2 s⟩
  back {b s p a r'} hs hp h4 h hk := by
    obtain ⟨hn, hb⟩ := (nest body ((b ++ s).length + 1)).guarded.back hs hp h4 h hk
    exact ⟨hn, (skip_nest_eq (by show b.length - p < b.length + 1; omega)
      (by show b.length - p < _; rw [List.length_append]; omega)).trans hb⟩

def fix (body : Body) : Skipper :=
  ⟨fun r => (nest body (r.data.length + 1)).run r, guarded_nest body⟩

/-- **A recursive function is its body in terms of itself**: the levels never run out. -/
theorem fix_run (body : Body) (r : TlReader) :
    (fix body).run r = (level body (fix body)).run r := by
  by_cases hend : r.data.length ≤ r.pos
  · exact (level_of_end hend).trans (level_of_end hend).symm
  · refine level_congr fun r' hd hpos => ?_
    show (nest body r.data.length).run r' = (nest body (r'.data.length + 1)).run r'
    refine nest_run_eq ?_ ?_
    · rw [hd]
      omega
    · omega

theorem skip_fix (body : Body) : skip (fix body).run = (do
    enter 4
    let crc ← u32
    body.run (fix body) crc) := by
  rw [show (fix body).run = (level body (fix body)).run from funext (fix_run body)]
  exact skip_of _

end Skipper

end Recursion

end TgCli.Core
