import TgCli.Core.TlSkip.Walk

/-!
# `core/tl_skip.c`: walking over what has been written

`Walk.Reads w b a`: the walk takes exactly the bytes `b` off its buffer, wherever they stand and
whatever follows them, and comes to the value `a`.  The rules follow the way the functions of the
file are written.  A check looks ahead, so it stands before the bytes it checks for (`Reads.need`).

A `TlObject f` is an object that `f` walks over: the constructors in it are ones that `f` knows.
-/

namespace TgCli.Core

open TlReader Walk Option List Lib

variable {r : TlReader} {t : Bytes} {n p : ℕ}

/-- A field that is written if its flag is set. -/
def whenSet (c : Bool) (field : c = true → Bytes) : Bytes :=
  if h : c = true then field h else []

namespace Walk

variable {α β : Type}

/-- The walk takes `b` off the buffer. -/
def Reads (w : Walk α) (b : Bytes) (a : α) : Prop :=
  ∀ r t, r.rest = b ++ t → ∃ r', w r = some (a, r') ∧ r'.rest = t

namespace Reads

theorem pure (a : α) : Reads (Pure.pure a : Walk α) [] a :=
  fun r _ h => ⟨r, rfl, h⟩

variable {a : α} {b : Bytes} {w : Unit → Walk α}

/-- One piece after the other. -/
theorem bind {w : Walk α} {k : α → Walk β} {b' : Bytes} {a' : β} (hw : Reads w b a)
    (hk : Reads (k a) b' a') : Reads (w >>= k) (b ++ b') a' := by
  intro r t h
  rw [append_assoc] at h
  obtain ⟨r₁, hw, h₁⟩ := hw r _ h
  rw [bind_of_some hw]
  exact hk r₁ t h₁

/-- A second part that takes nothing off the buffer. -/
theorem last {w : Walk α} {k : α → Walk β} {a' : β} (hw : Reads w b a)
    (hk : Reads (k a) [] a') : Reads (w >>= k) b a' := by
  rw [← append_nil b]
  exact hw.bind hk

theorem le_left (h : r.rest = b ++ t) (hb : b ≠ []) : b.length ≤ r.left := by
  have hfit := fits_of_rest h hb
  rw [left_of_le (by omega)]
  omega

/-- A check passes if the bytes it checks for are among those that are taken next. -/
theorem need (hw : Reads (w ()) b a) (hn : n ≤ b.length) : Reads (Walk.need n >>= w) b a := by
  intro r t h
  have hcheck : Walk.need n r = some ((), r) := by
    refine if_neg fun hlt => ?_
    by_cases hb : b = []
    · rw [hb, length_nil] at hn
      omega
    · have := le_left h hb
      omega
  rw [bind_of_some hcheck]
  exact hw r t h

/-- The check at the beginning of a function, which also asks whether the reader is at its end. -/
theorem enter (hw : Reads (w ()) b a) (hn : n ≤ b.length) (hpos : 0 < n) :
    Reads (Walk.enter n >>= w) b a := by
  intro r t h
  have hb : b ≠ [] := ne_nil_of_length_pos (by omega)
  have hfit := fits_of_rest h hb
  have hcheck : Walk.enter n r = some ((), r) :=
    Guarded.enter_eq_some.mpr ⟨by omega, by omega, rfl⟩
  rw [bind_of_some hcheck]
  exact hw r t h

theorem ensure {c : Prop} [Decidable c] (hc : c)
    (hw : Reads (w ()) b a) : Reads (ensure c >>= w) b a := by
  rw [Walk.ensure, if_pos hc]
  exact (Reads.pure ()).bind hw

/-- A function of the reader that finds what has been written. -/
theorem of_read {f : TlReader → α × TlReader}
    (h : ∀ {r t}, r.rest = b ++ t → (f r).1 = a ∧ (f r).2.rest = t) : Reads (read f) b a := by
  intro r t hr
  obtain ⟨ha, ht⟩ := h hr
  exact ⟨(f r).2, by rw [← ha]; rfl, ht⟩

theorem u32 (x : UInt32) : Reads u32 (u32Bytes x) x :=
  of_read tlReadUint32_of_rest

theorem i32 (x : Int32) : Reads i32 (u32Bytes x.toUInt32) x :=
  of_read tlReadInt32_of_rest

theorem i64 (x : Int64) : Reads i64 (u64Bytes x.toUInt64) x :=
  of_read tlReadInt64_of_rest

theorem drop32 (x : Int32) : Reads drop32 (u32Bytes x.toUInt32) () :=
  of_read fun h => ⟨rfl, (tlReadInt32_of_rest h).2⟩

theorem drop64 (x : Int64) : Reads drop64 (u64Bytes x.toUInt64) () :=
  of_read fun h => ⟨rfl, (tlReadInt64_of_rest h).2⟩

theorem opt {c : Bool} {w : Walk Unit} {field : c = true → Bytes}
    (h : ∀ hc, Reads w (field hc) ()) : Reads (opt c w) (whenSet c field) () := by
  rw [Walk.opt, whenSet]
  split_ifs with hc
  · exact h hc
  · exact Reads.pure ()

/-- A loop takes the things in a list, one in each turn. -/
theorem rep {ι : Type} {w : Walk Unit} {f : ι → Bytes} (hw : ∀ x, Reads w (f x) ()) (l : List ι) :
    Reads (rep w l.length) (l.flatMap f) () := by
  induction l with
  | nil => exact Reads.pure ()
  | cons x l ih =>
    rw [length_cons, Walk.rep, flatMap_cons]
    exact (hw x).bind ih

end Reads

/-! ### At a known place -/

theorem ensure_eq_some {c : Prop} [Decidable c] {r' : TlReader} {u : Unit} :
    ensure c r = some (u, r') ↔ c ∧ r' = r := by
  rw [ensure]
  split_ifs with h
  · exact ⟨fun he => ⟨h, (Prod.mk.inj (some.inj he)).2.symm⟩, fun ⟨_, he⟩ => by rw [he]; rfl⟩
  · exact ⟨fun he => absurd he.symm (some_ne_none _), fun ⟨hc, _⟩ => absurd hc h⟩

theorem need_at {b : Bytes} (hp : p ≤ b.length)
    (h : need n ⟨b, p⟩ = some ((), r)) : r = ⟨b, p⟩ ∧ p + n ≤ b.length := by
  rw [need, left_of_le hp] at h
  dsimp only at h
  split at h
  · exact absurd h.symm (some_ne_none _)
  · exact ⟨(Prod.mk.inj (some.inj h)).2.symm, by omega⟩

theorem u32_at {b : Bytes} {x : UInt32} (hp : p + 4 ≤ b.length)
    (h : u32 ⟨b, p⟩ = some (x, r)) : x = u32At b p ∧ r = ⟨b, p + 4⟩ := by
  change some (tlReadUint32 ⟨b, p⟩) = some (x, r) at h
  rw [tlReadUint32_at hp] at h
  obtain ⟨h1, h2⟩ := Prod.mk.inj (some.inj h)
  exact ⟨h1.symm, h2.symm⟩

/-- The check for a `long` and its reading, in one. -/
theorem need_i64_at {b : Bytes} {x : Int64} (hp : p ≤ b.length)
    (h : (do need 8; i64 : Walk Int64) ⟨b, p⟩ = some (x, r)) :
    p + 8 ≤ b.length ∧ x = (u64At b p).toInt64 ∧ r = ⟨b, p + 8⟩ := by
  obtain ⟨_, r₁, hneed, hread⟩ := bind_eq_some.mp h
  obtain ⟨rfl, hfit⟩ := need_at hp hneed
  change some (tlReadInt64 ⟨b, p⟩) = some (x, r) at hread
  rw [tlReadInt64_at hfit] at hread
  obtain ⟨h1, h2⟩ := Prod.mk.inj (some.inj hread)
  exact ⟨hfit, h1.symm, h2.symm⟩

end Walk

/-! ## Strings, vectors and objects -/

/-- A string or a byte string of TL, whose length is written in three bytes. -/
structure TlString where
  val : Bytes
  short : val.length < 2 ^ 24

namespace TlString

def bytes (s : TlString) : Bytes :=
  tlBytes s.val

variable (s : TlString)

/-- `tl_read_string` finds the string, up to its first `NUL`. -/
theorem readString (h : r.rest = s.bytes ++ t) :
    (tlReadString r).1 = some (cstr s.val) ∧ (tlReadString r).2.rest = t := by
  obtain ⟨h1, h2⟩ := tlReadBytes_of_rest s.short h
  exact ⟨congrArg (Option.map cstr) h1, h2⟩

theorem reads_str : Walk.Reads str s.bytes (cstr s.val) := by
  intro r t h
  obtain ⟨h1, h2⟩ := s.readString h
  exact ⟨(tlReadString r).2, by rw [str, h1]; rfl, h2⟩

theorem bytes_ne_nil : s.bytes ≠ [] := by
  refine ne_nil_of_length_pos ?_
  rw [bytes, length_tlBytes]
  split <;> omega

theorem skip_eq (h : r.rest = s.bytes ++ t) :
    ∃ r', tlSkipString r = some r' ∧ r'.rest = t := by
  obtain ⟨h1, h2⟩ := s.readString h
  have hfit := fits_of_rest h s.bytes_ne_nil
  have hpos := length_pos_iff.mpr s.bytes_ne_nil
  have hok : tlReaderOk r = true := decide_eq_true (by show r.pos < r.data.length; omega)
  refine ⟨(tlReadString r).2, ?_, h2⟩
  rw [tlSkipString, hok]
  dsimp only
  rw [h1]
  rfl

end TlString

/-- A vector of `long`s, whose length is written in four bytes. -/
structure TlLongs where
  val : List Int64
  short : val.length < 2 ^ 32

namespace TlLongs

def items (l : TlLongs) : Bytes :=
  l.val.flatMap fun x => u64Bytes x.toUInt64

def bytes (l : TlLongs) : Bytes :=
  u32Bytes tlVector ++ (u32Bytes (UInt32.ofNat l.val.length) ++ l.items)

theorem length_items (l : TlLongs) : l.items.length = l.val.length * 8 :=
  length_flatMap_const (fun _ => length_u64Bytes _) l.val

theorem toNat_length (l : TlLongs) : (UInt32.ofNat l.val.length).toNat = l.val.length :=
  UInt32.toNat_ofNat_of_lt' l.short

end TlLongs

/-- An object that `f` walks over. -/
structure TlObject (f : TlReader → Option TlReader) where
  bytes : Bytes
  known : Walk.Reads (Walk.skip f) bytes ()

namespace TlObject

theorem skip_eq {f : TlReader → Option TlReader} (o : TlObject f) (h : r.rest = o.bytes ++ t) :
    ∃ r', f r = some r' ∧ r'.rest = t := by
  obtain ⟨r', hr, ht⟩ := o.known r t h
  obtain ⟨r₁, hf, he⟩ := map_eq_some_iff.mp hr
  exact ⟨r', by rw [hf, (Prod.mk.inj he).2], ht⟩

end TlObject

/-- **Whole words, wherever they stand**: a function that walks over them stops at their end. -/
theorem Skipper.run_at (s : Skipper) {b : Bytes} (h : Walk.Reads (skip s.run) b ())
    (hb : 4 ∣ b.length) (w t : Bytes) :
    s.run ⟨w ++ (b ++ t), w.length⟩ = some ⟨w ++ (b ++ t), w.length + b.length⟩ := by
  have hwalk : ∀ t : Bytes, t ≠ [] → skip s.run ⟨w ++ (b ++ t), w.length⟩ =
      some ((), ⟨w ++ (b ++ t), w.length + b.length⟩) := by
    intro t ht
    obtain ⟨r', hr', hrest⟩ := h ⟨w ++ (b ++ t), w.length⟩ t (drop_left)
    have hdata := s.guarded.data_eq hr'
    obtain ⟨d, p⟩ := r'
    obtain rfl : d = w ++ (b ++ t) := hdata
    have hlen := congrArg length hrest
    rw [rest, length_drop, length_append, length_append] at hlen
    have hpos := length_pos_iff.mpr ht
    rw [hr', show p = w.length + b.length by dsimp only at hlen; omega]
  have hrun : skip s.run ⟨w ++ (b ++ t), w.length⟩ =
      some ((), ⟨w ++ (b ++ t), w.length + b.length⟩) := by
    by_cases ht : t = []
    · -- at the end of the buffer: what is walked over needs nothing behind it
      have hmore := hwalk [0] (cons_ne_nil _ _)
      rw [← append_assoc] at hmore
      have hlen : (w ++ b).length = w.length + b.length := length_append
      have hback := (s.guarded.back (cons_ne_nil _ _) (by omega)
        (by rw [hlen, Nat.add_sub_cancel_left]; exact hb) hmore (by dsimp only; omega)).2
      rw [ht, append_nil]
      exact hback
    · exact hwalk t ht
  obtain ⟨r, hr, he⟩ := map_eq_some_iff.mp hrun
  rw [hr, (Prod.mk.inj he).2]

/-- A function refuses an object whose constructor leads to a failure, whatever follows it. -/
theorem Skipper.run_of_refused (s : Skipper) {k : UInt32 → Walk Unit}
    (hs : skip s.run = (do enter 4; let crc ← u32; k crc)) {crc : UInt32}
    (hk : k crc = fail) (h : r.rest = u32Bytes crc ++ t) :
    s.run r = none := by
  have hnone : (do enter 4; let crc ← u32; k crc : Walk Unit) r = none := by
    have hfit := fits_of_rest h (ne_nil_of_length_pos (by rw [length_u32Bytes]; decide))
    rw [length_u32Bytes] at hfit
    have henter : enter 4 r = some ((), r) :=
      Guarded.enter_eq_some.mpr ⟨by omega, by omega, rfl⟩
    obtain ⟨r', hword, -⟩ := Walk.Reads.u32 crc r t h
    rw [bind_of_some henter, bind_of_some hword, hk]
    rfl
  rw [← hs] at hnone
  exact map_eq_none_iff.mp hnone

/-- A `Peer` of a user, a chat or a channel. -/
structure TlPeer where
  crc : UInt32
  known : isPeer crc
  id : Int64

def TlPeer.bytes (p : TlPeer) : Bytes :=
  u32Bytes p.crc ++ u64Bytes p.id.toUInt64

theorem TlPeer.length_bytes (p : TlPeer) : p.bytes.length = 12 := by
  rw [bytes, length_append, length_u32Bytes, length_u64Bytes]

theorem TlPeer.skip_eq (p : TlPeer) (h : r.rest = p.bytes ++ t) :
    ∃ r', tlSkipPeer r = some r' ∧ r'.rest = t := by
  have hne : p.bytes ≠ [] := ne_nil_of_length_pos (by rw [p.length_bytes]; decide)
  have hfit := fits_of_rest h hne
  have hleft := Walk.Reads.le_left h hne
  rw [p.length_bytes] at hfit hleft
  have hok : tlReaderOk r = true := decide_eq_true (by show r.pos < r.data.length; omega)
  rw [bytes, append_assoc] at h
  obtain ⟨h1, hr1⟩ := tlReadUint32_of_rest h
  obtain ⟨-, hr2⟩ := tlReadInt64_of_rest hr1
  refine ⟨_, ?_, hr2⟩
  rw [tlSkipPeer, if_neg (by simp [hok]; omega)]
  dsimp only
  rw [h1, if_pos p.known]

theorem le_left_of_tlSkipPeer {r' : TlReader} (h : tlSkipPeer r = some r') : 12 ≤ r.left := by
  by_contra hlt
  rw [tlSkipPeer, if_pos (.inr (by omega))] at h
  exact absurd h.symm (some_ne_none r')

end TgCli.Core
