import Mathlib.Data.Set.Finite.Lattice
import Mathlib.Data.Set.Finite.List
import Mathlib.Order.Interval.Finset.Nat
import TgCli.Core.TlSkip.CallGraph

/-!
# `core/tl_skip.c`: what a server makes of the nesting

`tl_skip_message_media_ex` counts how often it has been entered, against a server that chains
stories inside stories.  No other function that leads back to itself counts.  Four bytes of the
response are then enough for one more call, so the nesting is bounded only as far as the response is
(`messageNesting_bounded_iff`): a bold text may hold a bold text.

One direction is that the calls come to an end (`Ends`) and that there are finitely many buffers of
a length.  For the other the way into the chain is followed call by call: a fixed beginning of the
message leads to the first text, whatever stands behind it (`Calls.le_bind_append`), and from there
on every word is a call (`LeadsBack.le_nest`).
-/

namespace TgCli.Core

open List Lib Walk

set_option synthInstance.maxSize 100000000

/-! ## Bounded nesting -/

/-- One number bounds the nesting of the calls, for all responses whose length is in `S`. -/
def NestingBounded (f : TlReader → Option TlReader) [Call f] (S : Set ℕ) : Prop :=
  ∃ K : ℕ, ∀ (b : Bytes) (p : ℕ), b.length ∈ S → p ≤ b.length → Call.depth f ⟨b, p⟩ ≤ K

def readersWithin (L : ℕ) : Set TlReader :=
  {r | r.data.length ≤ L ∧ r.pos ≤ r.data.length}

instance finiteByte : Finite UInt8 :=
  Finite.of_injective UInt8.toFin fun _ _ => UInt8.toFin_inj.mp

theorem finite_readersWithin (L : ℕ) : (readersWithin L).Finite := by
  have hdata : {b : Bytes | b.length ≤ L}.Finite := finite_length_le UInt8 L
  have hpos : {p : ℕ | p ≤ L}.Finite := Set.finite_Iic L
  refine ((hdata.prod hpos).image fun x => TlReader.mk x.1 x.2).subset ?_
  rintro ⟨b, p⟩ ⟨hb, hp⟩
  exact ⟨(b, p), ⟨hb, le_trans hp hb⟩, rfl⟩

theorem nestingBounded_of_bddAbove {f : TlReader → Option TlReader} [Call f]
    [h : ∀ d m, Ends d m (skip f)] {S : Set ℕ} (hS : BddAbove S) : NestingBounded f S := by
  obtain ⟨L, hL⟩ := hS
  obtain ⟨K, hK⟩ := ((finite_readersWithin L).image fun r => (Call.depth f r).toNat).bddAbove
  refine ⟨K, fun b p hb hp => ?_⟩
  have hend : Call.depth f ⟨b, p⟩ ≠ ⊤ := (h b 0).ne_top (Nat.zero_le _) rfl (Nat.zero_le _)
  rw [← ENat.natCast_toNat hend]
  exact Nat.cast_le.mpr (hK ⟨⟨b, p⟩, ⟨hL hb, hp⟩, rfl⟩)

/-! ## The way into a chain -/

/-- Success that does not depend on what follows the buffer, if the buffer goes on for eight bytes.
-/
class Settled {α : Type} (w : Walk α) : Prop where
  append : ∀ {b p a r'}, p + 8 ≤ b.length → 4 ∣ b.length - p → w ⟨b, p⟩ = some (a, r') →
    ∀ s, w ⟨b ++ s, p⟩ = some (a, ⟨b ++ s, r'.pos⟩)

namespace Settled

variable {α : Type}

theorem of_guarded {n k : ℕ} {w : Walk α} (hn : n ≤ 8) (h : Guarded n k w) : Settled w :=
  ⟨fun hb h4 hw => (h.whole (by omega) h4 hw).2.2⟩

instance (priority := low) {w : Walk α} [h : Guarded 0 0 w] : Settled w :=
  of_guarded (Nat.zero_le _) h

instance enter (n : ℕ) : Settled (Walk.enter (n + 1)) :=
  of_guarded (Nat.zero_le _) (Guarded.enter n)
instance need (n : ℕ) : Settled (Walk.need n) := of_guarded (Nat.zero_le _) (Guarded.need n)
instance u32 : Settled Walk.u32 := of_guarded (k := 0) (by decide) Guarded.u32
instance drop32 : Settled Walk.drop32 := of_guarded (k := 0) (by decide) Guarded.drop32
instance drop64 : Settled Walk.drop64 := of_guarded (k := 0) (by decide) Guarded.drop64

end Settled

variable {d : ℕ∞} {r : TlReader}

theorem Calls.le_bind_append {α β : Type} {w : Walk α} {f : α → Walk β} [Calls w]
    [∀ a, Calls (f a)] [hw : Settled w] {P s : Bytes} {p : ℕ} (a : α) (q : ℕ)
    (h : p + 8 ≤ P.length ∧ 4 ∣ P.length - p ∧ w ⟨P, p⟩ = some (a, ⟨P, q⟩))
    (hf : d ≤ Calls.depth (f a) ⟨P ++ s, q⟩) : d ≤ Calls.depth (w >>= f) ⟨P ++ s, p⟩ :=
  hf.trans (Calls.le_bind (hw.append h.1 h.2.1 h.2.2 s))

theorem Calls.le_bind_left {α β : Type} {w : Walk α} {f : α → Walk β} [Calls w]
    [∀ a, Calls (f a)] (h : d ≤ Calls.depth w r) :
    d ≤ Calls.depth (w >>= f) r :=
  h.trans (le_max_left _ _)

section Branches

variable {α : Type} {c : Prop} [Decidable c] {w v : Walk α} [Calls w] [Calls v] {r : TlReader}
  {d : ℕ∞}

theorem Calls.le_ite_pos (hc : c) (h : d ≤ Calls.depth w r) :
    d ≤ Calls.depth (if c then w else v) r :=
  h.trans (if_pos hc).ge

theorem Calls.le_ite_neg (hc : ¬ c) (h : d ≤ Calls.depth v r) :
    d ≤ Calls.depth (if c then w else v) r :=
  h.trans (if_neg hc).ge

theorem Calls.le_sndIte_neg {κ : Type} {x y : κ × Walk Unit} [Calls x.2] [Calls y.2] (hc : ¬ c)
    (h : d ≤ Calls.depth y.2 r) : d ≤ Calls.depth (if c then x else y).2 r :=
  h.trans (if_neg hc).ge

theorem Calls.le_sndIte_pos {κ : Type} {x y : κ × Walk Unit} [Calls x.2] [Calls y.2] (hc : c)
    (h : d ≤ Calls.depth x.2 r) : d ≤ Calls.depth (if c then x else y).2 r :=
  h.trans (if_pos hc).ge

theorem Calls.le_opt {w : Walk Unit} [Calls w] (h : d ≤ Calls.depth w r) :
    d ≤ Calls.depth (Walk.opt true w) r :=
  h

end Branches

theorem Call.le_of {w : Walk Unit} [Guarded 0 0 w] [Calls w]
    (h : d ≤ Calls.depth w r) : d ≤ Call.depth (Skipper.of w).run r :=
  h.trans le_add_self

theorem Call.le_level {body : Skipper.Body} [BodyCalls body] {t : Skipper} [Call t.run]
    (h : d ≤ Calls.depth (enter 4 >>= fun _ => u32 >>= fun crc => body.run t crc) r) :
    d ≤ Call.depth (Skipper.level body t).run r :=
  h.trans le_add_self

theorem Call.le_fix {body : Skipper.Body} [BodyCalls body]
    (h : ∀ t : Skipper, ∀ [Call t.run], d ≤ Call.depth (Skipper.level body t).run r) :
    d ≤ Call.depth (Skipper.fix body).run r :=
  h (Skipper.nest body r.data.length)

def words (crc : UInt32) (n : ℕ) : Bytes :=
  (List.replicate n (u32Bytes crc)).flatten

theorem length_words (crc : UInt32) (n : ℕ) : (words crc n).length = 4 * n := by
  induction n with
  | zero => rfl
  | succ n ih =>
    rw [words, replicate_succ, flatten_cons, length_append, length_u32Bytes, ← words,
      ih]
    omega

theorem words_add (crc : UInt32) (m n : ℕ) : words crc (m + n) = words crc m ++ words crc n := by
  rw [words, replicate_add, flatten_append, words, words]

/-- The beginning of a message that leads to a paragraph of an instant-view page, and the first two
words of the text of this paragraph. -/
def pageMessageHead : Bytes :=
  -- `message`: flags with the media, flags2, id, peer, date, text
  u32Bytes tlMessage ++ u32Bytes 0x200 ++ u32Bytes 0 ++ u32Bytes 1 ++
    u32Bytes tlPeerUser ++ u64Bytes 1 ++ u32Bytes 0 ++ u32Bytes 0 ++
  -- `messageMediaWebPage`: flags
  u32Bytes crcMessageMediaWebPage ++ u32Bytes 0 ++
  -- `webPage`: flags with the page, id, url, display_url, hash
  u32Bytes crcWebPage ++ u32Bytes 0x400 ++ u64Bytes 1 ++ u32Bytes 0 ++ u32Bytes 0 ++ u32Bytes 0 ++
  -- `page`: flags, url, one block
  u32Bytes crcPage ++ u32Bytes 0 ++ u32Bytes 0 ++ u32Bytes tlVector ++ u32Bytes 1 ++
  u32Bytes crcPageBlockParagraph ++ words crcTextBold 2

section Page

variable (s : Bytes)

theorem depth_richText_le_block :
    Call.depth skipRichText.run ⟨pageMessageHead ++ s, 96⟩ ≤
      Call.depth skipPageBlock.run ⟨pageMessageHead ++ s, 92⟩ := by
  refine Call.le_fix ?_
  intro t _
  refine Call.le_level ?_
  refine Calls.le_bind_append () 92 (by decide +kernel) ?_
  refine Calls.le_bind_append crcPageBlockParagraph 96 (by decide +kernel) ?_
  iterate 7 refine Calls.le_ite_neg (by decide) ?_
  exact Calls.le_ite_pos (by decide) le_rfl

theorem depth_block_le_page :
    Call.depth skipPageBlock.run ⟨pageMessageHead ++ s, 92⟩ ≤
      Call.depth skipPage.run ⟨pageMessageHead ++ s, 72⟩ := by
  refine Call.le_of ?_
  refine Calls.le_bind_append () 72 (by decide +kernel) ?_
  refine Calls.le_bind_append crcPage 76 (by decide +kernel) ?_
  refine Calls.le_bind_append () 76 (by decide +kernel) ?_
  refine Calls.le_bind_append () 76 (by decide +kernel) ?_
  refine Calls.le_bind_append 0 80 (by decide +kernel) ?_
  refine Calls.le_bind_append () 84 (by decide +kernel) ?_
  refine Calls.le_bind_left ?_
  refine Calls.le_bind_append () 84 (by decide +kernel) ?_
  refine Calls.le_bind_append tlVector 88 (by decide +kernel) ?_
  refine Calls.le_bind_append () 88 (by decide +kernel) ?_
  refine Calls.le_bind_append 1 92 (by decide +kernel) ?_
  refine Calls.le_bind_left ?_
  exact le_rfl

theorem depth_page_le_webpage (media : Skipper) [Call media.run] :
    Call.depth skipPage.run ⟨pageMessageHead ++ s, 72⟩ ≤
      Call.depth (skipWebpage media).run ⟨pageMessageHead ++ s, 44⟩ := by
  refine Call.le_of ?_
  refine Calls.le_bind_append () 44 (by decide +kernel) ?_
  refine Calls.le_bind_append crcWebPage 48 (by decide +kernel) ?_
  iterate 3 refine Calls.le_ite_neg (by decide) ?_
  refine Calls.le_ite_pos rfl ?_
  refine Calls.le_bind_append () 48 (by decide +kernel) ?_
  refine Calls.le_bind_append 0x400 52 (by decide +kernel) ?_
  refine Calls.le_bind_left ?_
  refine Calls.le_bind_append () 60 (by decide +kernel) ?_
  refine Calls.le_bind_append () 64 (by decide +kernel) ?_
  refine Calls.le_bind_append () 68 (by decide +kernel) ?_
  refine Calls.le_bind_append () 68 (by decide +kernel) ?_
  refine Calls.le_bind_append () 72 (by decide +kernel) ?_
  iterate 10 refine Calls.le_bind_append () 72 (by decide +kernel) ?_
  exact Calls.le_opt le_rfl

theorem depth_webpage_le_media (n : ℕ) :
    Call.depth (skipWebpage ((messageMediaWithin n).skipper none)).run ⟨pageMessageHead ++ s, 44⟩ ≤
      Call.depth ((messageMediaWithin (n + 1)).call none) ⟨pageMessageHead ++ s, 36⟩ := by
  refine le_trans ?_ (le_add_self.trans le_add_self : Calls.depth _ _ ≤ _)
  refine Calls.le_bind_append () 36 (by decide +kernel) ?_
  refine Calls.le_bind_append crcMessageMediaWebPage 40 (by decide +kernel) ?_
  iterate 2 refine Calls.le_ite_neg (by decide) ?_
  refine Calls.le_bind_append () 40 (by decide +kernel) ?_
  iterate 7 refine Calls.le_sndIte_neg (by decide) ?_
  refine Calls.le_sndIte_pos rfl ?_
  refine Calls.le_bind_append () 40 (by decide +kernel) ?_
  refine Calls.le_bind_append () 44 (by decide +kernel) ?_
  exact le_rfl

theorem depth_media_le_message :
    Call.depth (tlSkipMessageMediaEx.call none) ⟨pageMessageHead ++ s, 36⟩ ≤
      Call.depth tlSkipMessage.run ⟨pageMessageHead ++ s, 0⟩ := by
  refine Call.le_of ?_
  refine Calls.le_bind_append () 0 (by decide +kernel) ?_
  refine Calls.le_bind_append tlMessage 4 (by decide +kernel) ?_
  iterate 2 refine Calls.le_ite_neg (by decide) ?_
  refine Calls.le_ite_pos rfl ?_
  refine Calls.le_bind_append () 4 (by decide +kernel) ?_
  refine Calls.le_bind_append 0x200 8 (by decide +kernel) ?_
  refine Calls.le_bind_append 0 12 (by decide +kernel) ?_
  refine Calls.le_bind_append () 16 (by decide +kernel) ?_
  refine Calls.le_bind_append () 32 (by decide +kernel) ?_
  refine Calls.le_bind_append () 36 (by decide +kernel) ?_
  refine Calls.le_bind_left ?_
  exact Calls.le_opt le_add_self

theorem depth_richText_le_message :
    Call.depth skipRichText.run ⟨pageMessageHead ++ s, 96⟩ ≤
      Call.depth tlSkipMessage.run ⟨pageMessageHead ++ s, 0⟩ :=
  calc _ ≤ Call.depth skipPageBlock.run _ := depth_richText_le_block s
    _ ≤ Call.depth skipPage.run _ := depth_block_le_page s
    _ ≤ Call.depth (skipWebpage _).run _ := depth_page_le_webpage s _
    _ ≤ Call.depth (tlSkipMessageMediaEx.call none) _ := depth_webpage_le_media s _
    _ ≤ _ := depth_media_le_message s

end Page

/-! ## The chain -/

/-- The constructor `crc` of a recursive function holds an object of the same kind first. -/
def LeadsBack (body : Skipper.Body) [BodyCalls body] (crc : UInt32) : Prop :=
  ∀ (t : Skipper) [Call t.run] (r : TlReader), Call.depth t.run r ≤ Calls.depth (body.run t crc) r

variable {body : Skipper.Body} [BodyCalls body] {crc : UInt32}

theorem LeadsBack.succ_le (h : LeadsBack body crc) {t : Skipper} [Call t.run]
    {u : Bytes} (hr : r.rest = u32Bytes crc ++ u) :
    1 + Call.depth t.run (r.advance 4) ≤ Call.depth (Skipper.level body t).run r := by
  have hfit := TlReader.fits_of_rest hr (ne_nil_of_length_pos (Nat.succ_pos 3))
  rw [length_u32Bytes] at hfit
  have henter : enter 4 r = some ((), r) :=
    Guarded.enter_eq_some.mpr ⟨by omega, by omega, rfl⟩
  have hread : u32 r = some (crc, r.advance 4) := congrArg some (tlReadUint32_at_rest hr)
  have hbody := (h t (r.advance 4)).trans
    (Calls.le_bind (f := fun crc => body.run t crc) hread)
  exact add_le_add_right (hbody.trans (Calls.le_bind henter)) 1

theorem LeadsBack.le_nest (h : LeadsBack body crc) (k : ℕ) {n : ℕ} {u : Bytes}
    (hr : r.rest = words crc n ++ u) : n ≤ Call.depth (Skipper.nest body k).run r := by
  induction n generalizing k r with
  | zero => exact zero_le
  | succ n ih =>
    cases k with
    | zero => exact le_top
    | succ k =>
      have hword : r.rest = u32Bytes crc ++ (words crc n ++ u) := by
        rw [hr, words, replicate_succ, flatten_cons, append_assoc, words]
      have hrest : (r.advance 4).rest = words crc n ++ u := by
        rw [TlReader.rest_advance, hword, ← length_u32Bytes crc, drop_left]
      rw [Nat.cast_succ, add_comm]
      exact (add_le_add_right (ih k hrest) 1).trans (h.succ_le hword)

theorem LeadsBack.le_fix (h : LeadsBack body crc) {P : Bytes} {p : ℕ} (hp : p ≤ P.length)
    (hP : P.drop p = words crc 2) (n : ℕ) (u : Bytes) :
    n ≤ Call.depth (Skipper.fix body).run ⟨P ++ (words crc n ++ u), p⟩ := by
  have hrest : (TlReader.mk (P ++ (words crc n ++ u)) p).rest = words crc (2 + n) ++ u := by
    rw [TlReader.rest, drop_append_of_le_length hp, hP, words_add, append_assoc]
  have hdeep := h.le_nest ((P ++ (words crc n ++ u)).length + 1) hrest
  exact le_trans (Nat.cast_le.mpr (Nat.le_add_left n 2)) hdeep

theorem bddAbove_of_nestingBounded {f : TlReader → Option TlReader} [Call f] (P : Bytes)
    (crc : UInt32) (hf : ∀ (n : ℕ) (u : Bytes), n ≤ Call.depth f ⟨P ++ (words crc n ++ u), 0⟩)
    {S : Set ℕ} (h : NestingBounded f S) : BddAbove S := by
  obtain ⟨K, hK⟩ := h
  refine ⟨P.length + 4 * K + 3, fun L hL => ?_⟩
  by_contra hlong
  -- a response of this length with one word more than `K` after the beginning
  let u : Bytes := replicate (L - P.length - 4 * (K + 1)) 0
  have hlen : (P ++ (words crc (K + 1) ++ u)).length = L := by
    rw [length_append, length_append, length_words, length_replicate]
    omega
  have hle := (hf (K + 1) u).trans (hK _ 0 (by rwa [hlen]) (Nat.zero_le _))
  exact absurd (Nat.cast_le.mp hle) (Nat.not_succ_le_self K)

/-! ## Messages -/

theorem leadsBack_textBold :
    LeadsBack ⟨richTextRun, guarded_richTextRun, same_richTextRun⟩ crcTextBold := by
  intro t _ r
  iterate 2 refine Calls.le_ite_neg (by decide) ?_
  exact Calls.le_ite_pos (by decide) le_rfl

theorem le_depth_message (n : ℕ) (u : Bytes) :
    n ≤ Call.depth tlSkipMessage.run ⟨pageMessageHead ++ (words crcTextBold n ++ u), 0⟩ :=
  (leadsBack_textBold.le_fix (by decide +kernel) (by decide +kernel) n u).trans
    (depth_richText_le_message _)

/-- **The nesting of the calls for one message** is bounded exactly as far as the responses are. -/
theorem messageNesting_bounded_iff (S : Set ℕ) :
    NestingBounded tlSkipMessage.run S ↔ BddAbove S :=
  ⟨bddAbove_of_nestingBounded pageMessageHead crcTextBold le_depth_message,
    nestingBounded_of_bddAbove⟩

/-- No constant bounds the nesting for all responses. -/
theorem messageNesting_unbounded :
    ¬ ∃ K : ℕ, ∀ (b : Bytes) (p : ℕ), p ≤ b.length → Call.depth tlSkipMessage.run ⟨b, p⟩ ≤ K := by
  rintro ⟨K, hK⟩
  have hdeep := (le_depth_message (K + 1) []).trans (hK _ 0 (Nat.zero_le _))
  exact absurd (Nat.cast_le.mp hdeep) (Nat.not_succ_le_self K)

end TgCli.Core
