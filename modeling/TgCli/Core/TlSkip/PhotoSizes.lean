import Mathlib.Data.List.MinMax
import TgCli.Core.TlSkip.Media
import TgCli.Core.TlSkip.Reading

/-!
# `core/tl_skip.c`: the walkers that note and the walkers that do not

Chats, users and media are walked over in two ways, with a place for what is found and without one.
For most of a function the two ways are one text, and `Extractor.call_eq` is all there is to say.
The sizes of a photo are the exception: `tl_skip_photo_size_vector` and `walk_photo_size_vector` are
two loops that were written separately.  They agree nevertheless (`photoSizeEntry_eq`), since the
second one reads the type of an entry before it looks at the constructor, and every constructor that
is known begins with a type.

The second loop is there to choose.  The type that it leaves is the type of the entry with the most
pixels, and of the first one among equals (`walkPhotoSizeVector_chooses`).
-/

namespace TgCli.Core

open List Lib Walk

/-! ## The two loops -/

theorem str_bind_const {α : Type} (w : Walk α) :
    (str >>= fun _ => w) = (skip tlSkipString >>= fun _ => w) := by
  funext r
  show (str r).bind _ = (skip tlSkipString r).bind _
  rw [Guarded.skip_tlSkipString_eq, str]
  cases (tlReadString r).1 <;> rfl

theorem i32_bind_const {α : Type} (w : Walk α) : (i32 >>= fun _ => w) = (drop32 >>= fun _ => w) :=
  rfl

theorem fail_bind {α β : Type} (f : α → Walk β) : (fail >>= f) = fail :=
  rfl

theorem skip_bind_fail {α : Type} (f : TlReader → Option TlReader) :
    (skip f >>= fun _ => (fail : Walk α)) = fail := by
  funext r
  show (skip f r).bind _ = none
  cases skip f r <;> rfl

/-- **An entry of the one loop is an entry of the other.** -/
theorem photoSizeEntry_eq : (photoSizeEntry >>= fun _ => pure ()) = skip tlSkipPhotoSize.run := by
  have hscore : ∀ crc, (str >>= fun _ => photoSizeScore crc >>= fun _ => pure ()) =
      (if crc = crcPhotoSizeEmpty then
        skip tlSkipString
      else if crc = crcPhotoSize then do
        skip tlSkipString
        need 12; drop32; drop32; drop32
      else if crc = crcPhotoCachedSize then do
        skip tlSkipString
        need 8; drop32; drop32
        skip tlSkipString
      else if crc = crcPhotoStrippedSize ∨ crc = crcPhotoPathSize then do
        skip tlSkipString
        skip tlSkipString
      else if crc = crcPhotoSizeProgressive then do
        skip tlSkipString
        need 8; drop32; drop32
        vector32
      else fail) := by
    intro crc
    rw [str_bind_const, photoSizeScore]
    split_ifs
    all_goals
      simp only [bind_assoc, pure_bind, i32_bind_const, bind_pure_unit, fail_bind, skip_bind_fail]
  rw [tlSkipPhotoSize, Skipper.skip_of, photoSizeEntry]
  simp only [bind_assoc, pure_bind, hscore]

/-- **The two loops agree**, wherever the cursor is and whatever the place for the type. -/
theorem walkPhotoSizeVector_call (out : Option MediaInfo) :
    walkPhotoSizeVector.call out = tlSkipPhotoSizeVector.run := by
  have hfollows : Ext.Follows walkPhotoSizeVector.run (do
      enter 8
      let vec ← u32
      ensure (vec = tlVector)
      let n ← u32
      pure ()
      rep (photoSizeEntry >>= fun _ => pure ()) n.toNat) := by
    dsimp only [walkPhotoSizeVector, Extractor.of]
    infer_instance
  refine skip_injective ((Extractor.skip_call_eq hfollows out).trans ?_)
  rw [photoSizeEntry_eq, tlSkipPhotoSizeVector, Skipper.skip_of]
  rfl

/-- **A place for what is found changes nothing of the walk**, in any buffer and at any place. -/
theorem extracting_eq_skipping (r : TlReader) :
    (∀ out, (tlExtractChat (some out)).run r = tlSkipChat.run r) ∧
      (∀ out, (tlExtractUser (some out)).run r = tlSkipUser.run r) ∧
      (∀ out, tlSkipMessageMediaEx.call (some out) r = tlSkipMessageMediaEx.call none r) ∧
      ∀ out, walkPhotoSizeVector.call out r = tlSkipPhotoSizeVector.run r := by
  refine ⟨fun out => ?_, fun out => ?_, fun out => ?_, fun out => ?_⟩
  · exact congrFun (extractChatInner.call_eq (some out) none) r
  · exact congrFun (extractUserInner.call_eq (some out) none) r
  · exact congrFun (tlSkipMessageMediaEx.call_eq (some out) none) r
  · exact congrFun (walkPhotoSizeVector_call out) r

/-! ## The entries of a vector -/

/-- A vector of `int`s, whose length is written in four bytes. -/
structure TlInts where
  val : List Int32
  short : val.length < 2 ^ 32

namespace TlInts

def items (l : TlInts) : Bytes :=
  l.val.flatMap fun x => u32Bytes x.toUInt32

def bytes (l : TlInts) : Bytes :=
  u32Bytes tlVector ++ (u32Bytes (UInt32.ofNat l.val.length) ++ l.items)

theorem length_items (l : TlInts) : l.items.length = l.val.length * 4 :=
  length_flatMap_const (fun _ => length_u32Bytes _) l.val

theorem reads_vector32 (l : TlInts) : Reads vector32 l.bytes () := by
  have hn : (UInt32.ofNat l.val.length).toNat = l.val.length := UInt32.toNat_ofNat_of_lt' l.short
  have hitems : Reads (rep drop32 (UInt32.ofNat l.val.length).toNat) l.items () := by
    rw [hn]
    exact Reads.rep Reads.drop32 l.val
  refine Reads.need ((Reads.u32 _).bind (Reads.ensure rfl ((Reads.u32 _).bind ?_))) ?_
  · refine Reads.need hitems (le_of_eq ?_)
    rw [hn, l.length_items]
  · simp only [bytes, length_append, length_u32Bytes]
    omega

end TlInts

/-- What a `PhotoSize` has besides its type. -/
inductive PhotoSizeBody where
  | empty
  | size (w h sz : Int32)
  | cached (w h : Int32) (data : TlString)
  | stripped (data : TlString)
  | path (data : TlString)
  | progressive (w h : Int32) (sizes : TlInts)

structure PhotoSize where
  type : TlString
  body : PhotoSizeBody

namespace PhotoSizeBody

def crc : PhotoSizeBody → UInt32
  | empty => crcPhotoSizeEmpty
  | size _ _ _ => crcPhotoSize
  | cached _ _ _ => crcPhotoCachedSize
  | stripped _ => crcPhotoStrippedSize
  | path _ => crcPhotoPathSize
  | progressive _ _ _ => crcPhotoSizeProgressive

def bytes : PhotoSizeBody → Bytes
  | empty => []
  | size w h sz => u32Bytes w.toUInt32 ++ (u32Bytes h.toUInt32 ++ u32Bytes sz.toUInt32)
  | cached w h data => u32Bytes w.toUInt32 ++ (u32Bytes h.toUInt32 ++ data.bytes)
  | stripped data => data.bytes
  | path data => data.bytes
  | progressive w h sizes => u32Bytes w.toUInt32 ++ (u32Bytes h.toUInt32 ++ sizes.bytes)

/-- Width times height, nothing for an outline or a blur, and less than nothing for an empty size.
-/
def score : PhotoSizeBody → ℤ
  | empty => -1
  | size w h _ | cached w h _ | progressive w h _ => w.toInt * h.toInt
  | stripped _ | path _ => 0

theorem reads_skipString (s : TlString) : Reads (skip tlSkipString) s.bytes () := by
  intro r t h
  obtain ⟨r', hr, ht⟩ := s.skip_eq h
  exact ⟨r', by rw [skip, hr]; rfl, ht⟩

theorem reads_score (b : PhotoSizeBody) : Reads (photoSizeScore b.crc) b.bytes b.score := by
  cases b with
  | empty => exact Reads.pure _
  | size w h sz =>
    refine Reads.need ((Reads.i32 w).bind ((Reads.i32 h).bind ((Reads.drop32 sz).last
      (Reads.pure _)))) ?_
    simp only [bytes, length_append, length_u32Bytes]
    omega
  | cached w h data =>
    refine Reads.need ((Reads.i32 w).bind ((Reads.i32 h).bind ((reads_skipString data).last
      (Reads.pure _)))) ?_
    simp only [bytes, length_append, length_u32Bytes]
    omega
  | stripped data => exact (reads_skipString data).last (Reads.pure _)
  | path data => exact (reads_skipString data).last (Reads.pure _)
  | progressive w h sizes =>
    refine Reads.need ((Reads.i32 w).bind ((Reads.i32 h).bind (sizes.reads_vector32.last
      (Reads.pure _)))) ?_
    simp only [bytes, length_append, length_u32Bytes]
    omega

end PhotoSizeBody

namespace PhotoSize

def bytes (e : PhotoSize) : Bytes :=
  u32Bytes e.body.crc ++ (e.type.bytes ++ e.body.bytes)

def score (e : PhotoSize) : ℤ :=
  e.body.score

def label (e : PhotoSize) : Bytes :=
  (cstr e.type.val).take 7

theorem reads_entry (e : PhotoSize) : Reads photoSizeEntry e.bytes (e.score, e.label) := by
  refine Reads.enter ((Reads.u32 e.body.crc).bind (e.type.reads_str.bind
    (e.body.reads_score.last (Reads.pure _)))) ?_ (by decide)
  simp only [bytes, length_append, length_u32Bytes]
  omega

end PhotoSize

/-! ## The choice -/

/-- The first of the entries with the most pixels; one that is empty, or has a negative number of
them, does not count. -/
def bestPhotoSize (l : List PhotoSize) : Option PhotoSize :=
  @List.argmax PhotoSize ℤ Int.instLinearOrder.toPartialOrder.toPreorder Int.decLt PhotoSize.score
    (l.filter fun e => decide (0 ≤ e.score))

def bestScore (l : List PhotoSize) : ℤ :=
  (bestPhotoSize l).elim (-1) PhotoSize.score

def bestType (l : List PhotoSize) : Bytes :=
  (bestPhotoSize l).elim [] PhotoSize.label

theorem bestPhotoSize_score_nonneg {l : List PhotoSize} {e : PhotoSize}
    (h : bestPhotoSize l = some e) : 0 ≤ e.score := by
  have hmem := argmax_mem h
  exact of_decide_eq_true (mem_filter.mp hmem).2

theorem bestPhotoSize_concat (l : List PhotoSize) (e : PhotoSize) :
    bestPhotoSize (l ++ [e]) = if e.score > bestScore l then some e else bestPhotoSize l := by
  by_cases hpos : 0 ≤ e.score
  · have hfilter : (l ++ [e]).filter (fun e => decide (0 ≤ e.score)) =
        l.filter (fun e => decide (0 ≤ e.score)) ++ [e] := by
      simp [hpos]
    have hstep : bestPhotoSize (l ++ [e]) = Option.casesOn (bestPhotoSize l) (some e)
        fun c => if c.score < e.score then some e else some c := by
      rw [bestPhotoSize, hfilter, argmax_concat]
      rfl
    rw [hstep]
    rcases hc : bestPhotoSize l with _ | c
    · have hbest : bestScore l = -1 := by rw [bestScore, hc]; rfl
      rw [if_pos (by omega)]
    · have hbest : bestScore l = c.score := by rw [bestScore, hc]; rfl
      rw [hbest]
  · have hsame : bestPhotoSize (l ++ [e]) = bestPhotoSize l := by
      simp [bestPhotoSize, hpos]
    have hbest : -1 ≤ bestScore l := by
      rcases hc : bestPhotoSize l with _ | c
      · rw [bestScore, hc]
        rfl
      · have := bestPhotoSize_score_nonneg hc
        rw [bestScore, hc]
        show -1 ≤ c.score
        omega
    rw [hsame, if_neg (by omega)]

theorem walkPhotoSizes_run (o : MediaInfo) (seen todo : List PhotoSize) {r : TlReader} {t : Bytes}
    (h : r.rest = todo.flatMap PhotoSize.bytes ++ t) :
    ∃ r', walkPhotoSizes todo.length (bestScore seen)
        ⟨r, some { o with thumbType := bestType seen }⟩ =
      (some (), ⟨r', some { o with thumbType := bestType (seen ++ todo) }⟩) ∧ r'.rest = t := by
  induction todo generalizing seen r with
  | nil =>
    rw [append_nil]
    exact ⟨r, rfl, h⟩
  | cons e todo ih =>
    rw [flatMap_cons, append_assoc] at h
    obtain ⟨r₁, hentry, hrest⟩ := e.reads_entry r _ h
    obtain ⟨r', hloop, ht⟩ := ih (seen ++ [e]) hrest
    refine ⟨r', ?_, ht⟩
    rw [append_assoc, singleton_append] at hloop
    rw [length_cons, walkPhotoSizes, Prog.bind_of_some (Ext.walk_of_some hentry _), ← hloop]
    by_cases hbeats : e.score > bestScore seen
    · have hbest : bestPhotoSize (seen ++ [e]) = some e := by
        rw [bestPhotoSize_concat, if_pos hbeats]
      have hscore : bestScore (seen ++ [e]) = e.score := by rw [bestScore, hbest]; rfl
      have htype : bestType (seen ++ [e]) = e.label := by rw [bestType, hbest]; rfl
      rw [if_pos hbeats, hscore, htype]
      rfl
    · have hbest : bestPhotoSize (seen ++ [e]) = bestPhotoSize seen := by
        rw [bestPhotoSize_concat, if_neg hbeats]
      have hscore : bestScore (seen ++ [e]) = bestScore seen := by rw [bestScore, hbest, bestScore]
      have htype : bestType (seen ++ [e]) = bestType seen := by rw [bestType, hbest, bestType]
      rw [if_neg hbeats, hscore, htype]

structure PhotoSizes where
  val : List PhotoSize
  short : val.length < 2 ^ 32

def PhotoSizes.bytes (v : PhotoSizes) : Bytes :=
  u32Bytes tlVector ++ (u32Bytes (UInt32.ofNat v.val.length) ++ v.val.flatMap PhotoSize.bytes)

theorem walkPhotoSizeVector_run (v : PhotoSizes) (o : MediaInfo) {r : TlReader} {t : Bytes}
    (h : r.rest = v.bytes ++ t) : ∃ r', walkPhotoSizeVector.run ⟨r, some o⟩ =
      (some (), ⟨r', some { o with thumbType := bestType v.val }⟩) ∧ r'.rest = t := by
  have hhead : Reads (do enter 8; let vec ← u32; ensure (vec = tlVector); u32)
      (u32Bytes tlVector ++ u32Bytes (UInt32.ofNat v.val.length))
      (UInt32.ofNat v.val.length) := by
    refine Reads.enter ((Reads.u32 _).bind (Reads.ensure rfl (Reads.u32 _))) ?_ (by decide)
    simp only [length_append, length_u32Bytes]
    omega
  rw [PhotoSizes.bytes, ← append_assoc, append_assoc] at h
  obtain ⟨r₁, hr₁, hrest⟩ := hhead r _ h
  obtain ⟨r', hloop, ht⟩ := walkPhotoSizes_run o [] v.val hrest
  refine ⟨r', ?_, ht⟩
  obtain ⟨_, _, henter, hr₁⟩ := Walk.bind_eq_some.mp hr₁
  obtain ⟨_, _, hvec, hr₁⟩ := Walk.bind_eq_some.mp hr₁
  obtain ⟨_, _, hensure, hcount⟩ := Walk.bind_eq_some.mp hr₁
  refine (Prog.bind_of_some (Ext.walk_of_some henter _)).trans ?_
  refine (Prog.bind_of_some (Ext.walk_of_some hvec _)).trans ?_
  refine (Prog.bind_of_some (Ext.walk_of_some hensure _)).trans ?_
  refine (Prog.bind_of_some (Ext.walk_of_some hcount _)).trans ?_
  rw [UInt32.toNat_ofNat_of_lt' v.short]
  exact hloop

theorem bestPhotoSize_eq_none {l : List PhotoSize} :
    bestPhotoSize l = none ↔ ∀ e ∈ l, e.score < 0 := by
  rw [bestPhotoSize, argmax_eq_none, filter_eq_nil_iff]
  simp

/-- **The choice of `walk_photo_size_vector`.**  A vector is walked over to its end, and the type
that is left is the one of the first entry with the most pixels.  It is empty if there is no such
entry, or if the type of this entry is. -/
theorem walkPhotoSizeVector_chooses (v : PhotoSizes) (o : MediaInfo) {r : TlReader} {t : Bytes}
    (h : r.rest = v.bytes ++ t) :
    ∃ r' thumbType, walkPhotoSizeVector.run ⟨r, some o⟩ =
      (some (), ⟨r', some { o with thumbType }⟩) ∧ r'.rest = t ∧
      (∀ e, bestPhotoSize v.val = some e → thumbType = e.label) ∧
      (thumbType = [] ↔ (∀ e ∈ v.val, e.score < 0) ∨
        ∃ e, bestPhotoSize v.val = some e ∧ e.label = []) := by
  obtain ⟨r', hrun, ht⟩ := walkPhotoSizeVector_run v o h
  refine ⟨r', bestType v.val, hrun, ht, ?_, ?_⟩
  · intro e he
    rw [bestType, he]
    rfl
  · rw [← bestPhotoSize_eq_none, bestType]
    cases bestPhotoSize v.val <;> simp

/-- A vector whose second entry has the most pixels. -/
def smallAndLarge : PhotoSizes :=
  ⟨[⟨⟨ascii "s", by decide⟩, .size 90 60 1024⟩, ⟨⟨ascii "x", by decide⟩, .size 800 600 65536⟩],
    by decide⟩

theorem walkPhotoSizeVector_chooses_large :
    ∃ r' thumbType, walkPhotoSizeVector.run ⟨⟨smallAndLarge.bytes ++ [], 0⟩, some MediaInfo.zero⟩ =
      (some (), ⟨r', some { MediaInfo.zero with thumbType }⟩) ∧ r'.rest = [] ∧
      (∀ e, bestPhotoSize smallAndLarge.val = some e → thumbType = e.label) ∧
      (thumbType = [] ↔ (∀ e ∈ smallAndLarge.val, e.score < 0) ∨
        ∃ e, bestPhotoSize smallAndLarge.val = some e ∧ e.label = []) :=
  walkPhotoSizeVector_chooses smallAndLarge MediaInfo.zero rfl

/-- A picture of one pixel whose type is the empty string. -/
def untyped : PhotoSizes :=
  ⟨[⟨⟨[], by decide⟩, .size 1 1 0⟩], by decide⟩

/-- An empty type may be left although there is an entry with a score. -/
theorem thumbType_of_untyped :
    ¬ ∀ (v : PhotoSizes) (o : MediaInfo) (r : TlReader) (t : Bytes), r.rest = v.bytes ++ t →
      ∀ r' thumbType, walkPhotoSizeVector.run ⟨r, some o⟩ =
        (some (), ⟨r', some { o with thumbType }⟩) →
        (thumbType = [] ↔ ∀ e ∈ v.val, e.score < 0) := by
  intro h
  obtain ⟨r', hrun, -⟩ := walkPhotoSizeVector_run untyped MediaInfo.zero
    (r := ⟨untyped.bytes, 0⟩) (append_nil _).symm
  have hempty := h untyped _ _ [] (append_nil _).symm r' _ hrun
  have hscore := hempty.mp (by decide +kernel) _ (mem_singleton_self _)
  exact absurd hscore (by decide)

end TgCli.Core
