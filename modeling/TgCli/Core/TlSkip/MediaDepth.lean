import TgCli.Core.TlSkip.Media
import TgCli.Lib.Machine

/-!
# `core/tl_skip.c`: the counter of `tl_skip_message_media_ex`

The counter is a `static` variable.  It is the one thing that a parse leaves behind for the next, so
the functions on the way from a media to a media inside it are put together here once more, from the
pieces of `Media` before and behind the inner media, as programs that have the counter in their
state; what holds no media is the function of `Media` as it stands.  Beside the counter the state
has `nesting`, which the code does not have: how many media, one in the other, the current media
holds.

Every return of a function is a return to its caller, and the caller of the body takes the counter
back whatever the body returns.  From this one fact (`Within`) all that matters follows: what a call
does is what it does in a new process (`runAll_parseMedia`), and an accepted media holds no more
media in one another than `MEDIA_RECURSION_MAX`.
-/

namespace TgCli.Core

open Lib Walk

set_option synthInstance.maxSize 1000000

/-- What the functions work on: the cursor and the place for what is found, the `static` counter,
and the nesting of the media that have been walked over inside the current one. -/
structure Counted extends Ext MediaInfo where
  recursionDepth : ℤ
  nesting : ℕ

namespace Counted

variable {α β : Type}

def lift (m : Prog (Ext MediaInfo) α) : Prog Counted α :=
  fun s => ((m s.toExt).1, { s with toExt := (m s.toExt).2 })

protected def walk (w : Walk α) : Prog Counted α :=
  lift (Ext.walk w)

protected def opt (c : Bool) (m : Prog Counted Unit) : Prog Counted Unit :=
  if c then m else pure ()

protected def rep (m : Prog Counted Unit) : ℕ → Prog Counted Unit
  | 0 => pure ()
  | n + 1 => m >>= fun _ => Counted.rep m n

protected def vector (head : Walk Unit) (item : Prog Counted Unit) : Prog Counted Unit := do
  let n ← Counted.walk do
    head
    let vec ← u32
    ensure (vec = tlVector)
    u32
  Counted.rep item n.toNat

/-! ## The functions -/

/-! Where there is no media inside, no call is made that could matter: `noInner` stands in its
place. -/

theorem guarded_noInner : Guarded 0 0 (fail : Walk Unit) :=
  Guarded.fail

def noInner : Skipper :=
  @Skipper.of fail guarded_noInner

section Inner

variable (media : Prog Counted Unit)

def skipMessageExtendedMedia : Prog Counted Unit := do
  let crc ← Counted.walk do enter 4; u32
  if crc = crcMessageExtendedMedia then media
  else Counted.walk (extendedMediaRun noInner crc)

def skipStoryItem : Prog Counted Unit := do
  let crc ← Counted.walk do enter 4; u32
  if crc = crcStoryItem then
    let flags ← Counted.walk do need 4; u32
    Counted.walk (storyItemHead flags)
    media
    Counted.walk (storyItemTail flags)
  else Counted.walk (storyItemRun noInner crc)

def skipWebpageAttribute : Prog Counted Unit := do
  let crc ← Counted.walk do need 4; u32
  if crc = crcWebPageAttributeStory then
    let flags ← Counted.walk do need 4; u32
    Counted.walk do
      skip tlSkipPeer
      need 4; drop32
    Counted.opt (hasFlag flags 0) (skipStoryItem media)
  else Counted.walk (webpageAttributeRun noInner crc)

def skipWebpageAttributesVector : Prog Counted Unit :=
  Counted.vector (enter 8) (skipWebpageAttribute media)

def skipWebpage : Prog Counted Unit := do
  let crc ← Counted.walk do enter 4; u32
  if crc = crcWebPage then
    let flags ← Counted.walk do need 16; u32
    Counted.walk (webpageHead flags)
    Counted.opt (hasFlag flags 12) (skipWebpageAttributesVector media)
  else Counted.walk (webpageRun noInner crc)

/-- The cases of `skip_message_media_body` in which nothing but the kind is noted. -/
def mediaKindOnly (crc : UInt32) : Prog Counted Unit :=
  if crc = crcMessageMediaWebPage then do
    Counted.walk do need 4; drop32
    skipWebpage media
  else if crc = crcMessageMediaInvoice then do
    let flags ← Counted.walk do need 4; u32
    Counted.walk (invoiceHead flags)
    Counted.opt (hasFlag flags 4) (skipMessageExtendedMedia media)
  else if crc = crcMessageMediaStory then do
    let flags ← Counted.walk do need 4; u32
    Counted.walk do
      skip tlSkipPeer
      need 4; drop32
    Counted.opt (hasFlag flags 0) (skipStoryItem media)
  else if crc = crcMessageMediaPaidMedia then do
    Counted.walk do need 8; drop64
    Counted.vector (need 8) (skipMessageExtendedMedia media)
  else Counted.walk (Core.mediaKindOnly noInner crc).2

def skipMessageMediaBody : Prog Counted Unit := do
  lift (Ext.set fun _ => MediaInfo.zero)
  let crc ← Counted.walk do enter 4; u32
  if crc = crcMessageMediaPhoto then lift mediaPhoto
  else if crc = crcMessageMediaDocument then lift mediaDocument
  else
    lift (Ext.set fun o => { o with kind := (Core.mediaKindOnly noInner crc).1 })
    mediaKindOnly media crc

end Inner

/-- `tl_skip_message_media`: the call with `NULL` for the place. -/
def tlSkipMessageMedia (ex : Prog Counted Unit) : Prog Counted Unit :=
  fun s =>
    let x := ex { s with out := none }
    (x.1, { x.2 with out := s.out })

/-- `tl_skip_message_media_ex`, to so many levels.  The counter is at its limit before the fifth
level is left, so more of them change nothing (`extracts_messageMediaEx`). -/
def messageMediaEx : ℕ → Prog Counted Unit
  | 0 => Prog.fail
  | n + 1 => do
    let depth ← Prog.ask Counted.recursionDepth
    if depth ≥ mediaRecursionMax then Prog.fail
    else
      let outer ← Prog.ask Counted.nesting
      Prog.update fun s => { s with recursionDepth := s.recursionDepth + 1, nesting := 0 }
      (skipMessageMediaBody (tlSkipMessageMedia (messageMediaEx n))).after fun s =>
        { s with recursionDepth := s.recursionDepth - 1, nesting := max outer (s.nesting + 1) }

def tlSkipMessageMediaEx : Prog Counted Unit :=
  messageMediaEx (mediaRecursionMax + 1)

/-! ## Noting with the counter -/

/-- The end of a program beside the end of an extractor.  The cursor of a function that fails is of
no use, so it is compared after success only. -/
structure Ends (d : ℤ) (k n : ℕ) (y : Option α × Counted) (y' : Option α × Ext MediaInfo) :
    Prop where
  fst : y.1 = y'.1
  out : y.2.out = y'.2.out
  reader : ∀ a, y.1 = some a → y.2.reader = y'.2.reader
  depth : y.2.recursionDepth = d
  nests : ∀ a, y.1 = some a → y.2.nesting ≤ max n k

/-- **With the counter at `d`** the program does what the extractor does.  However it ends, the
counter is at `d` again; if it succeeds, no more than `k` media are nested in what it has walked
over. -/
def Extracts (d : ℤ) (k : ℕ) (m : Prog Counted α) (x : Prog (Ext MediaInfo) α) : Prop :=
  ∀ s, s.recursionDepth = d → Ends d k s.nesting (m s) (x s.toExt)

namespace Extracts

variable {d : ℤ} {k : ℕ}

theorem lift (x : Prog (Ext MediaInfo) α) : Extracts d k (Counted.lift x) x :=
  fun _ hs => ⟨rfl, rfl, fun _ _ => rfl, hs, fun _ _ => le_max_left _ _⟩

theorem bind {m : Prog Counted α} {f : α → Prog Counted β} {x : Prog (Ext MediaInfo) α}
    {g : α → Prog (Ext MediaInfo) β} (hm : Extracts d k m x) (hf : ∀ a, Extracts d k (f a) (g a)) :
    Extracts d k (m >>= f) (x >>= g) := by
  intro s hs
  obtain ⟨hfst, hout, hreader, hdepth, hnests⟩ := hm s hs
  rcases hms : m s with ⟨_ | a, s'⟩ <;> rcases hxs : x s.toExt with ⟨_ | a', e⟩ <;>
    rw [hms, hxs] at hfst hout hreader <;> rw [hms] at hdepth hnests
  · rw [Prog.bind_of_none hms, Prog.bind_of_none hxs]
    exact ⟨rfl, hout, fun a ha => absurd ha.symm (Option.some_ne_none a), hdepth,
      fun a ha => absurd ha.symm (Option.some_ne_none a)⟩
  · exact absurd hfst.symm (Option.some_ne_none a')
  · exact absurd hfst (Option.some_ne_none a)
  · obtain rfl : a = a' := Option.some.inj hfst
    obtain rfl : s'.toExt = e := by
      obtain ⟨⟨r, o⟩, d', n⟩ := s'
      obtain ⟨r', o'⟩ := e
      obtain rfl : r = r' := hreader a rfl
      obtain rfl : o = o' := hout
      rfl
    rw [Prog.bind_of_some hms, Prog.bind_of_some hxs]
    have hthen := hf a s' hdepth
    refine ⟨hthen.fst, hthen.out, hthen.reader, hthen.depth, fun b hb => ?_⟩
    have hfirst : s'.nesting ≤ max s.nesting k := hnests a rfl
    have := hthen.nests b hb
    omega

theorem ite {c : Prop} [Decidable c] {m m' : Prog Counted α} {x x' : Prog (Ext MediaInfo) α}
    (h : Extracts d k m x) (h' : Extracts d k m' x') :
    Extracts d k (if c then m else m') (if c then x else x') := by
  split_ifs
  · exact h
  · exact h'

theorem walk_bind {m : Prog Counted β} {w : Walk α} {g : α → Walk β}
    (h : Extracts d k m (Ext.walk w >>= fun a => Ext.walk (g a))) :
    Extracts d k m (Ext.walk (w >>= g)) := by
  intro s hs
  have hend := h s hs
  rcases hw : w s.reader with _ | ⟨a, r⟩
  · have htwo : (Ext.walk w >>= fun a => Ext.walk (g a)) s.toExt = (none, s.toExt) :=
      Prog.bind_of_none (Ext.walk_of_none hw s.out)
    have hone : Ext.walk (w >>= g) s.toExt = (none, s.toExt) :=
      Ext.walk_of_none (Walk.bind_of_none hw) s.out
    rw [htwo] at hend
    rwa [hone]
  · have htwo : (Ext.walk w >>= fun a => Ext.walk (g a)) s.toExt = Ext.walk (g a) ⟨r, s.out⟩ :=
      Prog.bind_of_some (Ext.walk_of_some hw s.out)
    rw [htwo, Ext.walk] at hend
    rw [Ext.walk, Walk.bind_of_some hw]
    rcases hg : g a r with _ | ⟨b, r'⟩ <;> rw [hg] at hend
    · obtain ⟨hfst, hout, hreader, hdepth, hnests⟩ := hend
      exact ⟨hfst, hout, fun b hb => absurd (hfst.symm.trans hb) (Option.some_ne_none b).symm,
        hdepth, hnests⟩
    · exact hend

end Extracts

/-! ## Walking with the counter -/

/-- The program moves the cursor as the walk does, and notes nothing. -/
class Within (d : ℤ) (k : ℕ) (m : Prog Counted α) (w : outParam (Walk α)) : Prop where
  extracts : Extracts d k m (Ext.walk w)

namespace Within

variable {d : ℤ} {k : ℕ}

theorem of_eq {m : Prog Counted α} {w w' : Walk α} (h : Within d k m w) (e : w = w') :
    Within d k m w' :=
  e ▸ h

instance pure (a : α) : Within d k (Pure.pure a) (Pure.pure a) :=
  ⟨Extracts.lift (Ext.walk (Pure.pure a))⟩

instance bind {m : Prog Counted α} {f : α → Prog Counted β} {w : Walk α} {g : α → Walk β}
    [hm : Within d k m w] [hf : ∀ a, Within d k (f a) (g a)] : Within d k (m >>= f) (w >>= g) :=
  ⟨Extracts.walk_bind (hm.extracts.bind fun a => (hf a).extracts)⟩

instance ite {c : Prop} [Decidable c] {m m' : Prog Counted α} {w w' : Walk α}
    [h : Within d k m w] [h' : Within d k m' w'] :
    Within d k (if c then m else m') (if c then w else w') := by
  split_ifs
  · exact h
  · exact h'

instance walk (w : Walk α) : Within d k (Counted.walk w) w :=
  ⟨Extracts.lift _⟩

instance opt (c : Bool) {m : Prog Counted Unit} {w : Walk Unit} [h : Within d k m w] :
    Within d k (Counted.opt c m) (Walk.opt c w) := by
  rw [Counted.opt, Walk.opt]
  infer_instance

instance rep {m : Prog Counted Unit} {w : Walk Unit} [h : Within d k m w] (n : ℕ) :
    Within d k (Counted.rep m n) (Walk.rep w n) := by
  induction n with
  | zero => exact Within.pure ()
  | succ n ih =>
    rw [Counted.rep, Walk.rep]
    infer_instance

instance vector {m : Prog Counted Unit} {w : Walk Unit} [h : Within d k m w] :
    Within d k (Counted.vector (need 8) m) (Walk.vector w) := by
  rw [Counted.vector, Walk.vector]
  refine of_eq inferInstance ?_
  simp only [bind_assoc]

instance enterVector {m : Prog Counted Unit} {w : Walk Unit} [h : Within d k m w] :
    Within d k (Counted.vector (enter 8) m) (Walk.enterVector w) := by
  rw [Counted.vector, Walk.enterVector]
  refine of_eq inferInstance ?_
  simp only [bind_assoc]

/-! The functions on the way back to the media, for an inner call that is one walk. -/

section Inner

variable {media : Prog Counted Unit} {inner : Skipper} [h : Within d k media (skip inner.run)]

/-- A function that calls the media for one constructor only. -/
theorem of_cases {head : Walk UInt32} {x : UInt32} {m : Prog Counted Unit}
    (run : Skipper → UInt32 → Walk Unit) (hm : Within d k m (run inner x))
    (hother : ∀ crc ≠ x, run noInner crc = run inner crc) :
    Within d k (Counted.walk head >>= fun crc =>
      if crc = x then m else Counted.walk (run noInner crc)) (head >>= run inner) := by
  have hcases : ∀ crc, Within d k (if crc = x then m else Counted.walk (run noInner crc))
      (run inner crc) := by
    intro crc
    split_ifs with h
    · rwa [h]
    · rw [hother crc h]
      infer_instance
  infer_instance

instance extendedMedia :
    Within d k (skipMessageExtendedMedia media)
      (skip (Core.skipMessageExtendedMedia inner).run) := by
  rw [Core.skipMessageExtendedMedia, Skipper.skip_of]
  refine of_eq (of_cases extendedMediaRun h fun crc hcrc => ?_) (bind_assoc _ _ _)
  simp only [extendedMediaRun, if_neg hcrc]

instance storyItem : Within d k (skipStoryItem media) (skip (Core.skipStoryItem inner).run) := by
  rw [Core.skipStoryItem, Skipper.skip_of]
  refine of_eq (of_cases storyItemRun (of_eq inferInstance ?_) fun crc hcrc => ?_)
    (bind_assoc _ _ _)
  · exact bind_assoc _ _ _
  · simp only [storyItemRun, if_neg hcrc]

instance webpageAttributesVector : Within d k (skipWebpageAttributesVector media)
    (skip (Core.skipWebpageAttributesVector inner).run) := by
  have hentry : Within d k (skipWebpageAttribute media)
      (need 4 >>= fun _ => u32 >>= webpageAttributeRun inner) := by
    refine of_eq (of_cases webpageAttributeRun (of_eq inferInstance ?_) fun crc hcrc => ?_)
      (bind_assoc _ _ _)
    · simp only [bind_assoc]
      rfl
    · simp only [webpageAttributeRun, if_neg hcrc]
  rw [skipWebpageAttributesVector, Core.skipWebpageAttributesVector, Skipper.skip_of]
  exact enterVector

instance webpage : Within d k (skipWebpage media) (skip (Core.skipWebpage inner).run) := by
  rw [Core.skipWebpage, Skipper.skip_of]
  refine of_eq (of_cases webpageRun (of_eq inferInstance ?_) fun crc hcrc => ?_)
    (bind_assoc _ _ _)
  · exact bind_assoc _ _ _
  · simp only [webpageRun, if_neg hcrc]

theorem mediaKindOnly_congr {crc : UInt32} (hweb : crc ≠ crcMessageMediaWebPage)
    (hinvoice : crc ≠ crcMessageMediaInvoice) (hstory : crc ≠ crcMessageMediaStory)
    (hpaid : crc ≠ crcMessageMediaPaidMedia) (a b : Skipper) :
    Core.mediaKindOnly a crc = Core.mediaKindOnly b crc := by
  simp only [Core.mediaKindOnly, if_neg hweb, if_neg hinvoice, if_neg hstory, if_neg hpaid]

theorem fst_mediaKindOnly (a b : Skipper) (crc : UInt32) :
    (Core.mediaKindOnly a crc).1 = (Core.mediaKindOnly b crc).1 := by
  simp only [Core.mediaKindOnly, apply_ite Prod.fst]

instance kindOnly (crc : UInt32) :
    Within d k (mediaKindOnly media crc) (Core.mediaKindOnly inner crc).2 := by
  unfold mediaKindOnly
  split_ifs with hweb hinvoice hstory hpaid
  · subst hweb
    refine of_eq inferInstance ?_
    simp only [bind_assoc]
    rfl
  · subst hinvoice
    exact of_eq inferInstance (bind_assoc _ _ _)
  · subst hstory
    refine of_eq inferInstance ?_
    simp only [bind_assoc]
    rfl
  · subst hpaid
    refine of_eq inferInstance ?_
    simp only [bind_assoc]
    rfl
  · exact of_eq inferInstance
      (congrArg Prod.snd (mediaKindOnly_congr hweb hinvoice hstory hpaid noInner inner))

end Inner

end Within

/-! ## The counter over a call -/

section Call

variable {d : ℤ} {k : ℕ}

theorem extracts_skipMessageMediaBody {media : Prog Counted Unit} {inner : Skipper}
    (h : Within d k media (skip inner.run)) :
    Extracts d k (skipMessageMediaBody media) (Core.skipMessageMediaBody inner).run := by
  refine (Extracts.lift _).bind fun _ => (Extracts.lift _).bind fun crc => ?_
  refine (Extracts.lift _).ite ((Extracts.lift _).ite ?_)
  rw [Within.fst_mediaKindOnly noInner inner crc]
  exact (Extracts.lift _).bind fun _ => (Within.kindOnly crc).extracts

theorem within_tlSkipMessageMedia {ex : Prog Counted Unit} {x : Extractor MediaInfo}
    (h : Extracts d k ex x.run) :
    Within d k (tlSkipMessageMedia ex) (skip (x.skipper none).run) := by
  refine ⟨fun s hs => ?_⟩
  obtain ⟨hfst, -, hreader, hdepth, hnests⟩ := h { s with out := none } hs
  rcases hx : x.run ⟨s.reader, none⟩ with ⟨_ | u, e⟩
  · have hwalk : Ext.walk (skip (x.skipper none).run) s.toExt = (none, s.toExt) := by
      refine Ext.walk_of_none ?_ s.out
      show skip (x.call none) s.reader = none
      rw [skip, Extractor.call, hx]
      rfl
    rw [hwalk]
    have hnone : (ex { s with out := none }).1 = none := hfst.trans (congrArg Prod.fst hx)
    refine ⟨hnone, rfl, fun a ha => ?_, hdepth, hnests⟩
    exact absurd (hnone.symm.trans ha) (Option.some_ne_none a).symm
  · have hwalk : Ext.walk (skip (x.skipper none).run) s.toExt = (some u, ⟨e.reader, s.out⟩) := by
      refine Ext.walk_of_some ?_ s.out
      show skip (x.call none) s.reader = some (u, e.reader)
      rw [skip, Extractor.call, hx]
      rfl
    rw [hwalk]
    have hsome : (ex { s with out := none }).1 = some u := hfst.trans (congrArg Prod.fst hx)
    refine ⟨hsome, rfl, fun a ha => ?_, hdepth, hnests⟩
    exact (hreader a ha).trans (congrArg (fun y => y.2.reader) hx)

theorem messageMediaEx_refused (n : ℕ) {s : Counted} (hs : s.recursionDepth = mediaRecursionMax) :
    messageMediaEx (n + 1) s = (none, s) := by
  have hfull : s.recursionDepth ≥ mediaRecursionMax := le_of_eq hs.symm
  show (if s.recursionDepth ≥ mediaRecursionMax then Prog.fail else _ : Prog Counted Unit) s = _
  rw [if_pos hfull]
  rfl

theorem messageMediaEx_entered (n : ℕ) {s : Counted} (hs : s.recursionDepth < mediaRecursionMax) :
    messageMediaEx (n + 1) s =
      ((skipMessageMediaBody (tlSkipMessageMedia (messageMediaEx n))).after fun t =>
        { t with recursionDepth := t.recursionDepth - 1, nesting := max s.nesting (t.nesting + 1) })
      { s with recursionDepth := s.recursionDepth + 1, nesting := 0 } := by
  have hroom : ¬ s.recursionDepth ≥ mediaRecursionMax := not_le.mpr hs
  show (if s.recursionDepth ≥ mediaRecursionMax then Prog.fail else _ : Prog Counted Unit) s = _
  rw [if_neg hroom]
  rfl

/-- **The counter over a call.**  With room for `j` calls, whatever the levels beyond that. -/
theorem extracts_messageMediaEx {j n : ℕ} (hj : j ≤ mediaRecursionMax) (hn : j < n) :
    Extracts (mediaRecursionMax - j) j (messageMediaEx n) (messageMediaWithin j).run := by
  obtain ⟨n, rfl⟩ : ∃ i, n = i + 1 := ⟨n - 1, by omega⟩
  induction j generalizing n with
  | zero =>
    intro s hs
    rw [Nat.cast_zero, sub_zero] at hs ⊢
    rw [messageMediaEx_refused n hs]
    refine ⟨rfl, rfl, fun a ha => ?_, hs, fun a ha => ?_⟩ <;>
      exact absurd ha.symm (Option.some_ne_none a)
  | succ j ih =>
    intro s hs
    obtain ⟨n, rfl⟩ : ∃ i, n = i + 1 := ⟨n - 1, by omega⟩
    have hinner := within_tlSkipMessageMedia (ih (by omega) n (by omega))
    -- the body runs with the counter one higher, and with nothing nested yet
    obtain ⟨hfst, hout, hreader, hdepth, hnests⟩ := extracts_skipMessageMediaBody hinner
      { s with recursionDepth := s.recursionDepth + 1, nesting := 0 }
      (by show s.recursionDepth + 1 = mediaRecursionMax - j; rw [hs]; push_cast; ring)
    rw [messageMediaEx_entered (n + 1) (by rw [hs]; push_cast; omega)]
    refine ⟨hfst, hout, hreader, ?_, fun a ha => ?_⟩
    · show _ - 1 = _
      rw [hdepth]
      push_cast
      ring
    · have hn := hnests a ha
      show max s.nesting (_ + 1) ≤ max s.nesting (j + 1)
      rw [Nat.zero_max] at hn
      omega

end Call

end Counted

/-! ## Calls one after the other -/

/-- What comes out of a call: the cursor if it has succeeded, what has been noted, and how many
media are nested in one another in what has been walked over. -/
structure Parsed where
  cursor : Option TlReader
  out : Option MediaInfo
  nesting : ℕ

/-- A call of `tl_skip_message_media_ex` from outside, with what the calls before it have left in
the counter. -/
def parseMedia (c : Ext MediaInfo) (depth : ℤ) : Parsed × ℤ :=
  let x := Counted.tlSkipMessageMediaEx ⟨c, depth, 0⟩
  (⟨x.1.map fun _ => x.2.reader, x.2.out, x.2.nesting⟩, x.2.recursionDepth)

theorem ends_parseMedia (c : Ext MediaInfo) : Counted.Ends 0 mediaRecursionMax 0
    (Counted.tlSkipMessageMediaEx ⟨c, 0, 0⟩) (tlSkipMessageMediaEx.run c) := by
  have h := Counted.extracts_messageMediaEx le_rfl (Nat.lt_succ_self mediaRecursionMax)
  rw [sub_self] at h
  exact h ⟨c, 0, 0⟩ rfl

/-- **Calls one after the other.**  After every call the counter is zero, whether the call has
succeeded or not, each call does what it does in a new process, and no accepted media has more than
four media in one another. -/
theorem runAll_parseMedia (calls : List (Ext MediaInfo)) :
    (runAll parseMedia calls 0).2 = 0 ∧
      (runAll parseMedia calls 0).1 = calls.map (fun c => (parseMedia c 0).1) ∧
      ∀ p ∈ (runAll parseMedia calls 0).1, p.cursor.isSome → p.nesting ≤ 4 := by
  have hstep : ∀ c, (parseMedia c 0).2 = 0 := fun c => (ends_parseMedia c).depth
  have hrun : runAll parseMedia calls 0 = (calls.map (fun c => (parseMedia c 0).1), 0) := by
    induction calls with
    | nil => rfl
    | cons c calls ih =>
      rw [runAll, hstep c, ih, List.map_cons]
  rw [hrun]
  refine ⟨rfl, rfl, fun p hp hsome => ?_⟩
  obtain ⟨c, -, rfl⟩ := List.mem_map.mp hp
  obtain ⟨_, hcursor⟩ := Option.isSome_iff_exists.mp hsome
  obtain ⟨u, hu, -⟩ := Option.map_eq_some_iff.mp hcursor
  have hnests := (ends_parseMedia c).nests u hu
  rwa [Nat.zero_max] at hnests

end TgCli.Core
