import TgCli.Domain.MessageWalks

/-!
# `domain/read` and `core/tl_skip.c`: do the four parsers of messages agree?

The three parsers always agree with each other (`Domain.ParserAgreement`).  Whether they agree with
`tl_skip_message` is decided at the places where the walks part, and each place has an exact
condition:

* `TextMissing`: the text of a `message` cannot be read.  The parsers go on at the end of the
  buffer, where every further field fails, so they only succeed when there is none.
* `ActionLost`: the action of a `messageService` is unknown, or it is followed by reactions, which
  the parsers do not pass, or by a `ttl_period` that is cut off, which they do without.

`parsersAgree_iff` puts the two together.
-/

namespace TgCli.Domain

open Lib TgCli.Core

set_option synthInstance.maxSize 1000000

/-! ## At the end of the buffer -/

def AtEnd (r : TlReader) : Prop :=
  r.pos = r.data.length

theorem atEnd_toEnd (r : TlReader) : AtEnd r.toEnd :=
  rfl

/-- A walk that needs something to be there. -/
class Needy (w : Walk Unit) : Prop where
  eq_none : ∀ {r}, AtEnd r → w r = none

variable {r r' : TlReader} {crc flags flags2 : UInt32}

theorem left_atEnd (h : AtEnd r) : r.left = 0 := by
  rw [TlReader.left_of_le h.le, h]
  exact Nat.sub_self _

instance needy_need (n : ℕ) {w : Unit → Walk Unit} : Needy (Walk.need (n + 1) >>= w) := by
  refine ⟨fun {r} h => ?_⟩
  refine Walk.bind_of_none ?_
  rw [Walk.need, left_atEnd h, if_pos (Nat.succ_pos n)]

theorem not_ok_atEnd (h : AtEnd r) : tlReaderOk r = false :=
  decide_eq_false (by show ¬ r.pos < r.data.length; rw [h]; exact lt_irrefl _)

instance needy_string : Needy (Walk.skip tlSkipString) := by
  refine ⟨fun {r} h => ?_⟩
  rw [Walk.skip, tlSkipString, not_ok_atEnd h]
  rfl

instance needy_peer : Needy (Walk.skip tlSkipPeer) := by
  refine ⟨fun {r} h => ?_⟩
  rw [Walk.skip, tlSkipPeer, if_pos (.inl (by rw [not_ok_atEnd h]; rfl))]
  rfl

theorem enter_atEnd {n : ℕ} (h : AtEnd r) : Walk.enter n r = none := by
  rw [Walk.enter, not_ok_atEnd h]
  rfl

theorem needy_of_enter {s : Skipper} {n : ℕ} {w : Unit → Walk Unit}
    (hs : s.run = fun r => ((Walk.enter n >>= w) r).map Prod.snd) : Needy (Walk.skip s.run) := by
  refine ⟨fun {r} h => ?_⟩
  rw [hs, Skipper.skip_map_snd]
  exact Walk.bind_of_none (enter_atEnd h)

instance : Needy (Walk.skip tlSkipReplyMarkup.run) := needy_of_enter rfl
instance : Needy (Walk.skip tlSkipMessageEntitiesVector.run) := needy_of_enter rfl
instance : Needy (Walk.skip tlSkipMessageReplies.run) := needy_of_enter rfl
instance : Needy (Walk.skip tlSkipMessageReactions.run) := needy_of_enter rfl
instance : Needy (Walk.skip tlSkipRestrictionReasonVector.run) := needy_of_enter rfl
instance : Needy (Walk.skip tlSkipFactcheck.run) := needy_of_enter rfl

instance : Needy (Walk.skip tlSkipMessageMedia.run) := by
  refine ⟨fun {r} h => ?_⟩
  have henter : (Ext.walk (Walk.enter 4 >>= fun _ => Walk.u32) : Prog (Ext MediaInfo) UInt32)
      ⟨r, none⟩ = (none, ⟨r, none⟩) := by
    have hw : (Walk.enter 4 >>= fun _ => Walk.u32) r = none :=
      Walk.bind_of_none (enter_atEnd h)
    rw [Ext.walk]
    rw [hw]
  have hset : (Ext.set fun _ => MediaInfo.zero) ⟨r, none⟩ = (some (), ⟨r, none⟩) := rfl
  have hrun : tlSkipMessageMediaEx.run ⟨r, none⟩ = (none, ⟨r, none⟩) :=
    (Prog.bind_of_some hset).trans (Prog.bind_of_none henter)
  show ((tlSkipMessageMediaEx.run ⟨r, none⟩).1.map _).map _ = none
  rw [hrun]
  rfl

theorem opt_bind_atEnd {c : Bool} {w : Walk Unit} [hw : Needy w] {k : Walk Unit}
    (h : AtEnd r) : (Walk.opt c w >>= fun _ => k) r = if c then none else k r := by
  cases c with
  | false => rfl
  | true => exact Walk.bind_of_none (hw.eq_none h)

def hasTrailer (flags flags2 : UInt32) : Bool :=
  [9, 6, 7, 10, 23, 15, 16, 17, 20, 22, 25].any (hasFlag flags) || [30, 2, 3].any (hasFlag flags2)

theorem skipMessageRest_atEnd (h : AtEnd r) :
    skipMessageRest flags flags2 r = if hasTrailer flags flags2 then none else some ((), r) := by
  rw [skipMessageRest, ← bind_unit (Walk.opt (hasFlag flags2 3) _)]
  simp only [opt_bind_atEnd h]
  simp only [hasTrailer, List.any_cons, List.any_nil, Bool.or_false, Bool.or_eq_true, ite_or]
  rfl

/-! ## Messages -/

/-- A `message` up to its text. -/
def messageHead : Walk (UInt32 × UInt32) := do
  Walk.need 12
  let flags ← Walk.u32
  let flags2 ← Walk.u32
  Walk.drop32
  messageFields flags flags2
  pure (flags, flags2)

theorem skipMessageRun_eq : skipMessageRun = (messageHead >>= fun x =>
    Walk.skip tlSkipString >>= fun _ => skipMessageRest x.1 x.2) := by
  simp only [skipMessageRun, messageHead, bind_assoc, pure_bind]

theorem messageFields_atEnd (h : AtEnd r) :
    messageFields flags flags2 r = none := by
  rw [messageFields, opt_bind_atEnd h]
  split_ifs
  · rfl
  · exact Walk.bind_of_none (needy_peer.eq_none h)

theorem passMessage_eq (hr : r.pos ≤ r.data.length) :
    passMessage r = (messageHead >>= fun x => passText >>= fun _ => skipMessageRest x.1 x.2) r := by
  have hhead : (messageHead >>= fun x => passText >>= fun _ => skipMessageRest x.1 x.2) =
      (Walk.need 12 >>= fun _ => passMessage) := by
    simp only [passMessage, messageHead, bind_assoc, pure_bind]
  rw [hhead]
  by_cases h12 : r.left < 12
  · have hneed : Walk.need 12 r = none := by
      rw [Walk.need, if_pos h12]
    rw [Walk.bind_of_none hneed]
    rw [TlReader.left_of_le hr] at h12
    have h1 := pos_readFixed_eq_min r 4
    have h2 := pos_readFixed_eq_min (readFixed r 4).2 4
    have h3 := pos_readFixed_eq_min (readFixed (readFixed r 4).2 4).2 4
    simp only [data_readFixed] at h2 h3
    have hend : AtEnd (readFixed (readFixed (readFixed r 4).2 4).2 4).2 := by
      rw [AtEnd, data_readFixed, data_readFixed, data_readFixed]
      omega
    have hflags : Walk.u32 r = some (_, (readFixed r 4).2) := rfl
    have hflags2 : Walk.u32 (readFixed r 4).2 = some (_, (readFixed (readFixed r 4).2 4).2) := rfl
    have hid : Walk.drop32 (readFixed (readFixed r 4).2 4).2 =
      some ((), (readFixed (readFixed (readFixed r 4).2 4).2 4).2) := rfl
    rw [passMessage, Walk.bind_of_some hflags, Walk.bind_of_some hflags2, Walk.bind_of_some hid]
    exact Walk.bind_of_none (messageFields_atEnd hend)
  · have hneed : Walk.need 12 r = some ((), r) := by
      rw [Walk.need, if_neg h12]
    rw [Walk.bind_of_some hneed]

/-- A message whose text cannot be read and that has no field behind the text. -/
def TextMissing (r : TlReader) : Prop :=
  ∃ x r', messageHead r = some (x, r') ∧ (tlReadString r').1 = none ∧ hasTrailer x.1 x.2 = false

theorem passText_of_some {s : Bytes} (h : (tlReadString r).1 = some s) :
    passText r = Walk.skip tlSkipString r := by
  rw [Guarded.skip_tlSkipString_eq]
  rcases hr : tlReadString r with ⟨o, r'⟩
  rw [hr] at h
  obtain rfl : o = some s := h
  show some ((), (tlReadString r).2) = _
  rw [hr]
  rfl

theorem skipString_of_none (h : (tlReadString r).1 = none) :
    Walk.skip tlSkipString r = none ∧ passText r = some ((), r.toEnd) := by
  have hnone : (tlReadBytes r).1 = none := Option.map_eq_none_iff.mp h
  have hend : (tlReadBytes r).2 = r.toEnd := tlReadBytes_eq_none (Prod.ext hnone rfl)
  refine ⟨?_, congrArg (fun r' => some ((), r')) hend⟩
  rw [Guarded.skip_tlSkipString_eq]
  rcases hr : tlReadString r with ⟨o, r'⟩
  rw [hr] at h
  obtain rfl : o = none := h
  rfl

theorem passMessage_eq_iff (hr : r.pos ≤ r.data.length) :
    passMessage r = skipMessageRun r ↔ ¬ TextMissing r := by
  rw [passMessage_eq hr, skipMessageRun_eq]
  cases hhead : messageHead r with
  | none =>
    have hnot : ¬ TextMissing r := by
      rintro ⟨x, r', h, -⟩
      rw [hhead] at h
      cases h
    exact iff_of_true (by rw [Walk.bind_of_none hhead, Walk.bind_of_none hhead]) hnot
  | some y =>
    obtain ⟨x, r₁⟩ := y
    rw [Walk.bind_of_some hhead, Walk.bind_of_some hhead]
    have huniq : TextMissing r ↔ (tlReadString r₁).1 = none ∧ hasTrailer x.1 x.2 = false := by
      constructor
      · rintro ⟨x', r', h, hs⟩
        rw [hhead] at h
        obtain ⟨rfl, rfl⟩ := Prod.mk.inj (Option.some_inj.mp h)
        exact hs
      · intro hs
        exact ⟨x, r₁, hhead, hs⟩
    rw [huniq]
    cases hs : (tlReadString r₁).1 with
    | some s =>
      refine iff_of_true ?_ fun h => Option.some_ne_none s h.1
      cases hskip : Walk.skip tlSkipString r₁ with
      | none => rw [Walk.bind_of_none hskip, Walk.bind_of_none ((passText_of_some hs).trans hskip)]
      | some z =>
        rw [Walk.bind_of_some hskip, Walk.bind_of_some ((passText_of_some hs).trans hskip)]
    | none =>
      obtain ⟨hskip, hpass⟩ := skipString_of_none hs
      rw [Walk.bind_of_none hskip, Walk.bind_of_some hpass, skipMessageRest_atEnd (atEnd_toEnd r₁)]
      cases hasTrailer x.1 x.2 <;> simp

/-! ## Service messages -/

/-- A `messageService` up to its action. -/
def serviceHead : Walk UInt32 := do
  Walk.need 8
  let flags ← Walk.u32
  Walk.drop32
  serviceFields flags
  pure flags

/-- What `tl_skip_message` does behind the action. -/
def skipServiceRest (flags : UInt32) : Walk Unit := do
  Walk.opt (hasFlag flags 20) (Walk.skip tlSkipMessageReactions)
  Walk.opt (hasFlag flags 25) do Walk.need 4; Walk.drop32

theorem skipServiceRun_eq : skipServiceRun = (serviceHead >>= fun flags =>
    Walk.skip skipMessageAction.run >>= fun _ => skipServiceRest flags) := by
  simp only [skipServiceRun, serviceHead, skipServiceRest, bind_assoc, pure_bind]

theorem serviceFields_atEnd (h : AtEnd r) :
    serviceFields flags r = none := by
  rw [serviceFields, opt_bind_atEnd h]
  split_ifs
  · rfl
  · exact Walk.bind_of_none (needy_peer.eq_none h)

theorem passService_eq (hr : r.pos ≤ r.data.length) :
    passService r = (serviceHead >>= fun flags => passAction >>= fun _ => passTtl flags) r := by
  have hhead : (serviceHead >>= fun flags => passAction >>= fun _ => passTtl flags) =
      (Walk.need 8 >>= fun _ => passService) := by
    simp only [passService, serviceHead, bind_assoc, pure_bind]
  rw [hhead]
  by_cases h8 : r.left < 8
  · have hneed : Walk.need 8 r = none := by
      rw [Walk.need, if_pos h8]
    rw [Walk.bind_of_none hneed]
    rw [TlReader.left_of_le hr] at h8
    have h1 := pos_readFixed_eq_min r 4
    have h2 := pos_readFixed_eq_min (readFixed r 4).2 4
    simp only [data_readFixed] at h2
    have hend : AtEnd (readFixed (readFixed r 4).2 4).2 := by
      rw [AtEnd, data_readFixed, data_readFixed]
      omega
    have hflags : Walk.u32 r = some (_, (readFixed r 4).2) := rfl
    have hid : Walk.drop32 (readFixed r 4).2 = some ((), (readFixed (readFixed r 4).2 4).2) := rfl
    rw [passService, Walk.bind_of_some hflags, Walk.bind_of_some hid]
    exact Walk.bind_of_none (serviceFields_atEnd hend)
  · have hneed : Walk.need 8 r = some ((), r) := by
      rw [Walk.need, if_neg h8]
    rw [Walk.bind_of_some hneed]

theorem snd_of_u32 {x : UInt32} (h : Walk.u32 r = some (x, r')) :
    r' = (readFixed r 4).2 :=
  (Prod.mk.inj (Option.some_inj.mp h)).2.symm

theorem eq_of_ensure {c : Prop} [Decidable c] {u : Unit}
    (h : Walk.ensure c r = some (u, r')) : r' = r := by
  rw [Walk.ensure] at h
  split_ifs at h
  · exact (Prod.mk.inj (Option.some_inj.mp h)).2.symm
  · cases h

/-- What follows the flags in `tl_skip_message_reactions`. -/
instance guarded_reactionsRest (flags : UInt32) : Guarded 0 0 (do
    Walk.vector (Walk.skip skipReactionCount)
    Walk.opt (hasFlag flags 1) (Walk.vector (Walk.skip skipMessagePeerReaction))
    Walk.opt (hasFlag flags 2) (Walk.vector (Walk.skip skipMessageReactor))) :=
  inferInstance

theorem pos_tlSkipMessageReactions (h : tlSkipMessageReactions.run r = some r') :
    r.pos + 8 ≤ r.data.length ∧ r.pos + 8 ≤ r'.pos ∧ r'.data = r.data := by
  have hskip := Skipper.skip_eq_some.mpr h
  have hdata := tlSkipMessageReactions.guarded.data_eq hskip
  rw [tlSkipMessageReactions, Skipper.skip_of] at hskip
  obtain ⟨_, r₀, henter, hs₀⟩ := Walk.bind_eq_some.mp hskip
  obtain ⟨hok, hleft, rfl⟩ := Guarded.enter_eq_some.mp henter
  obtain ⟨crc, r₁, hcrc, hs₁⟩ := Walk.bind_eq_some.mp hs₀
  obtain rfl := snd_of_u32 hcrc
  obtain ⟨_, r₂, hensure, hs₂⟩ := Walk.bind_eq_some.mp hs₁
  obtain rfl := eq_of_ensure hensure
  obtain ⟨_, r₃, hneed, hs₃⟩ := Walk.bind_eq_some.mp hs₂
  obtain ⟨hleft', rfl⟩ := Guarded.need_eq_some.mp hneed
  obtain ⟨flags, r₄, hflags, hrest⟩ := Walk.bind_eq_some.mp hs₃
  obtain rfl := snd_of_u32 hflags
  rw [TlReader.left_of_le (inside_readFixed r₀ 4)] at hleft'
  have h1 := pos_readFixed_eq_min r₀ 4
  have h2 := pos_readFixed_eq_min (readFixed r₀ 4).2 4
  simp only [data_readFixed] at h2 hleft'
  have hpast := (guarded_reactionsRest flags).past (m := r₀.pos + 7) hrest (by omega)
    (by simp only [data_readFixed]; omega)
  exact ⟨by omega, by omega, hdata⟩

theorem passTtl_eq_some (flags : UInt32) (r : TlReader) :
    ∃ r', passTtl flags r = some ((), r') ∧ (r'.pos ≤ r.pos + 4 ∨ r'.pos ≤ r.data.length ∧
      r.data.length < r.pos) := by
  rw [passTtl]
  split_ifs with h25
  · by_cases h4 : r.left ≥ 4
    · refine ⟨(readFixed r 4).2, if_pos h4, ?_⟩
      rw [pos_readFixed_eq_min]
      omega
    · exact ⟨r, if_neg h4, .inl (by omega)⟩
  · exact ⟨r, rfl, .inl (by omega)⟩

/-- A service message with something at its action that one side passes and the other does not. -/
def ActionLost (r : TlReader) : Prop :=
  ∃ flags r', serviceHead r = some (flags, r') ∧
    (4 ≤ r'.left ∧ (tlReadUint32 r').1 ∉ knownActions ∨
      ∃ r'', skipMessageAction.run r' = some r'' ∧
        (hasFlag flags 20 = true ∨ hasFlag flags 25 = true ∧ r''.left < 4))

open Walk

/-- Behind an action the two sides agree unless there are reactions, or a `ttl_period` is cut. -/
theorem passTtl_eq_iff (flags : UInt32) (r : TlReader) :
    passTtl flags r = skipServiceRest flags r ↔
      ¬ (hasFlag flags 20 = true ∨ hasFlag flags 25 = true ∧ r.left < 4) := by
  obtain ⟨t, hpass, hbound⟩ := passTtl_eq_some flags r
  cases h20 : hasFlag flags 20 with
  | true =>
    refine iff_of_false (fun heq => ?_) (by simp)
    rw [hpass, skipServiceRest, h20] at heq
    obtain ⟨_, r₁, hreact, hrest⟩ := bind_eq_some.mp heq.symm
    obtain ⟨hin, hfar, hdata⟩ := pos_tlSkipMessageReactions (Skipper.skip_eq_some.mp hreact)
    have hguard : Guarded 0 0 (opt (hasFlag flags 25) (need 4 >>= fun _ => drop32)) :=
      inferInstance
    have hpast := hguard.past (m := r.pos + 7) hrest (by omega) (by rw [hdata]; omega)
    omega
  | false =>
    have hrest : skipServiceRest flags r =
        opt (hasFlag flags 25) (need 4 >>= fun _ => drop32) r := by
      rw [skipServiceRest, h20]
      rfl
    rw [hrest, passTtl]
    cases h25 : hasFlag flags 25 with
    | false => simp [opt]
    | true =>
      by_cases h4 : r.left < 4
      · have hneed : need 4 r = none := by
          rw [need, if_pos h4]
        refine iff_of_false ?_ (by simp [h4])
        show ¬ (if r.left ≥ 4 then drop32 r else some ((), r)) =
          (need 4 >>= fun _ => drop32) r
        rw [bind_of_none hneed, if_neg (by omega)]
        exact Option.some_ne_none _
      · have hneed : need 4 r = some ((), r) := by
          rw [need, if_neg h4]
        refine iff_of_true ?_ (by simp [h4])
        show (if r.left ≥ 4 then drop32 r else some ((), r)) =
          (need 4 >>= fun _ => drop32) r
        rw [bind_of_some hneed, if_pos (by omega)]

theorem skipMessageAction_eq :
    skip skipMessageAction.run =
      (need 4 >>= fun _ => u32 >>= fun acrc => messageActionRun acrc) :=
  Skipper.skip_of _

theorem passAction_eq_iff (flags : UInt32) (r : TlReader) :
    (passAction >>= fun _ => passTtl flags) r =
        (skip skipMessageAction.run >>= fun _ => skipServiceRest flags) r ↔
      ¬ (4 ≤ r.left ∧ (tlReadUint32 r).1 ∉ knownActions ∨
        ∃ r', skipMessageAction.run r = some r' ∧
          (hasFlag flags 20 = true ∨ hasFlag flags 25 = true ∧ r'.left < 4)) := by
  by_cases h4 : r.left < 4
  · have hneed : need 4 r = none := by
      rw [need, if_pos h4]
    have hskip : skip skipMessageAction.run r = none := by
      rw [skipMessageAction_eq, bind_of_none hneed]
    have hpass : passAction r = none := by
      rw [passAction, bind_of_none hneed]
    refine iff_of_true (by rw [bind_of_none hskip, bind_of_none hpass]) ?_
    rintro (⟨hle, -⟩ | ⟨r', hr', -⟩)
    · omega
    · rw [Skipper.skip_eq_some.mpr hr'] at hskip
      cases hskip
  · have hneed : need 4 r = some ((), r) := by
      rw [need, if_neg h4]
    have hcrc : u32 r = some ((tlReadUint32 r).1, (tlReadUint32 r).2) := rfl
    have hskip : skip skipMessageAction.run r =
        messageActionRun (tlReadUint32 r).1 (tlReadUint32 r).2 := by
      rw [skipMessageAction_eq, bind_of_some hneed, bind_of_some hcrc]
    have hpass : passAction r = passActionRun (tlReadUint32 r).1 (tlReadUint32 r).2 := by
      rw [passAction, bind_of_some hneed, bind_of_some hcrc]
    by_cases hknown : (tlReadUint32 r).1 ∈ knownActions
    · rw [passActionRun, if_pos hknown, ← hskip] at hpass
      cases hrun : skipMessageAction.run r with
      | none =>
        have hnone : skip skipMessageAction.run r = none := by
          rw [skip, hrun]
          rfl
        refine iff_of_true
          (by rw [bind_of_none hnone, bind_of_none (hpass.trans hnone)]) ?_
        rintro (⟨-, hno⟩ | ⟨r', hr', -⟩)
        · exact hno hknown
        · cases hr'
      | some r₁ =>
        have hsome := Skipper.skip_eq_some.mpr hrun
        rw [bind_of_some hsome, bind_of_some (hpass.trans hsome), passTtl_eq_iff]
        refine not_congr ⟨fun h => .inr ⟨r₁, rfl, h⟩, ?_⟩
        rintro (⟨-, hno⟩ | ⟨r', hr', h⟩)
        · exact absurd hknown hno
        · obtain rfl := Option.some_inj.mp hr'
          exact h
    · rw [messageActionRun_of_notMem hknown] at hskip
      rw [passActionRun, if_neg hknown] at hpass
      obtain ⟨t, ht, -⟩ := passTtl_eq_some flags (tlReadUint32 r).2
      refine iff_of_false ?_ (not_not.mpr (.inl ⟨by omega, hknown⟩))
      rw [bind_of_none hskip, bind_of_some hpass, ht]
      exact Option.some_ne_none _

theorem passService_eq_iff (hr : r.pos ≤ r.data.length) :
    passService r = skipServiceRun r ↔ ¬ ActionLost r := by
  rw [passService_eq hr, skipServiceRun_eq]
  cases hhead : serviceHead r with
  | none =>
    have hnot : ¬ ActionLost r := by
      rintro ⟨flags, r', h, -⟩
      rw [hhead] at h
      cases h
    exact iff_of_true (by rw [bind_of_none hhead, bind_of_none hhead]) hnot
  | some y =>
    obtain ⟨flags, r₁⟩ := y
    rw [bind_of_some hhead, bind_of_some hhead, passAction_eq_iff]
    refine not_congr ⟨fun h => ⟨flags, r₁, hhead, h⟩, ?_⟩
    rintro ⟨flags', r', h, hlost⟩
    rw [hhead] at h
    obtain ⟨rfl, rfl⟩ := Prod.mk.inj (Option.some_inj.mp h)
    exact hlost

/-! ## The four parsers -/

def cursor (x : Option Unit × Scan) : Option TlReader :=
  x.1.map fun _ => x.2.reader

structure Noted where
  id : Int32
  out : Bool
  date : Int64
  text : Bytes
  media : MediaKind
  mediaId : Int64
  deriving DecidableEq

def HistoryEntry.noted (e : HistoryEntry) : Noted :=
  ⟨e.id, e.out, e.date, e.text, e.media, e.mediaId⟩

/-- The four parsers agree at `p` in `b`. -/
def ParsersAgree (b : Bytes) (p : ℕ) : Prop :=
  let history := historyParseMessage ⟨⟨b, p⟩, .zero⟩
  let search := searchParseMessage ⟨⟨b, p⟩, .zero⟩
  let updates := parseMessage messageWalkers ⟨⟨b, p⟩, .zero⟩
  (cursor history = cursor search ∧ cursor search = cursor updates ∧
      cursor updates = tlSkipMessage.run ⟨b, p⟩) ∧
    history.2.entry.noted = search.2.entry.noted ∧ search.2.entry.noted = updates.2.entry.noted

theorem cursor_eq_of_alike {m m' : Prog Scan Unit}
    (h : Prog.Alike Scan.SameInside Scan.Same Scan.SameEntry m m') {s : Scan}
    (hs : s.reader.pos ≤ s.reader.data.length) :
    cursor (m s) = cursor (m' s) ∧ (m s).2.entry.noted = (m' s).2.entry.noted := by
  have hrel : s.SameInside s := ⟨⟨s.entry.peerId, s.entry.mediaInfo, rfl⟩, hs⟩
  obtain ⟨a, t, t', ht, ht', pid, info, rfl⟩ | ⟨t, t', ht, ht', pid, info, he⟩ := h.rel hrel
  · rw [ht, ht']
    exact ⟨rfl, rfl⟩
  · rw [ht, ht']
    refine ⟨rfl, ?_⟩
    rw [he]
    rfl

theorem advance_of_crc (h : (tlReadUint32 r).1 ≠ 0) :
    r.pos + 4 ≤ r.data.length ∧ (tlReadUint32 r).2 = r.advance 4 := by
  have h4 : r.pos + 4 ≤ r.data.length := by
    by_contra hlt
    refine h ?_
    show UInt32.ofNat (leNat (readFixed r 4).1) = 0
    rw [readFixed_of_lt (by omega)]
    rfl
  refine ⟨h4, ?_⟩
  show (readFixed r 4).2 = _
  rw [readFixed_of_le h4]

theorem parseMessageAs_of_crc (form : MessageForm) {s : Scan}
    (hcrc : crc = tlMessage ∨ crc = tlMessageService) (h : (tlReadUint32 s.reader).1 = crc) :
    parseMessageAs form messageWalkers s =
      parseBody form messageWalkers crc { s with reader := s.reader.advance 4 } := by
  have hne : (tlReadUint32 s.reader).1 ≠ 0 := by
    rw [h]
    rcases hcrc with rfl | rfl <;> decide
  obtain ⟨h4, hadv⟩ := advance_of_crc hne
  have hok : tlReaderOk s.reader = true :=
    decide_eq_true (by show s.reader.pos < s.reader.data.length; omega)
  have hask : (Prog.ask fun st : Scan => tlReaderOk st.reader) s = (some true, s) := by
    rw [← hok]
    rfl
  have hread : Scan.read tlReadUint32 s = (some crc, { s with reader := s.reader.advance 4 }) := by
    rw [← h, ← hadv]
    rfl
  rw [parseMessageAs, Prog.bind_of_some hask]
  show (Scan.read tlReadUint32 >>= fun crc => _) s = _
  rw [Prog.bind_of_some hread, parseConstructed, if_neg (by rcases hcrc with rfl | rfl <;> decide),
    if_neg (by rcases hcrc with rfl | rfl <;> decide)]

theorem cursor_of_follows {m : Prog Scan Unit} {w : Walk Unit} (h : Scan.Follows m w) (s : Scan) :
    cursor (m s) = (w s.reader).map Prod.snd := by
  rw [← h.eq s, cursor, Option.map_map]
  rfl

theorem skip_tlSkipMessage :
    skip tlSkipMessage.run =
      (enter 4 >>= fun _ => u32 >>= fun crc => messageRun crc) :=
  Skipper.skip_of _

theorem run_eq_map_skip (f : Skipper) (r : TlReader) :
    f.run r = (skip f.run r).map Prod.snd := by
  rw [skip, Option.map_map]
  exact Option.map_id'.symm

theorem tlSkipMessage_of_crc (hne : (tlReadUint32 r).1 ≠ 0) (h : (tlReadUint32 r).1 = crc) :
    tlSkipMessage.run r = (messageRun crc (r.advance 4)).map Prod.snd := by
  obtain ⟨h4, hadv⟩ := advance_of_crc hne
  have henter : enter 4 r = some ((), r) :=
    Guarded.enter_eq_some.mpr ⟨by omega, by omega, rfl⟩
  have hread : u32 r = some (crc, r.advance 4) := by
    rw [← h, ← hadv]
    rfl
  rw [run_eq_map_skip, skip_tlSkipMessage, bind_of_some henter, bind_of_some hread]

/-- The place where the parsers part, for a message and for a service message. -/
def ParsersPart (b : Bytes) (p : ℕ) : Prop :=
  (tlReadUint32 ⟨b, p⟩).1 = tlMessage ∧ TextMissing ⟨b, p + 4⟩ ∨
    (tlReadUint32 ⟨b, p⟩).1 = tlMessageService ∧ ActionLost ⟨b, p + 4⟩

theorem map_snd_inj {x y : Option (Unit × TlReader)} (h : x.map Prod.snd = y.map Prod.snd) :
    x = y :=
  Option.map_injective (fun _ _ h => Prod.ext rfl h) h

theorem cursor_search_eq_iff {b : Bytes} {p : ℕ}
    (hcrc : (tlReadUint32 ⟨b, p⟩).1 = tlMessage ∨ (tlReadUint32 ⟨b, p⟩).1 = tlMessageService) :
    cursor (searchParseMessage ⟨⟨b, p⟩, .zero⟩) = tlSkipMessage.run ⟨b, p⟩ ↔ ¬ ParsersPart b p := by
  have hne : (tlReadUint32 ⟨b, p⟩).1 ≠ 0 := by
    rcases hcrc with h | h <;> rw [h] <;> decide
  have hin : p + 4 ≤ b.length := (advance_of_crc hne).1
  rw [searchParseMessage, parseMessageAs_of_crc _ hcrc rfl, tlSkipMessage_of_crc hne rfl,
    ParsersPart]
  rcases hcrc with h | h
  · have hother : ¬ tlMessage = tlMessageService := by decide
    rw [h, messageRun_message, cursor_of_follows (follows_parseBody_message false)]
    simp only [hother, true_and, false_and, or_false]
    rw [← passMessage_eq_iff (r := ⟨b, p + 4⟩) hin]
    exact ⟨map_snd_inj, congrArg _⟩
  · have hother : ¬ tlMessageService = tlMessage := by decide
    rw [h, messageRun_service, cursor_of_follows (follows_parseBody_service false)]
    simp only [hother, true_and, false_and, false_or]
    rw [← passService_eq_iff (r := ⟨b, p + 4⟩) hin]
    exact ⟨map_snd_inj, congrArg _⟩

/-- **The four parsers of messages agree, except at two kinds of message.**  A `message` whose text
cannot be read and that has nothing behind it is accepted by three of them, and so is a
`messageService` whose action is unknown, or has reactions or a cut `ttl_period` behind it. -/
theorem parsersAgree_iff (b : Bytes) (p : ℕ)
    (hcrc : (tlReadUint32 ⟨b, p⟩).1 = tlMessage ∨ (tlReadUint32 ⟨b, p⟩).1 = tlMessageService) :
    ParsersAgree b p ↔ ¬ ParsersPart b p := by
  have hne : (tlReadUint32 ⟨b, p⟩).1 ≠ 0 := by
    rcases hcrc with h | h <;> rw [h] <;> decide
  have hin : p ≤ b.length := by
    have : p + 4 ≤ b.length := (advance_of_crc hne).1
    omega
  obtain ⟨hch, hnh⟩ := cursor_eq_of_alike
    (@parseMessageAs_alike ⟨Scan.skip tlSkipPeer, true⟩ peerAgrees_skip)
    (s := ⟨⟨b, p⟩, .zero⟩) hin
  obtain ⟨hcu, hnu⟩ := cursor_eq_of_alike
    (@parseMessageAs_alike ⟨readPeerId, false⟩ peerAgrees_readPeerId)
    (s := ⟨⟨b, p⟩, .zero⟩) hin
  rw [← cursor_search_eq_iff hcrc]
  constructor
  · intro h
    exact h.1.2.1.trans h.1.2.2
  · intro h
    exact ⟨⟨hch.symm, hcu, hcu.symm.trans h⟩, hnh.symm, hnu⟩

def plainMessage : Bytes :=
  tlWriteString (tlWriteInt32 (tlWriteInt64 (tlWriteUint32 (tlWriteInt32 (tlWriteUint32
    (tlWriteUint32 (tlWriteUint32 [] tlMessage) 0) 0) 7) tlPeerUser) 42) 100) (ascii "hi")

/-- On a plain message all four agree. -/
theorem parsersAgree_plainMessage :
    tlSkipMessage.run ⟨plainMessage, 0⟩ = some ⟨plainMessage, 36⟩ ∧
      ParsersAgree plainMessage 0 := by
  refine ⟨by decide +kernel, (parsersAgree_iff plainMessage 0 (.inl (by decide))).mpr ?_⟩
  rintro (⟨-, x, r', hhead, htext, -⟩ | ⟨h, -⟩)
  · have hrun : messageHead ⟨plainMessage, 4⟩ = some ((0, 0), ⟨plainMessage, 32⟩) := by
      decide +kernel
    rw [hrun] at hhead
    obtain ⟨-, rfl⟩ := Prod.mk.inj (Option.some_inj.mp hhead)
    exact absurd htext (by decide +kernel)
  · exact absurd h (by decide)

/-- A service message with `messageActionSetMessagesTTL#3c134d7b`, which neither side knows. -/
def ttlMessage : Bytes :=
  tlWriteInt32 (tlWriteUint32 (tlWriteInt32 (tlWriteInt64 (tlWriteUint32 (tlWriteInt32
    (tlWriteUint32 (tlWriteUint32 [] tlMessageService) 0) 7) tlPeerUser) 42) 100) 0x3c134d7b) 86400

/-- The parser of `history.c` accepts it, before the end of its action; `tl_skip_message` does not.
-/
theorem historyParseMessage_accepts_ttlMessage :
    cursor (historyParseMessage ⟨⟨ttlMessage, 0⟩, .zero⟩) = some ⟨ttlMessage, 32⟩ ∧
      ttlMessage.length = 36 ∧ tlSkipMessage.run ⟨ttlMessage, 0⟩ = none ∧
      ¬ ParsersAgree ttlMessage 0 := by
  have hhistory : cursor (historyParseMessage ⟨⟨ttlMessage, 0⟩, .zero⟩) =
      some ⟨ttlMessage, 32⟩ := by decide +kernel
  have hskip : tlSkipMessage.run ⟨ttlMessage, 0⟩ = none := by decide +kernel
  refine ⟨hhistory, by decide, hskip, fun h => ?_⟩
  have heq := h.1.1.trans (h.1.2.1.trans h.1.2.2)
  rw [hhistory, hskip] at heq
  cases heq

end TgCli.Domain
