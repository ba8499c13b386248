import TgCli.Domain.Updates

/-!
# The server's side of `updates.getDifference`

An account is a log of messages, each stored at a `pts` of its own, and the log only grows.  Asked
for the difference since a state, a server answers with the messages that are newer and the state
that covers them; or with the first of them and an intermediate state; or it says that there are
none, or that there are too many.

`Answer.bytes` lays an answer out as the schema has it, and the theorems say what
`domain_updates_difference` makes of it.  It gets the messages right
(`parseDifference_newMessages`).  The state it goes on with is `Answer.stateAfter`, in which the
state of the answer does not occur.
-/

namespace TgCli.Domain

open Option List Lib TgCli.Core

/-! ## Answers -/

structure TlState where
  pts : Int32
  qts : Int32
  date : Int32
  seq : Int32
  unreadCount : Int32
  deriving DecidableEq

def TlState.bytes (st : TlState) : Bytes :=
  u32Bytes tlUpdatesState ++ (u32Bytes st.pts.toUInt32 ++ (u32Bytes st.qts.toUInt32 ++
    (u32Bytes st.date.toUInt32 ++ (u32Bytes st.seq.toUInt32 ++
      u32Bytes st.unreadCount.toUInt32))))

def TlState.toState (st : TlState) : UpdatesState :=
  ⟨st.pts, st.qts, st.date.toInt64, st.seq, st.unreadCount⟩

/-- A message of the account: the `pts` it is stored at, and its TL object. -/
structure Message where
  pts : Int32
  body : Bytes
  deriving DecidableEq

def vectorBytes (objects : List Bytes) : Bytes :=
  u32Bytes tlVector ++ (u32Bytes (UInt32.ofNat objects.length) ++ objects.flatten)

/-- The fields of `updates.difference` and of `updates.differenceSlice`, where the state is called
`intermediate_state`. -/
structure Difference where
  newMessages : List Message
  newEncryptedMessages : List Bytes
  otherUpdates : List Bytes
  chats : List Bytes
  users : List Bytes
  state : TlState
  deriving DecidableEq

def Difference.tailBytes (d : Difference) : Bytes :=
  vectorBytes d.newEncryptedMessages ++ (vectorBytes d.otherUpdates ++ (vectorBytes d.chats ++
    (vectorBytes d.users ++ d.state.bytes)))

def Difference.bytes (d : Difference) : Bytes :=
  vectorBytes (d.newMessages.map Message.body) ++ d.tailBytes

inductive Answer where
  | empty (date seq : Int32)
  | tooLong (pts : Int32)
  | difference (d : Difference)
  | slice (d : Difference)
  deriving DecidableEq

namespace Answer

def bytes : Answer → Bytes
  | empty date seq =>
    u32Bytes tlUpdatesDifferenceEmpty ++ (u32Bytes date.toUInt32 ++ u32Bytes seq.toUInt32)
  | tooLong pts => u32Bytes crcUpdatesDifferenceTooLong ++ u32Bytes pts.toUInt32
  | difference d => u32Bytes tlUpdatesDifference ++ d.bytes
  | slice d => u32Bytes tlUpdatesDifferenceSlice ++ d.bytes

def report : Answer → Option Difference
  | difference d => some d
  | slice d => some d
  | _ => none

/-- The state that `domain_updates_difference` returns for an answer. -/
def stateAfter (st : UpdatesState) : Answer → UpdatesState
  | empty date seq => { st with date := date.toInt64, seq }
  | tooLong pts => { st with pts }
  | _ => st

theorem stateAfter_of_report {a : Answer} {d : Difference} (h : a.report = some d)
    (st : UpdatesState) : a.stateAfter st = st := by
  cases a with
  | empty => exact absurd h (some_ne_none d).symm
  | tooLong => exact absurd h (some_ne_none d).symm
  | difference => rfl
  | slice => rfl

end Answer

/-! ## An honest server -/

def newer (log : List Message) (st : UpdatesState) : List Message :=
  log.filter fun m => st.pts < m.pts

/-- The answers that a server with this log may give for a state. -/
def Honest (log : List Message) (st : UpdatesState) : Answer → Prop
  | .empty _ _ => newer log st = []
  | .tooLong pts => ∀ m ∈ log, m.pts ≤ pts
  | .difference d => d.newMessages = newer log st ∧ ∀ m ∈ log, m.pts ≤ d.state.pts
  | .slice d =>
    ∃ later, newer log st = d.newMessages ++ later ∧ d.newMessages ≠ [] ∧
      (∀ m ∈ d.newMessages, m.pts ≤ d.state.pts) ∧ ∀ m ∈ later, d.state.pts < m.pts

section Honest

variable {log : List Message} {st : UpdatesState} {a : Answer} {d : Difference}

/-- What the two kinds of report have in common: a first part of the newer messages, empty only if
there are none, and a state that covers it. -/
theorem Honest.report_spec (h : Honest log st a) (hd : a.report = some d) :
    (∃ later, newer log st = d.newMessages ++ later) ∧
      (d.newMessages = [] → newer log st = []) ∧ ∀ m ∈ d.newMessages, m.pts ≤ d.state.pts := by
  cases a with
  | empty => exact absurd hd (some_ne_none d).symm
  | tooLong => exact absurd hd (some_ne_none d).symm
  | difference d' =>
    obtain rfl : d' = d := some_inj.mp hd
    obtain ⟨hnew, hcover⟩ := h
    refine ⟨⟨[], by rw [append_nil, hnew]⟩, fun hnil => hnew ▸ hnil, fun m hm => ?_⟩
    rw [hnew] at hm
    exact hcover m (mem_filter.mp hm).1
  | slice d' =>
    obtain rfl : d' = d := some_inj.mp hd
    obtain ⟨later, hnew, hne, hcover, -⟩ := h
    exact ⟨⟨later, hnew⟩, fun hnil => absurd hnil hne, hcover⟩

/-- **The state of an answer covers the messages of the answer.** -/
theorem Honest.covers (h : Honest log st a) (hd : a.report = some d) :
    ∀ m ∈ d.newMessages, m.pts ≤ d.state.pts :=
  (h.report_spec hd).2.2

theorem Honest.pts_lt (h : Honest log st a) (hd : a.report = some d) :
    ∀ m ∈ d.newMessages, st.pts < m.pts := by
  intro m hm
  obtain ⟨⟨later, hnew⟩, -, -⟩ := h.report_spec hd
  have hmem : m ∈ newer log st := by
    rw [hnew]
    exact mem_append_left _ hm
  exact of_decide_eq_true (mem_filter.mp hmem).2

theorem Honest.newMessages_eq_nil (h : Honest log st a) (hd : a.report = some d)
    (hst : d.state.pts = st.pts) : d.newMessages = [] := by
  refine eq_nil_iff_forall_not_mem.mpr fun m hm => ?_
  have hlt := h.pts_lt hd m hm
  have hle := h.covers hd m hm
  rw [hst] at hle
  exact absurd hlt (Int32.not_lt.mpr hle)

end Honest

/-! ## What the client reads -/

section Read

variable (w : MessageWalkers)

/-- `parse_message` takes a message for `e`, whatever follows it, and `e` is kept. -/
def Understood (m : Message) (e : HistoryEntry) : Prop :=
  e.isKept ∧ ∀ r t, r.rest = m.body ++ t →
    ∃ r', parseMessage w ⟨r, .zero⟩ = (some (), ⟨r', e⟩) ∧ r'.rest = t

variable {w}

/-- **The loop over `new_messages` reads every message, up to the room it has.** -/
theorem messageLoop_eq_take {ms : List Message} {es : List HistoryEntry}
    (h : List.Forall₂ (Understood w) ms es) (room : ℕ) {r : TlReader} {t : Bytes}
    (hr : r.rest = (ms.map Message.body).flatten ++ t) :
    messageLoop (parseMessage w) ms.length room r = es.take room := by
  induction h generalizing room r with
  | nil => rw [take_nil, length_nil, messageLoop]
  | @cons m e ms es hm _ ih =>
    cases room with
    | zero => rfl
    | succ room =>
      rw [map_cons, flatten_cons, append_assoc] at hr
      obtain ⟨r', hparse, hrest⟩ := hm.2 r _ hr
      rw [length_cons, messageLoop, hparse]
      dsimp only [isNone_some]
      rw [if_pos hm.1, if_neg Bool.false_ne_true, ih room hrest, take_succ_cons]

variable (w) in
theorem parseDifference_report (st : UpdatesState) {a : Answer} {d : Difference}
    (hd : a.report = some d) :
    ∃ r : TlReader, r.rest = (d.newMessages.map Message.body).flatten ++ d.tailBytes ∧
      parseDifference w st a.bytes =
        some ⟨messageLoop (parseMessage w) (UInt32.ofNat d.newMessages.length).toNat
          updatesMaxMessages r, st, false, false⟩ := by
  obtain ⟨crc, hcrc, hbytes⟩ : ∃ crc, (crc = tlUpdatesDifference ∨ crc = tlUpdatesDifferenceSlice) ∧
      a.bytes = u32Bytes crc ++ d.bytes := by
    cases a with
    | empty => exact absurd hd (some_ne_none d).symm
    | tooLong => exact absurd hd (some_ne_none d).symm
    | difference d' => exact ⟨_, .inl rfl, by rw [← some_inj.mp hd]; rfl⟩
    | slice d' => exact ⟨_, .inr rfl, by rw [← some_inj.mp hd]; rfl⟩
  obtain ⟨h1, hr1⟩ := tlReadUint32_of_rest (r := tlReaderInit a.bytes) hbytes
  have hvec : (tlReadUint32 (tlReaderInit a.bytes)).2.rest =
      u32Bytes tlVector ++ (u32Bytes (UInt32.ofNat d.newMessages.length) ++
        ((d.newMessages.map Message.body).flatten ++ d.tailBytes)) := by
    rw [hr1, Difference.bytes, vectorBytes, length_map]
    simp only [append_assoc]
  obtain ⟨h2, hr2⟩ := tlReadUint32_of_rest hvec
  obtain ⟨h3, hr3⟩ := tlReadUint32_of_rest hr2
  refine ⟨_, hr3, ?_⟩
  rw [parseDifference, h1]
  dsimp only
  rw [h2, h3]
  rcases hcrc with rfl | rfl
  · rfl
  · rfl

/-- **The messages of an answer are read**, the first 32 of them. -/
theorem parseDifference_newMessages (st : UpdatesState) {a : Answer} {d : Difference}
    (hd : a.report = some d) {es : List HistoryEntry}
    (hes : List.Forall₂ (Understood w) d.newMessages es) (hlen : d.newMessages.length < 2 ^ 32) :
    parseDifference w st a.bytes = some ⟨es.take updatesMaxMessages, st, false, false⟩ := by
  obtain ⟨r, hr, hparse⟩ := parseDifference_report w st hd
  rw [hparse, UInt32.toNat_ofNat_of_lt' hlen, messageLoop_eq_take hes _ hr]

theorem parseDifference_of_report_eq_none (st : UpdatesState) {a : Answer} (ha : a.report = none) :
    ∃ diff, parseDifference w st a.bytes = some diff ∧ diff.newMessages = [] ∧
      diff.nextState = a.stateAfter st := by
  cases a with
  | empty date seq =>
    obtain ⟨h1, hr1⟩ := tlReadUint32_of_rest (r := tlReaderInit (Answer.empty date seq).bytes) rfl
    obtain ⟨h2, hr2⟩ := tlReadInt32_of_rest hr1
    obtain ⟨h3, -⟩ := tlReadInt32_of_rest (t := []) (by rw [hr2, append_nil])
    rw [parseDifference, h1, if_pos rfl]
    dsimp only
    rw [h2, h3]
    exact ⟨_, rfl, rfl, rfl⟩
  | tooLong pts =>
    obtain ⟨h1, hr1⟩ := tlReadUint32_of_rest (r := tlReaderInit (Answer.tooLong pts).bytes) rfl
    obtain ⟨h2, -⟩ := tlReadInt32_of_rest (t := []) (by rw [hr1, append_nil])
    rw [parseDifference, h1, if_neg (by decide), if_pos rfl]
    dsimp only
    rw [h2]
    exact ⟨_, rfl, rfl, rfl⟩
  | difference d => exact absurd ha (some_ne_none d)
  | slice d => exact absurd ha (some_ne_none d)

variable (w) in
/-- **The state that comes out** is `stateAfter`, for every answer. -/
theorem nextState_parseDifference (st : UpdatesState) (a : Answer) :
    (parseDifference w st a.bytes).map UpdatesDifference.nextState = some (a.stateAfter st) := by
  rcases hd : a.report with _ | d
  · obtain ⟨diff, hparse, -, hnext⟩ := parseDifference_of_report_eq_none (w := w) st hd
    rw [hparse, map_some, hnext]
  · obtain ⟨r, -, hparse⟩ := parseDifference_report w st hd
    rw [hparse, a.stateAfter_of_report hd]
    rfl

end Read

end TgCli.Domain
